import ScriptLang.Proofs.LineReading
import ScriptLang.Proofs.Serving

/-!
# Requests and what answers them

Each line of text that is not blank is a request: a command, or something that is refused.  An answer
to a request is one response, and before it go no frames but messages, printed texts and warnings;
a request that is not about a program has a response of its own and causes none of them (`Answers`).
A backend that takes one line after the other answers every request up to the first `goodbye`
(`Connection.serve_answers`).
-/

namespace ScriptLang.Backend

open Wire
open Exchange (answerTo nextLine?)

/-! ### Requests -/

/-- What arrives on a line: a command, or what is wrong with the line. -/
abbrev Request := Except ProtocolError Command

/-- The request that an arrival is. -/
def requestOf : Arrival → Request
  | .ok (.command c) => .ok c
  | .ok f => .error (.unexpected "a command" f.describe)
  | .error e => .error e

/-- Whether a line of text may arrive so. -/
def IsLine : Arrival → Prop
  | .ok _ => True
  | .error e => ∃ m, e = .malformed m

/-- The command that a request is, of a kind that is understood, or what it is refused for. -/
def understood : Request → Except ProtocolError (CommandKind × Command)
  | .error e => .error e
  | .ok command => command.kind.map fun kind => (kind, command)

/-- Whether nothing is served after a request. -/
def isLast (r : Request) : Bool :=
  match understood r with
  | .ok (.goodbye, _) => true
  | _ => false

/-- The requests that are served: those up to the first `goodbye`. -/
def served : List Request → List Request
  | [] => []
  | r :: rest => if isLast r then [r] else r :: served rest

theorem served_append_last {r : Request} (last : isLast r = true) (later : List Request) :
    ∀ {rs : List Request}, (∀ r ∈ rs, isLast r = false) → served (rs ++ r :: later) = rs ++ [r]
  | [], _ => by rw [List.nil_append, served, if_pos last, List.nil_append]
  | first :: rs, h => by
    obtain ⟨hfirst, hrs⟩ := List.forall_mem_cons.1 h
    rw [List.cons_append, served, hfirst, if_neg Bool.false_ne_true,
      served_append_last last later hrs, List.cons_append]

theorem served_of_none_last : ∀ {rs : List Request}, (∀ r ∈ rs, isLast r = false) → served rs = rs
  | [], _ => rfl
  | r :: rs, h => by
    obtain ⟨hr, hrs⟩ := List.forall_mem_cons.1 h
    rw [served, hr, if_neg Bool.false_ne_true, served_of_none_last hrs]

/-! ### Answers -/

/-- Whether a frame tells something on the way to a response. -/
def isNote : Wire.Frame → Bool
  | .event _ | .output _ | .warning _ => true
  | .command _ | .response _ => false

/-- What a command that is not about a program is answered with. -/
def ownReply? (kind : CommandKind) (command : Command) : Option (Except Failure Reply) :=
  match kind with
  | .hello => some (.ok (.hello protocolVersion))
  | .break => some (match breakpointLine? command.arguments with
    | none => .error (.ofError
      (.invalidArguments command.command "expected a line number, as 'line=<n>'"))
    | some line => .ok (.breakpoint line))
  | .goodbye => some (.ok .goodbye)
  | _ => none

/-- The response to a request that is not about a program. -/
def ownResponse? (r : Request) : Option Response :=
  match understood r with
  | .error e => some (.error (.ofError e))
  | .ok (kind, command) => (ownReply? kind command).map responseOf

/-- Some frames answer a request: notes and one response.  A request that is not about a program causes
no notes, and its response is its own. -/
def Answers (r : Request) (frames : List Wire.Frame) : Prop :=
  ∃ notes response, frames = notes ++ [.response response] ∧ (∀ f ∈ notes, isNote f = true) ∧
    ∀ own, ownResponse? r = some own → notes = [] ∧ response = own

theorem understood_cases (r : Request) :
    (∃ e, understood r = .error e) ∨ ∃ kind command, understood r = .ok (kind, command) := by
  cases understood r with
  | error e => exact .inl ⟨e, rfl⟩
  | ok c => exact .inr ⟨c.1, c.2, rfl⟩

theorem ownResponse?_of_understood {r : Request} {kind : CommandKind} {command : Command}
    (h : understood r = .ok (kind, command)) :
    ownResponse? r = (ownReply? kind command).map responseOf := by
  unfold ownResponse?
  rw [h]

theorem ownResponse?_of_refused {r : Request} {e : ProtocolError} (h : understood r = .error e) :
    ownResponse? r = some (.error (.ofError e)) := by
  unfold ownResponse?
  rw [h]

/-- A `goodbye` is not about a program. -/
theorem isLast_of_ownResponse? {r : Request} (h : ownResponse? r = none) : isLast r = false := by
  unfold ownResponse? at h
  unfold isLast
  obtain ⟨e, hr⟩ | ⟨kind, command, hr⟩ := understood_cases r
  · rw [hr]
  · rw [hr] at h ⊢
    cases kind with
    | goodbye => cases h
    | _ => rfl

theorem answers_own {r : Request} {own : Response} (h : ownResponse? r = some own) :
    Answers r [.response own] :=
  ⟨[], own, rfl, nofun, fun _ h' => ⟨rfl, Option.some.inj (h.symm.trans h')⟩⟩

theorem answers_notes {r : Request} (h : ownResponse? r = none) {notes : List Wire.Frame}
    (clean : ∀ f ∈ notes, isNote f = true) (response : Response) :
    Answers r (notes ++ [.response response]) :=
  ⟨notes, response, rfl, clean, fun _ h' => absurd (h.symm.trans h') nofun⟩

theorem isNote_of_mem_nil : ∀ f ∈ ([] : List Wire.Frame), isNote f = true :=
  fun _ hf => absurd hf List.not_mem_nil

theorem isNote_of_mem_map_frameOf {sent : List Machine.Emission} :
    ∀ f ∈ sent.map frameOf, isNote f = true := by
  intro f hf
  obtain ⟨e, -, rfl⟩ := List.mem_map.1 hf
  cases e <;> rfl

theorem isNote_of_mem_warnings {c : Connection} {command : Command} :
    ∀ f ∈ Exchange.warnings c command, isNote f = true := by
  intro f hf
  obtain ⟨e, -, rfl⟩ := List.mem_map.1 hf
  rfl

theorem isNote_of_mem_append {us vs : List Wire.Frame} (hu : ∀ f ∈ us, isNote f = true)
    (hv : ∀ f ∈ vs, isNote f = true) : ∀ f ∈ us ++ vs, isNote f = true := by
  intro f hf
  exact (List.mem_append.1 hf).elim (hu f) (hv f)

/-! ### A backend that takes one line after the other -/

namespace Connection

variable {c : Connection} {r : Request}

theorem answerTo_eq (c : Connection) (r : Request) : answerTo c r =
    match understood r with
    | .error e => c.reply (.error (.ofError e))
    | .ok (kind, command) => c.perform kind command := by
  cases r with
  | error e => rfl
  | ok command =>
    unfold answerTo handle understood
    dsimp only
    cases command.kind <;> rfl

/-- A request that is not about a program gets its own response. -/
theorem answerTo_own {own : Response} (h : ownResponse? r = some own) (open_ : c.closed = false) :
    ∃ connection, answerTo c r = { connection, response := own } ∧
      connection.closed = isLast r := by
  rw [answerTo_eq]
  unfold isLast
  obtain ⟨e, hr⟩ | ⟨kind, command, hr⟩ := understood_cases r
  · rw [ownResponse?_of_refused hr] at h
    rw [hr]
    cases h
    exact ⟨c, rfl, open_⟩
  · rw [ownResponse?_of_understood hr] at h
    rw [hr]
    cases kind with
    | hello =>
      cases h
      exact ⟨c, rfl, open_⟩
    | «break» =>
      cases h
      dsimp only
      unfold perform addBreakpoint
      dsimp only
      cases breakpointLine? command.arguments with
      | none => exact ⟨c, rfl, open_⟩
      | some line => exact ⟨_, rfl, open_⟩
    | goodbye =>
      cases h
      exact ⟨_, rfl, rfl⟩
    | _ => cases h

theorem answers_replyAfter {α : Type} (h : ownResponse? r = none) (before : Nat)
    (a : Session.Answer α) (reply : α → Session → Except Failure Reply) :
    Answers r (c.replyAfter before a reply).written :=
  answers_notes h isNote_of_mem_map_frameOf _

theorem answers_resume (h : ownResponse? r = none) (mode : Machine.Mode) :
    Answers r (c.resume mode).written ∧ (c.resume mode).connection.closed = c.closed := by
  unfold resume
  cases c.session with
  | none => exact ⟨answers_notes h isNote_of_mem_nil _, rfl⟩
  | some s => exact ⟨answers_replyAfter h _ _ _, rfl⟩

theorem answers_stop (h : ownResponse? r = none) :
    Answers r c.stop.written ∧ c.stop.connection.closed = c.closed := by
  unfold stop
  split
  · exact ⟨answers_notes h isNote_of_mem_nil _, rfl⟩
  · dsimp only
    split
    · exact answers_resume h _
    · exact ⟨answers_notes h isNote_of_mem_nil _, rfl⟩

theorem answers_start (h : ownResponse? r = none) (kind : CommandKind) (command : Command) :
    Answers r (c.start kind command).written ∧
      (c.start kind command).connection.closed = c.closed := by
  obtain ⟨s, hload⟩ := Exchange.load_begin c command
  have loaded : ∃ sent : List Machine.Emission,
      (Exchange.loaded c kind s).frames = sent.map frameOf ∧
        (Exchange.loaded c kind s).connection.closed = c.closed := by
    cases kind <;> exact ⟨_, rfl, rfl⟩
  obtain ⟨sent, frames, closed⟩ := loaded
  rw [Exchange.start_of_load hload, frames]
  exact ⟨answers_notes h (isNote_of_mem_append isNote_of_mem_warnings isNote_of_mem_map_frameOf) _,
    closed⟩

/-- Every request is answered, and only the answer to `goodbye` is the last. -/
theorem answers_answerTo (open_ : c.closed = false) (r : Request) :
    Answers r (answerTo c r).written ∧ (answerTo c r).connection.closed = isLast r := by
  cases hown : ownResponse? r with
  | some own =>
    obtain ⟨connection, hanswer, closed⟩ := answerTo_own hown open_
    rw [hanswer]
    exact ⟨answers_own hown, closed⟩
  | none =>
    rw [isLast_of_ownResponse? hown, ← open_]
    obtain ⟨e, hr⟩ | ⟨kind, command, hr⟩ := understood_cases r
    · exact absurd ((ownResponse?_of_refused hr).symm.trans hown) nofun
    · have own := (ownResponse?_of_understood hr).symm.trans hown
      rw [answerTo_eq, hr]
      cases kind with
      | hello => cases own
      | «break» => cases own
      | goodbye => cases own
      | compile => exact answers_start hown _ _
      | run => exact answers_start hown _ _
      | debug => exact answers_start hown _ _
      | step => exact answers_resume hown _
      | stepOver => exact answers_resume hown _
      | runToReturn => exact answers_resume hown _
      | «continue» => exact answers_resume hown _
      | stop => exact answers_stop hown

/-- A line of text is a request, which is answered. -/
theorem take_of_isLine {a : Arrival} (line : IsLine a) :
    c.take a = some (answerTo c (requestOf a)) := by
  cases a with
  | ok f => cases f <;> rfl
  | error e =>
    obtain ⟨m, rfl⟩ := line
    rfl

/-- A backend that takes one line after the other answers the requests up to the first `goodbye`. -/
theorem serve_answers : ∀ {arrivals : List Arrival} {c : Connection}, c.closed = false →
    (∀ a ∈ arrivals, IsLine a) → ∃ blocks,
      List.Forall₂ Answers (served (arrivals.map requestOf)) blocks ∧
        (c.serve arrivals).1 = blocks.flatten
  | [], c, _, _ => ⟨[], .nil, rfl⟩
  | a :: arrivals, c, open_, lines => by
    obtain ⟨line, lines⟩ := List.forall_mem_cons.1 lines
    obtain ⟨answered, closed⟩ := answers_answerTo open_ (requestOf a)
    rw [serve, if_neg (by rw [open_]; exact Bool.false_ne_true), take_of_isLine line,
      List.map_cons, served]
    cases last : isLast (requestOf a) with
    | true =>
      rw [last] at closed
      refine ⟨[_], .cons answered .nil, ?_⟩
      cases arrivals with
      | nil => exact congrArg _ List.flatten_nil.symm
      | cons b arrivals =>
        dsimp only
        rw [serve, if_pos closed, List.flatten_singleton]
        exact List.append_nil _
    | false =>
      rw [last] at closed
      obtain ⟨blocks, answers, frames⟩ := serve_answers closed lines
      refine ⟨_ :: blocks, .cons answered answers, ?_⟩
      rw [List.flatten_cons, ← frames]

end Connection

end ScriptLang.Backend
