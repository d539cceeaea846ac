import ScriptLang.Proofs.AnsweredRequests
import ScriptLang.Proofs.TwinSessions

/-!
# A new program starts fresh

A connection keeps the settings that it was opened with and a list of breakpoints; everything else that
earlier programs have left is their own session, which the next program replaces.  So from the command
on that starts a program, a connection with any history writes what a new one writes on which only the
breakpoints of that history were set (`starts_fresh`), whatever the two actors do meanwhile.
-/

namespace ScriptLang.Backend

open Wire
open Exchange (answerTo nextLine?)

/-! ### Connections that are alike -/

/-- Two connections that differ at most in their programs and in the file trees of their hosts. -/
def Level (c d : Connection) : Prop :=
  ∃ files session, d = { c with host := { c.host with files }, session }

/-- Two connections with programs that are alike. -/
structure Connection.Twin (c d : Connection) : Prop where
  level : Level c d
  sessions : Option.Rel Session.Twin c.session d.session

/-- Two answers that are the same, on connections that stay alike. -/
structure TwinAnswer (a b : Answer) : Prop where
  frames : b.frames = a.frames
  response : b.response = a.response
  alike : a.connection.Twin b.connection

theorem TwinAnswer.written {a b : Answer} (h : TwinAnswer a b) : b.written = a.written := by
  unfold Answer.written
  rw [h.frames, h.response]

section

variable {c d : Connection} {s t : Session}

theorem Level.config (h : Level c d) : d.config = c.config := by
  obtain ⟨files, session, rfl⟩ := h
  rfl

theorem Level.breakpoints (h : Level c d) : d.breakpoints = c.breakpoints := by
  obtain ⟨files, session, rfl⟩ := h
  rfl

theorem Level.closed (h : Level c d) : d.closed = c.closed := by
  obtain ⟨files, session, rfl⟩ := h
  rfl

theorem Level.withSession (h : Level c d) (hs : Session.Twin s t) :
    Connection.Twin { c with session := some s } { d with session := some t } := by
  obtain ⟨files, session, rfl⟩ := h
  exact ⟨⟨files, some t, rfl⟩, .some hs⟩

theorem Level.replyAfter {α : Type} (h : Level c d) (before : Nat) {a b : Session.Answer α}
    (same : Session.TwinAnswers a b) (reply : α → Session → Except Failure Reply)
    (hreply : ∀ r, reply r b.2 = reply r a.2) :
    TwinAnswer (c.replyAfter before a reply) (d.replyAfter before b reply) := by
  obtain ⟨r, s⟩ := a
  obtain ⟨r', t⟩ := b
  obtain ⟨rfl, alike⟩ := same
  obtain ⟨files, session, rfl⟩ := h
  refine ⟨?_, ?_, ⟨t.files, some t, ?_⟩, .some alike⟩
  · exact congrArg (fun sent : Array Machine.Emission => (sent.toList.drop before).map frameOf)
      alike.sent
  · unfold Connection.replyAfter
    cases r' with
    | ok v => exact congrArg responseOf (hreply v)
    | error e => rfl
  · unfold Connection.replyAfter
    dsimp only
    rw [alike.bridge]

theorem Level.outcome (h : Level c d) (before : Nat) (hs : Session.Twin s t)
    (r : Except Session.SessionError Machine.Outcome) :
    TwinAnswer (c.replyAfter before (r, s) fun o _ => replyOf o)
      (d.replyAfter before (r, t) fun o _ => replyOf o) := by
  have same : Session.TwinAnswers (r, s) (r, t) := ⟨rfl, hs⟩
  exact h.replyAfter before same _ fun _ => rfl

theorem Level.withSessions (h : Level c d) (s t : Option Session) :
    Level { c with session := s } { d with session := t } := by
  obtain ⟨files, session, rfl⟩ := h
  exact ⟨files, t, rfl⟩

namespace Connection

theorem Twin.reply (h : Twin c d) (r : Except Failure Reply) :
    TwinAnswer (c.reply r) (d.reply r) :=
  ⟨rfl, rfl, h⟩

/-! ### New programs -/

theorem addBreakpoints_twin : ∀ (lines : List Nat) {s t : Session}, Session.Twin s t →
    Session.Twin (lines.foldl Session.addBreakpoint s) (lines.foldl Session.addBreakpoint t)
  | [], _, _, h => h
  | line :: lines, _, _, h => addBreakpoints_twin lines (h.addBreakpoint line)

/-- The session of a new program has nothing of the program before. -/
theorem begin_twin (h : Level c d) (config : Config) :
    Session.Twin (c.begin config) (d.begin config) := by
  obtain ⟨files, session, rfl⟩ := h
  exact addBreakpoints_twin c.breakpoints ⟨nofun, files, #[], rfl⟩

theorem load_twin (h : Session.Twin s t) (name text : String) :
    Session.TwinAnswers (s.load (.text name text)) (t.load (.text name text)) := by
  obtain ⟨files, log, rfl⟩ := h.same
  unfold Session.load
  dsimp only
  split
  · exact ⟨rfl, nofun, files, log, rfl⟩
  · exact ⟨rfl, h⟩

theorem loaded_twin (h : Level c d) (hs : Session.Twin s t) (kind : CommandKind) :
    TwinAnswer (Exchange.loaded c kind s) (Exchange.loaded d kind t) := by
  have starts (kind : CommandKind) :
      Session.TwinAnswers (Exchange.startedAs kind s) (Exchange.startedAs kind t) := by
    unfold Exchange.startedAs
    split
    · exact Session.run_twin hs
    · exact Session.debug_twin hs
  have runs (kind : CommandKind) :
      TwinAnswer (c.replyAfter 0 (Exchange.startedAs kind s) fun o _ => replyOf o)
        (d.replyAfter 0 (Exchange.startedAs kind t) fun o _ => replyOf o) :=
    h.replyAfter 0 (starts kind) _ fun _ => rfl
  cases kind with
  | compile =>
    have compiled := Session.compile_twin hs
    exact h.replyAfter 0 compiled (fun _ s => .ok (.compiled s.stage)) fun _ =>
      congrArg (fun stage => Except.ok (Reply.compiled stage)) compiled.alike.stage
  | _ =>
    unfold Exchange.loaded
    exact runs _

/-- The sessions into which two connections load the text of a command. -/
theorem loads_twin (h : Level c d) (command : Command) : ∃ s t, Session.Twin s t ∧
    (c.begin (c.config.withOptions (splitArguments command.arguments).2).1).load
      (.text (splitArguments command.arguments).1 command.payload) = (.ok (), s) ∧
    (d.begin (d.config.withOptions (splitArguments command.arguments).2).1).load
      (.text (splitArguments command.arguments).1 command.payload) = (.ok (), t) := by
  obtain ⟨s, hs⟩ := Exchange.load_begin c command
  obtain ⟨t, ht⟩ := Exchange.load_begin d command
  have loaded := load_twin (begin_twin h (c.config.withOptions
    (splitArguments command.arguments).2).1) (splitArguments command.arguments).1 command.payload
  rw [hs, ← h.config, ht] at loaded
  exact ⟨s, t, loaded.alike, hs, ht⟩

theorem warnings_level (h : Level c d) (command : Command) :
    Exchange.warnings d command = Exchange.warnings c command := by
  unfold Exchange.warnings
  rw [h.config]

/-- What a program does that is started does not depend on the program before. -/
theorem start_twin (h : Level c d) (kind : CommandKind) (command : Command) :
    TwinAnswer (c.start kind command) (d.start kind command) := by
  obtain ⟨s, t, alike, hs, ht⟩ := loads_twin h command
  have loaded := loaded_twin h alike kind
  rw [Exchange.start_of_load hs, Exchange.start_of_load ht]
  exact ⟨by rw [loaded.frames, warnings_level h], loaded.response, loaded.alike⟩

/-! ### Other commands -/

theorem Twin.resume (h : Twin c d) (mode : Machine.Mode) :
    TwinAnswer (c.resume mode) (d.resume mode) := by
  have sessions := h.sessions
  unfold Connection.resume
  generalize c.session = s at sessions
  generalize d.session = t at sessions
  cases sessions with
  | none => exact h.reply _
  | some alike =>
    dsimp only
    rw [alike.sent]
    exact h.level.replyAfter _ (Session.resume_twin alike mode) _ fun _ => rfl

theorem Twin.mapSession (h : Twin c d) {f : Session → Session}
    (hf : ∀ {s t}, Session.Twin s t → Session.Twin (f s) (f t)) :
    Twin { c with session := c.session.map f } { d with session := d.session.map f } := by
  obtain ⟨⟨files, session, rfl⟩, sessions⟩ := h
  refine ⟨⟨files, session.map f, rfl⟩, ?_⟩
  dsimp only at sessions ⊢
  generalize c.session = s at sessions
  cases sessions with
  | none => exact .none
  | some alike => exact .some (hf alike)

theorem Twin.withBreakpoints (h : Twin c d) (breakpoints : List Nat) :
    Twin { c with breakpoints } { d with breakpoints } := by
  obtain ⟨⟨files, session, rfl⟩, sessions⟩ := h
  exact ⟨⟨files, session, rfl⟩, sessions⟩

theorem Twin.close (h : Twin c d) : Twin { c with closed := true } { d with closed := true } := by
  obtain ⟨⟨files, session, rfl⟩, sessions⟩ := h
  exact ⟨⟨files, session, rfl⟩, sessions⟩

theorem Twin.addBreakpoint (h : Twin c d) (command : Command) :
    TwinAnswer (c.addBreakpoint command) (d.addBreakpoint command) := by
  unfold Connection.addBreakpoint
  cases breakpointLine? command.arguments with
  | none => exact h.reply _
  | some line =>
    have set := h.mapSession (f := fun s => s.addBreakpoint line) fun alike =>
      alike.addBreakpoint line
    dsimp only
    rw [h.level.breakpoints]
    exact (set.withBreakpoints _).reply _

theorem Twin.stop (h : Twin c d) : TwinAnswer c.stop d.stop := by
  have told := h.mapSession (f := fun s => s.requestStop true) fun alike => alike.requestStop true
  have sessions := told.sessions
  unfold Connection.stop
  dsimp only at sessions ⊢
  generalize c.session.map (fun s => s.requestStop true) = s at told sessions ⊢
  generalize d.session.map (fun s => s.requestStop true) = t at told sessions ⊢
  cases sessions with
  | none => exact h.reply _
  | some alike =>
    dsimp only
    rw [alike.isSuspended]
    split
    · exact told.resume .run
    · exact told.reply _

theorem Twin.perform (h : Twin c d) (kind : CommandKind) (command : Command) :
    TwinAnswer (c.perform kind command) (d.perform kind command) := by
  cases kind with
  | hello => exact h.reply _
  | compile => exact start_twin h.level .compile command
  | run => exact start_twin h.level .run command
  | debug => exact start_twin h.level .debug command
  | step => exact h.resume _
  | stepOver => exact h.resume _
  | runToReturn => exact h.resume _
  | «continue» => exact h.resume _
  | «break» => exact h.addBreakpoint command
  | stop => exact h.stop
  | goodbye => exact h.close.reply _

theorem Twin.answerTo (h : Twin c d) (r : Request) :
    TwinAnswer (Exchange.answerTo c r) (Exchange.answerTo d r) := by
  rw [answerTo_eq, answerTo_eq]
  cases understood r with
  | error e => exact h.reply _
  | ok request => exact h.perform request.1 request.2

/-- What is no line of text ends the connection, for both actors. -/
theorem take_of_not_isLine {a : Arrival} (ends : ¬ IsLine a) :
    (∀ c : Connection, c.take a = none) ∧ ∀ rest, nextLine? (a :: rest) = none := by
  cases a with
  | ok f => exact absurd trivial ends
  | error e =>
    cases e with
    | malformed m => exact absurd ⟨m, rfl⟩ ends
    | _ => exact ⟨fun _ => rfl, fun _ => rfl⟩

/-- Connections that are alike serve whatever arrives alike. -/
theorem Twin.serve : ∀ (arrivals : List Arrival) {c d : Connection}, Twin c d →
    (d.serve arrivals).1 = (c.serve arrivals).1
  | [], _, _, _ => rfl
  | a :: arrivals, c, d, h => by
    unfold Connection.serve
    rw [h.level.closed]
    split
    · rfl
    · by_cases line : IsLine a
      · have answered := h.answerTo (requestOf a)
        rw [take_of_isLine line, take_of_isLine line]
        dsimp only
        rw [answered.written, Twin.serve arrivals answered.alike]
      · rw [(take_of_not_isLine line).1, (take_of_not_isLine line).1]

/-- A command that starts a program is answered alike whatever the program before has left, and so is
everything behind it. -/
theorem Level.serve_start (h : Level c d) {kind : CommandKind} {command : Command}
    (understood : command.kind = .ok kind) (starts : kind = .compile ∨ kind = .run ∨ kind = .debug)
    (later : List Arrival) : (d.serve (.ok (.command command) :: later)).1 =
      (c.serve (.ok (.command command) :: later)).1 := by
  have started := start_twin h kind command
  have handled (c : Connection) :
      c.take (.ok (.command command)) = some (c.start kind command) := by
    unfold take receive handle
    dsimp only
    rw [understood]
    obtain rfl | rfl | rfl := starts <;> rfl
  unfold Connection.serve
  rw [h.closed, handled, handled]
  split
  · rfl
  · dsimp only
    rw [started.written, Twin.serve later started.alike]

/-! ### What a connection keeps -/

/-- What is left of a connection when its program is replaced. -/
def kept (c : Connection) : Config × List Nat := (c.config, c.breakpoints)

/-- The line on which a request sets a breakpoint. -/
def lineSet? (r : Request) : Option Nat :=
  match ownResponse? r with
  | some (.result (.breakpoint line)) => some line
  | _ => none

/-- Whether what arrives is a request that sets a breakpoint. -/
def setsBreakpoint (a : Arrival) : Bool := (lineSet? (requestOf a)).isSome

/-- What a request makes of that which is kept. -/
def keeping (k : Config × List Nat) (r : Request) : Config × List Nat :=
  match lineSet? r with
  | none => k
  | some line => (k.1, if k.2.contains line then k.2 else k.2 ++ [line])

theorem lineSet?_of_refused {r : Request} {e : ProtocolError} (h : understood r = .error e) :
    lineSet? r = none := by
  unfold lineSet?
  rw [ownResponse?_of_refused h]

theorem lineSet?_of_understood {r : Request} {kind : CommandKind} {command : Command}
    (h : understood r = .ok (kind, command)) :
    lineSet? r = if kind = .break then breakpointLine? command.arguments else none := by
  unfold lineSet?
  rw [ownResponse?_of_understood h]
  cases kind with
  | «break» =>
    unfold ownReply?
    dsimp only
    cases breakpointLine? command.arguments <;> rfl
  | _ => rfl

theorem resume_kept (c : Connection) (mode : Machine.Mode) :
    (c.resume mode).connection.kept = c.kept := by
  unfold resume
  split <;> rfl

theorem stop_kept (c : Connection) : c.stop.connection.kept = c.kept := by
  unfold stop
  split
  · rfl
  · dsimp only
    split
    · exact resume_kept _ _
    · rfl

theorem start_kept (c : Connection) (kind : CommandKind) (command : Command) :
    (c.start kind command).connection.kept = c.kept := by
  obtain ⟨s, hload⟩ := Exchange.load_begin c command
  rw [Exchange.start_of_load hload]
  cases kind <;> rfl

theorem addBreakpoint_kept (c : Connection) (command : Command) :
    (c.addBreakpoint command).connection.kept =
      match breakpointLine? command.arguments with
      | none => c.kept
      | some line => (c.config, if c.breakpoints.contains line then c.breakpoints
          else c.breakpoints ++ [line]) := by
  unfold addBreakpoint
  cases breakpointLine? command.arguments <;> rfl

/-- Of all that a request changes, breakpoints are all that is kept. -/
theorem answerTo_kept (c : Connection) (r : Request) :
    (Exchange.answerTo c r).connection.kept = keeping c.kept r := by
  rw [answerTo_eq]
  unfold keeping
  obtain ⟨e, hr⟩ | ⟨kind, command, hr⟩ := understood_cases r
  · rw [hr, lineSet?_of_refused hr]
    rfl
  · rw [hr, lineSet?_of_understood hr]
    cases kind with
    | hello => rfl
    | goodbye => rfl
    | compile => exact start_kept c .compile command
    | run => exact start_kept c .run command
    | debug => exact start_kept c .debug command
    | step => exact resume_kept c _
    | stepOver => exact resume_kept c _
    | runToReturn => exact resume_kept c _
    | «continue» => exact resume_kept c _
    | stop => exact stop_kept c
    | «break» => exact addBreakpoint_kept c command

/-- As long as nobody says `goodbye`, a connection stays open and keeps the breakpoints. -/
theorem serve_kept : ∀ {earlier : List Arrival} {c : Connection}, c.closed = false →
    (∀ a ∈ earlier, IsLine a ∧ isLast (requestOf a) = false) →
    (c.serve earlier).2.closed = false ∧
      (c.serve earlier).2.kept = (earlier.map requestOf).foldl keeping c.kept
  | [], _, open_, _ => ⟨open_, rfl⟩
  | a :: earlier, c, open_, lines => by
    obtain ⟨⟨line, going⟩, lines⟩ := List.forall_mem_cons.1 lines
    have closed := (answers_answerTo open_ (requestOf a)).2.trans going
    obtain ⟨open', kept'⟩ := serve_kept closed lines
    unfold Connection.serve
    rw [if_neg (by rw [open_]; exact Bool.false_ne_true), take_of_isLine line]
    refine ⟨open', ?_⟩
    dsimp only
    rw [kept', answerTo_kept, List.map_cons, List.foldl_cons]

/-- A request that sets a breakpoint changes nothing else in a connection without a program. -/
theorem answerTo_of_lineSet {a : Arrival} (sets : setsBreakpoint a = true)
    (idle : c.session = none) : (Exchange.answerTo c (requestOf a)).connection =
      { c with breakpoints := (keeping c.kept (requestOf a)).2 } := by
  unfold setsBreakpoint at sets
  unfold keeping
  rw [answerTo_eq]
  obtain ⟨e, hr⟩ | ⟨kind, command, hr⟩ := understood_cases (requestOf a)
  · rw [lineSet?_of_refused hr] at sets
    cases sets
  · rw [lineSet?_of_understood hr] at sets ⊢
    rw [hr]
    split at sets
    · next hkind =>
      subst hkind
      rw [if_pos rfl]
      unfold perform addBreakpoint
      dsimp only
      obtain ⟨line, hline⟩ := Option.isSome_iff_exists.1 sets
      rw [hline, idle]
      rfl
    · cases sets

theorem isLine_of_setsBreakpoint {a : Arrival} (sets : setsBreakpoint a = true) : IsLine a := by
  cases a with
  | ok f => trivial
  | error e =>
    have none : lineSet? (requestOf (.error e)) = none := lineSet?_of_refused (e := e) rfl
    unfold setsBreakpoint at sets
    rw [none] at sets
    cases sets

/-- A connection without a program that serves only what sets breakpoints comes to keep what any
does. -/
theorem serve_setsBreakpoint : ∀ (earlier : List Arrival) {c : Connection}, c.closed = false →
    c.session = none → (c.serve (earlier.filter setsBreakpoint)).2 =
      { c with breakpoints := ((earlier.map requestOf).foldl keeping c.kept).2 }
  | [], _, _, _ => rfl
  | a :: earlier, c, open_, idle => by
    cases sets : setsBreakpoint a with
    | false =>
      have none : lineSet? (requestOf a) = none := by
        unfold setsBreakpoint at sets
        exact Option.isNone_iff_eq_none.1 (Option.isSome_eq_false_iff.1 sets)
      rw [List.filter_cons_of_neg (by rw [sets]; exact Bool.false_ne_true),
        serve_setsBreakpoint earlier open_ idle, List.map_cons, List.foldl_cons, keeping, none]
    | true =>
      have answered := answerTo_of_lineSet sets idle
      have kept' := answerTo_kept c (requestOf a)
      rw [answered] at kept'
      rw [List.filter_cons_of_pos sets, Connection.serve,
        if_neg (by rw [open_]; exact Bool.false_ne_true),
        take_of_isLine (isLine_of_setsBreakpoint sets)]
      dsimp only
      rw [answered, serve_setsBreakpoint earlier (by exact open_) (by exact idle), kept',
        List.map_cons, List.foldl_cons]

/-- The connection that is opened anew and on which only the breakpoints of some requests are set. -/
def renewed (c : Connection) (config : Config) (files : FileSystem) (earlier : List Arrival) :
    Connection :=
  (({ config, host := { c.host with files } } : Connection).serve
    (earlier.filter setsBreakpoint)).2

theorem level_renewed {c : Connection} {config : Config} {earlier : List Arrival}
    (open_ : c.closed = false) (hkept : c.kept = (earlier.map requestOf).foldl keeping (config, []))
    (files : FileSystem) : Level c (c.renewed config files earlier) := by
  unfold renewed
  rw [serve_setsBreakpoint earlier rfl rfl]
  have settings (k : Config × List Nat) (rs : List Request) : (rs.foldl keeping k).1 = k.1 := by
    induction rs generalizing k with
    | nil => rfl
    | cons r rs ih =>
      rw [List.foldl_cons, ih]
      unfold keeping
      split <;> rfl
  have config_ : c.config = config := (congrArg Prod.fst hkept).trans (settings _ _)
  have breakpoints : ((earlier.map requestOf).foldl keeping (config, [])).2 = c.breakpoints :=
    congrArg Prod.snd hkept.symm
  refine ⟨files, none, ?_⟩
  rw [← config_] at breakpoints ⊢
  rw [kept, breakpoints, ← open_]

end Connection

namespace Exchange

/-! ### Exchanges side by side -/

variable {x y : Exchange} {u : List Wire.Frame}

/-- Two exchanges that differ in what the first has written before and in what earlier programs have
left; a program that is being started finds nothing of them. -/
structure Beside (u : List Wire.Frame) (x y : Exchange) : Prop where
  same : ∃ connection written, y = { x with connection, written }
  written : x.written = u ++ y.written
  level : Level x.connection y.connection
  sessions : (∀ kind command, x.activity ≠ .starting kind command) →
    x.connection.Twin y.connection

namespace Beside

theorem activity (h : Beside u x y) : y.activity = x.activity := by
  obtain ⟨⟨connection, written, rfl⟩, -⟩ := h
  rfl

theorem queue (h : Beside u x y) : y.queue = x.queue := by
  obtain ⟨⟨connection, written, rfl⟩, -⟩ := h
  rfl

theorem ended (h : Beside u x y) : y.ended = x.ended := by
  obtain ⟨⟨connection, written, rfl⟩, -⟩ := h
  rfl

theorem unread (h : Beside u x y) : y.unread = x.unread := by
  obtain ⟨⟨connection, written, rfl⟩, -⟩ := h
  rfl

theorem seen (h : Beside u x y) : x.seen = u ++ y.seen := by
  unfold Exchange.seen
  rw [h.activity]
  cases hactivity : x.activity with
  | running before =>
    have sessions := (h.sessions (by rw [hactivity]; exact nofun)).sessions
    generalize x.connection.session = s at sessions
    generalize y.connection.session = t at sessions
    cases sessions with
    | none => exact h.written
    | some alike =>
      dsimp only
      rw [h.written, alike.sent, List.append_assoc]
  | _ => exact h.written

/-! ### The reader -/

theorem raise (h : Beside u x y) : Beside u x.raise y.raise := by
  obtain ⟨⟨connection, written, rfl⟩, written', level, sessions⟩ := h
  exact ⟨⟨_, written, rfl⟩, written', level.withSessions _ _,
    fun busy => (sessions busy).mapSession fun alike => alike.requestStop true⟩

theorem withUnread (h : Beside u x y) (unread : List Arrival) :
    Beside u { x with unread } { y with unread } := by
  obtain ⟨⟨connection, written, rfl⟩, written', level, sessions⟩ := h
  exact ⟨⟨connection, written, rfl⟩, written', level, sessions⟩

theorem withQueue (h : Beside u x y) (queue : List Request) :
    Beside u { x with queue } { y with queue } := by
  obtain ⟨⟨connection, written, rfl⟩, written', level, sessions⟩ := h
  exact ⟨⟨connection, written, rfl⟩, written', level, sessions⟩

theorem withEnded (h : Beside u x y) (ended : Bool) :
    Beside u { x with ended } { y with ended } := by
  obtain ⟨⟨connection, written, rfl⟩, written', level, sessions⟩ := h
  exact ⟨⟨connection, written, rfl⟩, written', level, sessions⟩

theorem read (h : Beside u x y) : Beside u x.read y.read := by
  have readsStop : y.readsStop = x.readsStop := by
    unfold Exchange.readsStop
    rw [h.ended, h.unread]
  have told : Beside u (if x.readsStop then x.raise else x)
      (if x.readsStop then y.raise else y) := by
    split
    · exact h.raise
    · exact h
  unfold Exchange.read
  rw [h.ended, h.unread, readsStop]
  split
  · exact h
  · dsimp only
    split
    · rw [told.queue]
      exact (told.withUnread _).withQueue _
    · exact told.withEnded true

/-! ### The session -/

theorem answer (h : Beside u x y) {a b : Answer} (same : TwinAnswer a b) :
    Beside u (x.answer a) (y.answer b) := by
  obtain ⟨⟨connection, written, rfl⟩, written', -, -⟩ := h
  refine ⟨⟨b.connection, written ++ b.written, ?_⟩, ?_, same.alike.level, fun _ => same.alike⟩
  · unfold Exchange.answer
    dsimp only
    rw [same.alike.level.closed]
  · unfold Exchange.answer
    dsimp only at written' ⊢
    rw [written', same.written, List.append_assoc]

theorem proceed {s t : Session} (h : Beside u x y) (before : Nat) (alike : Session.Twin s t)
    (a : Machine.Advance) : Beside u (x.proceed before s a) (y.proceed before t a) := by
  have moved := h.level.withSession (alike.moved a)
  unfold Exchange.proceed
  cases a.outcome with
  | some o => exact h.answer (h.level.outcome before (alike.moved a) _)
  | none =>
    obtain ⟨⟨connection, written, rfl⟩, written', -, -⟩ := h
    exact ⟨⟨_, written, rfl⟩, written', moved.level, fun _ => moved⟩

theorem launch {s t : Session} (h : Beside u x y) (before : Nat) (mode : Machine.Mode)
    (alike : Session.Twin s t) : Beside u (x.launch before mode s) (y.launch before mode t) := by
  unfold Exchange.launch
  rw [alike.machine]
  cases s.machine with
  | none => exact h.answer (h.level.outcome before alike _)
  | some m => exact h.proceed before alike _

theorem resume (h : Beside u x y) (twin : x.connection.Twin y.connection) (mode : Machine.Mode) :
    Beside u (x.resume mode) (y.resume mode) := by
  have refused := h.answer (twin.resume mode)
  have sessions := twin.sessions
  unfold Exchange.resume
  generalize x.connection.session = s at sessions
  generalize y.connection.session = t at sessions
  cases sessions with
  | none => exact refused
  | some alike =>
    dsimp only
    rw [alike.isSuspended, alike.sent]
    split
    · exact h.launch _ mode alike
    · exact refused

theorem stop (h : Beside u x y) (twin : x.connection.Twin y.connection) :
    Beside u x.stop y.stop := by
  have refused := h.answer (twin.reply (.ok .ok))
  have sessions := twin.sessions
  unfold Exchange.stop
  generalize x.connection.session = s at sessions
  generalize y.connection.session = t at sessions
  cases sessions with
  | none => exact refused
  | some alike =>
    dsimp only
    rw [alike.isSuspended, alike.sent]
    split
    · exact h.launch _ .run (alike.requestStop true)
    · exact refused

theorem perform (h : Beside u x y) (twin : x.connection.Twin y.connection) (kind : CommandKind)
    (command : Command) : Beside u (x.perform kind command) (y.perform kind command) := by
  have starts (kind : CommandKind) : Beside u { x with activity := .starting kind command }
      { y with activity := .starting kind command } := by
    obtain ⟨⟨connection, written, rfl⟩, written', level, sessions⟩ := h
    exact ⟨⟨connection, written, rfl⟩, written', level, fun busy => absurd rfl (busy _ _)⟩
  cases kind with
  | hello => exact h.answer (twin.perform .hello command)
  | «break» => exact h.answer (twin.perform .break command)
  | goodbye => exact h.answer (twin.perform .goodbye command)
  | compile => exact starts _
  | run => exact starts _
  | debug => exact starts _
  | step => exact h.resume twin _
  | stepOver => exact h.resume twin _
  | runToReturn => exact h.resume twin _
  | «continue» => exact h.resume twin _
  | stop => exact h.stop twin

theorem take (h : Beside u x y) (twin : x.connection.Twin y.connection) (r : Request) :
    Beside u (x.take r) (y.take r) := by
  rw [take_eq_understood, take_eq_understood]
  cases understood r with
  | error e => exact h.answer (twin.reply _)
  | ok request => exact h.perform twin request.1 request.2

theorem publish (h : Beside u x y) (kind : CommandKind) (command : Command) :
    Beside u (x.publish kind command) (y.publish kind command) := by
  obtain ⟨s, t, alike, hs, ht⟩ := Connection.loads_twin h.level command
  have loaded := h.level.withSession alike
  rw [publish_of_load hs, publish_of_load ht, Connection.warnings_level h.level]
  obtain ⟨⟨connection, written, rfl⟩, written', level, -⟩ := h
  refine ⟨⟨_, _, rfl⟩, ?_, loaded.level, fun _ => loaded⟩
  dsimp only at written' ⊢
  rw [written', List.append_assoc]

theorem enter {s t : Session} (h : Beside u x y) (kind : CommandKind) (alike : Session.Twin s t) :
    Beside u (x.enter kind s) (y.enter kind t) := by
  obtain ⟨same, entered⟩ := Session.enterTerminal_twin alike
  unfold Exchange.enter
  generalize s.enterTerminal = a at same entered ⊢
  generalize t.enterTerminal = b at same entered ⊢
  obtain ⟨r, s'⟩ := a
  obtain ⟨_, t'⟩ := b
  cases same
  cases r with
  | error e => exact h.answer (h.level.outcome 0 entered _)
  | ok _ =>
    dsimp only at entered ⊢
    split
    · exact h.launch 0 .run entered
    · rw [entered.machine]
      exact h.launch 0 .continue (entered.withMachine _)

theorem load {s t : Session} (h : Beside u x y) (kind : CommandKind) (alike : Session.Twin s t) :
    Beside u (x.load kind s) (y.load kind t) := by
  cases kind with
  | compile => exact h.answer (Connection.loaded_twin h.level alike .compile)
  | _ => exact h.enter _ alike

theorem finish (h : Beside u x y) (twin : x.connection.Twin y.connection) :
    Beside u { x with activity := .finished } { y with activity := .finished } := by
  obtain ⟨⟨connection, written, rfl⟩, written', level, sessions⟩ := h
  exact ⟨⟨connection, written, rfl⟩, written', level, fun _ => twin⟩

/-- A turn of the session. -/
theorem turn (h : Beside u x y) : Beside u x.turn y.turn := by
  cases hactivity : x.activity with
  | starting kind command =>
    unfold Exchange.turn
    rw [h.activity, hactivity]
    exact h.publish kind command
  | finished =>
    unfold Exchange.turn
    rw [h.activity, hactivity]
    exact h
  | waiting =>
    have twin := h.sessions (by rw [hactivity]; exact nofun)
    cases hqueue : x.queue with
    | cons r rest =>
      rw [turn_of_queue hactivity hqueue,
        turn_of_queue (h.activity.trans hactivity) (h.queue.trans hqueue)]
      exact (h.withQueue rest).take twin r
    | nil =>
      have idle (z : Exchange) (waiting : z.activity = .waiting) (empty : z.queue = []) :
          z.turn = if z.ended then { z with activity := .finished } else z := by
        unfold Exchange.turn
        rw [waiting, empty]
      rw [idle x hactivity hqueue, idle y (h.activity.trans hactivity) (h.queue.trans hqueue)]
      by_cases ended : x.ended = true
      · rw [if_pos ended, if_pos (h.ended.trans ended)]
        exact h.finish twin
      · rw [if_neg ended, if_neg (h.ended.symm ▸ ended)]
        exact h
  | loading kind =>
    have sessions := (h.sessions (by rw [hactivity]; exact nofun)).sessions
    unfold Exchange.turn
    rw [h.activity, hactivity]
    generalize x.connection.session = s at sessions
    generalize y.connection.session = t at sessions
    cases sessions with
    | none => exact h
    | some alike => exact h.load kind alike
  | running before =>
    have sessions := (h.sessions (by rw [hactivity]; exact nofun)).sessions
    unfold Exchange.turn
    rw [h.activity, hactivity]
    generalize x.connection.session = s at sessions
    generalize y.connection.session = t at sessions
    cases sessions with
    | none => exact h
    | some alike =>
      dsimp only
      rw [alike.machine, alike.stopRequested]
      split
      · exact h.proceed before alike _
      · exact h

theorem after : ∀ (schedule : List Actor) {x y : Exchange}, Beside u x y →
    Beside u (x.after schedule) (y.after schedule)
  | [], _, _, h => h
  | .reader :: schedule, _, _, h => after schedule h.read
  | .session :: schedule, _, _, h => after schedule h.turn

end Beside

/-! ### What the session has taken -/

/-- What a turn of the session leaves in the queue, and what is kept. -/
structure Leaves (queue : List Request) (k : Config × List Nat) (x y : Exchange) : Prop where
  unread : y.unread = x.unread
  queue : y.queue = queue
  kept : y.connection.kept = k

theorem leaves_answer (x : Exchange) {a : Answer} {k : Config × List Nat}
    (same : a.connection.kept = k) : Leaves x.queue k x (x.answer a) := ⟨rfl, rfl, same⟩

theorem leaves_proceed (x : Exchange) (before : Nat) (s : Session) (a : Machine.Advance) :
    Leaves x.queue x.connection.kept x (x.proceed before s a) := by
  unfold proceed
  split
  · exact leaves_answer x rfl
  · exact ⟨rfl, rfl, rfl⟩

theorem leaves_launch (x : Exchange) (before : Nat) (mode : Machine.Mode) (s : Session) :
    Leaves x.queue x.connection.kept x (x.launch before mode s) := by
  unfold launch
  split
  · exact leaves_answer x rfl
  · exact leaves_proceed x before s _

theorem leaves_resume (x : Exchange) (mode : Machine.Mode) :
    Leaves x.queue x.connection.kept x (x.resume mode) := by
  have refused := leaves_answer x (x.connection.resume_kept mode)
  unfold resume
  split
  · exact refused
  · split
    · exact leaves_launch x _ mode _
    · exact refused

theorem leaves_stop (x : Exchange) : Leaves x.queue x.connection.kept x x.stop := by
  unfold stop
  split
  · exact leaves_answer x rfl
  · split
    · exact leaves_launch x _ .run _
    · exact leaves_answer x rfl

theorem leaves_enter (x : Exchange) (kind : CommandKind) (s : Session) :
    Leaves x.queue x.connection.kept x (x.enter kind s) := by
  unfold enter
  split
  · exact leaves_answer x rfl
  · split
    · exact leaves_launch x 0 .run _
    · exact leaves_launch x 0 .continue _

theorem leaves_load (x : Exchange) (kind : CommandKind) (s : Session) :
    Leaves x.queue x.connection.kept x (x.load kind s) := by
  cases kind with
  | compile => exact leaves_answer x rfl
  | _ => exact leaves_enter x _ s

theorem leaves_publish (x : Exchange) (kind : CommandKind) (command : Command) :
    Leaves x.queue x.connection.kept x (x.publish kind command) := by
  obtain ⟨s, hload⟩ := load_begin x.connection command
  rw [publish_of_load hload]
  exact ⟨rfl, rfl, rfl⟩

theorem leaves_take (x : Exchange) (r : Request) :
    Leaves x.queue (Connection.keeping x.connection.kept r) x (x.take r) := by
  have answered := leaves_answer x (x.connection.answerTo_kept r)
  cases hown : ownResponse? r with
  | some own =>
    rw [take_own hown]
    exact answered
  | none =>
    have none : Connection.lineSet? r = none := by
      unfold Connection.lineSet?
      rw [hown]
    unfold Connection.keeping
    rw [none, take_eq_understood]
    obtain ⟨e, hr⟩ | ⟨kind, command, hr⟩ := understood_cases r
    · exact absurd ((ownResponse?_of_refused hr).symm.trans hown) nofun
    · have own := (ownResponse?_of_understood hr).symm.trans hown
      rw [hr]
      cases kind with
      | hello => cases own
      | «break» => cases own
      | goodbye => cases own
      | compile => exact ⟨rfl, rfl, rfl⟩
      | run => exact ⟨rfl, rfl, rfl⟩
      | debug => exact ⟨rfl, rfl, rfl⟩
      | step => exact leaves_resume x _
      | stepOver => exact leaves_resume x _
      | runToReturn => exact leaves_resume x _
      | «continue» => exact leaves_resume x _
      | stop => exact leaves_stop x

/-- A turn of the session takes the next request, or it goes on with one. -/
theorem turn_leaves (x : Exchange) :
    (∃ r rest, x.queue = r :: rest ∧
      Leaves rest (Connection.keeping x.connection.kept r) x x.turn) ∨
    Leaves x.queue x.connection.kept x x.turn := by
  have idle : Leaves x.queue x.connection.kept x x := ⟨rfl, rfl, rfl⟩
  cases hactivity : x.activity with
  | waiting =>
    cases hqueue : x.queue with
    | cons r rest =>
      have taken := leaves_take { x with queue := rest } r
      rw [turn_of_queue hactivity hqueue]
      exact .inl ⟨r, rest, rfl, taken.unread, taken.queue, taken.kept⟩
    | nil =>
      refine .inr ?_
      unfold turn
      rw [hactivity, hqueue]
      dsimp only
      split
      · exact ⟨rfl, rfl, rfl⟩
      · exact ⟨rfl, hqueue, rfl⟩
  | finished =>
    refine .inr ?_
    unfold turn
    rw [hactivity]
    exact idle
  | starting kind command =>
    refine .inr ?_
    unfold turn
    rw [hactivity]
    exact leaves_publish x kind command
  | loading kind =>
    refine .inr ?_
    unfold turn
    rw [hactivity]
    cases x.connection.session with
    | none => exact idle
    | some s => exact leaves_load x kind s
  | running before =>
    refine .inr ?_
    unfold turn
    rw [hactivity]
    cases x.connection.session with
    | none => exact idle
    | some s =>
      dsimp only
      split
      · exact leaves_proceed x before s _
      · exact idle

theorem nextLine?_eq_some {arrivals rest : List Arrival} {r : Request}
    (h : nextLine? arrivals = some (r, rest)) : ∃ a, arrivals = a :: rest ∧ r = requestOf a := by
  cases arrivals with
  | nil => cases h
  | cons a arrivals =>
    by_cases line : IsLine a
    · rw [nextLine?_of_isLine line] at h
      cases h
      exact ⟨a, rfl, rfl⟩
    · rw [(Connection.take_of_not_isLine line).2] at h
      cases h

/-- The reader queues the next line, and raises the flag at most. -/
theorem read_leaves (x : Exchange) : x.read.connection.kept = x.connection.kept ∧
    ((∃ a rest, x.unread = a :: rest ∧ x.read.unread = rest ∧
      x.read.queue = x.queue ++ [requestOf a]) ∨
    x.read.unread = x.unread ∧ x.read.queue = x.queue) := by
  constructor
  · obtain ⟨unread, ended, queue, hread⟩ := x.read_eq
    rw [hread]
    split <;> rfl
  · obtain ⟨-, hread⟩ | ⟨-, -, -, unread, queue⟩ | ⟨r, rest, -, hnext, -, unread, queue⟩ :=
      x.read_cases
    · rw [hread]
      exact .inr ⟨rfl, rfl⟩
    · exact .inr ⟨unread, queue⟩
    · obtain ⟨a, heq, rfl⟩ := nextLine?_eq_some hnext
      exact .inl ⟨a, rest, heq, unread, queue⟩

/-- Of what arrives, some has been taken, in order, and what is kept is what that has set. -/
structure Taken (config : Config) (arrivals past : List Arrival) (x : Exchange) : Prop where
  order : ∃ queued, arrivals = past ++ (queued ++ x.unread) ∧ x.queue = queued.map requestOf
  kept : x.connection.kept = (past.map requestOf).foldl Connection.keeping (config, [])

theorem opened_taken (config : Config) (host : Host) (arrivals : List Arrival) :
    Taken config arrivals [] (opened config host arrivals) := ⟨⟨[], rfl, rfl⟩, rfl⟩

variable {config : Config} {arrivals past : List Arrival}

theorem Taken.read (h : Taken config arrivals past x) : Taken config arrivals past x.read := by
  obtain ⟨⟨queued, order, queue⟩, kept⟩ := h
  obtain ⟨same, ⟨a, rest, unread, hunread, hqueue⟩ | ⟨hunread, hqueue⟩⟩ := x.read_leaves
  · refine ⟨⟨queued ++ [a], ?_, ?_⟩, same.trans kept⟩
    · rw [order, unread, hunread, List.append_assoc, List.singleton_append]
    · rw [hqueue, queue, List.map_append, List.map_singleton]
  · exact ⟨⟨queued, by rw [order, hunread], hqueue.trans queue⟩, same.trans kept⟩

theorem Taken.turn (h : Taken config arrivals past x) :
    ∃ past, Taken config arrivals past x.turn := by
  obtain ⟨⟨queued, order, queue⟩, kept⟩ := h
  obtain ⟨r, rest, hqueue, leaves⟩ | leaves := x.turn_leaves
  · obtain ⟨a, queued', rfl, rfl, rfl⟩ := List.map_eq_cons_iff.1 (queue.symm.trans hqueue)
    refine ⟨past ++ [a], ⟨queued', ?_, leaves.queue⟩, ?_⟩
    · rw [order, leaves.unread, List.append_assoc, List.singleton_append, List.cons_append]
    · rw [leaves.kept, kept, List.map_append, List.foldl_append, List.map_singleton,
        List.foldl_cons, List.foldl_nil]
  · exact ⟨past, ⟨queued, by rw [order, leaves.unread], leaves.queue.trans queue⟩,
      leaves.kept.trans kept⟩

theorem Taken.after : ∀ (schedule : List Actor) {x : Exchange} {past : List Arrival},
    Taken config arrivals past x → ∃ past, Taken config arrivals past (x.after schedule)
  | [], _, past, h => ⟨past, h⟩
  | .reader :: schedule, _, _, h => after schedule h.read
  | .session :: schedule, _, _, h => h.turn.elim fun _ h => after schedule h

/-- What the session has taken of all that arrives: what is neither queued nor unread. -/
def taken (x : Exchange) (arrivals : List Arrival) : List Arrival :=
  arrivals.take (arrivals.length - (x.queue.length + x.unread.length))

theorem Taken.taken_eq (h : Taken config arrivals past x) : x.taken arrivals = past := by
  obtain ⟨⟨queued, rfl, queue⟩, -⟩ := h
  have rest : (queued ++ x.unread).length = x.queue.length + x.unread.length := by
    rw [List.length_append, queue, List.length_map]
  unfold Exchange.taken
  rw [List.length_append, rest, Nat.add_sub_cancel]
  exact List.take_left

end Exchange

/-! ### Fresh starts -/

/-- A program starts fresh.  Whatever a connection has served before, without a `goodbye`, a command
that starts a program and everything that arrives behind it are answered as on a new connection on
which only the breakpoints were set that the old one has been asked for; the files that earlier
programs have left do not matter either.  So it is for the two actors as well: from when the session
has taken such a command, and however the turns go on, it writes what the session of a new connection
writes, whatever it has written before and whatever has been read in the meantime. -/
theorem starts_fresh (config : Config) (host : Host) (files : FileSystem) :
    (∀ earlier later : List Arrival, ∀ kind command,
      (∀ a ∈ earlier, IsLine a ∧ isLast (requestOf a) = false) →
      command.kind = .ok kind → (kind = .compile ∨ kind = .run ∨ kind = .debug) →
      let c := (({ config, host } : Connection).serve earlier).2
      (c.serve (.ok (.command command) :: later)).1 =
        ((c.renewed config files earlier).serve (.ok (.command command) :: later)).1) ∧
    ∀ (arrivals : List Arrival) (before after : List Actor) kind command,
      let x := (Exchange.opened config host arrivals).after before
      x.activity = .starting kind command →
      let y : Exchange := { x with
        connection := x.connection.renewed config files (x.taken arrivals)
        written := [] }
      (x.after after).seen = x.written ++ (y.after after).seen := by
  refine ⟨fun earlier later kind command lines understood starts => ?_,
    fun arrivals before after kind command => ?_⟩
  · obtain ⟨open_, kept⟩ := Connection.serve_kept (c := { config, host }) rfl lines
    have level := Connection.level_renewed open_ kept files
    exact (Connection.Level.serve_start level understood starts later).symm
  · intro x starting y
    have open_ := (Exchange.after_fits before (Exchange.opened_fits config host arrivals)).1.open
      (show x.activity ≠ .finished by rw [starting]; exact nofun)
    obtain ⟨past, h⟩ := (Exchange.opened_taken config host arrivals).after before
    have beside : Exchange.Beside x.written x y :=
      { same := ⟨_, _, rfl⟩
        written := (List.append_nil _).symm
        level := by
          have level := Connection.level_renewed open_ h.kept files
          rwa [← h.taken_eq] at level
        sessions := fun busy => absurd starting (busy kind command) }
    exact (beside.after after).seen

/-- A breakpoint is set and a program compiled before another one is run. -/
def earlierLines : List Arrival :=
  [.ok (.command (.ofKind .break ["line=3"] "")), .error (.malformed notAFrame),
    .ok (.command (.ofKind .compile [] ""))]

def laterCommand : Command := .ofKind .run [] Exchange.endlessText

/-- All is read before the session takes it. -/
def earlierTurns : List Actor := List.replicate 4 .reader ++ List.replicate 6 .session

theorem starts_fresh_earlierLines :
    let host : Host := ⟨{}, .platform, {}, 0⟩
    let c := (({ config := {}, host } : Connection).serve earlierLines).2
    let x := (Exchange.opened {} host (earlierLines ++ [.ok (.command laterCommand)])).after
      earlierTurns
    let y : Exchange := { x with
      connection := x.connection.renewed {} {} (x.taken (earlierLines ++
        [.ok (.command laterCommand)]))
      written := [] }
    (c.serve [.ok (.command laterCommand)]).1 =
        ((c.renewed {} {} earlierLines).serve [.ok (.command laterCommand)]).1 ∧
      y.connection.breakpoints = [3] ∧
      (x.after [.session, .session]).seen = x.written ++ (y.after [.session, .session]).seen := by
  obtain ⟨serves, turns⟩ := starts_fresh {} ⟨{}, .platform, {}, 0⟩ {}
  have lines : ∀ a ∈ earlierLines, IsLine a ∧ isLast (requestOf a) = false :=
    List.forall_mem_cons.2 ⟨⟨trivial, rfl⟩, List.forall_mem_cons.2 ⟨⟨⟨_, rfl⟩, rfl⟩,
      List.forall_mem_singleton.2 ⟨trivial, rfl⟩⟩⟩
  exact ⟨serves earlierLines [] .run laterCommand lines rfl (.inr (.inl rfl)), rfl,
    turns _ earlierTurns [.session, .session] .run laterCommand rfl⟩

end

end ScriptLang.Backend
