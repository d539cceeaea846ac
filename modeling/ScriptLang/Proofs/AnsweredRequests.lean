import ScriptLang.Proofs.FrameReading
import ScriptLang.Proofs.Responses

/-!
# One response to each request

A client tells the responses apart by their order alone.  Whatever lines of text it sends, and however
the two actors of a connection take turns, each line that is not blank is answered once, in order, up
to the first `goodbye`, behind which nothing is written (`one_response`).  A line that is refused is
answered like any other and ends nothing.

What is sent at any time is made of the answers to the requests so far and of notes on the one that is
served (`InStep`), which every turn keeps.  That all requests are answered in the end is shown with a
rank that no turn raises and that a turn of the actor lowers who is waited for (`due_rank`).
-/

namespace ScriptLang.Backend

open Wire
open Exchange (answerTo nextLine?)

/-! ### Turns of the session -/

/-- How much of a command is still to be done; nothing is when the session serves no more. -/
def Activity.phase : Activity → Nat
  | .finished => 0
  | .waiting => 1
  | .running _ => 2
  | .loading _ => 3
  | .starting _ _ => 4

theorem Activity.eq_finished {a : Activity} (h : a.phase = 0) : a = .finished := by
  cases a with
  | finished => rfl
  | _ => exact absurd h (Nat.succ_ne_zero _)

theorem Activity.eq_running {a : Activity} (h : a.phase = 2) : ∃ before, a = .running before := by
  cases a with
  | running before => exact ⟨before, rfl⟩
  | _ => exact absurd h (by simp [phase])

namespace Exchange

variable {x y : Exchange}

theorem seen_of_phase (h : x.activity.phase ≠ 2) : x.seen = x.written := by
  unfold seen
  cases hactivity : x.activity with
  | running before =>
    rw [hactivity] at h
    exact absurd rfl h
  | _ => rfl

/-- A turn that the session spends on a command that is about a program: behind what was sent before
there are notes, and either the session is in the command, no earlier than in a phase, or the notes are
followed by the response and the session waits. -/
structure Serves (phase : Nat) (before : List Wire.Frame) (x y : Exchange) : Prop where
  unread : y.unread = x.unread
  ended : y.ended = x.ended
  queue : y.queue = x.queue
  sends : ∃ notes, (∀ f ∈ notes, isNote f = true) ∧
    ((1 < y.activity.phase ∧ y.activity.phase ≤ phase ∧ y.seen = before ++ notes) ∨
      ∃ response, y.activity = .waiting ∧ y.seen = before ++ notes ++ [.response response])

theorem Serves.mono {phase phase' : Nat} {before : List Wire.Frame} (h : Serves phase before x y)
    (le : phase ≤ phase') : Serves phase' before x y := by
  obtain ⟨notes, clean, ⟨busy, bound, seen⟩ | answered⟩ := h.sends
  · exact ⟨h.unread, h.ended, h.queue, notes, clean,
      .inl ⟨busy, Nat.le_trans bound le, seen⟩⟩
  · exact ⟨h.unread, h.ended, h.queue, notes, clean, .inr answered⟩

theorem seen_answer (x : Exchange) (a : Answer) : (x.answer a).seen = x.written ++ a.written := by
  refine seen_of_phase ?_
  unfold answer
  dsimp only
  split <;> decide

theorem serves_answer {a : Answer} {phase : Nat} {before notes : List Wire.Frame}
    (open_ : a.connection.closed = false) (frames : x.written ++ a.frames = before ++ notes)
    (clean : ∀ f ∈ notes, isNote f = true) : Serves phase before x (x.answer a) := by
  refine ⟨rfl, rfl, rfl, notes, clean, .inr ⟨a.response, ?_, ?_⟩⟩
  · exact if_neg (by rw [open_]; exact Bool.false_ne_true)
  · rw [seen_answer, Answer.written, ← frames, List.append_assoc]

/-- The frames that a run sends while it goes on are those that stand before its response. -/
theorem serves_proceed {before : Nat} {s : Session} {a : Machine.Advance}
    {sent notes : List Wire.Frame} (open_ : x.connection.closed = false)
    (frames : x.written ++ ((s.moved a).sent.toList.drop before).map frameOf = sent ++ notes)
    (clean : ∀ f ∈ notes, isNote f = true) : Serves 2 sent x (x.proceed before s a) := by
  unfold proceed
  cases a.outcome with
  | some o => exact serves_answer open_ frames clean
  | none =>
    refine ⟨rfl, rfl, rfl, notes, clean, .inl ⟨Nat.lt_succ_self 1, Nat.le_refl 2, ?_⟩⟩
    exact frames

theorem serves_launch (open_ : x.connection.closed = false) (before : Nat) (mode : Machine.Mode)
    (s : Session) : Serves 2 x.written x (x.launch before mode s) := by
  unfold launch
  cases s.machine with
  | none => exact serves_answer open_ rfl isNote_of_mem_map_frameOf
  | some m => exact serves_proceed open_ rfl isNote_of_mem_map_frameOf

theorem serves_resume (open_ : x.connection.closed = false) (mode : Machine.Mode) :
    Serves 2 x.written x (x.resume mode) := by
  have refused : Serves 2 x.written x (x.answer (x.connection.resume mode)) := by
    unfold Connection.resume
    cases x.connection.session with
    | none => exact serves_answer open_ rfl isNote_of_mem_nil
    | some s => exact serves_answer open_ rfl isNote_of_mem_map_frameOf
  unfold resume
  split
  · exact refused
  · split
    · exact serves_launch open_ _ _ _
    · exact refused

theorem serves_stop (open_ : x.connection.closed = false) : Serves 2 x.written x x.stop := by
  unfold stop
  split
  · exact serves_answer open_ rfl isNote_of_mem_nil
  · split
    · exact serves_launch open_ _ _ _
    · exact serves_answer open_ rfl isNote_of_mem_nil

theorem serves_load (open_ : x.connection.closed = false) (kind : CommandKind) (s : Session) :
    Serves 2 x.written x (x.load kind s) := by
  have enters (kind : CommandKind) : Serves 2 x.written x (x.enter kind s) := by
    unfold enter
    split
    · exact serves_answer open_ rfl isNote_of_mem_map_frameOf
    · split
      · exact serves_launch open_ _ _ _
      · exact serves_launch open_ _ _ _
  cases kind with
  | compile => exact serves_answer open_ rfl isNote_of_mem_map_frameOf
  | _ => exact enters _

theorem serves_publish (kind : CommandKind) (command : Command) :
    Serves 3 x.written x (x.publish kind command) := by
  obtain ⟨s, hload⟩ := load_begin x.connection command
  rw [publish_of_load hload]
  exact ⟨rfl, rfl, rfl, warnings x.connection command, isNote_of_mem_warnings,
    .inl ⟨(by decide : 1 < 3), Nat.le_refl 3, rfl⟩⟩

theorem take_eq_understood (x : Exchange) (r : Request) : x.take r =
    match understood r with
    | .error e => x.answer (x.connection.reply (.error (.ofError e)))
    | .ok (kind, command) => x.perform kind command := by
  cases r with
  | error e => rfl
  | ok command =>
    unfold take understood
    dsimp only
    cases command.kind <;> rfl

/-- A request that is not about a program is answered in one turn. -/
theorem take_own {r : Request} {own : Response} (h : ownResponse? r = some own) :
    x.take r = x.answer (answerTo x.connection r) := by
  rw [take_eq_understood, Connection.answerTo_eq]
  obtain ⟨e, hr⟩ | ⟨kind, command, hr⟩ := understood_cases r
  · rw [hr]
  · rw [ownResponse?_of_understood hr] at h
    rw [hr]
    cases kind with
    | hello => rfl
    | «break» => rfl
    | goodbye => rfl
    | _ => cases h

theorem serves_take {r : Request} (open_ : x.connection.closed = false)
    (h : ownResponse? r = none) : Serves 4 x.written x (x.take r) := by
  obtain ⟨e, hr⟩ | ⟨kind, command, hr⟩ := understood_cases r
  · exact absurd ((ownResponse?_of_refused hr).symm.trans h) nofun
  · have own := (ownResponse?_of_understood hr).symm.trans h
    have starts (kind : CommandKind) :
        Serves 4 x.written x { x with activity := .starting kind command } :=
      ⟨rfl, rfl, rfl, [], isNote_of_mem_nil,
        .inl ⟨(by decide : 1 < 4), Nat.le_refl 4, (List.append_nil _).symm⟩⟩
    have resumes (mode : Machine.Mode) : Serves 4 x.written x (x.resume mode) :=
      (serves_resume open_ mode).mono (by decide)
    rw [take_eq_understood, hr]
    cases kind with
    | hello => cases own
    | «break» => cases own
    | goodbye => cases own
    | compile => exact starts _
    | run => exact starts _
    | debug => exact starts _
    | step => exact resumes _
    | stepOver => exact resumes _
    | runToReturn => exact resumes _
    | «continue» => exact resumes _
    | stop => exact (serves_stop open_).mono (by decide)

/-- What a turn of the session can come to. -/
inductive Turns (x : Exchange) : Exchange → Prop where
  /-- There is nothing to do. -/
  | idle (h : x.activity = .finished ∨ x.activity = .waiting ∧ x.queue = [] ∧ x.ended = false) :
    Turns x x
  /-- There will be nothing to do. -/
  | closes (waiting : x.activity = .waiting) (queue : x.queue = []) (ended : x.ended = true) :
    Turns x { x with activity := .finished }
  /-- A request is answered that is not about a program. -/
  | answers {r : Request} {rest : List Request} {own : Response} {connection : Connection}
    (waiting : x.activity = .waiting) (queue : x.queue = r :: rest)
    (own_ : ownResponse? r = some own) (closed : connection.closed = isLast r) :
    Turns x ({ x with queue := rest }.answer { connection, response := own })
  /-- A command is begun that is about a program. -/
  | takes {r : Request} {rest : List Request} {y : Exchange} (waiting : x.activity = .waiting)
    (queue : x.queue = r :: rest) (own : ownResponse? r = none)
    (serves : Serves 4 x.seen { x with queue := rest } y) : Turns x y
  /-- A command is gone on with. -/
  | goes {phase : Nat} {y : Exchange} (busy : 1 < x.activity.phase)
    (later : phase < x.activity.phase ∨ phase = 2) (serves : Serves phase x.seen x y) : Turns x y

theorem turn_turns (h : x.Fits) : Turns x x.turn := by
  have open_ {activity : Activity} (hactivity : x.activity = activity) (busy : activity.phase ≠ 0) :
      x.connection.closed = false :=
    h.open fun finished => busy (by rw [← hactivity, finished]; rfl)
  cases hactivity : x.activity with
  | waiting =>
    have going := open_ hactivity (by decide)
    have seen : x.seen = x.written := seen_of_phase (by rw [hactivity]; decide)
    cases hqueue : x.queue with
    | nil =>
      have hturn : x.turn = if x.ended then { x with activity := .finished } else x := by
        unfold turn
        rw [hactivity, hqueue]
      rw [hturn]
      split
      · next ended => exact .closes hactivity hqueue ended
      · next going => exact .idle (.inr ⟨hactivity, hqueue, Bool.eq_false_iff.2 going⟩)
    | cons r rest =>
      rw [turn_of_queue hactivity hqueue]
      cases hown : ownResponse? r with
      | some own =>
        obtain ⟨connection, hanswer, closed⟩ := Connection.answerTo_own hown going
        rw [take_own hown]
        dsimp only
        rw [hanswer]
        exact .answers hactivity hqueue hown closed
      | none =>
        refine .takes hactivity hqueue hown ?_
        rw [seen]
        exact serves_take (x := { x with queue := rest }) going hown
  | starting kind command =>
    have seen : x.seen = x.written := seen_of_phase (by rw [hactivity]; exact nofun)
    have hturn : x.turn = x.publish kind command := by
      unfold turn
      rw [hactivity]
    refine .goes (by rw [hactivity]; exact (by decide : 1 < 4))
      (.inl (by rw [hactivity]; exact (by decide : 3 < 4))) ?_
    rw [seen, hturn]
    exact serves_publish kind command
  | loading kind =>
    have seen : x.seen = x.written := seen_of_phase (by rw [hactivity]; exact nofun)
    obtain ⟨s, hs, -⟩ := h.loading kind hactivity
    have hturn : x.turn = x.load kind s := by
      unfold turn
      rw [hactivity, hs]
    refine .goes (by rw [hactivity]; exact (by decide : 1 < 3)) (.inr rfl) ?_
    rw [seen, hturn]
    exact serves_load (open_ hactivity (show 3 ≠ 0 by decide)) kind s
  | running before =>
    obtain ⟨s, m, hs, hm, -, sent⟩ := h.running before hactivity
    refine .goes (by rw [hactivity]; exact (by decide : 1 < 2)) (.inr rfl) ?_
    rw [turn_of_running hactivity hs hm]
    obtain ⟨more, hmore⟩ := s.moved_sent (m.step s.stopRequested)
    have frames : x.written ++
        ((s.moved (m.step s.stopRequested)).sent.toList.drop before).map frameOf =
          x.seen ++ more.map frameOf := by
      rw [seen_of_running hactivity hs, hmore, List.drop_append_of_le_length sent, List.map_append,
        List.append_assoc]
    exact serves_proceed (open_ hactivity (show 2 ≠ 0 by decide)) frames isNote_of_mem_map_frameOf
  | finished =>
    have hturn : x.turn = x := by
      unfold turn
      rw [hactivity]
    rw [hturn]
    exact .idle (.inl hactivity)

/-! ### Turns of the reader -/

theorem seen_raise (x : Exchange) : x.raise.seen = x.seen := by
  unfold seen raise
  dsimp only
  cases x.activity with
  | running before => cases x.connection.session <;> rfl
  | _ => rfl

/-- The reader sends nothing, and leaves the session where it is. -/
theorem read_silent (x : Exchange) :
    x.read.seen = x.seen ∧ x.read.activity = x.activity := by
  obtain ⟨unread, ended, queue, hread⟩ := x.read_eq
  rw [hread]
  split
  · exact ⟨x.seen_raise, rfl⟩
  · exact ⟨rfl, rfl⟩

/-- What a turn of the reader can come to. -/
theorem read_cases (x : Exchange) :
    (x.ended = true ∧ x.read = x) ∨
    (x.ended = false ∧ nextLine? x.unread = none ∧
      x.read.ended = true ∧ x.read.unread = x.unread ∧ x.read.queue = x.queue) ∨
    ∃ r rest, x.ended = false ∧ nextLine? x.unread = some (r, rest) ∧
      x.read.ended = false ∧ x.read.unread = rest ∧ x.read.queue = x.queue ++ [r] := by
  unfold read
  cases hended : x.ended with
  | true => exact .inl ⟨rfl, if_pos rfl⟩
  | false =>
    refine .inr ?_
    rw [if_neg Bool.false_ne_true]
    dsimp only
    cases hnext : nextLine? x.unread with
    | none =>
      refine .inl ⟨rfl, rfl, rfl, ?_, ?_⟩
      · dsimp only
        split <;> rfl
      · dsimp only
        split <;> rfl
    | some next =>
      refine .inr ⟨next.1, next.2, rfl, rfl, ?_, rfl, ?_⟩
      · dsimp only
        split <;> exact hended
      · dsimp only
        split <;> rfl

theorem nextLine?_of_isLine {a : Arrival} (line : IsLine a) (rest : List Arrival) :
    nextLine? (a :: rest) = some (requestOf a, rest) := by
  cases a with
  | ok f => cases f <;> rfl
  | error e =>
    obtain ⟨m, rfl⟩ := line
    rfl

/-- What is read next was the first that had arrived. -/
theorem length_of_nextLine? {arrivals rest : List Arrival} {r : Request}
    (h : nextLine? arrivals = some (r, rest)) : arrivals.length = rest.length + 1 := by
  cases arrivals with
  | nil => cases h
  | cons a arrivals =>
    obtain ⟨r', hnext, -⟩ | ⟨hnext, -⟩ :=
      take_eq { config := {}, host := ⟨{}, .platform, {}, 0⟩ } a arrivals
    · cases hnext.symm.trans h
      rfl
    · exact absurd (hnext.symm.trans h) nofun

/-! ### What has been answered -/

/-- Where all the requests are: some are answered, perhaps one is being served, and the others are
queued or have not been read.  What was sent are the answers and notes on the one that is served. -/
structure Ledger (all answered : List Request) (current : Option Request)
    (blocks : List (List Wire.Frame)) (notes : List Wire.Frame) (x : Exchange) : Prop where
  requests : answered ++ (current.toList ++ (x.queue ++ x.unread.map requestOf)) = all
  lines : ∀ a ∈ x.unread, IsLine a
  ended : x.ended = true → x.unread = []
  going : ∀ r ∈ answered, isLast r = false
  answers : List.Forall₂ Answers answered blocks
  seen : x.seen = blocks.flatten ++ notes
  notes : ∀ f ∈ notes, isNote f = true

/-- An exchange in which the requests are answered one after the other, each once. -/
inductive InStep (all : List Request) (x : Exchange) : Prop where
  | waits {answered : List Request} {blocks : List (List Wire.Frame)}
    (waiting : x.activity = .waiting) (ledger : Ledger all answered none blocks [] x)
  | serves {answered : List Request} {r : Request} {blocks : List (List Wire.Frame)}
    {notes : List Wire.Frame} (busy : 1 < x.activity.phase) (own : ownResponse? r = none)
    (ledger : Ledger all answered (some r) blocks notes x)
  | finished {blocks : List (List Wire.Frame)} (finished : x.activity = .finished)
    (answers : List.Forall₂ Answers (served all) blocks) (seen : x.seen = blocks.flatten)

variable {all answered : List Request} {current : Option Request}
  {blocks : List (List Wire.Frame)} {notes : List Wire.Frame}

theorem Ledger.read (h : Ledger all answered current blocks notes x) :
    Ledger all answered current blocks notes x.read := by
  have seen : x.read.seen = blocks.flatten ++ notes := x.read_silent.1.trans h.seen
  obtain ⟨ended, hread⟩ | ⟨ended, hnext, hended, hunread, hqueue⟩ |
    ⟨r, rest, ended, hnext, hended, hunread, hqueue⟩ := x.read_cases
  · rw [hread]
    exact h
  · have nothing : x.unread = [] := by
      cases hx : x.unread with
      | nil => rfl
      | cons a rest =>
        rw [hx, nextLine?_of_isLine (h.lines a (by rw [hx]; exact List.mem_cons_self))] at hnext
        cases hnext
    refine ⟨?_, ?_, fun _ => hunread.trans nothing, h.going, h.answers, seen, h.notes⟩
    · rw [hunread, hqueue]
      exact h.requests
    · rw [hunread]
      exact h.lines
  · obtain ⟨a, hx, hr⟩ : ∃ a, x.unread = a :: rest ∧ r = requestOf a := by
      cases hx : x.unread with
      | nil =>
        rw [hx] at hnext
        cases hnext
      | cons a rest' =>
        rw [hx, nextLine?_of_isLine (h.lines a (by rw [hx]; exact List.mem_cons_self))] at hnext
        cases hnext
        exact ⟨a, rfl, rfl⟩
    refine ⟨?_, fun b hb => h.lines b ?_, fun h' => ?_, h.going, h.answers, seen, h.notes⟩
    · have all_eq := h.requests
      rw [hx, List.map_cons, ← hr] at all_eq
      rw [hunread, hqueue, List.append_assoc x.queue]
      exact all_eq
    · rw [hx]
      exact List.mem_cons_of_mem _ (hunread ▸ hb)
    · exact absurd (hended.symm.trans h') nofun

theorem InStep.read (h : InStep all x) : InStep all x.read := by
  obtain ⟨seen, activity⟩ := x.read_silent
  cases h with
  | waits waiting ledger => exact .waits (activity.trans waiting) ledger.read
  | serves busy own ledger => exact .serves (by rwa [activity]) own ledger.read
  | finished finished answers hseen =>
    exact .finished (activity.trans finished) answers (seen.trans hseen)

/-- A request that is about a program is gone on with, or answered. -/
theorem Ledger.serve {phase : Nat} {r : Request}
    (h : Ledger all answered (some r) blocks notes x) (own : ownResponse? r = none)
    (serves : Serves phase x.seen x y) : InStep all y := by
  obtain ⟨unread, ended, queue, more, clean, sent⟩ := serves
  have requests : answered ++ (r :: (y.queue ++ y.unread.map requestOf)) = all := by
    rw [queue, unread]
    exact h.requests
  have lines : ∀ a ∈ y.unread, IsLine a := by
    rw [unread]
    exact h.lines
  have done : y.ended = true → y.unread = [] := by
    rw [unread, ended]
    exact h.ended
  have said := isNote_of_mem_append h.notes clean
  rw [h.seen, List.append_assoc] at sent
  obtain ⟨busy, -, seen⟩ | ⟨response, waiting, seen⟩ := sent
  · exact .serves busy own ⟨requests, lines, done, h.going, h.answers, seen, said⟩
  · have ledger : Ledger all (answered ++ [r]) none
        (blocks ++ [notes ++ more ++ [.response response]]) [] y := by
      refine ⟨?_, lines, done, ?_, ?_, ?_, isNote_of_mem_nil⟩
      · rw [List.append_assoc]
        exact requests
      · intro r' hr'
        rcases List.mem_append.1 hr' with hr' | hr'
        · exact h.going r' hr'
        · rw [List.mem_singleton.1 hr']
          exact isLast_of_ownResponse? own
      · exact List.rel_append h.answers (.cons (answers_notes own said response) .nil)
      · rw [seen, List.flatten_append, List.flatten_singleton, List.append_nil, List.append_assoc]
    exact .waits waiting ledger

theorem InStep.turn (h : InStep all x) (turns : Turns x y) : InStep all y := by
  -- while the session waits, the exchange can only be one that waits
  have ledger_of_waiting (waiting : x.activity = .waiting) :
      x.seen = x.written ∧ ∃ answered blocks, Ledger all answered none blocks [] x := by
    refine ⟨seen_of_phase (by rw [waiting]; decide), ?_⟩
    cases h with
    | waits _ ledger => exact ⟨_, _, ledger⟩
    | serves busy => exact absurd busy (by rw [waiting]; decide)
    | finished finished => exact absurd (waiting.symm.trans finished) nofun
  cases turns with
  | idle _ => exact h
  | closes waiting queue ended =>
    obtain ⟨written, answered, blocks, ledger⟩ := ledger_of_waiting waiting
    have requests := ledger.requests
    rw [queue, ledger.ended ended] at requests
    have every : answered = all := (List.append_nil _).symm.trans requests
    have answers : List.Forall₂ Answers (served all) blocks := by
      rw [← every, served_of_none_last ledger.going]
      exact ledger.answers
    exact .finished rfl answers (written.symm.trans (ledger.seen.trans (List.append_nil _)))
  | @answers r rest own connection waiting queue own_ closed =>
    obtain ⟨written, answered, blocks, ledger⟩ := ledger_of_waiting waiting
    have requests := ledger.requests
    rw [queue] at requests
    have answers : List.Forall₂ Answers (answered ++ [r])
        (blocks ++ [[Wire.Frame.response own]]) :=
      List.rel_append ledger.answers (.cons (answers_own own_) .nil)
    have seen : ({ x with queue := rest }.answer { connection, response := own }).seen =
        (blocks ++ [[Wire.Frame.response own]]).flatten := by
      rw [seen_answer, List.flatten_append, List.flatten_singleton]
      exact congrArg (· ++ _) (written.symm.trans (ledger.seen.trans (List.append_nil _)))
    cases last : isLast r with
    | true =>
      refine .finished (if_pos (closed.trans last)) ?_ seen
      rw [← requests]
      exact (served_append_last last _ ledger.going).symm ▸ answers
    | false =>
      refine .waits (if_neg (by rw [closed, last]; exact Bool.false_ne_true))
        ⟨?_, ledger.lines, ledger.ended, fun r' hr' => ?_, answers, ?_, isNote_of_mem_nil⟩
      · rw [List.append_assoc]
        exact requests
      · rcases List.mem_append.1 hr' with hr' | hr'
        · exact ledger.going r' hr'
        · rw [List.mem_singleton.1 hr']
          exact last
      · rw [seen, List.append_nil]
  | @takes r rest y waiting queue own serves =>
    obtain ⟨written, answered, blocks, ledger⟩ := ledger_of_waiting waiting
    have requests := ledger.requests
    rw [queue] at requests
    have taken : Ledger all answered (some r) blocks [] { x with queue := rest } :=
      ⟨requests, ledger.lines, ledger.ended, ledger.going, ledger.answers, ledger.seen, ledger.notes⟩
    exact taken.serve own serves
  | goes busy _ serves =>
    cases h with
    | waits waiting => exact absurd busy (by rw [waiting]; decide)
    | serves _ own ledger => exact ledger.serve own serves
    | finished finished => exact absurd busy (by rw [finished]; decide)

/-- Whoever's turn it is, the requests are answered one after the other. -/
theorem InStep.move (h : InStep all x) (fits : x.Fits) (actor : Actor) :
    InStep all (x.move actor) := by
  cases actor with
  | reader => exact h.read
  | session => exact h.turn (turn_turns fits)

/-- What was sent stays sent. -/
theorem seen_move (fits : x.Fits) (actor : Actor) : x.seen <+: (x.move actor).seen := by
  have serves {phase : Nat} {x y z : Exchange} (h : Serves phase x.seen z y) : x.seen <+: y.seen := by
    obtain ⟨notes, -, ⟨-, -, seen⟩ | ⟨response, -, seen⟩⟩ := h.sends
    · rw [seen]
      exact List.prefix_append _ _
    · rw [seen, List.append_assoc]
      exact List.prefix_append _ _
  cases actor with
  | reader => exact x.read_silent.1.symm ▸ List.prefix_rfl
  | session =>
    have waits (waiting : x.activity = .waiting) : x.seen = x.written :=
      seen_of_phase (by rw [waiting]; decide)
    change x.seen <+: x.turn.seen
    generalize hy : x.turn = y
    cases hy ▸ turn_turns fits with
    | idle _ => exact List.prefix_rfl
    | closes waiting _ _ =>
      rw [waits waiting]
      exact List.prefix_rfl
    | answers waiting _ _ _ =>
      rw [waits waiting, seen_answer]
      exact List.prefix_append _ _
    | takes _ _ _ h => exact serves h
    | goes _ _ h => exact serves h

/-! ### Schedules without end -/

/-- What the first turns of a schedule lead to. -/
def along (x : Exchange) (schedule : Nat → Actor) (n : Nat) : Exchange :=
  x.after ((List.range n).map schedule)

/-- Both actors have a turn again and again. -/
def Fair (schedule : Nat → Actor) : Prop := ∀ actor n, ∃ m, n ≤ m ∧ schedule m = actor

/-- Every program that runs comes to a halt: it suspends or exits. -/
def Halts (x : Exchange) (schedule : Nat → Actor) : Prop :=
  ∀ n before, (x.along schedule n).activity = .running before →
    ∃ m, n ≤ m ∧ ∀ before, (x.along schedule m).activity ≠ .running before

theorem along_succ (x : Exchange) (schedule : Nat → Actor) (n : Nat) :
    x.along schedule (n + 1) = (x.along schedule n).move (schedule n) := by
  unfold along
  rw [List.range_succ, List.map_append, after_append]
  rfl

theorem along_fits (fits : x.Fits) (schedule : Nat → Actor) (n : Nat) :
    (x.along schedule n).Fits := (after_fits _ fits).1

theorem along_inStep (h : InStep all x) (fits : x.Fits) (schedule : Nat → Actor) :
    ∀ n, InStep all (x.along schedule n)
  | 0 => h
  | n + 1 => by
    rw [along_succ]
    exact (along_inStep h fits schedule n).move (along_fits fits schedule n) _

theorem seen_along (fits : x.Fits) (schedule : Nat → Actor) {n m : Nat} (le : n ≤ m) :
    (x.along schedule n).seen <+: (x.along schedule m).seen := by
  induction le with
  | refl => exact List.prefix_rfl
  | step _ ih =>
    rw [along_succ]
    exact ih.trans (seen_move (along_fits fits schedule _) _)

/-! ### All requests are answered -/

/-- How much is left to do, in terms of which every line that is read and every command that is taken
is some progress. -/
def rank (x : Exchange) : Nat :=
  6 * x.unread.length + 5 * x.queue.length + (if x.ended then 0 else 1) + x.activity.phase

/-- Nothing has been done that the rank counts. -/
structure Stalls (x y : Exchange) : Prop where
  unread : y.unread = x.unread
  ended : y.ended = x.ended
  queue : y.queue = x.queue
  phase : y.activity.phase = x.activity.phase

/-- Who can do something unless a program runs. -/
def due (x : Exchange) : Actor :=
  if x.activity.phase = 1 ∧ x.queue = [] ∧ x.ended = false then .reader else .session

theorem Stalls.refl (x : Exchange) : Stalls x x := ⟨rfl, rfl, rfl, rfl⟩

theorem Stalls.trans {z : Exchange} (h : Stalls x y) (h' : Stalls y z) : Stalls x z :=
  ⟨h'.unread.trans h.unread, h'.ended.trans h.ended, h'.queue.trans h.queue,
    h'.phase.trans h.phase⟩

theorem Stalls.rank (h : Stalls x y) : y.rank = x.rank := by
  unfold Exchange.rank
  rw [h.unread, h.ended, h.queue, h.phase]

theorem Stalls.due (h : Stalls x y) : y.due = x.due := by
  unfold Exchange.due
  rw [h.ended, h.queue, h.phase]

theorem Serves.phase_le {phase : Nat} {before : List Wire.Frame} (h : Serves phase before x y) :
    y.activity.phase ≤ phase ∨ y.activity.phase = 1 := by
  obtain ⟨notes, -, ⟨-, bound, -⟩ | ⟨response, waiting, -⟩⟩ := h.sends
  · exact .inl bound
  · exact .inr (by rw [waiting]; rfl)

/-- The reader gets something done up to the end of the input. -/
theorem read_rank (x : Exchange) :
    x.read.rank < x.rank ∨ Stalls x x.read ∧ x.ended = true := by
  have phase : x.read.activity.phase = x.activity.phase := by rw [x.read_silent.2]
  obtain ⟨ended, hread⟩ | ⟨ended, hnext, hended, hunread, hqueue⟩ |
    ⟨r, rest, ended, hnext, hended, hunread, hqueue⟩ := x.read_cases
  · rw [hread]
    exact .inr ⟨.refl x, ended⟩
  · refine .inl ?_
    unfold rank
    rw [hunread, hqueue, hended, ended, phase, if_pos rfl, if_neg Bool.false_ne_true]
    omega
  · refine .inl ?_
    have length := length_of_nextLine? hnext
    unfold rank
    rw [hunread, hqueue, hended, ended, phase, length, List.length_append, List.length_singleton]
    omega

/-- The session gets something done unless it has nothing to do or a program runs. -/
theorem turn_rank (turns : Turns x y) : y.rank < x.rank ∨ Stalls x y ∧
    (x.activity.phase = 0 ∨ x.activity.phase = 2 ∨
      x.activity.phase = 1 ∧ x.queue = [] ∧ x.ended = false) := by
  cases turns with
  | idle h =>
    refine .inr ⟨.refl x, ?_⟩
    obtain finished | ⟨waiting, idle⟩ := h
    · exact .inl (by rw [finished]; rfl)
    · exact .inr (.inr ⟨by rw [waiting]; rfl, idle⟩)
  | closes waiting _ _ =>
    refine .inl ?_
    unfold rank
    rw [waiting]
    exact Nat.lt_succ_self _
  | @answers r rest own connection waiting queue _ _ =>
    have phase : x.activity.phase = 1 := by rw [waiting]; rfl
    have phase' : ({ x with queue := rest }.answer
        { connection, response := own }).activity.phase ≤ 1 := by
      unfold answer
      dsimp only
      split <;> decide
    refine .inl ?_
    unfold rank
    rw [phase, queue, List.length_cons]
    change 6 * x.unread.length + 5 * rest.length + (if x.ended then 0 else 1) + _ <
      6 * x.unread.length + 5 * (rest.length + 1) + (if x.ended then 0 else 1) + _
    omega
  | takes waiting queue _ serves =>
    have phase : x.activity.phase = 1 := by rw [waiting]; rfl
    have phase' := serves.phase_le
    refine .inl ?_
    unfold rank
    rw [phase, queue, List.length_cons, serves.unread, serves.ended, serves.queue]
    dsimp only
    omega
  | goes busy later serves =>
    have phase' := serves.phase_le
    by_cases lower : y.activity.phase < x.activity.phase
    · refine .inl ?_
      unfold rank
      rw [serves.unread, serves.ended, serves.queue]
      omega
    · exact .inr ⟨⟨serves.unread, serves.ended, serves.queue, by omega⟩, .inr (.inl (by omega))⟩

theorem move_rank (fits : x.Fits) (actor : Actor) :
    (x.move actor).rank < x.rank ∨ Stalls x (x.move actor) := by
  cases actor with
  | reader => exact x.read_rank.imp_right And.left
  | session => exact (turn_rank (turn_turns fits)).imp_right And.left

/-- Who can do something does it at the next turn. -/
theorem due_rank (fits : x.Fits) (serving : x.activity.phase ≠ 0) (still : x.activity.phase ≠ 2) :
    (x.move x.due).rank < x.rank := by
  unfold due
  split
  · next reading =>
    obtain lower | ⟨-, ended⟩ := x.read_rank
    · exact lower
    · exact absurd (reading.2.2.symm.trans ended) nofun
  · next reading =>
    obtain lower | ⟨-, finished | running | waiting⟩ := turn_rank (turn_turns fits)
    · exact lower
    · exact absurd finished serving
    · exact absurd running still
    · exact absurd waiting reading

theorem along_rank (fits : x.Fits) (schedule : Nat → Actor) {n m : Nat} (le : n ≤ m) :
    (x.along schedule m).rank < (x.along schedule n).rank ∨
      Stalls (x.along schedule n) (x.along schedule m) := by
  induction le with
  | refl => exact .inr (.refl _)
  | @step m _ ih =>
    rw [along_succ]
    obtain lower | stalls := move_rank (along_fits fits schedule m) (schedule m)
    · refine .inl (Nat.lt_of_lt_of_le lower ?_)
      obtain lower' | stalls' := ih
      · exact Nat.le_of_lt lower'
      · exact Nat.le_of_eq stalls'.rank
    · obtain lower' | stalls' := ih
      · exact .inl (stalls.rank ▸ lower')
      · exact .inr (stalls'.trans stalls)

/-- Unless the session serves no more, something gets done some time later. -/
theorem along_drops (fits : x.Fits) {schedule : Nat → Actor} (fair : Fair schedule)
    (halts : Halts x schedule) {n : Nat} (serving : (x.along schedule n).activity.phase ≠ 0) :
    ∃ m, (x.along schedule m).rank < (x.along schedule n).rank := by
  by_cases running : (x.along schedule n).activity.phase = 2
  · obtain ⟨before, hrunning⟩ := Activity.eq_running running
    obtain ⟨m, le, halted⟩ := halts n before hrunning
    obtain lower | stalls := along_rank fits schedule le
    · exact ⟨m, lower⟩
    · obtain ⟨before', still⟩ := Activity.eq_running (stalls.phase.trans running)
      exact absurd still (halted before')
  · obtain ⟨m, le, hm⟩ := fair (x.along schedule n).due n
    obtain lower | stalls := along_rank fits schedule le
    · exact ⟨m, lower⟩
    · refine ⟨m + 1, ?_⟩
      rw [along_succ, hm, ← stalls.due, ← stalls.rank]
      exact due_rank (along_fits fits schedule m) (stalls.phase ▸ serving) (stalls.phase ▸ running)

/-- The session comes to where it serves no more. -/
theorem along_finishes (fits : x.Fits) {schedule : Nat → Actor} (fair : Fair schedule)
    (halts : Halts x schedule) (n : Nat) :
    ∃ m, (x.along schedule m).activity = .finished := by
  by_cases serving : (x.along schedule n).activity.phase = 0
  · exact ⟨n, Activity.eq_finished serving⟩
  · obtain ⟨m, lower⟩ := along_drops fits fair halts serving
    exact along_finishes fits fair halts m
termination_by (x.along schedule n).rank

/-- Once the session serves no more, nothing is sent. -/
theorem along_of_finished (schedule : Nat → Actor) {n m : Nat} (le : n ≤ m)
    (finished : (x.along schedule n).activity = .finished) :
    (x.along schedule m).activity = .finished ∧
      (x.along schedule m).seen = (x.along schedule n).seen := by
  induction le with
  | refl => exact ⟨finished, rfl⟩
  | @step m _ ih =>
    rw [along_succ]
    cases schedule m with
    | reader =>
      obtain ⟨seen, activity⟩ := (x.along schedule m).read_silent
      exact ⟨activity.trans ih.1, seen.trans ih.2⟩
    | session =>
      have idle : (x.along schedule m).turn = x.along schedule m := by
        unfold turn
        rw [ih.1]
      rw [move, idle]
      exact ih

end Exchange

/-- All requests that arrive on lines of text. -/
def requestsOn (lines : List String) : List Request := (arrivalsOf lines).map requestOf

theorem isLine_of_mem_arrivalsOf {lines : List String} : ∀ a ∈ arrivalsOf lines, IsLine a := by
  intro a ha
  obtain ⟨line, -, rfl⟩ := List.mem_map.1 ha
  obtain ⟨f, hf⟩ | wrong := decode_cases line
  · rw [hf]
    trivial
  · rw [wrong]
    exact ⟨_, rfl⟩

/-- However the reader and the session take turns, as long as both go on and every program that runs
comes to a halt: what is sent to a client that sends some lines of text are the answers to the lines
that are not blank, in order, up to the first `goodbye`, each of them one response with notes before
it.  The session ends, and not before all of them are sent.  A backend that takes one line after the
other answers the same requests. -/
theorem one_response (config : Config) (host : Host) {lines : List String}
    (unbroken : ∀ line ∈ lines, '\n' ∉ line.toList) {schedule : Nat → Actor}
    (fair : Exchange.Fair schedule)
    (halts : (Exchange.opened config host (readFrames (bytesOf lines))).Halts schedule) :
    (∃ blocks, List.Forall₂ Answers (served (requestsOn lines)) blocks ∧
      (Connection.serve { config, host } (readFrames (bytesOf lines))).1 = blocks.flatten) ∧
    let x := Exchange.opened config host (readFrames (bytesOf lines))
    ∃ blocks, List.Forall₂ Answers (served (requestsOn lines)) blocks ∧
      (∀ n, (x.along schedule n).seen <+: blocks.flatten) ∧
      (∀ n, (x.along schedule n).activity = .finished →
        (x.along schedule n).seen = blocks.flatten) ∧
      ∃ last, ∀ n, last ≤ n → (x.along schedule n).activity = .finished := by
  rw [readFrames_bytesOf unbroken] at halts ⊢
  refine ⟨Connection.serve_answers rfl isLine_of_mem_arrivalsOf, ?_⟩
  intro x
  have fits : x.Fits := Exchange.opened_fits config host _
  have begun : Exchange.InStep (requestsOn lines) x :=
    .waits rfl ⟨rfl, isLine_of_mem_arrivalsOf, nofun, fun _ hr => absurd hr List.not_mem_nil, .nil,
      rfl, isNote_of_mem_nil⟩
  obtain ⟨last, finished⟩ := Exchange.along_finishes fits fair halts 0
  -- two times at which the session serves no more are alike
  have alike {n m : Nat} (hn : (x.along schedule n).activity = .finished)
      (hm : (x.along schedule m).activity = .finished) :
      (x.along schedule n).seen = (x.along schedule m).seen := by
    obtain le | le := Nat.le_total n m
    · exact (Exchange.along_of_finished schedule le hn).2.symm
    · exact (Exchange.along_of_finished schedule le hm).2
  cases Exchange.along_inStep begun fits schedule last with
  | waits waiting => exact absurd (finished.symm.trans waiting) nofun
  | serves busy => exact absurd busy (by rw [finished]; decide)
  | @finished blocks _ answers seen =>
    refine ⟨blocks, answers, fun n => ?_, fun n hn => (alike hn finished).trans seen, last,
      fun n le => (Exchange.along_of_finished schedule le finished).1⟩
    rw [← seen]
    obtain le | le := Nat.le_total n last
    · exact Exchange.seen_along fits schedule le
    · have same := (Exchange.along_of_finished schedule le finished).2
      exact ⟨[], (List.append_nil _).trans same⟩

/-! ### A session -/

/-- The line of a command. -/
def lineOf (command : Command) : String := (Wire.Frame.command command).toJson.text

theorem arrivalsOf_lineOf (command : Command) (lines : List String) :
    arrivalsOf (lineOf command :: lines) = .ok (.command command) :: arrivalsOf lines := by
  have blank : isBlankLine (lineOf command) = false := Wire.Frame.isBlankLine_text _
  have decoded : decode (lineOf command) = .ok (.command command) := Wire.Frame.decode_text trivial
  rw [arrivalsOf_cons, if_neg (Bool.eq_false_iff.1 blank), decoded]

theorem lineBreak_not_mem_lineOf (command : Command) : '\n' ∉ (lineOf command).toList :=
  Json.lineBreak_not_mem_text (Wire.Frame.gives (f := .command command) trivial).plain

/-- A program without end is run and stopped, between lines that are refused or not served. -/
def sessionLines : List String :=
  ["", "?", lineOf (.ofKind .run [] Exchange.endlessText), lineOf (.ofKind .stop [] ""),
    lineOf ⟨"halt", [], ""⟩, lineOf (.ofKind .goodbye [] ""), lineOf (.ofKind .hello [] "")]

/-- The `stop` is read while the program runs. -/
def sessionTurns : List Actor :=
  [.reader, .session, .reader, .session, .session, .session, .session, .reader, .session, .session,
    .reader, .reader, .session, .session, .session]

def sessionSchedule (n : Nat) : Actor :=
  sessionTurns.getD n (if n % 2 = 0 then .reader else .session)

theorem sessionSchedule_fair : Exchange.Fair sessionSchedule := by
  have later (n : Nat) : sessionSchedule (n + 15) =
      if (n + 15) % 2 = 0 then .reader else .session := by
    unfold sessionSchedule
    rw [List.getD_eq_getElem?_getD,
      List.getElem?_eq_none (show sessionTurns.length ≤ n + 15 from Nat.le_add_left 15 n),
      Option.getD_none]
  intro actor n
  cases actor with
  | reader =>
    refine ⟨2 * n + 1 + 15, by omega, ?_⟩
    rw [later, if_pos (by omega)]
  | session =>
    refine ⟨2 * n + 15, by omega, ?_⟩
    rw [later, if_neg (by omega)]

theorem arrivalsOf_sessionLines : arrivalsOf sessionLines =
    [.error (.malformed notAFrame),
      .ok (.command (.ofKind .run [] Exchange.endlessText)),
      .ok (.command (.ofKind .stop [] "")), .ok (.command ⟨"halt", [], ""⟩),
      .ok (.command (.ofKind .goodbye [] "")), .ok (.command (.ofKind .hello [] ""))] := by
  have wrong : decode "?" = .error (.malformed notAFrame) := by decide +kernel
  rw [sessionLines, arrivalsOf_cons, if_pos (by decide), arrivalsOf_cons, if_neg (by decide), wrong,
    arrivalsOf_lineOf, arrivalsOf_lineOf, arrivalsOf_lineOf, arrivalsOf_lineOf, arrivalsOf_lineOf]
  simp only [arrivalsOf, List.filter_nil, List.map_nil]

/-- The exchange before the program goes through its stages. -/
def sessionLoading : Exchange :=
  (Exchange.opened {} ⟨{}, .platform, {}, 0⟩ (arrivalsOf sessionLines)).after (sessionTurns.take 5)

theorem sessionLoading_eq : sessionLoading.activity = .loading .run ∧
    sessionLoading.connection.session = some Exchange.endlessLoaded := by
  unfold sessionLoading
  rw [arrivalsOf_sessionLines]
  exact ⟨rfl, rfl⟩

/-- The session while the lines arrive. -/
def sessionExchange : Exchange :=
  Exchange.opened {} ⟨{}, .platform, {}, 0⟩ (readFrames (bytesOf sessionLines))

theorem sessionLines_unbroken : ∀ line ∈ sessionLines, '\n' ∉ line.toList := by
  simp only [sessionLines, List.forall_mem_cons, lineBreak_not_mem_lineOf, not_false_eq_true]
  decide

theorem sessionExchange_finished :
    (sessionExchange.along sessionSchedule 15).activity = .finished := by
  have turns : (List.range 15).map sessionSchedule =
      sessionTurns.take 5 ++ .session :: sessionTurns.drop 6 := rfl
  have hturn := Exchange.turn_of_loading sessionLoading_eq.1 sessionLoading_eq.2
    Exchange.endlessLoaded_enterTerminal (Option.some_get Exchange.endlessEntered_machine).symm
    Exchange.endless_goes.1
  unfold sessionExchange Exchange.along
  rw [readFrames_bytesOf sessionLines_unbroken, turns, Exchange.after_append, Exchange.after_cons]
  change (sessionLoading.turn.after _).activity = _
  rw [hturn]
  unfold sessionLoading
  rw [arrivalsOf_sessionLines]
  refine Activity.eq_finished ?_
  decide +kernel

/-- Five requests are answered, and the last line is not. -/
theorem sessionLines_answered :
    Exchange.Fair sessionSchedule ∧ sessionExchange.Halts sessionSchedule ∧
      ∃ blocks, List.Forall₂ Answers (served (requestsOn sessionLines)) blocks ∧
        blocks.length = 5 ∧ (sessionExchange.along sessionSchedule 15).seen = blocks.flatten := by
  have halts : sessionExchange.Halts sessionSchedule := by
    intro n before running
    refine ⟨max n 15, Nat.le_max_left n 15, fun before' running' => ?_⟩
    have ended := (Exchange.along_of_finished sessionSchedule (Nat.le_max_right n 15)
      sessionExchange_finished).1
    cases ended.symm.trans running'
  obtain ⟨-, blocks, answers, -, all, -⟩ := one_response {} ⟨{}, .platform, {}, 0⟩
    sessionLines_unbroken sessionSchedule_fair halts
  refine ⟨sessionSchedule_fair, halts, blocks, answers, ?_, all 15 sessionExchange_finished⟩
  have five : (served (requestsOn sessionLines)).length = 5 := by
    unfold requestsOn
    rw [arrivalsOf_sessionLines]
    decide +kernel
  exact answers.length_eq.symm.trans five

end ScriptLang.Backend
