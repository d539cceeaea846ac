import ScriptLang.Proofs.Listening
import ScriptLang.Proofs.StageWork

/-!
# Histories of sessions

A session is asked one thing after the other, in any order, and a request to stop can come while its
program runs.  A `History` takes down the answers, and as `Deed`s the work that the session does for
its stages, with what the work comes to; it changes nothing of the answers (`answer_account`).  What
has been done is always an initial part of the stages in order, all of them but the last with success
(`askAll_inOrder`).
-/

namespace ScriptLang

open Machine (Mode Outcome Emission)

namespace Session

/-! ### Requests -/

/-- What a session can be asked.  A request to stop can come while the program runs: `stops n` says
whether it has come when the step after `n` others is taken. -/
inductive Request where
  | load (source : Source)
  | advance
  | compile
  | run (stops : Nat → Bool)
  | debug (stops : Nat → Bool)
  | resume (mode : Mode) (stops : Nat → Bool)
  | addBreakpoint (line : Nat)

/-- What a request comes to that is not refused. -/
inductive Success where
  | done
  | entered (stage : Stage)
  | came (outcome : Outcome)

/-- The session with a machine, after more has been sent. -/
def withMachine (s : Session) (m : Machine) (sent : Array Emission) : Session :=
  { s with machine := some m, sent := s.sent ++ sent }

/-- The session when a run has come to an outcome. -/
def settled (s : Session) (m : Machine) (sent : Array Emission) (o : Outcome) : Session :=
  match o with
  | .exited _ => (s.withMachine m sent).announce .stageEnd s.stage
  | _ => s.withMachine m sent

/-- Run the machine in a mode while requests to stop may come. -/
def driveUnder (s : Session) (mode : Mode) (stops : Nat → Bool) : Answer Outcome :=
  match s.machine with
  | none => (.error .notSuspended, s)
  | some m =>
    let (m', sent, o) := m.resumeUnder mode stops s.fuel
    (.ok o, s.settled m' sent o)

/-- Run the program to its end while requests to stop may come. -/
def runUnder (s : Session) (stops : Nat → Bool) : Answer Outcome :=
  match s.enterTerminal with
  | (.error e, s) => (.error e, s)
  | (.ok (), s) => s.driveUnder .run stops

/-- The session whose machine is to be suspended before its first instruction. -/
def pausedAtStart (s : Session) : Session := { s with machine := s.machine.map Machine.pauseAtStart }

/-- Start the program and suspend it before its first instruction, unless a request to stop comes. -/
def debugUnder (s : Session) (stops : Nat → Bool) : Answer Outcome :=
  match s.enterTerminal with
  | (.error e, s) => (.error e, s)
  | (.ok (), s) => s.pausedAtStart.driveUnder .continue stops

/-- Resume the program while requests to stop may come. -/
def resumeUnder (s : Session) (mode : Mode) (stops : Nat → Bool) : Answer Outcome :=
  if s.isSuspended then s.driveUnder mode stops else (.error .notSuspended, s)

/-- A run to which nothing happens meanwhile is one of the session's own. -/
theorem driveUnder_const (s : Session) (mode : Mode) :
    s.driveUnder mode (fun _ => s.stopRequested) = s.drive mode := by
  unfold driveUnder drive
  cases s.machine with
  | none => rfl
  | some m =>
    simp only [Machine.resumeUnder_const]
    generalize m.resume mode s.stopRequested s.fuel = r
    obtain ⟨m', sent, o⟩ := r
    cases o <;> rfl

theorem resumeUnder_const (s : Session) (mode : Mode) :
    s.resumeUnder mode (fun _ => s.stopRequested) = s.resume mode := by
  unfold resumeUnder resume
  rw [driveUnder_const]

/-! ### Work and answers -/

/-- The work that was done for a stage. -/
structure Deed where
  stage : Stage
  result : Except (List Diagnostic) Unit

namespace Deed

def succeeded (d : Deed) : Bool := d.result.isOk

/-- What went wrong. -/
def diagnostics (d : Deed) : List Diagnostic :=
  match d.result with
  | .ok () => []
  | .error ds => ds

end Deed

/-- The session that a stage's work is done in. -/
def entering (s : Session) (stage : Stage) : Session :=
  { (if s.announces stage then (s.announce .stageInit stage).announce .stageStart stage else s) with
    stage }

/-- The work that the session does when it enters a stage. -/
def deed (s : Session) (stage : Stage) : Deed := ⟨stage, ((s.entering stage).work stage).1⟩

/-- An answer together with the work that was done for it. -/
structure Account (α : Type) where
  answer : Answer α
  deeds : List Deed := []

namespace Account

variable {α β : Type}

/-- Go on if the answer is no refusal. -/
def andThen (a : Account α) (next : α → Session → Account β) : Account β :=
  match a.answer with
  | (.ok v, s) => ⟨(next v s).answer, a.deeds ++ (next v s).deeds⟩
  | (.error e, s) => ⟨(.error e, s), a.deeds⟩

theorem answer_andThen (a : Account α) (next : α → Session → Account β) :
    (a.andThen next).answer = match a.answer with
      | (.ok v, s) => (next v s).answer
      | (.error e, s) => (.error e, s) := by
  unfold andThen
  split <;> rfl

end Account

/-- `advance`, with its work. -/
def advancing (s : Session) : Account Stage :=
  match s.failed with
  | some stage => ⟨(.error (.halted stage), s), []⟩
  | none =>
    match s.stage.next? s.config.execute with
    | none => ⟨(.error (.wrongStage "advance" s.stage), s), []⟩
    | some stage => ⟨s.perform stage, [s.deed stage]⟩

/-- `advanceToLinked`, with its work. -/
def advancingToLinked : (steps : Nat) → Session → Account Unit
  | 0, s => ⟨(.ok (), s), []⟩
  | steps + 1, s =>
    if s.stage.rank < Stage.generate.rank then
      s.advancing.andThen fun _ s => advancingToLinked steps s
    else ⟨(.ok (), s), []⟩

/-- `compile`, with its work. -/
def compiling (s : Session) : Account Unit := advancingToLinked Stage.generate.rank s

/-- `enterTerminal`, with its work. -/
def enteringTerminal (s : Session) : Account Unit :=
  if s.stage.isTerminal then ⟨(.error (.wrongStage "start the program" s.stage), s), []⟩
  else s.compiling.andThen fun _ s => s.advancing.andThen fun _ s => ⟨(.ok (), s), []⟩

def Answer.giving {α β : Type} (a : Answer α) (f : α → β) : Answer β := (a.1.map f, a.2)

/-- What a session answers to a request. -/
def answer (s : Session) : Request → Answer Success
  | .load source => (s.load source).giving fun _ => .done
  | .advance => s.advance.giving .entered
  | .compile => s.compile.giving fun _ => .done
  | .run stops => (s.runUnder stops).giving .came
  | .debug stops => (s.debugUnder stops).giving .came
  | .resume mode stops => (s.resumeUnder mode stops).giving .came
  | .addBreakpoint line => (.ok .done, s.addBreakpoint line)

/-- What a session answers to a request, with its work. -/
def account (s : Session) : Request → Account Success
  | .load source => ⟨(s.load source).giving fun _ => .done, []⟩
  | .advance => s.advancing.andThen fun stage s => ⟨(.ok (.entered stage), s), []⟩
  | .compile => s.compiling.andThen fun _ s => ⟨(.ok .done, s), []⟩
  | .run stops => s.enteringTerminal.andThen fun _ s => ⟨(s.driveUnder .run stops).giving .came, []⟩
  | .debug stops =>
    s.enteringTerminal.andThen fun _ s =>
      ⟨(s.pausedAtStart.driveUnder .continue stops).giving .came, []⟩
  | .resume mode stops => ⟨(s.resumeUnder mode stops).giving .came, []⟩
  | .addBreakpoint line => ⟨(.ok .done, s.addBreakpoint line), []⟩

theorem answer_advancing (s : Session) : s.advancing.answer = s.advance := by
  unfold advancing advance
  cases s.failed with
  | some stage => rfl
  | none => cases s.stage.next? s.config.execute <;> rfl

theorem answer_advancingToLinked : ∀ (steps : Nat) (s : Session),
    (advancingToLinked steps s).answer = advanceToLinked steps s
  | 0, s => rfl
  | steps + 1, s => by
    unfold advancingToLinked advanceToLinked
    split
    · rw [Account.answer_andThen, answer_advancing]
      simp only [answer_advancingToLinked steps]
      obtain ⟨_ | _, t⟩ := s.advance <;> rfl
    · rfl

theorem answer_compiling (s : Session) : s.compiling.answer = s.compile :=
  answer_advancingToLinked _ s

theorem answer_enteringTerminal (s : Session) : s.enteringTerminal.answer = s.enterTerminal := by
  unfold enteringTerminal enterTerminal
  split
  · rfl
  · simp only [Account.answer_andThen, answer_compiling, answer_advancing]
    obtain ⟨_ | _, t⟩ := s.compile
    · rfl
    · dsimp only
      obtain ⟨_ | _, u⟩ := t.advance <;> rfl

/-- To take down the work changes nothing of the answers. -/
theorem answer_account (s : Session) (r : Request) : (s.account r).answer = s.answer r := by
  have run (mode : Mode) (stops : Nat → Bool) (change : Session → Session) :
      (s.enteringTerminal.andThen fun _ t =>
          ⟨((change t).driveUnder mode stops).giving Success.came, []⟩).answer =
        Answer.giving (match s.enterTerminal with
          | (.error e, t) => (.error e, t)
          | (.ok (), t) => (change t).driveUnder mode stops) .came := by
    rw [Account.answer_andThen, answer_enteringTerminal]
    obtain ⟨_ | _, t⟩ := s.enterTerminal <;> rfl
  cases r with
  | advance =>
    unfold account answer
    rw [Account.answer_andThen, answer_advancing]
    obtain ⟨_ | _, t⟩ := s.advance <;> rfl
  | compile =>
    unfold account answer
    rw [Account.answer_andThen, answer_compiling]
    obtain ⟨_ | _, t⟩ := s.compile <;> rfl
  | run stops => exact run .run stops id
  | debug stops => exact run .continue stops pausedAtStart
  | _ => rfl

/-! ### Histories -/

/-- What has become of a session, the work that it has done, and its answers. -/
structure History where
  session : Session
  deeds : List Deed := []
  answers : List (Except SessionError Success) := []

namespace History

def ask (h : History) (r : Request) : History where
  session := (h.session.account r).answer.2
  deeds := h.deeds ++ (h.session.account r).deeds
  answers := h.answers ++ [(h.session.account r).answer.1]

def askAll (h : History) (rs : List Request) : History := rs.foldl ask h

/-- A new session, which nothing has been asked. -/
def ofConfig (config : Config) (files : FileSystem) (bridge : Native.Bridge) (fuel : Nat) : History where
  session := Session.ofConfig config files bridge fuel

end History

/-! ### What the work of a stage leaves alone -/

/-- Whether what a stage makes is there. -/
def has (s : Session) : Stage → Bool
  | .init => true
  | .parse => s.parsed.isSome
  | .bind => s.bound.isSome
  | .intermediate => s.code.isSome
  | .generate => s.executable.isSome
  | .execute | .interpret => s.machine.isSome

end Session

theorem Machine.Unstarted.isFinished {m : Machine} (h : m.Unstarted) : m.isFinished = false := by
  unfold Machine.isFinished
  rw [h.phase]

theorem Machine.Unstarted.pauseAtStart {m : Machine} (h : m.Unstarted) : m.pauseAtStart.Unstarted :=
  ⟨h.phase, h.frames, h.depth, h.resuming⟩

namespace Session

/-- The work of a stage leaves alone all but what it makes.  Only if it `installs` one does it set up a
machine. -/
structure Leaves (installs : Bool) (s t : Session) : Prop where
  config : t.config = s.config
  source : t.source = s.source
  stage : t.stage = s.stage
  failed : t.failed = s.failed
  sent : t.sent = s.sent
  machine : t.machine = s.machine ∨ installs = true ∧ ∃ m, t.machine = some m ∧ m.Unstarted
  has : ∀ x, s.has x = true → t.has x = true

theorem Leaves.refl {b : Bool} (s : Session) : Leaves b s s :=
  ⟨rfl, rfl, rfl, rfl, rfl, .inl rfl, fun _ => id⟩

theorem Leaves.trans {b : Bool} {s t u : Session} (h : Leaves b s t) (h' : Leaves b t u) :
    Leaves b s u where
  config := h'.config.trans h.config
  source := h'.source.trans h.source
  stage := h'.stage.trans h.stage
  failed := h'.failed.trans h.failed
  sent := h'.sent.trans h.sent
  machine := by
    obtain same | fresh := h'.machine
    · rw [same]
      exact h.machine
    · exact .inr fresh
  has x := h'.has x ∘ h.has x

section

variable {b : Bool} (s : Session)

theorem foldl_addBreakpoint_depth : ∀ (lines : List Nat) (t : Machine.Stepper),
    (lines.foldl (fun (t : Machine.Stepper) line => (t.addBreakpoint line).2) t).depth = t.depth
  | [], _ => rfl
  | line :: lines, t => by
    rw [List.foldl_cons, foldl_addBreakpoint_depth lines, Machine.addBreakpoint_depth]

theorem install_leaves (image : Machine.Image) : Leaves true s (s.install image) := by
  refine ⟨rfl, rfl, rfl, rfl, rfl, .inr ⟨rfl, _, rfl, rfl, rfl, ?_, rfl⟩, fun x h => ?_⟩
  · exact foldl_addBreakpoint_depth s.breakpoints {}
  · cases x <;> first | exact h | rfl

theorem work_leaves (stage : Stage) : Leaves stage.isTerminal s (s.work stage).2 := by
  have work := s.work_works stage
  generalize s.work stage = w at work
  cases work with
  | nothing => exact .refl s
  | executing _ => exact s.install_leaves _
  | interpreting _ => exact s.install_leaves _
  | _ => exact ⟨rfl, rfl, rfl, rfl, rfl, .inl rfl, fun x h => by cases x <;> first | exact h | rfl⟩

/-- Work that succeeds makes what its stage is for. -/
theorem work_has (stage : Stage) (h : (s.work stage).1 = .ok ()) :
    (s.work stage).2.has stage = true := by
  have work := s.work_works stage
  generalize s.work stage = w at work h
  cases work with
  | failed _ _ _ => cases h
  | _ => rfl

/-- Work that fails says what went wrong. -/
theorem work_error_ne_nil (stage : Stage) {ds : List Diagnostic}
    (h : (s.work stage).1 = .error ds) : ds ≠ [] := by
  have work := s.work_works stage
  generalize s.work stage = w at work h
  cases work with
  | failed told _ _ =>
    cases h
    exact told
  | _ => cases h

/-- A program that has been linked can be set up to be run. -/
theorem work_of_terminal {stage : Stage} (terminal : stage.isTerminal = true)
    (hcode : s.has .intermediate = true) (hexecutable : s.has .generate = true) :
    (s.work stage).1 = .ok () := by
  obtain ⟨code, hcode⟩ := Option.isSome_iff_exists.1 hcode
  obtain ⟨e, hexecutable⟩ := Option.isSome_iff_exists.1 hexecutable
  cases stage with
  | execute =>
    change s.prepareLinked.1 = _
    simp [prepareLinked, hexecutable]
  | interpret =>
    change s.prepareInterpreted.1 = _
    simp [prepareInterpreted, hcode]
  | _ => cases terminal

/-! ### What a stage comes to -/

/-- What is sent about a stage that is announced, before the program runs. -/
def Deed.announcement (d : Deed) : List Emission :=
  [.message (.ofStage .stageInit d.stage), .message (.ofStage .stageStart d.stage)] ++
    if d.succeeded && d.stage.isTerminal then []
    else [.message ⟨.stageEnd, .stage d.stage d.diagnostics⟩]

theorem Deed.announcement_ok {stage : Stage} {d : Deed} (h : d = ⟨stage, .ok ()⟩) :
    d.announcement = [.message (.ofStage .stageInit stage), .message (.ofStage .stageStart stage)] ++
      if stage.isTerminal then [] else [.message (.ofStage .stageEnd stage)] := by
  subst h
  rfl

theorem Deed.announcement_error {stage : Stage} {ds : List Diagnostic} {d : Deed}
    (h : d = ⟨stage, .error ds⟩) :
    d.announcement = [.message (.ofStage .stageInit stage), .message (.ofStage .stageStart stage),
      .message ⟨.stageEnd, .stage stage ds⟩] := by
  subst h
  rfl

/-- The session `t` that entering a stage makes of `s`. -/
structure Enters (s : Session) (next : Stage) (t : Session) : Prop where
  config : t.config = s.config
  source : t.source = s.source
  stage : t.stage = next
  failed : t.failed = if (s.deed next).succeeded then s.failed else some next
  sent : t.sent.toList =
    s.sent.toList ++ if s.announces next then (s.deed next).announcement else []
  machine : t.machine = s.machine ∨
    next.isTerminal = true ∧ ∃ m, t.machine = some m ∧ m.Unstarted
  has : ∀ x, s.has x = true → t.has x = true
  made : (s.deed next).succeeded = true → t.has next = true

theorem entering_leaves (next : Stage) :
    Leaves b { s with stage := next, sent := (s.entering next).sent } (s.entering next) := by
  unfold entering
  split <;> exact ⟨rfl, rfl, rfl, rfl, rfl, .inl rfl, fun x h => by cases x <;> exact h⟩

theorem entering_sent (next : Stage) : (s.entering next).sent.toList =
    s.sent.toList ++ if s.announces next then
      [.message (.ofStage .stageInit next), .message (.ofStage .stageStart next)] else [] := by
  unfold entering
  split <;> simp [announce, send, *]

theorem perform_eq (next : Stage) : s.perform next = match (s.entering next).work next with
    | (.ok (), t) =>
      (.ok next, if s.announces next && !next.isTerminal then t.announce .stageEnd next else t)
    | (.error ds, t) =>
      (.error (.stageFailed next ds), if s.announces next then
        send { t with failed := some next } ⟨.stageEnd, .stage next ds⟩
        else { t with failed := some next }) := rfl

theorem perform_enters (next : Stage) : s.Enters next (s.perform next).2 := by
  have sent := s.entering_sent next
  have left := (s.entering next).work_leaves next
  have made := (s.entering next).work_has next
  have worked := (s.entering_leaves next).trans left
  have has (x : Stage) (h : s.has x = true) : ((s.entering next).work next).2.has x = true :=
    worked.has x (by cases x <;> exact h)
  have same := left.sent
  have hdeed : s.deed next = ⟨next, ((s.entering next).work next).1⟩ := rfl
  rw [perform_eq]
  generalize (s.entering next).work next = r at worked made has same hdeed
  obtain ⟨ds | ⟨⟩, t⟩ := r
  · have told : (s.deed next).succeeded = false := by rw [hdeed]; rfl
    have announcement := Deed.announcement_error hdeed
    dsimp only at same worked made has ⊢
    refine ⟨?_, ?_, ?_, ?_, ?_, ?_, fun x h => ?_, fun h => ?_⟩
    · split <;> exact worked.config
    · split <;> exact worked.source
    · split <;> exact worked.stage
    · rw [told]
      split <;> rfl
    · rw [announcement]
      split <;> simp [send, *]
    · split <;> exact worked.machine
    · have kept := has x h
      split <;> cases x <;> exact kept
    · rw [told] at h
      cases h
  · have told : (s.deed next).succeeded = true := by rw [hdeed]; rfl
    have announcement := Deed.announcement_ok hdeed
    have kept := made rfl
    dsimp only at same worked kept has ⊢
    refine ⟨?_, ?_, ?_, ?_, ?_, ?_, fun x h => ?_, fun _ => ?_⟩
    · split <;> exact worked.config
    · split <;> exact worked.source
    · split <;> exact worked.stage
    · rw [told]
      split <;> exact worked.failed
    · rw [announcement]
      cases hloud : s.announces next <;> cases hlast : next.isTerminal <;>
        simp [announce, send, same, sent, hloud]
    · split <;> exact worked.machine
    · have kept := has x h
      split <;> cases x <;> exact kept
    · split <;> cases next <;> exact kept

end

/-! ### The order of the work -/

/-- The stages that a session has entered when it has come to this one. -/
def stagesTo (linked : Bool) (stage : Stage) : List Stage :=
  (Stage.course linked).tail.take stage.rank

theorem stagesTo_next {linked : Bool} {stage next : Stage} (h : stage.next? linked = some next) :
    stagesTo linked next = stagesTo linked stage ++ [next] ∧ next ∈ Stage.course linked := by
  cases stage <;> cases linked <;> cases h <;> decide

/-- All that was done was done with success, except that work was the last if it failed. -/
def Halts (failed : Option Stage) (deeds : List Deed) : Prop :=
  match failed with
  | none => ∀ d ∈ deeds, d.succeeded = true
  | some stage => ∃ earlier ds, deeds = earlier ++ [⟨stage, .error ds⟩] ∧
      ∀ d ∈ earlier, d.succeeded = true

/-- The stages were entered in order, the session is in the last of them, and it has what their work
has made. -/
structure InOrder (c : Config) (deeds : List Deed) (s : Session) : Prop where
  config : s.config = c
  stages : deeds.map Deed.stage = stagesTo c.execute s.stage
  stage : s.stage ∈ Stage.course c.execute
  halts : Halts s.failed deeds
  products : ∀ d ∈ deeds, d.succeeded = true → s.has d.stage = true
  machine : s.machine.isSome = true → s.stage.isTerminal = true
  /-- Once a program has been linked, nothing fails. -/
  failed : ∀ stage, s.failed = some stage → s.stage = stage ∧ stage.isTerminal = false

/-! ### What requests keep -/

/-- An account leads to what has a property. -/
def Account.Keeps {α : Type} (P : List Deed → Session → Prop) (deeds : List Deed) (a : Account α) :
    Prop := P (deeds ++ a.deeds) a.answer.2

/-- A property of what was done and of the session is kept when a stage is entered. -/
def KeptByStages (P : List Deed → Session → Prop) : Prop :=
  ∀ ⦃deeds : List Deed⦄ ⦃s : Session⦄ ⦃next : Stage⦄, P deeds s → s.failed = none →
    s.stage.next? s.config.execute = some next → P (deeds ++ [s.deed next]) (s.perform next).2

/-- A property of what was done and of the session is kept by all that requests do. -/
structure KeptByRequests (P : List Deed → Session → Prop) : Prop where
  stages : KeptByStages P
  machine : ∀ ⦃deeds s⦄, P deeds s → s.machine.isSome = true → s.stage.isTerminal = true
  load : ∀ ⦃deeds s⦄ (source : Source), P deeds s → s.stage = .init →
    P deeds { s with source := some source }
  pause : ∀ ⦃deeds s⦄, P deeds s → P deeds s.pausedAtStart
  drive : ∀ ⦃deeds s m⦄ (mode : Mode) (stops : Nat → Bool) ⦃m' sent o⦄, P deeds s →
    s.machine = some m → m.isFinished = false →
    m.resumeUnder mode stops s.fuel = (m', sent, o) → P deeds (s.settled m' sent o)
  addBreakpoint : ∀ ⦃deeds s⦄ (line : Nat), P deeds s → P deeds (s.addBreakpoint line)

section

variable {P Q : List Deed → Session → Prop} {deeds : List Deed} {s : Session} {α β : Type}

theorem Account.Keeps.of_nil {a : Answer α} (h : P deeds a.2) : Account.Keeps P deeds ⟨a, []⟩ := by
  unfold Account.Keeps
  rwa [List.append_nil]

theorem Account.Keeps.andThen {a : Account α} {next : α → Session → Account β}
    (first : a.Keeps P deeds) (refused : ∀ deeds s, P deeds s → Q deeds s)
    (rest : ∀ v s deeds, P deeds s → (next v s).Keeps Q deeds) : (a.andThen next).Keeps Q deeds := by
  obtain ⟨⟨_ | v, t⟩, later⟩ := a
  · exact refused _ _ first
  · have h := rest v t (deeds ++ later) first
    unfold Account.Keeps at h
    rwa [List.append_assoc] at h

theorem KeptByStages.advancing (kept : KeptByStages P) (h : P deeds s) :
    s.advancing.Keeps P deeds := by
  unfold Session.advancing
  split
  · exact .of_nil h
  · next going =>
    split
    · exact .of_nil h
    · next stage hnext => exact kept h going hnext

theorem KeptByStages.advancingToLinked (kept : KeptByStages P) :
    ∀ (steps : Nat) {s : Session} {deeds : List Deed}, P deeds s →
      (Session.advancingToLinked steps s).Keeps P deeds
  | 0, _, _, h => .of_nil h
  | steps + 1, _, _, h => by
    unfold Session.advancingToLinked
    split
    · exact (kept.advancing h).andThen (fun _ _ => id) fun _ _ _ h =>
        kept.advancingToLinked steps h
    · exact .of_nil h

theorem KeptByStages.compiling (kept : KeptByStages P) (h : P deeds s) :
    s.compiling.Keeps P deeds :=
  kept.advancingToLinked _ h

theorem KeptByStages.enteringTerminal (kept : KeptByStages P) (h : P deeds s) :
    s.enteringTerminal.Keeps P deeds := by
  unfold Session.enteringTerminal
  split
  · exact .of_nil h
  · refine (kept.compiling h).andThen (fun _ _ => id) fun _ _ _ h => ?_
    exact (kept.advancing h).andThen (fun _ _ => id) fun _ _ _ h => .of_nil h

/-- A machine that the stages have set up has not been started. -/
theorem KeptByStages.unstarted (kept : KeptByStages P) :
    KeptByStages fun deeds s => P deeds s ∧ ∀ m, s.machine = some m → m.Unstarted := by
  rintro deeds s next ⟨h, unstarted⟩ going hnext
  refine ⟨kept h going hnext, fun m hm => ?_⟩
  obtain same | ⟨_, m', hm', fresh⟩ := (s.perform_enters next).machine
  · exact unstarted m (same ▸ hm)
  · cases hm'.symm.trans hm
    exact fresh

theorem KeptByRequests.driveUnder (kept : KeptByRequests P) (mode : Mode) (stops : Nat → Bool)
    (h : P deeds s) (going : ∀ m, s.machine = some m → m.isFinished = false) :
    P deeds (s.driveUnder mode stops).2 := by
  unfold Session.driveUnder
  split
  · exact h
  · next m hm => exact kept.drive mode stops h hm (going m hm) rfl

theorem unfinished_of_isSuspended (suspended : s.isSuspended = true) (m : Machine)
    (hm : s.machine = some m) : m.isFinished = false := by
  unfold isSuspended Machine.isSuspended at suspended
  simp only [hm, Option.map_some, Option.getD_some, Bool.and_eq_true, Bool.not_eq_true']
    at suspended
  exact suspended.2

/-- What all requests keep, an account of a request keeps. -/
theorem KeptByRequests.account (kept : KeptByRequests P) (h : P deeds s) (r : Request) :
    (s.account r).Keeps P deeds := by
  have entered : s.stage.isTerminal = false → s.enteringTerminal.Keeps (fun deeds s =>
      P deeds s ∧ ∀ m, s.machine = some m → m.Unstarted) deeds := fun early => by
    refine kept.stages.unstarted.enteringTerminal ⟨h, fun m hm => ?_⟩
    have terminal := kept.machine h (by rw [hm]; rfl)
    exact absurd (early.symm.trans terminal) nofun
  have late : s.stage.isTerminal = true → ∀ {β : Type} (next : Unit → Session → Account β),
      (s.enteringTerminal.andThen next).Keeps P deeds := fun terminal β next => by
    unfold enteringTerminal
    rw [if_pos terminal]
    exact .of_nil h
  cases r with
  | load source =>
    refine .of_nil ?_
    change P deeds (s.load source).2
    unfold Session.load
    split
    · next early => exact kept.load source h early
    · exact h
  | advance =>
    exact (kept.stages.advancing h).andThen (fun _ _ => id) fun _ _ _ h => .of_nil h
  | compile =>
    exact (kept.stages.compiling h).andThen (fun _ _ => id) fun _ _ _ h => .of_nil h
  | run stops =>
    cases hstage : s.stage.isTerminal with
    | true => exact late hstage _
    | false =>
      refine (entered hstage).andThen (fun _ _ h => h.1) fun _ t _ h => .of_nil ?_
      exact kept.driveUnder .run stops h.1 fun m hm => (h.2 m hm).isFinished
  | debug stops =>
    cases hstage : s.stage.isTerminal with
    | true => exact late hstage _
    | false =>
      refine (entered hstage).andThen (fun _ _ h => h.1) fun _ t _ h => .of_nil ?_
      refine kept.driveUnder .continue stops (kept.pause h.1) fun m hm => ?_
      obtain ⟨m₀, hm₀, rfl⟩ := Option.map_eq_some_iff.1 hm
      exact (h.2 m₀ hm₀).pauseAtStart.isFinished
  | resume mode stops =>
    refine .of_nil ?_
    change P deeds (s.resumeUnder mode stops).2
    unfold resumeUnder
    split
    · next suspended => exact kept.driveUnder mode stops h (unfinished_of_isSuspended suspended)
    · exact h
  | addBreakpoint line => exact .of_nil (kept.addBreakpoint line h)

/-- What all requests keep holds in every history that begins with it. -/
theorem KeptByRequests.askAll (kept : KeptByRequests P) : ∀ (rs : List Request) {h : History},
    P h.deeds h.session → P (h.askAll rs).deeds (h.askAll rs).session
  | [], _, holds => holds
  | r :: rs, h, holds => kept.askAll rs (h := h.ask r) (kept.account holds r)

end

/-! ### Every history is in order -/

section

variable {c : Config} {deeds : List Deed} {s : Session}

/-- Work that failed has halted the session in its stage. -/
theorem InOrder.failed_of_deed (h : InOrder c deeds s) {d : Deed} (hd : d ∈ deeds)
    (bad : d.succeeded = false) : s.failed = some d.stage := by
  have halts := h.halts
  unfold Halts at halts
  split at halts
  · rw [halts d hd] at bad
    cases bad
  · next stage hfailed =>
    obtain ⟨earlier, ds, rfl, good⟩ := halts
    obtain early | last := List.mem_append.1 hd
    · rw [good d early] at bad
      cases bad
    · rw [hfailed, List.mem_singleton.1 last]

/-- What halted a session was the work that was done last. -/
theorem InOrder.deed_of_failed (h : InOrder c deeds s) {stage : Stage} (hfailed : s.failed = some stage) :
    ∃ ds, ⟨stage, .error ds⟩ ∈ deeds := by
  have halts := h.halts
  unfold Halts at halts
  rw [hfailed] at halts
  obtain ⟨earlier, ds, rfl, _⟩ := halts
  exact ⟨ds, List.mem_append_right _ List.mem_cons_self⟩

/-- All is there for the work of the stages that run the program. -/
theorem InOrder.deed_of_terminal (h : InOrder c deeds s)
    (halts : ∀ d ∈ deeds, d.succeeded = true) {next : Stage}
    (hnext : s.stage.next? c.execute = some next) (terminal : next.isTerminal = true) :
    (s.deed next).succeeded = true := by
  have linked : s.stage = .generate := by
    cases hstage : s.stage <;> rw [hstage] at hnext <;> cases hnext <;> first | rfl | cases terminal
  have has (x : Stage) (hx : x ∈ stagesTo c.execute .generate) : (s.entering next).has x = true := by
    rw [← linked, ← h.stages] at hx
    obtain ⟨d, hd, rfl⟩ := List.mem_map.1 hx
    exact (s.entering_leaves (b := false) next).has _
      (by have made := h.products d hd (halts d hd); cases hd : d.stage <;> rwa [hd] at made)
  have made := work_of_terminal (s.entering next) terminal
    (has .intermediate (by cases c.execute <;> decide)) (has .generate (by cases c.execute <;> decide))
  unfold Deed.succeeded Session.deed
  rw [made]
  rfl

/-- The work that is done next makes for another history in order. -/
theorem InOrder.perform (h : InOrder c deeds s) (going : s.failed = none) {next : Stage}
    (hnext : s.stage.next? s.config.execute = some next) :
    InOrder c (deeds ++ [s.deed next]) (s.perform next).2 := by
  have enters := s.perform_enters next
  rw [h.config] at hnext
  obtain ⟨stages, course⟩ := stagesTo_next hnext
  have halts := h.halts
  unfold Halts at halts
  rw [going] at halts
  refine ⟨enters.config.trans h.config, ?_, ?_, ?_, fun d hd ok => ?_, fun set => ?_,
    fun stage hfailed => ?_⟩
  · rw [List.map_append, h.stages, enters.stage, stages]
    rfl
  · rwa [enters.stage]
  · unfold Halts
    rw [enters.failed]
    cases hd : (s.deed next).succeeded with
    | true =>
      rw [if_pos rfl, going]
      intro d hmem
      obtain hmem | hmem := List.mem_append.1 hmem
      · exact halts d hmem
      · rwa [List.mem_singleton.1 hmem]
    | false =>
      obtain ⟨ds, hds⟩ : ∃ ds, s.deed next = ⟨next, .error ds⟩ := by
        generalize hr : ((s.entering next).work next).1 = r
        have hdeed : s.deed next = ⟨next, r⟩ := by rw [← hr]; rfl
        cases r with
        | error ds => exact ⟨ds, hdeed⟩
        | ok _ => rw [hdeed] at hd; cases hd
      exact ⟨deeds, ds, by rw [hds], halts⟩
  · obtain hmem | hmem := List.mem_append.1 hd
    · exact enters.has _ (h.products d hmem ok)
    · obtain rfl := List.mem_singleton.1 hmem
      exact enters.made ok
  · rw [enters.stage]
    obtain same | ⟨terminal, _⟩ := enters.machine
    · -- a session with a machine is in a terminal stage, and no stage follows that
      rw [same] at set
      have terminal := h.machine set
      cases hstage : s.stage <;> simp [hstage, Stage.isTerminal, Stage.next?] at terminal hnext
    · exact terminal
  · rw [enters.failed, going] at hfailed
    by_cases ok : (s.deed next).succeeded = true
    · rw [if_pos ok] at hfailed
      cases hfailed
    · rw [if_neg ok] at hfailed
      cases hfailed
      refine ⟨enters.stage, Bool.eq_false_iff.2 fun terminal => ok ?_⟩
      exact h.deed_of_terminal halts hnext terminal

/-- Two sessions are in the same stage and have the work of the same stages behind them. -/
structure Alike (s t : Session) : Prop where
  config : t.config = s.config
  stage : t.stage = s.stage
  failed : t.failed = s.failed
  has : ∀ x, t.has x = s.has x
  machine : t.machine.isSome = s.machine.isSome

theorem load_alike (s : Session) (source : Source) : s.Alike { s with source := some source } :=
  ⟨rfl, rfl, rfl, fun x => by cases x <;> rfl, rfl⟩

theorem pausedAtStart_alike (s : Session) : s.Alike s.pausedAtStart := by
  have set : s.pausedAtStart.machine.isSome = s.machine.isSome := Option.isSome_map
  refine ⟨rfl, rfl, rfl, fun x => ?_, set⟩
  cases x <;> first | rfl | exact set

theorem settled_alike {m m' : Machine} (hm : s.machine = some m) (sent : Array Emission)
    (o : Outcome) : s.Alike (s.settled m' sent o) := by
  have set : (s.settled m' sent o).machine.isSome = s.machine.isSome := by
    rw [hm]
    cases o <;> rfl
  refine ⟨?_, ?_, ?_, fun x => ?_, set⟩
  · cases o <;> rfl
  · cases o <;> rfl
  · cases o <;> rfl
  · cases x <;> first | exact set | (cases o <;> rfl)

theorem addBreakpoint_alike (s : Session) (line : Nat) : s.Alike (s.addBreakpoint line) := by
  have set : (s.addBreakpoint line).machine.isSome = s.machine.isSome := by
    unfold addBreakpoint
    cases s.machine with
    | none => rfl
    | some m => rfl
  refine ⟨?_, ?_, ?_, fun x => ?_, set⟩
  · unfold addBreakpoint; split <;> rfl
  · unfold addBreakpoint; split <;> rfl
  · unfold addBreakpoint; split <;> rfl
  · cases x <;> first | exact set | (unfold addBreakpoint; split <;> rfl)

theorem InOrder.of_alike {t : Session} (h : InOrder c deeds s) (alike : s.Alike t) :
    InOrder c deeds t where
  config := alike.config.trans h.config
  stages := by rw [h.stages, alike.stage]
  stage := by rw [alike.stage]; exact h.stage
  halts := by rw [alike.failed]; exact h.halts
  products d hd ok := by rw [alike.has]; exact h.products d hd ok
  machine set := by
    rw [alike.stage]
    exact h.machine (alike.machine ▸ set)
  failed stage hfailed := by
    rw [alike.stage]
    exact h.failed stage (alike.failed ▸ hfailed)

theorem inOrder_kept : KeptByRequests (InOrder c) where
  stages _ _ _ h going hnext := h.perform going hnext
  machine _ _ h := h.machine
  load _ s source h _ := h.of_alike (s.load_alike source)
  pause _ s h := h.of_alike s.pausedAtStart_alike
  drive _ _ _ _ _ _ sent o h hm _ _ := h.of_alike (settled_alike hm sent o)
  addBreakpoint _ s line h := h.of_alike (s.addBreakpoint_alike line)

theorem ofConfig_inOrder (c : Config) (files : FileSystem) (bridge : Native.Bridge) (fuel : Nat) :
    InOrder c [] (Session.ofConfig c files bridge fuel) where
  config := rfl
  stages := rfl
  stage := List.mem_cons_self
  halts := nofun
  products := nofun
  machine := nofun
  failed := nofun

/-- Whatever a session is asked, it goes through the stages in order. -/
theorem askAll_inOrder (c : Config) (files : FileSystem) (bridge : Native.Bridge) (fuel : Nat)
    (rs : List Request) :
    InOrder c ((History.ofConfig c files bridge fuel).askAll rs).deeds
      ((History.ofConfig c files bridge fuel).askAll rs).session :=
  inOrder_kept.askAll rs (ofConfig_inOrder c files bridge fuel)

end

end Session

end ScriptLang
