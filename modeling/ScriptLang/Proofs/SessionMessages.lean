import ScriptLang.Proofs.SessionHistory

/-!
# What a session tells

A session tells of each stage that is announced when it enters it and when its work is done, with what
went wrong if something did, and of the program all of its run.  Whatever it is asked, and whenever
requests to stop come, its messages follow one another as a listener expects (`messages_bracketed`).
-/

namespace ScriptLang

open Machine (Emission Outcome)

namespace Session

/-- The work of a stage tells of errors exactly if it failed. -/
theorem deed_diagnostics (s : Session) (stage : Stage) :
    (s.deed stage).diagnostics ≠ [] ↔ (s.deed stage).succeeded = false := by
  have hdeed : s.deed stage = ⟨stage, ((s.entering stage).work stage).1⟩ := rfl
  rw [hdeed]
  cases hwork : ((s.entering stage).work stage).1 with
  | ok _ => exact ⟨fun some_error => absurd rfl some_error, nofun⟩
  | error ds => exact ⟨fun _ => rfl, fun _ => work_error_ne_nil _ stage hwork⟩

/-! ### All that a session has sent -/

/-- Whether a stage is announced under some settings. -/
def announcesUnder (c : Config) (d : Deed) : Bool := c.debug || d.stage.isTerminal

/-- What is sent about the stages. -/
def announcements (c : Config) (deeds : List Deed) : List Emission :=
  (deeds.filter (announcesUnder c)).flatMap Deed.announcement

theorem announcements_append (c : Config) (deeds : List Deed) (d : Deed) :
    announcements c (deeds ++ [d]) =
      announcements c deeds ++ if announcesUnder c d then d.announcement else [] := by
  unfold announcements
  rw [List.filter_append, List.flatMap_append]
  congr 1
  cases h : announcesUnder c d <;> simp [h]

/-- What has been sent of the program, if there is one to run. -/
def Narrates (s : Session) (program : List Emission) : Prop :=
  match s.machine with
  | none => program = []
  | some m => m.Narrates program

/-- The last message about the stage that runs the program, once the run has ended. -/
def closing (s : Session) : List Emission :=
  match s.machine with
  | none => []
  | some m => if m.isFinished then [.message (.ofStage .stageEnd s.stage)] else []

/-- A session in order has sent the messages about its stages and about its program. -/
structure Tells (c : Config) (deeds : List Deed) (s : Session) : Prop where
  order : InOrder c deeds s
  diagnostics : ∀ d ∈ deeds, d.diagnostics ≠ [] ↔ d.succeeded = false
  program : ∃ program, s.Narrates program ∧
    s.sent.toList = announcements c deeds ++ program ++ s.closing

section

variable {c : Config} {deeds : List Deed} {s : Session}

/-- A session that can go on to another stage has sent nothing of a program. -/
theorem Tells.machine_none (h : Tells c deeds s) {next : Stage}
    (hnext : s.stage.next? s.config.execute = some next) : s.machine = none := by
  cases hm : s.machine with
  | none => rfl
  | some m =>
    have terminal := h.order.machine (by rw [hm]; rfl)
    cases hstage : s.stage <;> simp [hstage, Stage.isTerminal, Stage.next?] at terminal hnext

theorem Tells.perform (h : Tells c deeds s) (going : s.failed = none) {next : Stage}
    (hnext : s.stage.next? s.config.execute = some next) :
    Tells c (deeds ++ [s.deed next]) (s.perform next).2 := by
  have enters := s.perform_enters next
  have empty := h.machine_none hnext
  obtain ⟨program, narrates, sent⟩ := h.program
  unfold Narrates at narrates
  unfold closing at sent
  rw [empty] at narrates sent
  subst program
  rw [List.append_nil, List.append_nil] at sent
  refine ⟨h.order.perform going hnext, fun d hd => ?_, [], ?_, ?_⟩
  · obtain hd | hd := List.mem_append.1 hd
    · exact h.diagnostics d hd
    · rw [List.mem_singleton.1 hd]
      exact s.deed_diagnostics next
  · unfold Narrates
    obtain same | ⟨_, m, hm, fresh⟩ := enters.machine
    · rw [same, empty]
    · rw [hm]
      exact .unstarted fresh
  · have silent : (s.perform next).2.closing = [] := by
      unfold closing
      obtain same | ⟨_, m, hm, fresh⟩ := enters.machine
      · rw [same, empty]
      · rw [hm]
        dsimp only
        rw [fresh.isFinished, if_neg Bool.false_ne_true]
    have loud : s.announces next = announcesUnder c (s.deed next) := by
      unfold announces announcesUnder
      rw [h.order.config]
      rfl
    rw [silent, enters.sent, sent, announcements_append, loud, List.append_nil, List.append_nil]

/-- What a session has sent does not change when its machine is told how far to go. -/
theorem Tells.of_machine {t : Session} (h : Tells c deeds s) (order : InOrder c deeds t)
    (stage : t.stage = s.stage) (sent : t.sent = s.sent)
    (machine : (s.machine = none ∧ t.machine = none) ∨ ∃ m stepper, s.machine = some m ∧
      t.machine = some { m with stepper } ∧ stepper.depth = m.stepper.depth) :
    Tells c deeds t := by
  obtain ⟨program, narrates, hsent⟩ := h.program
  refine ⟨order, h.diagnostics, program, ?_, ?_⟩
  · unfold Narrates at narrates ⊢
    obtain ⟨hm, hm'⟩ | ⟨m, stepper, hm, hm', depth⟩ := machine
    · rw [hm']
      rw [hm] at narrates
      exact narrates
    · rw [hm']
      rw [hm] at narrates
      exact narrates.withStepper depth
  · rw [sent, hsent]
    unfold closing
    obtain ⟨hm, hm'⟩ | ⟨m, stepper, hm, hm', depth⟩ := machine
    · rw [hm, hm']
    · rw [hm, hm', stage]
      rfl

theorem Tells.drive (h : Tells c deeds s) {m : Machine} (hm : s.machine = some m)
    (unfinished : m.isFinished = false) {mode : Machine.Mode} {stops : Nat → Bool} {m' : Machine}
    {sent : Array Emission} {o : Outcome}
    (hresume : m.resumeUnder mode stops s.fuel = (m', sent, o)) :
    Tells c deeds (s.settled m' sent o) ∧ m'.phase ≠ .idle := by
  obtain ⟨program, narrates, hsent⟩ := h.program
  unfold Narrates at narrates
  unfold closing at hsent
  rw [hm] at narrates hsent
  dsimp only at hsent
  rw [unfinished, if_neg Bool.false_ne_true, List.append_nil] at hsent
  obtain ⟨m₁, sent₁, o₁, hresume₁, narrates', nonempty, exited⟩ :=
    Machine.resumeUnder_narrates narrates unfinished mode stops s.fuel
  cases hresume.symm.trans hresume₁
  refine ⟨⟨h.order.of_alike (settled_alike hm sent o), h.diagnostics, program ++ sent.toList, ?_, ?_⟩,
    narrates'.phase_ne_idle nonempty⟩
  · unfold Narrates
    cases o <;> exact narrates'
  · have total : (s.withMachine m' sent).sent.toList =
        announcements c deeds ++ (program ++ sent.toList) := by
      unfold withMachine
      rw [Array.toList_append, hsent, List.append_assoc]
    unfold closing
    cases o with
    | exited status =>
      have finished := exited.1 ⟨status, rfl⟩
      change ((s.withMachine m' sent).sent.push (.message (.ofStage .stageEnd s.stage))).toList =
        _ ++ if m'.isFinished then [.message (.ofStage .stageEnd s.stage)] else []
      rw [Array.toList_push, total, if_pos finished]
    | suspended reason position =>
      have running : ¬m'.isFinished = true := fun finished => by
        obtain ⟨status, hstatus⟩ := exited.2 finished
        cases hstatus
      change (s.withMachine m' sent).sent.toList = _ ++ if m'.isFinished then _ else []
      rw [total, if_neg running, List.append_nil]
    | unfinished =>
      have running : ¬m'.isFinished = true := fun finished => by
        obtain ⟨status, hstatus⟩ := exited.2 finished
        cases hstatus
      change (s.withMachine m' sent).sent.toList = _ ++ if m'.isFinished then _ else []
      rw [total, if_neg running, List.append_nil]

theorem tells_kept : KeptByRequests (Tells c) where
  stages _ _ _ h going hnext := h.perform going hnext
  machine _ _ h := h.order.machine
  load _ s source h early := h.of_machine (inOrder_kept.load source h.order early) rfl rfl (by
    cases s.machine with
    | none => exact .inl ⟨rfl, rfl⟩
    | some m => exact .inr ⟨m, m.stepper, rfl, rfl, rfl⟩)
  pause _ s h := h.of_machine (inOrder_kept.pause h.order) rfl rfl (by
    unfold pausedAtStart
    cases s.machine with
    | none => exact .inl ⟨rfl, rfl⟩
    | some m => exact .inr ⟨m, m.stepper.pause, rfl, rfl, rfl⟩)
  drive _ _ _ _ _ _ _ _ h hm unfinished hresume := (h.drive hm unfinished hresume).1
  addBreakpoint _ s line h := by
    have order := inOrder_kept.addBreakpoint line h.order
    unfold addBreakpoint at order ⊢
    cases hm : s.machine with
    | none =>
      rw [hm] at order
      exact h.of_machine order rfl rfl (.inl ⟨hm, rfl⟩)
    | some m =>
      rw [hm] at order
      exact h.of_machine order rfl rfl
        (.inr ⟨m, _, hm, rfl, Machine.addBreakpoint_depth m.stepper line⟩)

theorem askAll_tells (c : Config) (files : FileSystem) (bridge : Native.Bridge) (fuel : Nat)
    (rs : List Request) :
    Tells c ((History.ofConfig c files bridge fuel).askAll rs).deeds
      ((History.ofConfig c files bridge fuel).askAll rs).session :=
  tells_kept.askAll rs ⟨ofConfig_inOrder c files bridge fuel, nofun, [], rfl, rfl⟩

/-! ### Programs are run -/

/-- The messages about a program that is run in a stage: none before it starts; then that it starts and
what a listener hears; and when the run has ended, how, and that the stage has ended.  A run that ends
with a number has left every function and executed every instruction that was announced. -/
inductive ProgramStream (stage : Stage) : List Emission → Prop where
  | unstarted : ProgramStream stage []
  | running (name entry : String) {body : List Emission} {l : Listener}
      (heard : ({} : Listener).hearAll body = some l) :
      ProgramStream stage (.message ⟨.programStart, .program name entry⟩ :: body)
  | ended (name entry : String) {body : List Emission} {l : Listener}
      (heard : ({} : Listener).hearAll body = some l) (status : Machine.ExitStatus)
      (closed : ∀ n, status = .code n → l = {}) :
      ProgramStream stage (.message ⟨.programStart, .program name entry⟩ :: body ++
        [.message ⟨.programExit, .exit status⟩, .message (.ofStage .stageEnd stage)])

theorem Narrates.stream {program : List Emission} (h : s.Narrates program) :
    ProgramStream s.stage (program ++ s.closing) := by
  unfold Narrates at h
  unfold closing
  cases hm : s.machine with
  | none =>
    rw [hm] at h
    subst h
    exact .unstarted
  | some m =>
    rw [hm] at h
    dsimp only at h ⊢
    cases h with
    | unstarted h =>
      rw [h.isFinished, if_neg Bool.false_ne_true]
      exact .unstarted
    | running starts heard _ started =>
      obtain ⟨name, entry, rfl⟩ := starts
      rw [started.not_finished, if_neg Bool.false_ne_true, List.append_nil]
      exact .running name entry heard
    | @ended start body l status starts heard closed phase =>
      obtain ⟨name, entry, rfl⟩ := starts
      have finished : m.isFinished = true := by
        unfold Machine.isFinished
        rw [phase]
      rw [if_pos finished, List.append_assoc]
      exact .ended name entry heard status closed

end

end Session

end ScriptLang
