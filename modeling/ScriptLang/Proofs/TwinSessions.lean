import ScriptLang.Proofs.Exchanges
import ScriptLang.Proofs.StageWork

/-!
# Sessions that differ in what they leave behind

A session on a text leaves diagrams in the file tree, and a log, but it reads neither.  So two
sessions that differ in nothing else (`Session.Twin`) answer every request alike, and stay alike.
-/

namespace ScriptLang

open Machine (Advance Mode Outcome)

namespace Session

/-- Two sessions on a text that differ at most in their file trees and logs. -/
structure Twin (s t : Session) : Prop where
  text : ∀ path, s.source ≠ some (.path path)
  same : ∃ files log, t = { s with files, log }

/-- Two results that are the same, with sessions that are alike. -/
structure TwinAnswers {α : Type} (a b : α × Session) : Prop where
  same : b.1 = a.1
  alike : Twin a.2 b.2

variable {s t : Session}

/-! ### What is the same -/

theorem Twin.config (h : Twin s t) : t.config = s.config := by
  obtain ⟨-, files, log, rfl⟩ := h
  rfl

theorem Twin.bridge (h : Twin s t) : t.bridge = s.bridge := by
  obtain ⟨-, files, log, rfl⟩ := h
  rfl

theorem Twin.stage (h : Twin s t) : t.stage = s.stage := by
  obtain ⟨-, files, log, rfl⟩ := h
  rfl

theorem Twin.failed (h : Twin s t) : t.failed = s.failed := by
  obtain ⟨-, files, log, rfl⟩ := h
  rfl

theorem Twin.stopRequested (h : Twin s t) : t.stopRequested = s.stopRequested := by
  obtain ⟨-, files, log, rfl⟩ := h
  rfl

theorem Twin.source (h : Twin s t) : t.source = s.source := by
  obtain ⟨-, files, log, rfl⟩ := h
  rfl

theorem Twin.parsed (h : Twin s t) : t.parsed = s.parsed := by
  obtain ⟨-, files, log, rfl⟩ := h
  rfl

theorem Twin.bound (h : Twin s t) : t.bound = s.bound := by
  obtain ⟨-, files, log, rfl⟩ := h
  rfl

theorem Twin.code (h : Twin s t) : t.code = s.code := by
  obtain ⟨-, files, log, rfl⟩ := h
  rfl

theorem Twin.executable (h : Twin s t) : t.executable = s.executable := by
  obtain ⟨-, files, log, rfl⟩ := h
  rfl

theorem Twin.machine (h : Twin s t) : t.machine = s.machine := by
  obtain ⟨-, files, log, rfl⟩ := h
  rfl

theorem Twin.sent (h : Twin s t) : t.sent = s.sent := by
  obtain ⟨-, files, log, rfl⟩ := h
  rfl

theorem Twin.isSuspended (h : Twin s t) : t.isSuspended = s.isSuspended := by
  unfold Session.isSuspended
  rw [h.machine]

theorem Twin.announces (h : Twin s t) (stage : Stage) :
    t.announces stage = s.announces stage := by
  unfold Session.announces
  rw [h.config]

theorem Twin.programName (h : Twin s t) : t.programName = s.programName := by
  unfold Session.programName
  rw [h.source]

theorem Twin.parseSource (h : Twin s t) (name text : String) :
    t.parseSource (.text name text) = s.parseSource (.text name text) := by
  unfold Session.parseSource
  rw [h.config]

/-! ### Small changes -/

/-- Sessions that are alike are still alike when both are changed in the same way. -/
theorem Twin.intro {s t s' t' : Session} (h : Twin s t) (source : s'.source = s.source)
    (same : ∃ files log, t' = { s' with files, log }) : Twin s' t' :=
  ⟨fun path hpath => h.text path (source.symm.trans hpath), same⟩

theorem Twin.requestStop (h : Twin s t) (stop : Bool) :
    Twin (s.requestStop stop) (t.requestStop stop) := by
  obtain ⟨files, log, rfl⟩ := h.same
  exact h.intro rfl ⟨files, log, rfl⟩

theorem Twin.send (h : Twin s t) (m : Machine.Message) : Twin (s.send m) (t.send m) := by
  obtain ⟨files, log, rfl⟩ := h.same
  exact h.intro rfl ⟨files, log, rfl⟩

theorem Twin.announce (h : Twin s t) (kind : Machine.MessageKind) (stage : Stage) :
    Twin (s.announce kind stage) (t.announce kind stage) :=
  h.send _

theorem Twin.withStage (h : Twin s t) (stage : Stage) :
    Twin { s with stage } { t with stage } := by
  obtain ⟨files, log, rfl⟩ := h.same
  exact h.intro rfl ⟨files, log, rfl⟩

theorem Twin.withFailed (h : Twin s t) (failed : Option Stage) :
    Twin { s with failed } { t with failed } := by
  obtain ⟨files, log, rfl⟩ := h.same
  exact h.intro rfl ⟨files, log, rfl⟩

theorem Twin.withParsed (h : Twin s t) (parsed : Option Syntax.Program) :
    Twin { s with parsed } { t with parsed } := by
  obtain ⟨files, log, rfl⟩ := h.same
  exact h.intro rfl ⟨files, log, rfl⟩

theorem Twin.withBound (h : Twin s t) (bound : Option Bound.Program) :
    Twin { s with bound } { t with bound } := by
  obtain ⟨files, log, rfl⟩ := h.same
  exact h.intro rfl ⟨files, log, rfl⟩

theorem Twin.withMachine (h : Twin s t) (machine : Option Machine) :
    Twin { s with machine } { t with machine } := by
  obtain ⟨files, log, rfl⟩ := h.same
  exact h.intro rfl ⟨files, log, rfl⟩

theorem Twin.addBreakpoint (h : Twin s t) (line : Nat) :
    Twin (s.addBreakpoint line) (t.addBreakpoint line) := by
  unfold Session.addBreakpoint
  rw [h.machine]
  cases s.machine with
  | none =>
    obtain ⟨files, log, rfl⟩ := h.same
    exact h.intro rfl ⟨files, log, rfl⟩
  | some m => exact h.withMachine _

theorem Twin.moved (h : Twin s t) (a : Advance) : Twin (s.moved a) (t.moved a) := by
  obtain ⟨files, log, rfl⟩ := h.same
  unfold Session.moved
  dsimp only
  split
  · exact h.intro rfl ⟨files, log, rfl⟩
  · exact h.intro rfl ⟨files, log, rfl⟩

/-! ### The work of the stages -/

theorem writeDiagram_twin (h : Twin s t) (tree : String) (dot : String → String) :
    Twin (s.writeDiagram tree dot) (t.writeDiagram tree dot) := by
  obtain ⟨log₁, files₁, drawn₁⟩ := s.writeDiagram_eq tree dot
  obtain ⟨log₂, files₂, drawn₂⟩ := t.writeDiagram_eq tree dot
  obtain ⟨files, log, rfl⟩ := h.same
  rw [drawn₁, drawn₂]
  exact h.intro rfl ⟨files₂, log₂, rfl⟩

theorem remarks_twin (h : Twin s t) (remarks : List String) :
    Twin (remarks.foldl (fun s r => s.record .warning "parse" r) s)
      (remarks.foldl (fun s r => s.record .warning "parse" r) t) := by
  obtain ⟨log₁, remarked₁⟩ := remarks_eq remarks s
  obtain ⟨log₂, remarked₂⟩ := remarks_eq remarks t
  obtain ⟨files, log, rfl⟩ := h.same
  rw [remarked₁, remarked₂]
  exact h.intro rfl ⟨files, log₂, rfl⟩

theorem parse_twin (h : Twin s t) : TwinAnswers s.parse t.parse := by
  unfold parse
  rw [h.source]
  cases hsource : s.source with
  | none => exact ⟨rfl, h⟩
  | some source =>
    cases source with
    | path path => exact absurd hsource (h.text path)
    | text name body =>
      dsimp only
      rw [h.parseSource]
      generalize s.parseSource (.text name body) = parsed
      have remarked := remarks_twin h parsed.remarks
      split
      · exact ⟨rfl, (writeDiagram_twin remarked "syntax" _).withParsed _⟩
      · exact ⟨rfl, remarked⟩

theorem bind_twin (h : Twin s t) : TwinAnswers s.bind t.bind := by
  unfold Session.bind
  rw [h.parsed]
  cases s.parsed with
  | none => exact ⟨rfl, h⟩
  | some p =>
    dsimp only
    cases Bound.bind p with
    | error es => exact ⟨rfl, h⟩
    | ok b => exact ⟨rfl, (writeDiagram_twin h "bound" _).withBound _⟩

theorem lower_twin (h : Twin s t) : TwinAnswers s.lower t.lower := by
  unfold lower
  rw [h.bound, h.programName, h.config]
  cases s.bound with
  | none => exact ⟨rfl, h⟩
  | some b =>
    dsimp only
    cases Code.lower b s.programName s.config.entryPoint with
    | error es => exact ⟨rfl, h⟩
    | ok code =>
      obtain ⟨files, log, rfl⟩ := h.same
      dsimp only
      split
      · exact ⟨rfl, h.intro rfl ⟨files, _, rfl⟩⟩
      · exact ⟨rfl, h.intro rfl ⟨files, log, rfl⟩⟩

theorem link_twin (h : Twin s t) : TwinAnswers s.link t.link := by
  obtain ⟨files, log, rfl⟩ := h.same
  unfold link
  dsimp only
  split
  · exact ⟨rfl, h⟩
  · split
    · split
      · exact ⟨rfl, h.intro rfl ⟨files, log, rfl⟩⟩
      · exact ⟨rfl, h.intro rfl ⟨files, log, rfl⟩⟩
    · exact ⟨rfl, h.intro rfl ⟨files, log, rfl⟩⟩

theorem install_twin (h : Twin s t) (image : Machine.Image) :
    Twin (s.install image) (t.install image) := by
  obtain ⟨files, log, rfl⟩ := h.same
  exact h.intro rfl ⟨files, log, rfl⟩

theorem prepareLinked_twin (h : Twin s t) : TwinAnswers s.prepareLinked t.prepareLinked := by
  unfold prepareLinked
  rw [h.executable]
  cases s.executable with
  | none => exact ⟨rfl, h⟩
  | some e => exact ⟨rfl, install_twin h _⟩

theorem prepareInterpreted_twin (h : Twin s t) :
    TwinAnswers s.prepareInterpreted t.prepareInterpreted := by
  unfold prepareInterpreted
  rw [h.code, h.bridge]
  cases s.code with
  | none => exact ⟨rfl, h⟩
  | some code => exact ⟨rfl, install_twin h _⟩

/-- The work of every stage is the same. -/
theorem work_twin (h : Twin s t) (stage : Stage) :
    TwinAnswers (s.work stage) (t.work stage) := by
  cases stage with
  | init => exact ⟨rfl, h⟩
  | parse => exact parse_twin h
  | bind => exact bind_twin h
  | intermediate => exact lower_twin h
  | generate => exact link_twin h
  | execute => exact prepareLinked_twin h
  | interpret => exact prepareInterpreted_twin h

/-! ### Requests -/

theorem enter_twin (h : Twin s t) (stage : Stage) (loud : Bool) :
    Twin (if loud then (s.announce .stageInit stage).announce .stageStart stage else s)
      (if loud then (t.announce .stageInit stage).announce .stageStart stage else t) := by
  cases loud with
  | true => exact (h.announce _ _).announce _ _
  | false => exact h

theorem perform_twin (h : Twin s t) (stage : Stage) :
    TwinAnswers (s.perform stage) (t.perform stage) := by
  unfold perform
  dsimp only
  rw [h.announces]
  generalize s.announces stage = loud
  obtain ⟨same, alike⟩ := work_twin ((enter_twin h stage loud).withStage stage) stage
  generalize work _ stage = a at same alike ⊢
  generalize work _ stage = b at same alike ⊢
  obtain ⟨r, s'⟩ := a
  obtain ⟨_, t'⟩ := b
  cases same
  cases r with
  | ok u =>
    refine ⟨rfl, ?_⟩
    dsimp only
    split
    · exact alike.announce .stageEnd stage
    · exact alike
  | error ds =>
    refine ⟨rfl, ?_⟩
    dsimp only
    split
    · exact (alike.withFailed _).send _
    · exact alike.withFailed _

theorem advance_twin (h : Twin s t) : TwinAnswers s.advance t.advance := by
  unfold advance
  rw [h.failed, h.stage, h.config]
  split
  · exact ⟨rfl, h⟩
  · split
    · exact ⟨rfl, h⟩
    · exact perform_twin h _

theorem advanceToLinked_twin : ∀ (steps : Nat) {s t : Session}, Twin s t →
    TwinAnswers (advanceToLinked steps s) (advanceToLinked steps t)
  | 0, _, _, h => ⟨rfl, h⟩
  | steps + 1, s, t, h => by
    obtain ⟨same, alike⟩ := advance_twin h
    unfold advanceToLinked
    rw [h.stage]
    split
    · generalize s.advance = a at same alike ⊢
      generalize t.advance = b at same alike ⊢
      obtain ⟨r, s'⟩ := a
      obtain ⟨_, t'⟩ := b
      cases same
      cases r with
      | ok _ => exact advanceToLinked_twin steps alike
      | error e => exact ⟨rfl, alike⟩
    · exact ⟨rfl, h⟩

theorem compile_twin (h : Twin s t) : TwinAnswers s.compile t.compile :=
  advanceToLinked_twin _ h

theorem enterTerminal_twin (h : Twin s t) : TwinAnswers s.enterTerminal t.enterTerminal := by
  obtain ⟨same, alike⟩ := compile_twin h
  unfold enterTerminal
  rw [h.stage]
  split
  · exact ⟨rfl, h⟩
  · generalize s.compile = a at same alike ⊢
    generalize t.compile = b at same alike ⊢
    obtain ⟨r, s'⟩ := a
    obtain ⟨_, t'⟩ := b
    cases same
    cases r with
    | error e => exact ⟨rfl, alike⟩
    | ok _ =>
      obtain ⟨same, alike⟩ := advance_twin alike
      dsimp only at same alike ⊢
      generalize s'.advance = a at same alike ⊢
      generalize t'.advance = b at same alike ⊢
      obtain ⟨r, s'⟩ := a
      obtain ⟨_, t'⟩ := b
      cases same
      cases r <;> exact ⟨rfl, alike⟩

theorem drive_twin (h : Twin s t) (mode : Mode) : TwinAnswers (s.drive mode) (t.drive mode) := by
  obtain ⟨files, log, rfl⟩ := h.same
  unfold drive
  dsimp only
  split
  · exact ⟨rfl, h⟩
  · split
    · exact ⟨rfl, h.intro rfl ⟨files, log, rfl⟩⟩
    · exact ⟨rfl, h.intro rfl ⟨files, log, rfl⟩⟩

theorem run_twin (h : Twin s t) : TwinAnswers s.run t.run := by
  obtain ⟨same, alike⟩ := enterTerminal_twin h
  unfold run
  generalize s.enterTerminal = a at same alike ⊢
  generalize t.enterTerminal = b at same alike ⊢
  obtain ⟨r, s'⟩ := a
  obtain ⟨_, t'⟩ := b
  cases same
  cases r with
  | error e => exact ⟨rfl, alike⟩
  | ok _ => exact drive_twin alike .run

theorem debug_twin (h : Twin s t) : TwinAnswers s.debug t.debug := by
  obtain ⟨same, alike⟩ := enterTerminal_twin h
  unfold debug
  generalize s.enterTerminal = a at same alike ⊢
  generalize t.enterTerminal = b at same alike ⊢
  obtain ⟨r, s'⟩ := a
  obtain ⟨_, t'⟩ := b
  cases same
  cases r with
  | error e => exact ⟨rfl, alike⟩
  | ok _ =>
    dsimp only at alike ⊢
    rw [alike.machine]
    exact drive_twin (alike.withMachine _) .continue

theorem resume_twin (h : Twin s t) (mode : Mode) :
    TwinAnswers (s.resume mode) (t.resume mode) := by
  unfold resume
  rw [h.isSuspended]
  split
  · exact drive_twin h mode
  · exact ⟨rfl, h⟩

end Session

end ScriptLang
