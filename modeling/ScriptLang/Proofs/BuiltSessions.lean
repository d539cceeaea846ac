import ScriptLang.Proofs.Footing
import ScriptLang.Proofs.SessionHistory

/-!
# Sessions run what they have built

What a session keeps of a stage was made from what it keeps of the stages before (`Built`), so its
machine is one of a bound program, and footed.  The stages neither raise nor lower the flag of the
session, and no machine that they set up has executed anything (`enterTerminal_advances`).
-/

namespace ScriptLang

open Machine (Advance Footed Outcome)

namespace Session

/-- Code that was lowered from a bound program. -/
def FromSource (code : Code.Program) : Prop :=
  ∃ source program name entry, Bound.bind source = .ok program ∧
    Code.lower program name entry = .ok code

/-- What the session keeps was made by its stages. -/
structure Built (s : Session) : Prop where
  bound : ∀ program, s.bound = some program → ∃ source, Bound.bind source = .ok program
  code : ∀ code, s.code = some code → FromSource code
  executable : ∀ e, s.executable = some e →
    ∃ code bridge natives, FromSource code ∧ Machine.link code bridge natives = .ok e
  machine : ∀ m, s.machine = some m → m.Footed

/-- The number of instructions that the session's program has executed. -/
def executed (s : Session) : Nat := (s.machine.map Machine.executed).getD 0

/-- What the stages do to a session: it stays built, its flag stays as it is, and nothing is
executed. -/
structure Advances (s s' : Session) : Prop where
  built : s.Built → s'.Built
  stop : s'.stopRequested = s.stopRequested
  executed : s.executed = 0 → s'.executed = 0

namespace Advances

theorem refl (s : Session) : Advances s s := ⟨id, rfl, id⟩

theorem trans {s t u : Session} (h : Advances s t) (h' : Advances t u) : Advances s u :=
  ⟨h'.built ∘ h.built, h'.stop.trans h.stop, h'.executed ∘ h.executed⟩

/-- What is sent and logged, and the files, matter to nothing that is built. -/
theorem of_eq {s s' : Session} (bound : s'.bound = s.bound) (code : s'.code = s.code)
    (executable : s'.executable = s.executable) (machine : s'.machine = s.machine)
    (stop : s'.stopRequested = s.stopRequested) : Advances s s' := by
  refine ⟨fun h => ⟨?_, ?_, ?_, ?_⟩, stop, ?_⟩
  · rw [bound]
    exact h.bound
  · rw [code]
    exact h.code
  · rw [executable]
    exact h.executable
  · rw [machine]
    exact h.machine
  · unfold Session.executed
    rw [machine]
    exact id

end Advances

/-! ### The work of the stages -/

theorem bound_advances (s : Session) {source : Syntax.Program} {program : Bound.Program}
    (h : Bound.bind source = .ok program) : Advances s { s with bound := some program } := by
  refine ⟨fun built => ⟨fun program' h' => ?_, built.code, built.executable, built.machine⟩,
    rfl, id⟩
  exact ⟨source, h.trans (congrArg _ (Option.some.inj h'))⟩

theorem code_advances (s : Session) {code : Code.Program} (h : s.Built → FromSource code) :
    Advances s { s with code := some code } := by
  refine ⟨fun built => ⟨built.bound, fun code' h' => ?_, built.executable, built.machine⟩,
    rfl, id⟩
  exact Option.some.inj h' ▸ h built

theorem executable_advances (s : Session) {code : Code.Program} {bridge : Native.Bridge}
    {natives : Bool} {e : Machine.Executable} (h : s.Built → FromSource code)
    (hlink : Machine.link code bridge natives = .ok e) :
    Advances s { s with executable := some e } := by
  refine ⟨fun built => ⟨built.bound, built.code, fun e' h' => ?_, built.machine⟩, rfl, id⟩
  exact ⟨code, bridge, natives, h built, hlink.trans (congrArg _ (Option.some.inj h'))⟩

/-- The machine of a program that was bound is set up before its start. -/
theorem install_advances {s : Session} {code : Code.Program} {bridge : Native.Bridge}
    {image : Machine.Image} (from_source : s.Built → FromSource code)
    (himage : Machine.IsImage code bridge image) : Advances s (s.install image) := by
  refine ⟨fun h => ⟨h.bound, h.code, h.executable, fun m hm => ?_⟩, rfl, fun _ => rfl⟩
  obtain ⟨source, program, name, entry, hbind, hlower⟩ := from_source h
  have promises : Code.Promises program false := ⟨Bound.typed_of_bind hbind, nofun⟩
  have sourced := Machine.sourced_of_lower promises (Bound.nodup_names_of_bind hbind) hlower himage
  cases hm
  exact Machine.footed_of_sourced sourced s.config.maxCallDepth _

theorem work_advances (s : Session) (stage : Stage) : Advances s (s.work stage).2 := by
  have work := s.work_works stage
  generalize s.work stage = w at work
  cases work with
  | nothing => exact .refl s
  | failed _ _ _ => exact .of_eq rfl rfl rfl rfl rfl
  | parsed _ _ _ => exact .of_eq rfl rfl rfl rfl rfl
  | bound _ hbind _ _ => exact (bound_advances s hbind).trans (.of_eq rfl rfl rfl rfl rfl)
  | lowered hbound hlower _ =>
    have from_source : s.Built → FromSource _ := fun built =>
      (built.bound _ hbound).imp fun source hbind => ⟨_, _, _, hbind, hlower⟩
    exact (code_advances s from_source).trans (.of_eq rfl rfl rfl rfl rfl)
  | linked hcode hlink =>
    exact (executable_advances s (fun built => built.code _ hcode) hlink).trans
      (.of_eq rfl rfl rfl rfl rfl)
  | executing hexecutable =>
    refine ⟨fun built => ?_, rfl, fun _ => rfl⟩
    obtain ⟨code, bridge, natives, from_source, hlink⟩ := built.executable _ hexecutable
    exact (install_advances (fun _ => from_source) (.linked hlink)).built built
  | interpreting hcode => exact install_advances (fun built => built.code _ hcode) .interpreted

/-! ### The stages one after the other -/

theorem perform_advances (s : Session) (stage : Stage) : Advances s (s.perform stage).2 := by
  have entered : Advances s (s.entering stage) := by
    unfold entering
    split <;> exact .of_eq rfl rfl rfl rfl rfl
  have worked := entered.trans (work_advances _ stage)
  rw [perform_eq]
  generalize (s.entering stage).work stage = w at worked
  obtain ⟨ds | ⟨⟩, t⟩ := w
  · dsimp only
    split <;> exact worked.trans (.of_eq rfl rfl rfl rfl rfl)
  · dsimp only
    split
    · exact worked.trans (.of_eq rfl rfl rfl rfl rfl)
    · exact worked

theorem advances_kept (s : Session) : KeptByStages fun _ t => Advances s t := fun _ t next h _ _ =>
  h.trans (perform_advances t next)

theorem compile_advances (s : Session) : Advances s s.compile.2 := by
  rw [← answer_compiling]
  have kept : s.compiling.Keeps (fun _ t => Advances s t) [] := (advances_kept s).compiling (.refl s)
  exact kept

theorem enterTerminal_advances (s : Session) : Advances s s.enterTerminal.2 := by
  rw [← answer_enteringTerminal]
  have kept : s.enteringTerminal.Keeps (fun _ t => Advances s t) [] :=
    (advances_kept s).enteringTerminal (.refl s)
  exact kept

/-! ### Stages that are not announced -/

section
variable {s : Session} {source : Source} {program : Syntax.Program}

theorem parse_of_clean (undrawn : s.config.graph = none) (hsource : s.source = some source)
    (h : s.parseSource source = ⟨program, [], []⟩) :
    s.parse = (.ok (), { s with parsed := some program }) := by
  unfold parse
  rw [hsource]
  dsimp only
  rw [h]
  unfold writeDiagram
  dsimp only [List.foldl_nil]
  rw [undrawn, ← hsource]
  rfl

/-- What is parsed without a word goes through the other stages. -/
theorem compile_of_parse (fresh : s.stage = .init) (going : s.failed = none)
    (quiet : s.config.debug = false) (undrawn : s.config.graph = none)
    (hsource : s.source = some source) (h : s.parseSource source = ⟨program, [], []⟩) :
    s.compile = advanceToLinked 3 { s with stage := .parse, parsed := some program } := by
  have hparse := parse_of_clean (s := { s with stage := .parse }) undrawn hsource h
  have hperform : s.perform .parse =
      (.ok .parse, { s with stage := .parse, parsed := some program }) := by
    have hquiet : s.announces .parse = false := by
      unfold announces
      rw [quiet]
      rfl
    have hwork : work { s with stage := .parse } .parse =
        (.ok (), { s with stage := .parse, parsed := some program }) := hparse
    unfold Session.perform
    rw [hquiet]
    dsimp only
    rw [if_neg Bool.false_ne_true, hwork]
    rfl
  have hadvance : s.advance = s.perform .parse := by
    have hnext : s.stage.next? s.config.execute = some .parse := by
      rw [fresh]
      rfl
    unfold advance
    rw [going, hnext]
  change advanceToLinked (3 + 1) s = _
  rw [advanceToLinked, fresh, hadvance, hperform]
  rfl

theorem enterTerminal_of_compile {linked : Answer Unit} {stage : Stage}
    (early : s.stage.isTerminal = false) (compiled : s.compile = linked)
    (ok : linked.1 = .ok ()) (entered : linked.2.advance.1 = .ok stage) :
    s.enterTerminal = (.ok (), linked.2.advance.2) := by
  obtain ⟨r, t⟩ := linked
  obtain rfl : r = .ok () := ok
  have hadvance : t.advance = (.ok stage, t.advance.2) := Prod.ext entered rfl
  unfold enterTerminal
  rw [if_neg (Bool.eq_false_iff.1 early), compiled]
  dsimp only
  rw [hadvance]

end

end Session

end ScriptLang
