import ScriptLang.Proofs.LinkedRuns

/-!
# Where a run that is told to stop ends

A run is stopped at its next check point, which is the next instruction that is no label.  The
functions of a bound program end in a return, so a run of it always has a check point ahead
(`step_footed`), unless its entry point has no code.  Told to stop, it passes the labels before the
check point and ends there; no step of a run that is told to stop executes an instruction
(`step_true_executed`).
-/

namespace ScriptLang.Machine

open Code (Instruction)

/-! ### Check points -/

/-- The function that is being executed. -/
def innermost? (m : Machine) : Option Code.Function :=
  m.frames.head?.bind fun frame => m.image.function? frame.function

/-- What is left of the code of the innermost function. -/
def ahead (m : Machine) : List Instruction :=
  match m.frames with
  | [] => []
  | frame :: _ =>
    match m.image.function? frame.function with
    | none => []
    | some f => f.code.drop frame.next

/-- The number of labels before the next check point. -/
def labelsAhead (m : Machine) : Nat := (m.ahead.takeWhile fun i => i.op.isLabel).length

/-- The machine behind the label that comes next. -/
def behindLabel (m : Machine) : Machine :=
  match m.frames with
  | [] => m
  | frame :: below => { m with frames := { frame with next := frame.next + 1 } :: below }

/-! ### A step under a request to stop -/

theorem enterRoot_executed (m : Machine) (index : Nat) :
    (m.enterRoot index).machine.executed = m.executed := by
  unfold enterRoot
  split
  · rfl
  · split <;> rfl

theorem enterEntry_executed (m : Machine) : m.enterEntry.machine.executed = m.executed := by
  unfold enterEntry
  split
  · exact enterRoot_executed _ _
  · rfl

theorem returnTo_executed (m : Machine) (result : Option Value) :
    (m.returnTo result).machine.executed = m.executed := by
  unfold returnTo
  split
  · rfl
  · split
    · exact enterEntry_executed m
    · rfl

theorem leave_executed (m : Machine) (result : Option Value) :
    (m.leave result).machine.executed = m.executed := by
  unfold leave
  split
  · rfl
  · exact returnTo_executed _ result

/-- No instruction is executed once the run is told to stop. -/
theorem step_true_executed (m : Machine) : (m.step true).machine.executed = m.executed := by
  unfold step
  split
  · rfl
  · split
    · rfl
    · split
      · exact leave_executed m none
      · dsimp only
        split <;> rfl

theorem begin_executed (m : Machine) : m.begin.machine.executed = m.executed := by
  unfold begin start
  split
  · rfl
  · dsimp only [Advance.after]
    split
    · rfl
    · exact enterRoot_executed _ _
    · exact enterEntry_executed m
  · rfl

theorem ahead_eq {m : Machine} {frame : Frame} {below : List Frame} {f : Code.Function}
    (hframes : m.frames = frame :: below) (hf : m.image.function? frame.function = some f) :
    m.ahead = f.code.drop frame.next := by
  unfold ahead
  rw [hframes]
  dsimp only
  rw [hf]

/-- What is ahead is an instruction of the innermost function and what comes behind it. -/
theorem ahead_eq_cons {m : Machine} {i : Instruction} {rest : List Instruction}
    (h : m.ahead = i :: rest) : ∃ frame below f, m.frames = frame :: below ∧
      m.image.function? frame.function = some f ∧ f.code[frame.next]? = some i ∧
      f.code.drop (frame.next + 1) = rest := by
  unfold ahead at h
  cases hframes : m.frames with
  | nil =>
    rw [hframes] at h
    cases h
  | cons frame below =>
    rw [hframes] at h
    dsimp only at h
    cases hf : m.image.function? frame.function with
    | none =>
      rw [hf] at h
      cases h
    | some f =>
      rw [hf] at h
      dsimp only at h
      have hlt : frame.next < f.code.length := by
        rw [← Nat.sub_pos_iff_lt, ← List.length_drop, h]
        exact Nat.succ_pos _
      rw [List.drop_eq_getElem_cons hlt] at h
      obtain ⟨hi, hrest⟩ := List.cons.inj h
      exact ⟨frame, below, f, rfl, hf, List.getElem?_eq_some_iff.2 ⟨hlt, hi⟩, hrest⟩

/-- A label is passed, whether the run is told to stop or not. -/
theorem step_of_label {m : Machine} {i : Instruction} {rest : List Instruction}
    (h : m.ahead = i :: rest) (label : i.op.isLabel = true) (stop : Bool) :
    m.step stop = { machine := m.behindLabel } ∧ m.behindLabel.ahead = rest := by
  obtain ⟨frame, below, f, hframes, hf, hi, hrest⟩ := ahead_eq_cons h
  have passed : m.behindLabel =
      { m with frames := { frame with next := frame.next + 1 } :: below } := by
    unfold behindLabel
    rw [hframes]
  rw [passed]
  refine ⟨?_, Eq.trans ?_ hrest⟩
  · unfold step
    rw [hframes]
    dsimp only
    rw [hf]
    dsimp only
    rw [hi]
    exact if_pos label
  · exact ahead_eq
      (m := { m with frames := { frame with next := frame.next + 1 } :: below }) rfl hf

/-- The run ends at a check point if it is told to stop. -/
theorem step_true_of_checkPoint {m : Machine} {i : Instruction} {rest : List Instruction}
    (h : m.ahead = i :: rest) (check : ¬ i.op.isLabel = true) : m.step true = m.exit .stopped := by
  obtain ⟨frame, below, f, hframes, hf, hi, _⟩ := ahead_eq_cons h
  unfold step
  rw [hframes]
  dsimp only
  rw [hf]
  dsimp only
  rw [hi]
  exact (if_neg check).trans (if_pos rfl)

theorem labelsAhead_eq {m : Machine} {i : Instruction} {rest : List Instruction}
    (h : m.ahead = i :: rest) :
    m.labelsAhead = if i.op.isLabel then m.behindLabel.labelsAhead + 1 else 0 := by
  unfold labelsAhead
  rw [h, List.takeWhile_cons]
  by_cases label : i.op.isLabel = true
  · rw [if_pos label, if_pos label, (step_of_label h label true).2]
    rfl
  · rw [if_neg label, if_neg label]
    rfl

/-! ### Machines that stand inside code -/

/-- Every active function that has code stands inside it. -/
def Inside (image : Image) (frames : List Frame) : Prop :=
  ∀ frame ∈ frames, ∀ f, image.function? frame.function = some f →
    f.code = [] ∨ frame.next < f.code.length

theorem Inside.cons {image : Image} {frame : Frame} {frames : List Frame} {f : Code.Function}
    (hf : image.function? frame.function = some f)
    (inside : f.code = [] ∨ frame.next < f.code.length) (h : Inside image frames) : Inside image (frame :: frames) := by
  intro frame' hframe' f' hf'
  obtain rfl | hmem := List.mem_cons.1 hframe'
  · cases hf.symm.trans hf'
    exact inside
  · exact h frame' hmem f' hf'

/-- What a machine has come to: its functions stand inside their code, and there is one unless the
run has ended. -/
structure Advance.Lands (a : Advance) : Prop where
  inside : Inside a.machine.image a.machine.frames
  active : a.machine.frames ≠ [] ∨ a.machine.isFinished = true
  running : a.outcome = none → a.machine.frames ≠ []

theorem Advance.Lands.after {a : Advance} (h : a.Lands) (sent : List Emission) :
    (a.after sent).Lands := ⟨h.inside, h.active, h.running⟩

section

variable {m : Machine}

theorem exit_lands (m : Machine) (status : ExitStatus) : (m.exit status).Lands :=
  ⟨nofun, .inr rfl, nofun⟩

theorem fail_lands (m : Machine) (e : RuntimeError) : (m.fail e).Lands := exit_lands _ _

theorem enter_lands (h : Inside m.image m.frames) {index : Nat} {f : Code.Function}
    (hf : m.image.function? index = some f) (args : List Value) : (m.enter index f args).Lands := by
  have begins : f.code = [] ∨ 0 < f.code.length :=
    f.code.length.eq_zero_or_pos.imp_left List.length_eq_zero_iff.1
  exact ⟨.cons hf begins h, .inl nofun, fun _ => nofun⟩

theorem enterRoot_lands (h : Inside m.image m.frames) (index : Nat) :
    (m.enterRoot index).Lands := by
  unfold enterRoot
  split
  · exact fail_lands _ _
  · next f hf =>
    split
    · exact enter_lands h hf []
    · exact fail_lands _ _

theorem enterEntry_lands (h : Inside m.image m.frames) : m.enterEntry.Lands := by
  unfold enterEntry
  split
  · next entry _ => exact enterRoot_lands (m := { m with phase := .entry }) h entry
  · exact fail_lands _ _

theorem returnTo_lands (h : Inside m.image m.frames) (result : Option Value) :
    (m.returnTo result).Lands := by
  unfold returnTo
  split
  · next caller below hframes =>
    rw [hframes] at h
    refine ⟨fun frame hframe f hf => ?_, .inl nofun, fun _ => nofun⟩
    obtain rfl | hbelow := List.mem_cons.1 hframe
    · exact h caller List.mem_cons_self f hf
    · exact h frame (List.mem_cons_of_mem _ hbelow) f hf
  · split
    · exact enterEntry_lands h
    · exact exit_lands _ _

theorem leave_lands (active : m.frames ≠ []) (h : Inside m.image m.frames.tail)
    (result : Option Value) : (m.leave result).Lands := by
  unfold leave
  split
  · next hframes => exact absurd hframes active
  · next frame below hframes =>
    rw [hframes] at h
    let left : Machine := { m with frames := below, stepper := m.stepper.leave }
    exact (returnTo_lands (m := left) h result).after _

end

/-! ### Runs of bound programs -/

/-- The invariant of a run of a bound program: its operands are sound, its functions stand inside
their code, and between its start and its end there is one. -/
structure Footed (m : Machine) : Prop where
  sound : ∃ σ : Basis, σ.Sourced ∧ σ.Sound 0 m
  inside : Inside m.image m.frames
  active : m.phase = .idle ∨ m.frames ≠ [] ∨ m.isFinished = true

section

variable {σ : Basis} {c : Context} {m : Machine}

theorem isReturn_of_isLabel {op : Code.Op} (h : op.isLabel = true) : op.isReturn = false := by
  cases op with
  | label l => rfl
  | _ => cases h

theorem follow_lands {flow : Flow} (leads : σ.Leads c m.frames flow) (himage : m.image = σ.image)
    (below : Inside m.image c.below) : (m.follow flow).Lands := by
  generalize hframes : m.frames = frames at leads
  cases leads with
  | next stands inside =>
    have active : m.frames ≠ [] := by
      rw [hframes]
      nofun
    refine ⟨?_, .inl active, fun _ => active⟩
    change Inside m.image m.frames
    rw [hframes]
    exact .cons (himage ▸ stands.function) (.inr inside) below
  | enter stands inside called begins =>
    refine enter_lands ?_ (himage ▸ called) _
    rw [hframes]
    exact .cons (himage ▸ stands.function) (.inr inside) below
  | leave counts =>
    refine leave_lands ?_ ?_ _
    · rw [hframes]
      nofun
    · rw [hframes]
      exact below

theorem perform_lands {i : Instruction} (sourced : σ.Sourced) (himage : m.image = σ.image)
    (poised : σ.Poised c i.op) (below : Inside m.image c.below) : (m.perform c i).Lands := by
  unfold perform
  cases hexecute : c.execute m i.op with
  | error e => exact fail_lands _ _
  | ok effect =>
    have keeps := (Context.execute_keeps hexecute).image
    have leads := execute_leads poised sourced himage hexecute
    refine (follow_lands (m := { effect.machine with executed := effect.machine.executed + 1 })
      leads (keeps.trans himage) ?_).after _
    change Inside effect.machine.image c.below
    rw [keeps]
    exact below

theorem checkAndPerform_lands {i : Instruction} (sourced : σ.Sourced) (himage : m.image = σ.image)
    (poised : σ.Poised c i.op) (inside : Inside m.image m.frames) (active : m.frames ≠ [])
    (below : Inside m.image c.below) : (m.checkAndPerform c i).Lands := by
  unfold checkAndPerform
  dsimp only
  split
  · exact ⟨inside, .inl active, nofun⟩
  · exact (perform_lands (m := { m with stepper := (m.stepper.check i.location.line).2 })
      sourced himage poised below).after _

/-- Every step lands inside code. -/
theorem step_lands (footed : m.Footed) (stop : Bool) : (m.step stop).Lands := by
  obtain ⟨σ, sourced, sound⟩ := footed.sound
  have frames := sound.frames
  have inside := footed.inside
  unfold step
  cases hframes : m.frames with
  | nil => exact exit_lands _ _
  | cons frame below =>
    rw [hframes] at frames inside
    have inside_below : Inside m.image below := fun f hf => inside f (List.mem_cons_of_mem _ hf)
    cases frames with
    | @cons _ _ _ g stands _ _ =>
      dsimp only
      have hg : m.image.function? frame.function = some g := sound.image_eq ▸ stands.function
      rw [hg]
      dsimp only
      cases hi : g.code[frame.next]? with
      | none =>
        refine leave_lands ?_ ?_ none
        · rw [hframes]
          nofun
        · rw [hframes]
          exact inside_below
      | some i =>
        have poised := poised_of_stands below stands hi
        dsimp only
        split
        · next label =>
          have next_lt := poised.next_lt sourced (isReturn_of_isLabel label)
          exact ⟨.cons hg (.inr next_lt) inside_below, .inl nofun, fun _ => nofun⟩
        · split
          · exact exit_lands _ _
          · split
            · exact perform_lands (m := { m with resuming := false }) sourced sound.image_eq poised
                inside_below
            · refine checkAndPerform_lands sourced sound.image_eq poised ?_ ?_ inside_below
              · rw [hframes]
                exact inside
              · rw [hframes]
                nofun

/-- Every step of a footed machine leads to one. -/
theorem step_footed (footed : m.Footed) (stop : Bool) : (m.step stop).machine.Footed := by
  obtain ⟨σ, sourced, sound⟩ := footed.sound
  have lands := step_lands footed stop
  exact ⟨⟨σ, sourced, step_sound sourced sound stop⟩, lands.inside, .inr lands.active⟩

/-- A footed machine that runs executes a function, and has something of it ahead unless it has no
code, which only the outermost function can lack. -/
theorem Footed.innermost (footed : m.Footed) (active : m.frames ≠ []) :
    ∃ f, m.innermost? = some f ∧ (f.code ≠ [] → m.ahead ≠ []) ∧
      (f.code = [] → m.frames.length = 1) := by
  obtain ⟨σ, _, sound⟩ := footed.sound
  have frames := sound.frames
  cases hframes : m.frames with
  | nil => exact absurd hframes active
  | cons frame below =>
    rw [hframes] at frames
    cases frames with
    | @cons _ _ _ f stands above _ =>
      have hf : m.image.function? frame.function = some f := sound.image_eq ▸ stands.function
      refine ⟨f, ?_, fun code => ?_, fun nothing => ?_⟩
      · rw [innermost?, hframes]
        exact hf
      · have inside := footed.inside frame (by rw [hframes]; exact List.mem_cons_self) f hf
        rw [ahead_eq hframes hf]
        exact fun nothing =>
          absurd (List.drop_eq_nil_iff.1 nothing) (Nat.not_le.2 (inside.resolve_left code))
      · rw [nothing] at above
        rw [above.resolve_right (Nat.not_lt_zero _)]
        rfl

/-- Behind a label there is more code. -/
theorem Footed.ahead_of_label (footed : m.Footed) {i : Instruction} {rest : List Instruction}
    (h : m.ahead = i :: rest) (label : i.op.isLabel = true) : rest ≠ [] := by
  obtain ⟨frame, below, f, hframes, hf, hi, rfl⟩ := ahead_eq_cons h
  have inside := (step_lands footed true).inside
  rw [(step_of_label h label true).1, behindLabel, hframes] at inside
  obtain ⟨hlt, _⟩ := List.getElem?_eq_some_iff.1 hi
  obtain nothing | next_lt := inside _ List.mem_cons_self f hf
  · rw [nothing] at hlt
    exact absurd hlt (Nat.not_lt_zero _)
  · exact fun drop => absurd (List.drop_eq_nil_iff.1 drop) (Nat.not_le.2 next_lt)

theorem Footed.withStepper (footed : m.Footed) (stepper : Stepper) :
    Footed { m with stepper } := by
  obtain ⟨σ, sourced, sound⟩ := footed.sound
  exact ⟨⟨σ, sourced, sound.withStepper stepper m.resuming⟩, footed.inside, footed.active⟩

/-- A machine before its start. -/
theorem footed_of_sourced (sourced : σ.Sourced) (max : Nat) (stepper : Stepper) :
    Footed { limited σ.image max with stepper } :=
  Footed.withStepper ⟨⟨σ, sourced, limited_sound max⟩, nofun, .inl rfl⟩ stepper

end

/-! ### The beginning of a resumption -/

/-- What a resumption in a mode comes to before its first step. -/
def opening (m : Machine) (mode : Mode) : Advance :=
  match m.begin.outcome with
  | some _ => m.begin
  | none =>
    { m.begin with
      machine := { m.begin.machine with stepper := m.begin.machine.stepper.resume mode } }

theorem resumeUnder_eq (m : Machine) (mode : Mode) (stops : Nat → Bool) (fuel : Nat) :
    m.resumeUnder mode stops fuel =
      match (m.opening mode).outcome with
      | some o => ((m.opening mode).machine, (m.opening mode).emitted.toArray, o)
      | none =>
        (m.opening mode).machine.driveUnder stops fuel (m.opening mode).emitted.toArray := by
  unfold resumeUnder opening
  cases h : m.begin.outcome with
  | some o =>
    dsimp only
    rw [h]
  | none =>
    dsimp only
    rw [h]

theorem opening_executed (m : Machine) (mode : Mode) :
    (m.opening mode).machine.executed = m.executed := by
  unfold opening
  split <;> exact begin_executed m

theorem start_lands {m : Machine} (h : Inside m.image m.frames) : m.start.Lands := by
  unfold start
  dsimp only
  split
  · exact (fail_lands _ _).after _
  · exact (enterRoot_lands (m := { m with phase := .init }) h _).after _
  · exact (enterEntry_lands h).after _

theorem begin_lands {m : Machine} (footed : m.Footed) : m.begin.Lands := by
  unfold begin
  split
  · next status hphase =>
    refine ⟨footed.inside, .inr ?_, nofun⟩
    unfold isFinished
    rw [hphase]
  · exact start_lands footed.inside
  · next hdone hidle =>
    have active : m.frames ≠ [] := by
      obtain h | h | h := footed.active
      · exact absurd h hidle
      · exact h
      · unfold isFinished at h
        split at h
        · next status hphase => exact absurd hphase (hdone status)
        · cases h
    exact ⟨footed.inside, .inl active, fun _ => active⟩

/-- A resumption of a footed machine begins with one. -/
theorem opening_footed {m : Machine} (footed : m.Footed) (mode : Mode) :
    (m.opening mode).machine.Footed ∧
      ((m.opening mode).outcome = none → (m.opening mode).machine.frames ≠ []) := by
  have lands := begin_lands footed
  have begun : m.begin.machine.Footed := by
    obtain ⟨σ, sourced, sound⟩ := footed.sound
    refine ⟨⟨σ, sourced, ?_⟩, lands.inside, .inr lands.active⟩
    unfold begin
    split
    · exact sound
    · next hphase => exact start_sound sound hphase
    · exact sound
  unfold opening
  cases h : m.begin.outcome with
  | some o => exact ⟨begun, fun hnone => absurd (h.symm.trans hnone) nofun⟩
  | none => exact ⟨begun.withStepper _, fun _ => lands.running h⟩

/-! ### Endless loops -/

/-- Whether the label that comes next is followed by a jump back to it. -/
def circles (m : Machine) : Bool :=
  match m.frames, m.ahead with
  | frame :: _, i :: j :: _ =>
    match j.op with
    | .jump l => i.op.isLabel && m.image.labelPlace? frame.function l == some frame.next
    | _ => false
  | _, _ => false

/-- The machine runs freely, and it is at a label with a jump back to it or just behind the label. -/
structure Circling (m : Machine) : Prop where
  mode : m.stepper.mode = .run
  unpaused : m.stepper.pausePending = false
  circle : ∃ m₀ : Machine, m₀.circles = true ∧ (m = m₀ ∨ m = m₀.behindLabel)

theorem circles_congr {m m' : Machine} (image : m.image = m'.image) (frames : m.frames = m'.frames) :
    m.circles = m'.circles := by
  unfold circles ahead
  rw [image, frames]

theorem exists_of_circles {m : Machine} (h : m.circles = true) : ∃ frame below i j rest l,
    m.frames = frame :: below ∧ m.ahead = i :: j :: rest ∧ i.op.isLabel = true ∧
      j.op = .jump l ∧ m.image.labelPlace? frame.function l = some frame.next := by
  unfold circles at h
  split at h
  · next frame below i j rest hframes hahead =>
    split at h
    · next l hj =>
      obtain ⟨label, place⟩ := Bool.and_eq_true_iff.1 h
      exact ⟨frame, below, i, j, rest, l, hframes, hahead, label, hj, beq_iff_eq.1 place⟩
    · cases h
  · cases h

/-- A jump goes on at its label. -/
theorem perform_jump {m : Machine} {c : Context} {j : Instruction} {l : Code.Label} {place : Nat}
    (hj : j.op = .jump l) (hplace : m.image.labelPlace? c.frame.function l = some place) :
    (m.perform c j).outcome = none ∧
      (m.perform c j).machine = { m with
        frames := { c.frame with next := place } :: c.below, executed := m.executed + 1 } := by
  have jumps : c.execute m j.op =
      .ok { machine := { m with frames := { c.frame with next := place } :: c.below } } := by
    rw [hj]
    change c.jump m c.frame.operands l = _
    unfold Context.jump
    rw [hplace]
  unfold perform
  rw [jumps]
  exact ⟨rfl, rfl⟩

/-- A circling machine goes round in circles. -/
theorem step_circling {m : Machine} (h : m.Circling) :
    (m.step false).outcome = none ∧ (m.step false).machine.Circling := by
  obtain ⟨mode, unpaused, m₀, circles, at_label | behind⟩ := h
  all_goals
    obtain ⟨frame, below, i, j, rest, l, hframes, hahead, label, hj, hplace⟩ :=
      exists_of_circles circles
    obtain ⟨passed, hrest⟩ := step_of_label hahead label false
    have moved : m₀.behindLabel =
        { m₀ with frames := { frame with next := frame.next + 1 } :: below } := by
      unfold behindLabel
      rw [hframes]
  · subst at_label
    rw [passed]
    exact ⟨rfl, by rw [moved]; exact mode, by rw [moved]; exact unpaused, m, circles, .inr rfl⟩
  · subst behind
    obtain ⟨frame', below', f, hframes', hf, hcode, -⟩ := ahead_eq_cons hrest
    rw [moved] at hframes' hf
    cases hframes'
    let c : Context :=
      ⟨f, { frame with next := frame.next + 2 }, below, frame.next + 1, j.location⟩
    have pending : m₀.behindLabel.pending? = some (c, j) := by
      unfold pending?
      rw [moved]
      simp [hf, hcode, hj, Code.Op.isLabel, c]
    have back (m : Machine) (image : m.image = m₀.image) (mode : m.stepper.mode = .run)
        (unpaused : m.stepper.pausePending = false) :
        (m.perform c j).outcome = none ∧ (m.perform c j).machine.Circling := by
      obtain ⟨goes, machine⟩ := perform_jump (m := m) (c := c) hj (by rw [image]; exact hplace)
      have again : (m.perform c j).machine.circles = true := by
        rw [machine]
        exact (circles_congr (by exact image) (by exact hframes.symm)).trans circles
      exact ⟨goes, by rw [machine]; exact mode, by rw [machine]; exact unpaused, _, again, .inl rfl⟩
    rw [step_eq_of_pending pending]
    split
    · exact back _ (by rw [moved]) mode unpaused
    · have checked := m₀.behindLabel.stepper.check_checked j.location.line
      rw [checkAndPerform_of_none (Stepper.check_run mode unpaused _)]
      exact back _ (by rw [moved]) (checked.mode.trans mode)
        (m₀.behindLabel.stepper.check_pausePending _)

end ScriptLang.Machine
