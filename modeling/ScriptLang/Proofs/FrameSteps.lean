import ScriptLang.Proofs.LoopCode
import ScriptLang.Proofs.Simulation
import ScriptLang.Proofs.Stepping

/-!
# What a step does to the active functions

A step changes the innermost function only: that function goes on, calls another or returns to the
one below, which gets a result (`FramesAfter`).  It keeps the value of every variable but the one
that its instruction stores to.  So the variables of a function are kept, whatever it calls
meanwhile, by a stretch of a run in which the function stays in code that does not store to them
(`Passes.local_kept`).
-/

namespace ScriptLang.Machine

open Code (Instruction storedSlots)

/-! ### Single steps -/

theorem getElem?_putAt_self (values : List Value) (k : Nat) (v : Value) :
    (putAt values k v)[k]? = some v := by
  rw [putAt, List.getElem?_set_self]
  rw [List.length_append, List.length_replicate]
  omega

theorem getElem?_putAt_of_ne {values : List Value} {k j : Nat} (ne : k ≠ j) {w : Value}
    (h : values[j]? = some w) (v : Value) : (putAt values k v)[j]? = some w := by
  obtain ⟨inside, _⟩ := List.getElem?_eq_some_iff.1 h
  rw [putAt, List.getElem?_set_ne ne, List.getElem?_append_left inside, h]

/-- The slot that the next instruction of a function stores to, if it stores to one. -/
def Image.storesNext? (image : Image) (frame : Frame) : Option Nat := do
  let f ← image.function? frame.function
  let i ← f.code[frame.next]?
  i.op.stores?

/-- The function has gone on, and has kept all variables but the one stored to. -/
structure Frame.GoesOn (stored : Option Nat) (frame frame' : Frame) : Prop where
  function : frame'.function = frame.function
  kept : ∀ slot v, frame.locals[slot]? = some v → stored ≠ some slot →
    frame'.locals[slot]? = some v

/-- The functions that are active after a step of the innermost one. -/
inductive FramesAfter (stored : Option Nat) (frame : Frame) (below : List Frame) : List Frame → Prop
  | goesOn {frame' : Frame} (h : frame.GoesOn stored frame') :
    FramesAfter stored frame below (frame' :: below)
  | calls {frame' : Frame} (h : frame.GoesOn stored frame') (callee : Frame) :
    FramesAfter stored frame below (callee :: frame' :: below)
  | returns {caller : Frame} {rest : List Frame} (there : below = caller :: rest)
      (operands : List Value) : FramesAfter stored frame below ({ caller with operands } :: rest)

theorem Frame.GoesOn.of_locals {stored : Option Nat} {frame frame' : Frame}
    (function : frame'.function = frame.function) (locals : frame'.locals = frame.locals) :
    frame.GoesOn stored frame' :=
  ⟨function, fun _ _ h _ => locals ▸ h⟩

/-- The function in which the instruction stands is still active after it, and has gone on. -/
def Effect.GoesOn (stored : Option Nat) (c : Context) (effect : Effect) : Prop :=
  ∃ frame', effect.machine.frames = frame' :: c.below ∧ c.frame.GoesOn stored frame'

/-- Only an operation that stores to a slot changes a variable. -/
theorem Context.execute_goesOn {c : Context} {m : Machine} {op : Code.Op} {effect : Effect}
    (h : c.execute m op = .ok effect) : Effect.GoesOn op.stores? c effect := by
  cases execute_does h with
  | @setsLocal slot v rest last =>
    refine ⟨_, rfl, rfl, fun k w there other => ?_⟩
    exact getElem?_putAt_of_ne (fun same => other (congrArg some same)) there v
  | _ => exact ⟨_, rfl, .of_locals rfl rfl⟩

/-! ### Whole steps -/

variable {m : Machine} {stored : Option Nat} {frame : Frame} {below : List Frame}

/-- A step by which the run goes on in the phase. -/
structure Advance.InPhase (a : Advance) (phase : Phase) : Prop where
  outcome : a.outcome = none
  phase : a.machine.phase = phase

theorem enterRoot_phase {index : Nat} (h : (m.enterRoot index).outcome = none) :
    (m.enterRoot index).machine.phase = m.phase := by
  unfold enterRoot at h ⊢
  cases found : m.image.function? index with
  | none =>
    rw [found] at h
    cases h
  | some f =>
    rw [found] at h
    dsimp only at h ⊢
    cases params : f.signature.params with
    | nil => rfl
    | cons ty tys =>
      rw [params] at h
      cases h

/-- Behind the function at the bottom the run does not go on in its phase. -/
theorem returnTo_not_inPhase {result : Option Value} (frames : m.frames = []) :
    ¬ (m.returnTo result).InPhase m.phase := by
  rintro ⟨going, same⟩
  unfold returnTo at going same
  rw [frames] at going same
  cases phase : m.phase with
  | init =>
    rw [phase] at going same
    dsimp only at going same
    unfold enterEntry at going same
    cases entry : m.image.entry? with
    | none =>
      rw [entry] at going
      cases going
    | some k =>
      rw [entry] at going same
      cases (enterRoot_phase going).symm.trans same
  | _ =>
    rw [phase] at going
    cases going

/-- A run that goes on in its phase after a return goes on in the function below. -/
theorem leave_framesAfter {top : Frame} {result : Option Value} (frames : m.frames = top :: below)
    (h : (m.leave result).InPhase m.phase) :
    FramesAfter stored frame below (m.leave result).machine.frames := by
  unfold leave at h ⊢
  rw [frames] at h ⊢
  cases below with
  | cons caller rest => exact .returns rfl _
  | nil => exact absurd ⟨h.outcome, h.phase⟩ (returnTo_not_inPhase rfl)

/-- An instruction of the innermost function is executed. -/
theorem perform_framesAfter (frame : Frame) {c : Context} {i : Instruction}
    (function : c.frame.function = frame.function) (locals : c.frame.locals = frame.locals)
    (h : (m.perform c i).InPhase m.phase) :
    FramesAfter i.op.stores? frame c.below (m.perform c i).machine.frames := by
  unfold perform at h ⊢
  cases executed : c.execute m i.op with
  | error e =>
    rw [executed] at h
    cases h.outcome
  | ok effect =>
    rw [executed] at h
    obtain ⟨frame', frames, goesOn⟩ := Context.execute_goesOn executed
    have goesOn' : frame.GoesOn i.op.stores? frame' :=
      ⟨goesOn.function.trans function, fun slot v there => goesOn.kept slot v (locals ▸ there)⟩
    have phase : effect.machine.phase = m.phase := (Context.execute_keeps executed).phase
    rw [← phase] at h
    dsimp only at h ⊢
    cases flow : effect.flow with
    | next =>
      change FramesAfter _ _ _ effect.machine.frames
      rw [frames]
      exact .goesOn goesOn'
    | enter index f args =>
      change FramesAfter _ _ _ (_ :: effect.machine.frames)
      rw [frames]
      exact .calls goesOn' _
    | leave result =>
      rw [flow] at h
      exact leave_framesAfter frames (m := { effect.machine with
        executed := effect.machine.executed + 1 }) ⟨h.outcome, h.phase⟩

/-- Every step after which the run goes on in its phase is one of the innermost function. -/
theorem step_framesAfter {stop : Bool} (frames : m.frames = frame :: below)
    (h : (m.step stop).InPhase m.phase) :
    FramesAfter (m.image.storesNext? frame) frame below (m.step stop).machine.frames := by
  unfold step at h ⊢
  rw [frames] at h ⊢
  dsimp only at h ⊢
  cases function : m.image.function? frame.function with
  | none =>
    rw [function] at h
    cases h.outcome
  | some f =>
    rw [function] at h
    dsimp only at h ⊢
    cases here : f.code[frame.next]? with
    | none =>
      rw [here] at h
      exact leave_framesAfter frames h
    | some i =>
      have stores : m.image.storesNext? frame = i.op.stores? := by
        simp [Image.storesNext?, function, here]
      rw [here] at h
      rw [stores]
      dsimp only at h ⊢
      by_cases label : i.op.isLabel = true
      · rw [if_pos label]
        exact .goesOn (.of_locals rfl rfl)
      · rw [if_neg label] at h ⊢
        by_cases stopped : stop = true
        · rw [if_pos stopped] at h
          cases h.outcome
        · rw [if_neg stopped] at h ⊢
          by_cases resuming : m.resuming = true
          · rw [if_pos resuming] at h ⊢
            exact perform_framesAfter frame rfl rfl h
          · rw [if_neg resuming] at h ⊢
            cases due : (m.stepper.check i.location.line).1 with
            | some reason =>
              obtain ⟨position, suspended⟩ := checkAndPerform_of_some
                (c := ⟨f, { frame with next := frame.next + 1 }, below, frame.next, i.location⟩) due
              rw [suspended] at h
              cases h.outcome
            | none =>
              rw [checkAndPerform_of_none due] at h ⊢
              exact perform_framesAfter frame rfl rfl ⟨h.outcome, h.phase⟩

/-! ### Stretches of a run -/

/-- A run that stands at the first configuration comes to the last one, through these before it. -/
inductive Passes (image : Image) (max : Nat) : Config → List Config → Config → Prop
  | refl (c : Config) : Passes image max c [] c
  | step {c c₁ c' : Config} {cs : List Config} (h : StepsTo image max c c₁)
      (rest : Passes image max c₁ cs c') : Passes image max c (c :: cs) c'

variable {image : Image} {max : Nat} {c c' c'' : Config} {cs cs' : List Config}

/-- Such a stretch is a part of a run. -/
theorem Passes.reaches (h : Passes image max c cs c') : Reaches image max c c' := by
  induction h with
  | refl c => exact .refl c
  | step h _ ih => exact h.reaches.trans ih

theorem Passes.append (h : Passes image max c cs c') (h' : Passes image max c' cs' c'') :
    Passes image max c (cs ++ cs') c'' := by
  induction h with
  | refl c => exact h'
  | step h _ ih => exact .step h (ih h')

theorem StepsTo.passes (h : StepsTo image max c c') : Passes image max c [c] c' :=
  .step h (.refl c')

/-- Some machine stands at any configuration. -/
theorem exists_stands (image : Image) (max : Nat) (c : Config) :
    ∃ m sent, Stands image max m sent c := by
  refine ⟨{ image, globals := c.globals, frames := c.frames, phase := c.phase,
            maxCallDepth := max }, #[.output c.printed], ?_⟩
  refine ⟨rfl, rfl, rfl, rfl, rfl, ?_, rfl, rfl, rfl, rfl⟩
  simp [printedBy, Emission.output?]

/-- What `step_framesAfter` says of configurations. -/
theorem StepsTo.framesAfter (h : StepsTo image max c c') (same : c'.phase = c.phase) {frame : Frame}
    {below : List Frame} (frames : c.frames = frame :: below) :
    FramesAfter (image.storesNext? frame) frame below c'.frames := by
  obtain ⟨m, sent, stands⟩ := exists_stands image max c
  obtain ⟨a, rfl, going, stands'⟩ := h m sent stands
  have active : m.frames = frame :: below := stands.frames_eq.trans frames
  have after : FramesAfter _ _ _ (m.step false).machine.frames := step_framesAfter active
    ⟨going, stands'.phase_eq.trans (same.trans stands.phase_eq.symm)⟩
  rwa [stands.image_eq, stands'.frames_eq] at after

theorem Passes.start (h : Passes image max c cs c') : c = c' ∨ c ∈ cs := by
  cases h with
  | refl => exact .inl rfl
  | step h rest => exact .inr List.mem_cons_self

/-! ### Stretches in one function -/

theorem getElem?_reverse_cons {α : Type} (a : α) (as : List α) (n : Nat) :
    (a :: as).reverse[n]? = if n = as.length then some a else as.reverse[n]? := by
  rw [List.reverse_cons, List.getElem?_append, List.length_reverse]
  split
  · rw [if_neg (by omega)]
  · split
    · subst n
      simp
    · rw [List.getElem?_eq_none (by simp; omega), List.getElem?_eq_none (by simp; omega)]

theorem lt_of_getElem?_reverse {α : Type} {as : List α} {n : Nat} {a : α}
    (h : as.reverse[n]? = some a) : n < as.length := by
  obtain ⟨inside, _⟩ := List.getElem?_eq_some_iff.1 h
  rwa [List.length_reverse] at inside

section

variable {g g' frame' : Frame} {frames' : List Frame} {n slot : Nat} {v : Value}

theorem Frame.GoesOn.local_kept (h : frame.GoesOn stored frame')
    (there : (frame :: below).reverse[n]? = some g)
    (there' : (frame' :: below).reverse[n]? = some g')
    (free : n = below.length → stored ≠ some slot) (hv : g.locals[slot]? = some v) :
    g'.locals[slot]? = some v := by
  rw [getElem?_reverse_cons] at there there'
  split at there
  · next innermost =>
    rw [if_pos innermost] at there'
    cases there
    cases there'
    exact h.kept slot v hv (free innermost)
  · next outer =>
    rw [if_neg outer] at there'
    cases there.symm.trans there'
    exact hv

/-- A step keeps the variables of each function that is still active behind it, but for what the
innermost function stores. -/
theorem FramesAfter.local_kept (h : FramesAfter stored frame below frames')
    (there : (frame :: below).reverse[n]? = some g) (there' : frames'.reverse[n]? = some g')
    (free : n = below.length → stored ≠ some slot) (hv : g.locals[slot]? = some v) :
    g'.locals[slot]? = some v := by
  cases h with
  | goesOn went => exact went.local_kept there there' free hv
  | calls went callee =>
    have before : n < below.length + 1 := lt_of_getElem?_reverse there
    rw [getElem?_reverse_cons, List.length_cons, if_neg (Nat.ne_of_lt before)] at there'
    exact went.local_kept there there' free hv
  | @returns caller rest same operands =>
    subst same
    have after : n < rest.length + 1 := lt_of_getElem?_reverse there'
    rw [getElem?_reverse_cons, List.length_cons, if_neg (Nat.ne_of_lt after)] at there
    -- the function below has other operands now, and nothing else has changed
    have went : caller.GoesOn none { caller with operands } := .of_locals rfl rfl
    exact went.local_kept there there' (fun _ => nofun) hv

end

/-- The frame of the function, if it is active. -/
def Activation.frame? (t : Activation image) (c : Config) : Option Frame :=
  c.frames.reverse[t.below.length]?

/-- The function is active, and while it is the innermost one it stands in its code from `lo` up to
`hi`. -/
structure Activation.StaysIn (t : Activation image) (lo hi : Nat) (c : Config) : Prop where
  phase : c.phase = t.phase
  active : ∃ frame, t.frame? c = some frame ∧ frame.function = t.index ∧
    (c.frames.length = t.below.length + 1 → lo ≤ frame.next ∧ frame.next < hi)

/-- The run comes from one configuration to another while the function stays in its code from `lo`
up to `hi`. -/
def Activation.Comes (t : Activation image) (max lo hi : Nat) (c c' : Config) : Prop :=
  ∃ cs, Passes image max c cs c' ∧ ∀ b ∈ cs, t.StaysIn lo hi b

variable {t : Activation image} {lo hi : Nat}

@[simp] theorem Activation.frame?_config (t : Activation image) (σ : Bound.Store) (pc : Nat)
    (operands : List Value) :
    t.frame? (t.config σ pc operands) = some ⟨t.index, pc, σ.locals, operands⟩ := by
  rw [Activation.frame?, Activation.config, getElem?_reverse_cons, if_pos rfl]

theorem Activation.staysIn_config {σ : Bound.Store} {pc : Nat} {operands : List Value}
    (above : lo ≤ pc) (below : pc < hi) : t.StaysIn lo hi (t.config σ pc operands) :=
  ⟨rfl, _, t.frame?_config σ pc operands, rfl, fun _ => ⟨above, below⟩⟩

theorem Activation.StaysIn.mono {lo' hi' : Nat} (h : t.StaysIn lo hi c) (hlo : lo' ≤ lo)
    (hhi : hi ≤ hi') : t.StaysIn lo' hi' c := by
  obtain ⟨phase, frame, there, index, inside⟩ := h
  refine ⟨phase, frame, there, index, fun innermost => ?_⟩
  obtain ⟨above, below⟩ := inside innermost
  exact ⟨Nat.le_trans hlo above, Nat.lt_of_lt_of_le below hhi⟩

/-- A stretch of code that does not store to the slot. -/
def Activation.Spares (t : Activation image) (lo hi slot : Nat) : Prop :=
  ∀ pc i, lo ≤ pc → pc < hi → t.code[pc]? = some i → i.op.stores? ≠ some slot

theorem getElem?_of_codeAt {code : List Instruction} : ∀ {part : List Instruction} {lo pc : Nat}
    {i : Instruction}, Code.CodeAt code lo part → lo ≤ pc → pc < lo + part.length →
    code[pc]? = some i → i ∈ part
  | [], lo, pc, i, _, above, below, _ => absurd above (Nat.not_le_of_lt below)
  | j :: part, lo, pc, i, placed, above, below, here => by
    rcases Nat.eq_or_lt_of_le above with rfl | above
    · cases placed.1.symm.trans here
      exact List.mem_cons_self
    · refine List.mem_cons_of_mem _ (getElem?_of_codeAt placed.2 above ?_ here)
      rw [List.length_cons] at below
      omega

theorem Activation.spares_of_codeAt {part : List Instruction} {slot : Nat}
    (placed : Code.CodeAt t.code lo part) (other : slot ∉ storedSlots part) :
    t.Spares lo (lo + part.length) slot := fun _ _ above below here stores =>
  other (List.mem_filterMap.2 ⟨_, getElem?_of_codeAt placed above below here, stores⟩)

/-- The next instruction of the function does not store to the slot. -/
theorem Activation.Spares.storesNext? {slot : Nat} (spares : t.Spares lo hi slot) {frame : Frame}
    (index : frame.function = t.index) (above : lo ≤ frame.next) (below : frame.next < hi) :
    image.storesNext? frame ≠ some slot := by
  rw [Image.storesNext?, index, t.loaded, Option.bind_eq_bind, Option.bind_some,
    Option.bind_eq_bind]
  cases here : t.function.code[frame.next]? with
  | none => nofun
  | some i => exact spares _ i above below here

/-- A step from inside the stretch keeps the variable. -/
theorem StepsTo.local_kept {slot : Nat} {v : Value} (h : StepsTo image max c c')
    (spares : t.Spares lo hi slot) (stays : t.StaysIn lo hi c) (same : c'.phase = t.phase)
    {frame frame' : Frame} (there : t.frame? c = some frame) (there' : t.frame? c' = some frame')
    (hv : frame.locals[slot]? = some v) : frame'.locals[slot]? = some v := by
  obtain ⟨phase, _, found, index, inside⟩ := stays
  cases found.symm.trans there
  cases frames : c.frames with
  | nil =>
    rw [Activation.frame?, frames] at there
    cases there
  | cons top below =>
    have after := h.framesAfter (same.trans phase.symm) frames
    rw [Activation.frame?, frames] at there
    refine after.local_kept there there' (fun innermost => ?_) hv
    rw [getElem?_reverse_cons, if_pos innermost] at there
    cases there
    obtain ⟨above, below⟩ := inside (by rw [frames, List.length_cons, innermost])
    exact spares.storesNext? index above below

/-- A stretch of a run in code that does not store to the slot keeps the variable. -/
theorem Passes.local_kept {slot : Nat} {v : Value} (h : Passes image max c cs c')
    (spares : t.Spares lo hi slot) (stays : ∀ b ∈ cs, t.StaysIn lo hi b) (same : c'.phase = t.phase)
    {frame frame' : Frame} (there : t.frame? c = some frame) (there' : t.frame? c' = some frame')
    (hv : frame.locals[slot]? = some v) : frame'.locals[slot]? = some v := by
  induction h generalizing frame with
  | refl c =>
    cases there.symm.trans there'
    exact hv
  | @step c c₁ c' cs h rest ih =>
    obtain ⟨here, others⟩ := List.forall_mem_cons.1 stays
    obtain ⟨same₁, frame₁, there₁⟩ : c₁.phase = t.phase ∧ ∃ g, t.frame? c₁ = some g := by
      rcases rest.start with rfl | inside
      · exact ⟨same, frame', there'⟩
      · obtain ⟨phase, g, active, _⟩ := others c₁ inside
        exact ⟨phase, g, active⟩
    exact ih others same there₁ there' (h.local_kept spares here same₁ there there₁ hv)

section

variable {σ σ' : Bound.Store} {pc pc' : Nat} {operands operands' : List Value}

theorem Activation.Comes.trans (h : t.Comes max lo hi c c') (h' : t.Comes max lo hi c' c'') :
    t.Comes max lo hi c c'' := by
  obtain ⟨cs, passes, stays⟩ := h
  obtain ⟨cs', passes', stays'⟩ := h'
  exact ⟨cs ++ cs', passes.append passes', List.forall_mem_append.2 ⟨stays, stays'⟩⟩

/-- A single step inside the stretch. -/
theorem StepsTo.comes (h : StepsTo image max (t.config σ pc operands) c') (above : lo ≤ pc)
    (below : pc < hi) : t.Comes max lo hi (t.config σ pc operands) c' :=
  ⟨_, h.passes, fun b hb => by
    rw [List.mem_singleton.1 hb]
    exact t.staysIn_config above below⟩

theorem Activation.Comes.kept {slot : Nat} {v : Value}
    (h : t.Comes max lo hi (t.config σ pc operands) (t.config σ' pc' operands'))
    (spares : t.Spares lo hi slot) (hv : σ.locals[slot]? = some v) :
    σ'.locals[slot]? = some v := by
  obtain ⟨cs, passes, stays⟩ := h
  exact passes.local_kept spares stays rfl (t.frame?_config σ pc operands)
    (t.frame?_config σ' pc' operands') hv

end

end ScriptLang.Machine
