import ScriptLang.Proofs.Listening

/-!
# Runs that are told to stop

A request to stop is looked at before an instruction only: labels are passed, functions whose code has
run out return, and the entry point begins when the globals are set, without anyone asking.  None of
this goes on for ever.  What is left of the code of all active functions, together with that of the
entry point while the globals are being set, gets less with each step (`Machine.remaining`), so that
the run comes to an instruction and is stopped there, or else to its end.  Nothing is executed
meanwhile.
-/

namespace ScriptLang.Machine

open Machine (Emission)

/-! ### What is left of a run -/

/-- How much of its code a function has before it. -/
def Frame.remaining (image : Image) (frame : Frame) : Nat :=
  (image.function? frame.function).elim 0 fun f => f.code.length - frame.next

/-- How much code of the active functions there is to pass; each of them returns as well. -/
def codeLeft (image : Image) : List Frame → Nat
  | [] => 0
  | frame :: below => frame.remaining image + 1 + codeLeft image below

/-- How much code there is to pass in the entry point if it has not begun. -/
def entryLeft (image : Image) : Phase → Nat
  | .init => (image.entry?.bind image.function?).elim 0 fun f => f.code.length + 1
  | _ => 0

/-- How much code a run can pass without executing anything. -/
def remaining (m : Machine) : Nat := codeLeft m.image m.frames + entryLeft m.image m.phase

theorem codeLeft_cons (image : Image) (frame : Frame) (below : List Frame) :
    codeLeft image (frame :: below) = frame.remaining image + 1 + codeLeft image below := rfl

/-- A message that is sent before an instruction is executed, or after. -/
def Emission.OfInstruction (e : Emission) : Prop :=
  ∃ payload, e = .message ⟨.onInstruction, payload⟩ ∨ e = .message ⟨.afterInstruction, payload⟩

/-- A move that executes nothing. -/
structure Spares (m : Machine) (a : Advance) : Prop where
  executed : a.machine.executed = m.executed
  emitted : ∀ e ∈ a.emitted, ¬e.OfInstruction

variable {m m' : Machine} {a : Advance}

theorem not_ofInstruction {kind : MessageKind} {payload : Payload}
    (on : kind ≠ .onInstruction) (after : kind ≠ .afterInstruction) :
    ∀ e ∈ [send kind payload], ¬e.OfInstruction := by
  rintro e he ⟨payload', same⟩
  rw [List.mem_singleton.1 he] at same
  rcases same with same | same <;> cases same
  · exact on rfl
  · exact after rfl

theorem Spares.after {sent : List Emission} (quiet : ∀ e ∈ sent, ¬e.OfInstruction)
    (h : Spares m a) : Spares m (a.after sent) :=
  ⟨h.executed, List.forall_mem_append.2 ⟨quiet, h.emitted⟩⟩

theorem Spares.of_eq (h : Spares m' a) (executed : m'.executed = m.executed) : Spares m a :=
  ⟨h.executed.trans executed, h.emitted⟩

theorem exit_spares (m : Machine) (status : ExitStatus) : Spares m (m.exit status) :=
  ⟨rfl, not_ofInstruction (by decide) (by decide)⟩

theorem fail_spares (m : Machine) (e : RuntimeError) : Spares m (m.fail e) :=
  ⟨rfl, not_ofInstruction (by decide) (by decide)⟩

theorem enterRoot_spares (m : Machine) (index : Nat) : Spares m (m.enterRoot index) := by
  unfold enterRoot
  split
  · exact fail_spares m _
  · split
    · exact ⟨rfl, not_ofInstruction (by decide) (by decide)⟩
    · exact fail_spares m _

theorem enterEntry_spares (m : Machine) : Spares m m.enterEntry := by
  unfold enterEntry
  split
  · exact (enterRoot_spares { m with phase := .entry } _).of_eq rfl
  · exact (fail_spares { m with phase := .entry } _).of_eq rfl

theorem leave_spares (m : Machine) (result : Option Value) : Spares m (m.leave result) := by
  unfold leave
  split
  · exact ⟨rfl, List.forall_mem_nil _⟩
  · refine .after (not_ofInstruction (by decide) (by decide)) ?_
    unfold returnTo
    split
    · exact ⟨rfl, List.forall_mem_nil _⟩
    · split
      · exact (enterEntry_spares _).of_eq rfl
      · exact (exit_spares _ _).of_eq rfl

/-! ### Steps -/

/-- A step that leads nowhere: it ends the run, but not on request, or less is left of the run. -/
inductive Ebbs (m : Machine) (a : Advance) : Prop where
  | ends (status : ExitStatus) (outcome : a.outcome = some (.exited status))
      (phase : a.machine.phase = .done status) (unasked : status ≠ .stopped)
  | goesOn (outcome : a.outcome = none) (less : a.machine.remaining < m.remaining)

theorem fail_ebbs (m' : Machine) (e : RuntimeError) : Ebbs m (m'.fail e) := .ends _ rfl rfl nofun

theorem Ebbs.after (h : Ebbs m a) (sent : List Emission) : Ebbs m (a.after sent) := by
  cases h with
  | ends status outcome phase unasked => exact .ends status outcome phase unasked
  | goesOn outcome less => exact .goesOn outcome less

/-- When the globals are set, the entry point has been counted already. -/
theorem enterEntry_ebbs (before : m.phase = .init) (active : m.frames ≠ [])
    (image : m'.image = m.image) (empty : m'.frames = []) : Ebbs m m'.enterEntry := by
  unfold enterEntry
  split
  · next entry there =>
    unfold enterRoot
    split
    · exact fail_ebbs _ _
    · next f function =>
      split
      · refine .goesOn rfl ?_
        obtain ⟨frame, below, frames⟩ := List.exists_cons_of_ne_nil active
        have begun : Frame.remaining m'.image ⟨entry, 0, initialLocals f [], []⟩ = f.code.length := by
          rw [Frame.remaining, function]
          rfl
        have counted : entryLeft m.image m.phase = f.code.length + 1 := by
          rw [before, ← image]
          change (m'.image.entry?.bind _).elim 0 _ = _
          rw [there]
          change (m'.image.function? entry).elim 0 _ = _
          rw [function]
          rfl
        change codeLeft m'.image (_ :: m'.frames) + 0 < _
        rw [remaining, frames, codeLeft_cons, codeLeft_cons, begun, counted, empty]
        change f.code.length + 1 + 0 + 0 < _
        omega
      · exact fail_ebbs _ _
  · exact fail_ebbs _ _

/-- A function that returns is not counted any more. -/
theorem leave_ebbs (active : m.frames ≠ []) (result : Option Value) : Ebbs m (m.leave result) := by
  obtain ⟨frame, below, frames⟩ := List.exists_cons_of_ne_nil active
  unfold leave
  rw [frames]
  refine Ebbs.after ?_ _
  unfold returnTo
  cases below with
  | cons caller below =>
    refine .goesOn rfl ?_
    change codeLeft m.image (caller :: below) + entryLeft m.image m.phase < _
    rw [remaining, frames, codeLeft_cons m.image frame]
    omega
  | nil =>
    dsimp only
    split
    · next before => exact enterEntry_ebbs before active rfl rfl
    · exact .ends _ rfl rfl nofun

/-- What a step does where no instruction comes next. -/
inductive Idles (m : Machine) (a : Advance) : Prop where
  | exits (exited : a = m.exit (.code 0))
  | fails (e : RuntimeError) (failed : a = m.fail e)
  | returns (active : m.frames ≠ []) (left : a = m.leave none)
  | passes (frame : Frame) (below : List Frame) (f : Code.Function)
      (frames : m.frames = frame :: below) (function : m.image.function? frame.function = some f)
      (inside : frame.next < f.code.length)
      (passed : a = { machine := { m with frames := { frame with next := frame.next + 1 } :: below } })

theorem step_idles (nothing : m.pending? = none) (stop : Bool) : Idles m (m.step stop) := by
  unfold pending? at nothing
  unfold step
  cases frames : m.frames with
  | nil => exact .exits rfl
  | cons frame below =>
    dsimp only
    cases function : m.image.function? frame.function with
    | none => exact .fails _ rfl
    | some f =>
      dsimp only
      cases here : f.code[frame.next]? with
      | none => exact .returns (by rw [frames]; exact List.cons_ne_nil _ _) rfl
      | some i =>
        dsimp only
        by_cases label : i.op.isLabel = true
        · rw [if_pos label]
          exact .passes frame below f frames function (List.getElem?_eq_some_iff.1 here).1 rfl
        · simp [frames, function, here, label] at nothing

theorem Idles.spares (h : Idles m a) : Spares m a := by
  cases h with
  | exits exited => exact exited ▸ exit_spares m _
  | fails e failed => exact failed ▸ fail_spares m e
  | returns active left => exact left ▸ leave_spares m none
  | passes frame below f frames function inside passed => exact passed ▸ ⟨rfl, List.forall_mem_nil _⟩

theorem Idles.ebbs (h : Idles m a) : Ebbs m a := by
  cases h with
  | exits exited => exact exited ▸ .ends _ rfl rfl nofun
  | fails e failed => exact failed ▸ fail_ebbs m e
  | returns active left => exact left ▸ leave_ebbs active none
  | passes frame below f frames function inside passed =>
    subst passed
    refine .goesOn rfl ?_
    have before : frame.remaining m.image = f.code.length - frame.next := by
      rw [Frame.remaining, function]
      rfl
    have after : Frame.remaining m.image { frame with next := frame.next + 1 } =
        f.code.length - (frame.next + 1) := by
      rw [Frame.remaining, function]
      rfl
    change codeLeft m.image (_ :: below) + entryLeft m.image m.phase < _
    rw [remaining, frames, codeLeft_cons, codeLeft_cons, before, after]
    omega

/-! ### Runs -/

/-- A run that is to stop ends after `n` steps, in which nothing is executed.  If it comes to an
instruction, then with the last of them and to be stopped there. -/
structure EndsIn (n : Nat) (run : Nat → Machine × Array Emission × Outcome) (m : Machine)
    (before : List Emission) (m' : Machine) (sent : Array Emission) (status : ExitStatus) : Prop where
  exited : ∀ fuel, n ≤ fuel → run fuel = (m', sent, .exited status)
  phase : m'.phase = .done status
  executed : m'.executed = m.executed
  quiet : ∃ more, sent.toList = before ++ more ∧ ∀ e ∈ more, ¬e.OfInstruction
  unfinished : ∀ k < n, (run k).2.2 = .unfinished
  pending_iff : ∀ k < n, (run k).1.pending?.isSome = true ↔ k + 1 = n ∧ status = .stopped

theorem Spares.endsIn (h : Spares m (m.step true)) {status : ExitStatus}
    (outcome : (m.step true).outcome = some (.exited status))
    (phase : (m.step true).machine.phase = .done status)
    (here : m.pending?.isSome = true ↔ status = .stopped) (sent : Array Emission) :
    EndsIn 1 (fun fuel => drive true fuel m sent) m sent.toList (m.step true).machine
      (sent ++ (m.step true).emitted) status where
  exited fuel enough := by
    obtain ⟨fuel, rfl⟩ := Nat.exists_eq_add_of_le' enough
    rw [drive, outcome]
  phase := phase
  executed := h.executed
  quiet := ⟨_, Array.toList_appendList, h.emitted⟩
  unfinished k first := by
    obtain rfl := Nat.lt_one_iff.1 first
    rfl
  pending_iff k first := by
    obtain rfl := Nat.lt_one_iff.1 first
    exact here.trans (iff_and_self.2 fun _ => rfl)

theorem EndsIn.later {n : Nat} {sent total : Array Emission} {status : ExitStatus}
    (spares : Spares m (m.step true)) (nothing : m.pending? = none)
    (goesOn : (m.step true).outcome = none) (some : 0 < n)
    (h : EndsIn n (fun fuel => drive true fuel (m.step true).machine (sent ++ (m.step true).emitted))
      (m.step true).machine (sent ++ (m.step true).emitted).toList m' total status) :
    EndsIn (n + 1) (fun fuel => drive true fuel m sent) m sent.toList m' total status := by
  have next (fuel : Nat) : drive true (fuel + 1) m sent =
      drive true fuel (m.step true).machine (sent ++ (m.step true).emitted) := by
    rw [drive, goesOn]
  refine ⟨fun fuel enough => ?_, h.phase, h.executed.trans spares.executed, ?_, fun k early => ?_,
    fun k early => ?_⟩
  · obtain ⟨fuel, rfl⟩ := Nat.exists_eq_add_of_le' enough
    rw [← Nat.add_assoc, next]
    exact h.exited _ (Nat.le_add_left n fuel)
  · obtain ⟨more, total, quiet⟩ := h.quiet
    refine ⟨(m.step true).emitted ++ more, ?_, List.forall_mem_append.2 ⟨spares.emitted, quiet⟩⟩
    rw [total, Array.toList_appendList, List.append_assoc]
  · cases k with
    | zero => rfl
    | succ k =>
      rw [next]
      exact h.unfinished k (Nat.lt_of_succ_lt_succ early)
  · cases k with
    | zero =>
      apply iff_of_false
      · change ¬m.pending?.isSome = true
        rw [nothing]
        exact Bool.false_ne_true
      · rintro ⟨last, -⟩
        omega
    | succ k =>
      rw [next, h.pending_iff k (Nat.lt_of_succ_lt_succ early), Nat.add_left_inj]

/-- A run that is to stop ends: less and less is left of it. -/
theorem drive_endsIn (left : Nat) : ∀ (m : Machine) (sent : Array Emission), m.remaining < left →
    ∃ n m' total status, 0 < n ∧
      EndsIn n (fun fuel => drive true fuel m sent) m sent.toList m' total status := by
  induction left with
  | zero => exact fun m sent less => absurd less (Nat.not_lt_zero _)
  | succ left ih =>
    intro m sent less
    cases next : m.pending? with
    | some pending =>
      have stopped := step_true_of_pending next
      have spares : Spares m (m.step true) := stopped ▸ exit_spares m .stopped
      refine ⟨1, _, _, .stopped, Nat.one_pos, spares.endsIn ?_ ?_ ?_ sent⟩
      · rw [stopped]
        rfl
      · rw [stopped]
        rfl
      · rw [next]
        exact iff_of_true rfl rfl
    | none =>
      have idles := step_idles next true
      cases idles.ebbs with
      | ends status outcome phase unasked =>
        refine ⟨1, _, _, status, Nat.one_pos, idles.spares.endsIn outcome phase ?_ sent⟩
        rw [next]
        exact iff_of_false Bool.false_ne_true unasked
      | goesOn outcome fewer =>
        obtain ⟨n, m', total, status, some, ends⟩ :=
          ih _ (sent ++ (m.step true).emitted) (Nat.lt_of_lt_of_le fewer (Nat.le_of_lt_succ less))
        exact ⟨n + 1, m', total, status, Nat.succ_pos n, ends.later idles.spares next outcome some⟩

/-! ### Beginnings -/

theorem begin_spares (m : Machine) : Spares m m.begin := by
  unfold begin
  split
  · exact ⟨rfl, List.forall_mem_nil _⟩
  · unfold start
    refine .after (not_ofInstruction (by decide) (by decide)) ?_
    split
    · exact fail_spares m _
    · exact (enterRoot_spares { m with phase := .init } _).of_eq rfl
    · exact enterEntry_spares m
  · exact ⟨rfl, List.forall_mem_nil _⟩

/-- How a run begins: if it was ended before there is nothing to do; else it can go on, or there was
something wrong with its start. -/
inductive Begins (m : Machine) (a : Advance) : Prop where
  | ended (status : ExitStatus) (phase : m.phase = .done status)
      (same : a = { machine := m, outcome := some (.exited status) })
  | fails (d : Diagnostic) (unfinished : ∀ status, m.phase ≠ .done status)
      (outcome : a.outcome = some (.exited (.error d))) (phase : a.machine.phase = .done (.error d))
  | goesOn (unfinished : ∀ status, m.phase ≠ .done status) (outcome : a.outcome = none)

theorem begin_begins (m : Machine) : Begins m m.begin := by
  have root {m' : Machine} (unfinished : ∀ status, m.phase ≠ .done status) (index : Nat)
      (sent : List Emission) : Begins m ((m'.enterRoot index).after sent) := by
    unfold enterRoot
    split
    · exact .fails _ unfinished rfl rfl
    · split
      · exact .goesOn unfinished rfl
      · exact .fails _ unfinished rfl rfl
  unfold begin
  split
  · next status phase => exact .ended status phase rfl
  · next idle =>
    have unfinished : ∀ status, m.phase ≠ .done status := fun status => by rw [idle]; nofun
    unfold start
    dsimp only
    split
    · exact .fails _ unfinished rfl rfl
    · exact root unfinished _ _
    · unfold enterEntry
      split
      · exact root unfinished _ _
      · exact .fails _ unfinished rfl rfl
  · next unended _ => exact .goesOn unended rfl

theorem endsIn_zero {run : Nat → Machine × Array Emission × Outcome} {sent : List Emission}
    {status : ExitStatus} (exited : ∀ fuel, run fuel = (m', sent.toArray, .exited status))
    (phase : m'.phase = .done status) (executed : m'.executed = m.executed)
    (quiet : ∀ e ∈ sent, ¬e.OfInstruction) : EndsIn 0 run m [] m' sent.toArray status :=
  ⟨fun fuel _ => exited fuel, phase, executed, ⟨sent, rfl, quiet⟩, nofun, nofun⟩

theorem EndsIn.begun {n : Nat} {run : Nat → Machine × Array Emission × Outcome} {m₁ : Machine}
    {sent : List Emission} {total : Array Emission} {status : ExitStatus}
    (h : EndsIn n run m₁ sent m' total status) (executed : m₁.executed = m.executed)
    (quiet : ∀ e ∈ sent, ¬e.OfInstruction) : EndsIn n run m [] m' total status :=
  { h with
    executed := h.executed.trans executed
    quiet := by
      obtain ⟨more, total, later⟩ := h.quiet
      exact ⟨sent ++ more, total, List.forall_mem_append.2 ⟨quiet, later⟩⟩ }

/-- The machine in which a run takes its first step. -/
def opened (m : Machine) (mode : Mode) : Machine :=
  { m.begin.machine with stepper := m.begin.machine.stepper.resume mode }

theorem resume_of_some {o : Outcome} (h : m.begin.outcome = some o) (mode : Mode) (stop : Bool)
    (fuel : Nat) : m.resume mode stop fuel = (m.begin.machine, m.begin.emitted.toArray, o) := by
  rw [← resumeUnder_const, resumeUnder, h]

theorem resume_of_none (h : m.begin.outcome = none) (mode : Mode) (stop : Bool) (fuel : Nat) :
    m.resume mode stop fuel = drive stop fuel (m.opened mode) m.begin.emitted.toArray := by
  rw [← resumeUnder_const, resumeUnder, h]
  exact driveUnder_const stop fuel _ _

/-- A run that is to stop terminates, wherever the program is and however it is resumed, and executes
nothing; it is stopped at the first instruction that it comes to, and ends in another way only if it
comes to none. -/
theorem stop_ends_run (m : Machine) (mode : Mode) :
    ∃ n m' sent status, EndsIn n (fun fuel => m.resume mode true fuel) m [] m' sent status ∧
      (∀ status', m.phase = .done status' → m' = m ∧ sent = #[] ∧ status = status') ∧
      ((∀ status', m.phase ≠ .done status') →
        (status = .stopped ↔ ∃ k < n, (m.resume mode true k).1.pending?.isSome = true)) := by
  have spares := begin_spares m
  cases begin_begins m with
  | ended status phase same =>
    have run (fuel : Nat) : m.resume mode true fuel = (m, [].toArray, .exited status) := by
      rw [resume_of_some (o := .exited status) (congrArg Advance.outcome same), same]
    refine ⟨0, m, [].toArray, status, endsIn_zero run phase rfl (List.forall_mem_nil _),
      fun status' phase' => ?_,
      fun unfinished => absurd phase (unfinished status)⟩
    rw [phase] at phase'
    exact ⟨rfl, rfl, Phase.done.inj phase'⟩
  | fails d unfinished outcome phase =>
    have ends := endsIn_zero (resume_of_some outcome mode true) phase spares.executed spares.emitted
    refine ⟨0, _, _, _, ends, fun status' ended => absurd ended (unfinished status'), fun _ => ?_⟩
    exact iff_of_false nofun fun ⟨k, early, _⟩ => absurd early (Nat.not_lt_zero k)
  | goesOn unfinished outcome =>
    obtain ⟨n, m', total, status, some, ends⟩ :=
      drive_endsIn _ (m.opened mode) m.begin.emitted.toArray (Nat.lt_succ_self _)
    simp only [← resume_of_none outcome mode true] at ends
    refine ⟨n, m', total, status, ends.begun spares.executed spares.emitted,
      fun status' ended => absurd ended (unfinished status'), fun _ => ⟨fun stopped => ?_, ?_⟩⟩
    · have last : n - 1 + 1 = n := Nat.sub_add_cancel some
      have early : n - 1 < n := Nat.sub_lt some Nat.one_pos
      exact ⟨n - 1, early, (ends.pending_iff _ early).2 ⟨last, stopped⟩⟩
    · rintro ⟨k, early, pending⟩
      exact ((ends.pending_iff k early).1 pending).2

end ScriptLang.Machine
