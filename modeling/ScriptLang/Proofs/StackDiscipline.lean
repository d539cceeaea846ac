import ScriptLang.Proofs.StackLayout

/-!
# How functions stand on the stack

An instruction takes operands from above the base of the innermost function only, and changes the
variables of no other function (`Moved`).  A function that is called begins where the stack ends, and
one that returns cuts the stack down to its base.  Therefore the active functions always stand one above
the other, and none above the end of the stack (`Level`).  The stepper is told of every call and return,
and so it knows at every moment how many functions are active, and keeps a line for each of them.
-/

namespace ScriptLang.Machine.Shared

/-! ### Instructions -/

/-- The innermost function stands above `below`, and its operands above `low`. -/
structure Above (below : List Frame) (low : List Value) (s : Shared) : Prop where
  top : ∃ frame, s.frames = frame :: below ∧ frame.base = low.length
  stack : low <:+ s.stack

/-- The innermost function alone has moved, and of the stack only what is above its base. -/
structure Moved (s s' : Shared) : Prop where
  above : ∀ {below : List Frame} {low : List Value}, Above below low s → Above below low s'
  image : s'.image = s.image
  stepper : s'.stepper = s.stepper
  phase : s'.phase = s.phase
  resuming : s'.resuming = s.resuming
  maxCallDepth : s'.maxCallDepth = s.maxCallDepth

variable {s s' s'' : Shared}

theorem Moved.refl (s : Shared) : Moved s s := ⟨id, rfl, rfl, rfl, rfl, rfl⟩

theorem Moved.trans (h : Moved s s') (h' : Moved s' s'') : Moved s s'' where
  above := h'.above ∘ h.above
  image := h'.image.trans h.image
  stepper := h'.stepper.trans h.stepper
  phase := h'.phase.trans h.phase
  resuming := h'.resuming.trans h.resuming
  maxCallDepth := h'.maxCallDepth.trans h.maxCallDepth

theorem push_moved (s : Shared) (v : Value) : Moved s (s.push v) where
  above h := ⟨h.top, h.stack.trans (List.suffix_cons v _)⟩
  image := rfl
  stepper := rfl
  phase := rfl
  resuming := rfl
  maxCallDepth := rfl

/-- The base keeps the stack below it. -/
theorem pop_moved {v : Value} (h : s.pop = some (v, s')) : Moved s s' := by
  unfold pop at h
  split at h
  · next frame below v rest frames stack =>
    split at h
    · cases h
    · next high =>
      cases h
      refine ⟨fun {below' low} stands => ⟨stands.top, ?_⟩, rfl, rfl, rfl, rfl, rfl⟩
      obtain ⟨frame', frames', base⟩ := stands.top
      cases frames.symm.trans frames'
      have low_le := stands.stack
      rw [stack] at low_le high
      rcases List.suffix_cons_iff.1 low_le with full | rest_le
      · rw [base, full] at high
        exact absurd (Nat.le_refl _) high
      · exact rest_le
  · cases h

theorem splitOff_moved {argc : Nat} {args : List Value} (h : s.splitOff argc = some (args, s')) :
    Moved s s' := by
  unfold splitOff at h
  split at h
  · next frame below frames =>
    split at h
    · cases h
    · next enough =>
      cases h
      refine ⟨fun {below' low} stands => ⟨stands.top, ?_⟩, rfl, rfl, rfl, rfl, rfl⟩
      obtain ⟨frame', frames', base⟩ := stands.top
      cases frames.symm.trans frames'
      obtain ⟨operands, stack⟩ := stands.stack
      have few : argc ≤ operands.length := by
        rw [← stack, List.length_append, base] at enough
        omega
      dsimp only
      rw [← stack, List.drop_append_of_le_length few]
      exact List.suffix_append _ _
  · cases h

namespace Spot

theorem mapTop_moved (s : Shared) {change : Frame → Frame}
    (base : ∀ frame, (change frame).base = frame.base) : Moved s (mapTop s change) := by
  unfold mapTop
  split
  · next frame below frames =>
    refine ⟨fun {below' low} stands => ⟨?_, stands.stack⟩, rfl, rfl, rfl, rfl, rfl⟩
    obtain ⟨frame', frames', low⟩ := stands.top
    cases frames.symm.trans frames'
    exact ⟨_, rfl, (base frame).trans low⟩
  · exact .refl s

end Spot

theorem goOn_moved (s : Shared) : Moved s s.goOn := Spot.mapTop_moved s fun _ => rfl

theorem globals_moved (s : Shared) (globals : List Value) : Moved s { s with globals } :=
  ⟨fun h => ⟨h.top, h.stack⟩, rfl, rfl, rfl, rfl, rfl⟩

/-- What an instruction does if it does not fail. -/
inductive Spot.Does (s : Shared) : Code.Op → Effect → Prop
  /-- The function goes on, and a function of the machine may have printed. -/
  | goesOn {op : Code.Op} {s' : Shared} {printed : List Note} (moved : Moved s s')
      (texts : ∀ n ∈ printed, ∃ text, n.emission = .output text) :
      Does s op { machine := s', printed }
  | enters {op : Code.Op} {s' : Shared} {frame : Frame} {f : Code.Function} (moved : Moved s s')
      (base : frame.base = s'.stack.length) (room : s'.frames.length < s.maxCallDepth) :
      Does s op { machine := s', flow := .enter frame f }
  | returnsValue {s' : Shared} {v : Value} (last : s.pop = some (v, s')) :
      Does s (.ret true) { machine := s', flow := .leave (some v) }
  | returns : Does s (.ret false) { machine := s, flow := .leave none }

namespace Spot

variable {p : Spot} {op : Code.Op} {e : Effect}

theorem need_bind {α : Type} {found : Option α} {k : α → Except RuntimeError Effect}
    (h : p.need found >>= k = .ok e) : ∃ a, found = some a ∧ k a = .ok e := by
  cases found with
  | none => cases h
  | some a => exact ⟨a, rfl, h⟩

theorem does_of_moved (h : Moved s s') : Does s op { machine := s' } :=
  .goesOn h (List.forall_mem_nil _)

/-! What is left of an instruction once its operands are off the stack. -/

theorem pushResult_does (moved : Moved s s') {r : Except ValueError Value}
    (h : p.pushResult s' r = .ok e) : Does s op e := by
  cases r with
  | ok v =>
    cases h
    exact does_of_moved (moved.trans (push_moved s' v))
  | error => cases h

theorem jump_does (moved : Moved s s') {l : Code.Label} (h : p.jump s' l = .ok e) :
    Does s op e := by
  unfold jump at h
  split at h
  · cases h
    exact does_of_moved (moved.trans (mapTop_moved s' fun _ => rfl))
  · cases h

theorem invoke_does (moved : Moved s s') {index : Nat} {f : Code.Function} {args : List Value}
    (h : p.invoke s' index f args = .ok e) : Does s op e := by
  unfold invoke at h
  split at h
  · split at h
    · cases h
    · next room =>
      cases h
      exact .enters moved rfl (moved.maxCallDepth ▸ Nat.not_le.1 room)
  · next i _ =>
    cases h
    refine .goesOn moved fun n printed => ?_
    rcases List.mem_cons.1 printed with rfl | ending
    · exact ⟨_, rfl⟩
    · split at ending
      · exact List.mem_singleton.1 ending ▸ ⟨_, rfl⟩
      · cases ending
  · split at h
    · cases h
    · next v _ =>
      cases h
      split
      · exact does_of_moved moved
      · exact does_of_moved (moved.trans (push_moved s' v))

theorem call_does {name : String} {argc : Nat} (h : p.call s name argc = .ok e) : Does s op e := by
  unfold call at h
  split at h
  · cases h
  · dsimp only at h
    split at h
    · cases h
    · obtain ⟨⟨args, s'⟩, split, invoked⟩ := need_bind h
      exact invoke_does (splitOff_moved split) invoked

theorem execute_does (h : p.execute s op = .ok e) : Does s op e := by
  cases op with
  | pushConst v =>
    cases h
    exact does_of_moved (push_moved s v)
  | pushLocal slot =>
    obtain ⟨v, -, pushed⟩ := need_bind h
    cases pushed
    exact does_of_moved (push_moved s v)
  | popLocal slot =>
    obtain ⟨⟨v, s'⟩, popped, stored⟩ := need_bind h
    cases stored
    exact does_of_moved ((pop_moved popped).trans (mapTop_moved s' fun _ => rfl))
  | pushGlobal id =>
    cases h
    exact does_of_moved (push_moved s _)
  | popGlobal id =>
    obtain ⟨⟨v, s'⟩, popped, stored⟩ := need_bind h
    cases stored
    exact does_of_moved ((pop_moved popped).trans (globals_moved s' _))
  | unary | cast =>
    obtain ⟨⟨v, s'⟩, popped, pushed⟩ := need_bind h
    exact pushResult_does (pop_moved popped) pushed
  | binary op =>
    obtain ⟨⟨r, s₁⟩, popped, rest⟩ := need_bind h
    obtain ⟨⟨l, s₂⟩, popped', pushed⟩ := need_bind rest
    exact pushResult_does ((pop_moved popped).trans (pop_moved popped')) pushed
  | call name argc | callNative name argc => exact call_does h
  | ret hasValue =>
    cases hasValue with
    | true =>
      obtain ⟨⟨v, s'⟩, popped, returned⟩ := need_bind h
      cases returned
      exact .returnsValue popped
    | false =>
      cases h
      exact .returns
  | jump l => exact jump_does (.refl s) h
  | jumpIfFalse l | jumpIfTrue l =>
    obtain ⟨⟨v, s'⟩, popped, rest⟩ := need_bind h
    dsimp only at rest
    split at rest <;> first
      | exact jump_does (pop_moved popped) rest
      | (cases rest; exact does_of_moved (pop_moved popped))
  | label l =>
    cases h
    exact does_of_moved (.refl s)
  | pop =>
    obtain ⟨⟨v, s'⟩, popped, rest⟩ := need_bind h
    cases rest
    exact does_of_moved (pop_moved popped)

end Spot

/-- What an instruction does.  A function that it enters begins where the stack ends, and there is
room for it. -/
structure Effect.Keeps (s : Shared) (e : Effect) : Prop where
  moved : Moved s e.machine
  printed : ∀ n ∈ e.printed, ∃ text, n.emission = .output text
  entered : ∀ frame f, e.flow = .enter frame f →
    frame.base = e.machine.stack.length ∧ e.machine.frames.length < s.maxCallDepth

/-- An instruction moves the innermost function alone. -/
theorem Spot.execute_keeps {p : Spot} {op : Code.Op} {e : Effect} (h : p.execute s op = .ok e) :
    e.Keeps s := by
  cases execute_does h with
  | goesOn moved texts => exact ⟨moved, texts, nofun⟩
  | enters moved base room =>
    refine ⟨moved, List.forall_mem_nil _, fun _ _ flow => ?_⟩
    cases flow
    exact ⟨base, room⟩
  | returnsValue last => exact ⟨pop_moved last, List.forall_mem_nil _, nofun⟩
  | returns => exact ⟨.refl s, List.forall_mem_nil _, nofun⟩

/-! ### Depths -/

/-- The depth that a message reports, if it reports one. -/
def depth? : Payload → Option Nat
  | .function _ depth | .instruction _ _ _ _ depth => some depth
  | _ => none

/-- A depth that is reported is the number of active functions; a function that returns is counted as
well. -/
def Note.Counts (n : Note) : Prop :=
  ∀ kind payload depth, n.emission = .message ⟨kind, payload⟩ → depth? payload = some depth →
    depth = n.frames + if kind = .functionReturn then 1 else 0

/-- The stepper counts the active functions, there are no more than the limit allows, and they stand
on the stack one above the other. -/
structure Level (limit : Nat) (s : Shared) : Prop where
  depth : s.stepper.depth = s.frames.length
  lines : s.stepper.lines.length = s.frames.length
  bounded : s.frames.length ≤ max 1 limit
  limit : s.maxCallDepth = limit
  piled : (s.stack.length :: s.frames.map Frame.base).Pairwise (· ≥ ·)

variable {limit : Nat}

theorem Level.inPhase (h : Level limit s) (phase : Phase) : Level limit { s with phase } :=
  ⟨h.depth, h.lines, h.bounded, h.limit, h.piled⟩

theorem Level.withStepper (h : Level limit s) {stepper : Stepper}
    (depth : stepper.depth = s.stepper.depth)
    (lines : stepper.lines.length = s.stepper.lines.length) : Level limit { s with stepper } :=
  ⟨depth.trans h.depth, lines.trans h.lines, h.bounded, h.limit, h.piled⟩

/-- A run that has begun and not ended. -/
structure Running (limit : Nat) (s : Shared) : Prop extends Level limit s where
  active : s.frames ≠ []
  started : s.Started

/-- A move of a machine that runs. -/
structure Advance.Sound (limit : Nat) (a : Advance) : Prop where
  counts : ∀ n ∈ a.notes, n.Counts
  position : ∀ reason position, a.outcome = some (.suspended reason position) →
    position.depth = a.machine.frames.length
  goesOn : a.machine.Running limit ∨
    ∃ status, a.machine.phase = .done status ∧ a.machine.frames = [] ∧
      a.outcome = some (.exited status)

theorem Running.withStepper (h : Running limit s) {stepper : Stepper}
    (depth : stepper.depth = s.stepper.depth)
    (lines : stepper.lines.length = s.stepper.lines.length) : Running limit { s with stepper } :=
  ⟨h.toLevel.withStepper depth lines, h.active, h.started⟩

/-- Whether the next instruction has been announced does not matter. -/
theorem Running.announced (h : Running limit s) (resuming : Bool) :
    Running limit { s with resuming } :=
  ⟨⟨h.depth, h.lines, h.bounded, h.limit, h.piled⟩, h.active, h.started⟩

theorem Running.counted (h : Running limit s) (executed : Nat) :
    Running limit { s with executed } :=
  ⟨⟨h.depth, h.lines, h.bounded, h.limit, h.piled⟩, h.active, h.started⟩

theorem check_lines (stepper : Stepper) (line : Nat) :
    (stepper.check line).2.lines.length = stepper.lines.length := by
  unfold Stepper.check Stepper.atLine
  cases lines : stepper.lines <;> simp [lines]

theorem Running.checked (h : Running limit s) (line : Nat) :
    Running limit { s with stepper := (s.stepper.check line).2 } :=
  h.withStepper (s.stepper.check_checked line).depth (check_lines _ _)

variable {a : Advance}

theorem Advance.Sound.after {notes : List Note} (counts : ∀ n ∈ notes, n.Counts) (h : a.Sound limit) :
    (a.after notes).Sound limit where
  counts n hn := (List.mem_append.1 hn).elim (counts n) (h.counts n)
  position := h.position
  goesOn := h.goesOn

theorem note_counts {kind : MessageKind} {payload : Payload}
    (h : ∀ depth, depth? payload = some depth →
      depth = s.frames.length + if kind = .functionReturn then 1 else 0) :
    ∀ n ∈ [s.note (send kind payload)], n.Counts := by
  intro n hn kind' payload' depth emission reports
  obtain rfl := List.mem_singleton.1 hn
  cases emission
  exact h depth reports

/-- A move that tells nothing and does not end the run. -/
theorem Running.sound (h : Running limit s) : Advance.Sound limit { machine := s } :=
  ⟨List.forall_mem_nil _, fun _ _ suspended => (by cases suspended), .inl h⟩

theorem exit_sound (s : Shared) (status : ExitStatus) : (s.exit status).Sound limit :=
  ⟨note_counts fun _ reports => (by cases reports), fun _ _ suspended => (by cases suspended),
    .inr ⟨status, rfl, rfl, rfl⟩⟩

theorem fail_sound (s : Shared) (e : RuntimeError) : (s.fail e).Sound limit := exit_sound _ _

/-! ### Calls and returns -/

theorem enter_sound (h : Level limit s) (started : s.Started) (room : s.frames.length < max 1 limit)
    {frame : Frame} (base : frame.base = s.stack.length) (f : Code.Function) :
    (s.enter frame f).Sound limit where
  counts := by
    refine note_counts fun depth reports => ?_
    cases reports
    exact congrArg (· + 1) h.depth
  position _ _ suspended := by cases suspended
  goesOn := by
    have lower : (frame.base :: s.frames.map Frame.base).Pairwise (· ≥ ·) := by
      rw [base]
      exact h.piled
    refine .inl ⟨⟨congrArg (· + 1) h.depth, congrArg (· + 1) h.lines, room, h.limit, ?_⟩,
      List.cons_ne_nil _ _, started⟩
    refine List.pairwise_cons.2 ⟨?_, lower⟩
    intro height hmem
    rcases List.mem_cons.1 hmem with rfl | hmem
    · exact Nat.le_of_eq base
    · exact (List.pairwise_cons.1 h.piled).1 height hmem

theorem enterRoot_sound (h : Level limit s) (started : s.Started) (empty : s.frames = [])
    (index : Nat) : (s.enterRoot index).Sound limit := by
  unfold enterRoot
  split
  · exact fail_sound _ _
  · split
    · refine enter_sound h started ?_ rfl _
      rw [empty]
      exact Nat.lt_of_lt_of_le Nat.one_pos (Nat.le_max_left _ _)
    · exact fail_sound _ _

theorem enterEntry_sound (h : Level limit s) (empty : s.frames = []) :
    s.enterEntry.Sound limit := by
  unfold enterEntry
  split
  · next entry _ =>
    exact enterRoot_sound (h.inPhase .entry) (.inr rfl) empty entry
  · exact fail_sound _ _

theorem returnTo_sound (h : Level limit s) (started : s.Started) (result : Option Value) :
    (s.returnTo result).Sound limit := by
  unfold returnTo
  split
  · next caller below frames =>
    refine Running.sound ⟨⟨h.depth, h.lines, h.bounded, h.limit, ?_⟩, ?_, started⟩
    · refine List.pairwise_cons.2 ⟨fun height hmem => ?_, (List.pairwise_cons.1 h.piled).2⟩
      have higher := (List.pairwise_cons.1 h.piled).1 height hmem
      rw [List.length_append]
      omega
    · exact fun none => by cases frames.symm.trans none
  · next frames =>
    split
    · exact enterEntry_sound h frames
    · exact exit_sound _ _

theorem length_cutDown {stack : List Value} {height : Nat} (h : height ≤ stack.length) :
    (cutDown stack height).length = height := by
  rw [cutDown, List.length_drop]
  omega

theorem leave_sound (h : Running limit s) (result : Option Value) :
    (s.leave result).Sound limit := by
  unfold leave
  split
  · next frames => exact absurd frames h.active
  · next frame below frames =>
    have depth := h.depth
    have lines := h.lines
    have bounded := h.bounded
    have piled := h.piled
    rw [frames] at depth lines bounded piled
    rw [List.map_cons, List.pairwise_cons] at piled
    have left : Level limit { s with
        frames := below, stack := cutDown s.stack frame.base, stepper := s.stepper.leave } := by
      refine ⟨congrArg (· - 1) depth, ?_, Nat.le_trans (Nat.le_succ _) bounded, h.limit, ?_⟩
      · change s.stepper.lines.tail.length = below.length
        rw [List.length_tail, lines]
        rfl
      · dsimp only
        rw [length_cutDown (piled.1 _ List.mem_cons_self)]
        exact piled.2
    refine (returnTo_sound left h.started result).after (note_counts fun d reports => ?_)
    cases reports
    exact depth

/-! ### Steps -/

/-- Where the innermost function alone has moved, the functions stand as before. -/
theorem Running.moved (h : Running limit s) (moved : Moved s s') : Running limit s' := by
  obtain ⟨frame, below, frames⟩ := List.exists_cons_of_ne_nil h.active
  have depth := h.depth
  have lines := h.lines
  have bounded := h.bounded
  have piled := h.piled
  rw [frames] at depth lines bounded piled
  rw [List.map_cons, List.pairwise_cons] at piled
  have base := length_cutDown (piled.1 _ List.mem_cons_self)
  obtain ⟨⟨frame', frames', base'⟩, high⟩ :=
    moved.above ⟨⟨frame, frames, base.symm⟩, List.drop_suffix _ _⟩
  refine ⟨⟨?_, ?_, ?_, moved.maxCallDepth.trans h.limit, ?_⟩, ?_, ?_⟩
  · rw [moved.stepper, frames']
    exact depth
  · rw [moved.stepper, frames']
    exact lines
  · rw [frames']
    exact bounded
  · rw [frames', List.map_cons, base', base]
    refine List.pairwise_cons.2 ⟨fun height hmem => ?_, piled.2⟩
    have higher := high.length_le
    rw [base] at higher
    rcases List.mem_cons.1 hmem with rfl | hmem
    · exact higher
    · exact Nat.le_trans ((List.pairwise_cons.1 piled.2).1 _ hmem) higher
  · rw [frames']
    exact List.cons_ne_nil _ _
  · unfold Started
    rw [moved.phase]
    exact h.started

theorem follow_sound (h : Running limit s) {flow : Flow}
    (entered : ∀ frame f, flow = .enter frame f →
      frame.base = s.stack.length ∧ s.frames.length < limit) :
    (s.follow flow).Sound limit := by
  cases flow with
  | next => exact h.sound
  | enter frame f =>
    obtain ⟨base, room⟩ := entered frame f rfl
    exact enter_sound h.toLevel h.started (Nat.lt_of_lt_of_le room (Nat.le_max_right _ _)) base f
  | leave result => exact leave_sound h result

theorem perform_sound (h : Running limit s) (p : Spot) (i : Code.Instruction) :
    (s.perform p i).Sound limit := by
  unfold perform
  split
  · exact fail_sound _ _
  · next effect executed =>
    have keeps := Spot.execute_keeps executed
    have runs := h.moved (s.goOn_moved.trans keeps.moved)
    refine (follow_sound (runs.counted _) fun frame f flow => ?_).after fun n hn => ?_
    · obtain ⟨base, room⟩ := keeps.entered frame f flow
      rw [s.goOn_moved.maxCallDepth, h.limit] at room
      exact ⟨base, room⟩
    · rcases List.mem_append.1 hn with printed | after
      · obtain ⟨text, output⟩ := keeps.printed n printed
        intro kind payload depth emission
        cases output.symm.trans emission
      · refine note_counts (fun depth reports => ?_) n after
        cases reports
        exact runs.depth

theorem checkAndPerform_sound (h : Running limit s) (p : Spot) (i : Code.Instruction) :
    (s.checkAndPerform p i).Sound limit := by
  have runs := h.checked i.location.line
  have announced : ∀ n ∈ [s.instructionNote .onInstruction p.function p.place i], n.Counts := by
    refine note_counts fun depth reports => ?_
    cases reports
    exact h.depth
  unfold checkAndPerform
  dsimp only
  split
  · refine ⟨announced, fun reason position suspended => ?_, .inl (runs.announced true)⟩
    cases suspended
    exact runs.depth
  · exact (perform_sound runs p i).after announced

/-- Whatever step is taken, what is reported is right and the functions stay in step. -/
theorem step_sound (h : Running limit s) (stop : Bool) : (s.step stop).Sound limit := by
  unfold step
  split
  · exact exit_sound _ _
  · split
    · exact fail_sound _ _
    · split
      · exact leave_sound h none
      · split
        · exact (h.moved s.goOn_moved).sound
        · split
          · exact exit_sound _ _
          · split
            · exact perform_sound (h.announced false) _ _
            · exact checkAndPerform_sound h _ _

/-! ### Runs -/

/-- A program at any point between two steps of its run. -/
inductive Standing (limit : Nat) (s : Shared) : Prop where
  | unstarted (level : Level limit s) (idle : s.phase = .idle) (empty : s.frames = [])
  | running (runs : s.Running limit)
  | ended (status : ExitStatus) (phase : s.phase = .done status) (empty : s.frames = [])

theorem start_sound (h : Level limit s) (empty : s.frames = []) : s.start.Sound limit := by
  unfold start
  refine .after (note_counts fun _ reports => by cases reports) ?_
  split
  · exact fail_sound _ _
  · exact enterRoot_sound (h.inPhase .init) (.inl rfl) empty _
  · exact enterEntry_sound h empty

theorem begin_sound (h : Standing limit s) : s.begin.Sound limit := by
  unfold begin
  cases h with
  | unstarted level idle empty =>
    rw [idle]
    exact start_sound level empty
  | running runs =>
    rcases runs.started with phase | phase <;> rw [phase] <;> exact runs.sound
  | ended status phase empty =>
    rw [phase]
    exact ⟨List.forall_mem_nil _, fun _ _ suspended => (by cases suspended),
      .inr ⟨status, phase, empty, rfl⟩⟩

theorem Standing.position (h : Standing limit s) {position : Position}
    (here : s.position? = some position) : position.depth = s.frames.length := by
  have depth : position.depth = s.stepper.depth := by
    obtain ⟨next, -, rfl⟩ := Option.map_eq_some_iff.1 here
    rfl
  cases h with
  | unstarted level => exact depth.trans level.depth
  | running runs => exact depth.trans runs.depth
  | ended status phase empty => simp [position?, next?, empty] at here

/-- What a run leads to after some of its steps. -/
structure Sound (limit : Nat) (r : Shared × List Note × Outcome) : Prop where
  standing : Standing limit r.1
  counts : ∀ n ∈ r.2.1, n.Counts
  position : ∀ reason position, r.2.2 = .suspended reason position →
    position.depth = r.1.frames.length

theorem Advance.Sound.standing (h : a.Sound limit) : Standing limit a.machine :=
  h.goesOn.elim .running fun ⟨status, phase, empty, _⟩ => .ended status phase empty

theorem Advance.Sound.running (h : a.Sound limit) (goesOn : a.outcome = none) :
    a.machine.Running limit := by
  rcases h.goesOn with runs | ⟨status, -, -, exited⟩
  · exact runs
  · cases goesOn.symm.trans exited

theorem driveUnder_sound : ∀ (fuel : Nat) {s : Shared} (stops : Nat → Bool) {notes : List Note},
    s.Running limit → (∀ n ∈ notes, n.Counts) → Sound limit (s.driveUnder stops fuel notes)
  | 0, _, _, _, runs, counts => ⟨.running runs, counts, nofun⟩
  | fuel + 1, s, stops, notes, runs, counts => by
    have stepped := step_sound runs (stops 0)
    have counts' : ∀ n ∈ notes ++ (s.step (stops 0)).notes, n.Counts := fun n hn =>
      (List.mem_append.1 hn).elim (counts n) (stepped.counts n)
    rw [driveUnder]
    cases outcome : (s.step (stops 0)).outcome with
    | some o => exact ⟨stepped.standing, counts', fun reason position suspended =>
        stepped.position reason position (outcome.trans (congrArg some suspended))⟩
    | none => exact driveUnder_sound fuel _ (stepped.running outcome) counts'

theorem Standing.withStepper (h : Standing limit s) {stepper : Stepper}
    (depth : stepper.depth = s.stepper.depth)
    (lines : stepper.lines.length = s.stepper.lines.length) : Standing limit { s with stepper } := by
  cases h with
  | unstarted level idle empty => exact .unstarted (level.withStepper depth lines) idle empty
  | running runs => exact .running (runs.withStepper depth lines)
  | ended status phase empty => exact .ended status phase empty

theorem resumeUnder_sound (h : Standing limit s) (mode : Mode) (stops : Nat → Bool) (fuel : Nat) :
    Sound limit (s.resumeUnder mode stops fuel) := by
  have begun := begin_sound h
  unfold resumeUnder
  cases outcome : s.begin.outcome with
  | some o => exact ⟨begun.standing, begun.counts, fun reason position suspended =>
      begun.position reason position (outcome.trans (congrArg some suspended))⟩
  | none =>
    have runs := begun.running outcome
    exact driveUnder_sound fuel stops (runs.withStepper rfl rfl) begun.counts

theorem answer_sound (h : Standing limit s) (r : Request) :
    Standing limit (s.answer r).1 ∧ ∀ n ∈ (s.answer r).2, n.Counts := by
  cases r with
  | resume mode stops fuel =>
    have run := resumeUnder_sound h mode stops fuel
    exact ⟨run.standing, run.counts⟩
  | pause => exact ⟨h.withStepper rfl rfl, List.forall_mem_nil _⟩
  | addBreakpoint line =>
    have lines := congrArg List.length (addBreakpoint_lines s.stepper line)
    exact ⟨h.withStepper (addBreakpoint_depth s.stepper line) lines, List.forall_mem_nil _⟩
  | removeBreakpoint line => exact ⟨h.withStepper rfl rfl, List.forall_mem_nil _⟩

theorem foldl_sound : ∀ (rs : List Request) {t : Shared × List Note}, Standing limit t.1 →
    (∀ n ∈ t.2, n.Counts) →
    let t' := rs.foldl (fun t r => ((t.1.answer r).1, t.2 ++ (t.1.answer r).2)) t
    Standing limit t'.1 ∧ ∀ n ∈ t'.2, n.Counts
  | [], _, standing, counts => ⟨standing, counts⟩
  | r :: rs, t, standing, counts => by
    have answered := answer_sound standing r
    refine foldl_sound rs answered.1 fun n hn => ?_
    exact (List.mem_append.1 hn).elim (counts n) (answered.2 n)

theorem after_sound (image : Image) (limit : Nat) (rs : List Request) :
    Standing limit (after image limit rs).1 ∧ ∀ n ∈ (after image limit rs).2, n.Counts :=
  foldl_sound rs (.unstarted ⟨rfl, rfl, Nat.zero_le _, rfl, List.pairwise_singleton _ _⟩ rfl rfl)
    (List.forall_mem_nil _)

/-- Whatever is asked of a program, after every step of its run the stepper knows how many functions
are active, at least one and no more than allowed; on one stack, where the run is the same, they stand
one above the other; and every depth that was reported was right. -/
theorem frames_in_step (image : Image) (limit : Nat) (rs : List Request) (mode : Mode)
    (stops : Nat → Bool) (fuel : Nat) :
    let s := after image limit rs
    let m := (afterRequests image limit rs).1
    let r := s.1.resumeUnder mode stops fuel
    Lays r (m.resumeUnder mode stops fuel) ∧
      (r.1.Started → Level limit r.1 ∧ 1 ≤ r.1.frames.length) ∧
      (∀ n ∈ s.2 ++ r.2.1, n.Counts) ∧
      (∀ reason position, r.2.2 = .suspended reason position → position.depth = r.1.frames.length) ∧
      ∀ position, r.1.position? = some position → position.depth = r.1.frames.length := by
  intro s m r
  obtain ⟨standing, counts⟩ := after_sound image limit rs
  have run : Sound limit r := resumeUnder_sound standing mode stops fuel
  refine ⟨?_, fun started => ?_, fun n hn => ?_, run.position, fun position here => ?_⟩
  · have laid : s.1 = m.laid := (after_lays image limit rs).1
    change Lays (s.1.resumeUnder mode stops fuel) _
    rw [laid]
    exact resumeUnder_lays m mode stops fuel
  · cases run.standing with
    | unstarted level idle => rcases started with phase | phase <;> cases idle.symm.trans phase
    | running runs => exact ⟨runs.toLevel, List.length_pos_of_ne_nil runs.active⟩
    | ended status done => rcases started with phase | phase <;> cases done.symm.trans phase
  · exact (List.mem_append.1 hn).elim (counts n) (run.counts n)
  · exact run.standing.position here

end ScriptLang.Machine.Shared
