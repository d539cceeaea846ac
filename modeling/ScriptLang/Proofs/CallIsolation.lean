import Mathlib.Logic.Relation
import ScriptLang.Proofs.StackDiscipline

/-!
# What a call leaves alone

All active functions keep their operands on one stack, so that a function that is called could take or
change what its caller left there.  It never does: as long as a function is active, the functions below
it stay as they are, and so does the stack below its base (`Within.moves`), whatever the functions do
that it calls in turn.  When it returns, the caller finds its operands without the arguments, and on
top of them the result if there is one.
-/

namespace ScriptLang.Machine.Shared

/-! ### Steps -/

/-- The innermost function is about to return, with a result or without. -/
inductive Returns (s : Shared) : Option Value → Prop where
  | value {f : Code.Function} {place : Nat} {i : Code.Instruction} {v : Value}
      (next : s.next? = some (f, place, i)) (op : i.op = .ret true) (last : s.stack.head? = some v) :
      Returns s (some v)
  | nothing {f : Code.Function} {place : Nat} {i : Code.Instruction}
      (next : s.next? = some (f, place, i)) (op : i.op = .ret false) : Returns s none
  /-- Its code has run out. -/
  | ranOut (next : s.next? = none) : Returns s none

/-- What a step can do, seen from the functions below the innermost one and the stack below its base. -/
inductive Goes (s s' : Shared) (o : Option Outcome) : Prop where
  | ended (status : ExitStatus) (outcome : o = some (.exited status)) (frames : s'.frames = [])
  | moved (above : ∀ {below : List Frame} {low : List Value}, Above below low s → Above below low s')
  | entered (new : Frame) (caller : Shared)
      (above : ∀ {below : List Frame} {low : List Value},
        Above below low s → Above below low caller)
      (frames : s'.frames = new :: caller.frames) (stack : s'.stack = caller.stack)
      (base : new.base = caller.stack.length)
  | left (result : Option Value) (returns : s.Returns result)
      (above : ∀ {below : List Frame} {low : List Value}, Above below low s →
        s'.frames = below ∧ s'.stack = result.toList ++ low)
  /-- The globals are set, and the entry point begins. -/
  | restarted (root : Frame) (frames : s'.frames = [root])
      (above : ∀ {below : List Frame} {low : List Value}, Above below low s →
        below = [] ∧ root.base = low.length ∧ s'.stack = low)

variable {limit : Nat} {s s' s'' : Shared} {o : Option Outcome}

/-- What a step does is seen alike from a machine with the same functions and the same stack. -/
theorem Goes.of_eq (frames : s'.frames = s.frames) (stack : s'.stack = s.stack)
    (image : s'.image = s.image) (h : Goes s' s'' o) : Goes s s'' o := by
  have above {below : List Frame} {low : List Value} (h : Above below low s) : Above below low s' :=
    ⟨frames ▸ h.top, stack ▸ h.stack⟩
  have next : s'.next? = s.next? := by rw [next?, next?, frames, image]
  cases h with
  | ended status outcome ended => exact .ended status outcome ended
  | moved stays => exact .moved fun h => stays (above h)
  | entered new caller stays frames' stack' base =>
    exact .entered new caller (fun h => stays (above h)) frames' stack' base
  | left result returns leaves =>
    refine .left result ?_ fun h => leaves (above h)
    cases returns with
    | value here op last => exact .value (next ▸ here) op (stack ▸ last)
    | nothing here op => exact .nothing (next ▸ here) op
    | ranOut none => exact .ranOut (next ▸ none)
  | restarted root frames' begins => exact .restarted root frames' fun h => begins (above h)

theorem exit_goes (status : ExitStatus) : Goes s (s'.exit status).machine (s'.exit status).outcome :=
  .ended status rfl rfl

theorem fail_goes (e : RuntimeError) : Goes s (s'.fail e).machine (s'.fail e).outcome :=
  exit_goes _

theorem enterRoot_goes (index : Nat) (empty : s'.frames = [])
    (above : ∀ {below : List Frame} {low : List Value}, Above below low s →
      below = [] ∧ s'.stack = low) :
    Goes s (s'.enterRoot index).machine (s'.enterRoot index).outcome := by
  unfold enterRoot
  split
  · exact fail_goes _
  · next f _ =>
    split
    · refine .restarted (s'.frameOf index f []) (congrArg _ empty) fun h => ?_
      obtain ⟨alone, low⟩ := above h
      exact ⟨alone, congrArg List.length low, low⟩
    · exact fail_goes _

theorem enterEntry_goes (empty : s'.frames = [])
    (above : ∀ {below : List Frame} {low : List Value}, Above below low s →
      below = [] ∧ s'.stack = low) :
    Goes s s'.enterEntry.machine s'.enterEntry.outcome := by
  unfold enterEntry
  split
  · apply enterRoot_goes
    · exact empty
    · exact above
  · exact fail_goes _

theorem cutDown_of_suffix {stack low : List Value} (h : low <:+ stack) :
    cutDown stack low.length = low := by
  obtain ⟨operands, rfl⟩ := h
  exact cutDown_append operands low

/-- The last active function of a machine has returned. -/
theorem returnTo_goes (result : Option Value) (empty : s'.frames = [])
    (above : ∀ {below : List Frame} {low : List Value}, Above below low s →
      below = [] ∧ s'.stack = low) :
    Goes s (s'.returnTo result).machine (s'.returnTo result).outcome := by
  unfold returnTo
  rw [empty]
  dsimp only
  split
  · exact enterEntry_goes empty above
  · exact exit_goes _

/-- The innermost function of a machine that has moved ends. -/
theorem leave_goes {result : Option Value} (active : s'.frames ≠ []) (returns : s.Returns result)
    (above : ∀ {below : List Frame} {low : List Value}, Above below low s → Above below low s') :
    Goes s (s'.leave result).machine (s'.leave result).outcome := by
  have cut {below : List Frame} {low : List Value} (h : Above below low s) {frame : Frame}
      {rest : List Frame} (frames : s'.frames = frame :: rest) :
      rest = below ∧ cutDown s'.stack frame.base = low := by
    obtain ⟨⟨top, frames', base⟩, stack⟩ := above h
    cases frames.symm.trans frames'
    exact ⟨rfl, base ▸ cutDown_of_suffix stack⟩
  unfold leave
  split
  · next empty => exact absurd empty active
  · next frame below frames =>
    cases below with
    | cons caller rest =>
      refine .left result returns fun h => ?_
      obtain ⟨rfl, low⟩ := cut h frames
      exact ⟨rfl, congrArg _ low⟩
    | nil =>
      change Goes s (returnTo _ result).machine (returnTo _ result).outcome
      refine returnTo_goes result rfl fun h => ?_
      obtain ⟨rfl, low⟩ := cut h frames
      exact ⟨rfl, low⟩

/-- Only a return ends a function, and its result is the last operand. -/
theorem Spot.execute_leaves {p : Spot} {op : Code.Op} {e : Effect} {result : Option Value}
    (h : p.execute s op = .ok e) (leaves : e.flow = .leave result) :
    (op = .ret true ∧ ∃ v, result = some v ∧ s.stack.head? = some v) ∨
      (op = .ret false ∧ result = none) := by
  cases execute_does h with
  | @returnsValue s' v last =>
    cases leaves
    refine .inl ⟨rfl, v, rfl, ?_⟩
    unfold pop at last
    split at last
    · next stack =>
      split at last <;> cases last
      rw [stack]
      rfl
    · cases last
  | returns =>
    cases leaves
    exact .inr ⟨rfl, rfl⟩
  | _ => cases leaves

theorem goOn_stack (s : Shared) : s.goOn.stack = s.stack := by
  unfold goOn Spot.mapTop
  split <;> rfl

theorem perform_goes (h : Running limit s) {p : Spot} {i : Code.Instruction}
    (next : s.next? = some (p.function, p.place, i)) :
    Goes s (s.perform p i).machine (s.perform p i).outcome := by
  unfold perform
  split
  · exact fail_goes _
  · next effect executed =>
    have keeps := Spot.execute_keeps executed
    have moved := s.goOn_moved.trans keeps.moved
    let done : Shared := { effect.machine with executed := effect.machine.executed + 1 }
    have above {below : List Frame} {low : List Value} (h : Above below low s) :
        Above below low done :=
      ⟨(moved.above h).top, (moved.above h).stack⟩
    change Goes s (done.follow effect.flow).machine (done.follow effect.flow).outcome
    cases flow : effect.flow with
    | next => exact .moved above
    | enter frame f =>
      exact .entered frame done above rfl rfl (keeps.entered frame f flow).1
    | leave result =>
      refine leave_goes (h.moved moved).active ?_ above
      rcases Spot.execute_leaves executed flow with ⟨op, v, rfl, last⟩ | ⟨op, rfl⟩
      · exact .value next op (s.goOn_stack ▸ last)
      · exact .nothing next op

theorem step_goes (h : Running limit s) (stop : Bool) :
    Goes s (s.step stop).machine (s.step stop).outcome := by
  unfold step
  split
  · exact exit_goes _
  · next frame below frames =>
    split
    · exact fail_goes _
    · next f function =>
      split
      · next ranOut =>
        have next : s.next? = none := by simp [next?, frames, function, ranOut]
        exact leave_goes h.active (.ranOut next) id
      · next i instruction =>
        have next : s.next? = some (f, frame.next, i) := by
          simp [next?, frames, function, instruction]
        split
        · exact .moved s.goOn_moved.above
        · split
          · exact exit_goes _
          · let p : Spot := ⟨frame.function, f, frame.next, i.location⟩
            split
            · have performed := perform_goes (p := p) (h.announced false) next
              refine performed.of_eq ?_ ?_ ?_ <;> rfl
            · unfold checkAndPerform
              dsimp only
              split
              · exact .moved fun h => ⟨h.top, h.stack⟩
              · have performed := perform_goes (p := p) (h.checked i.location.line) next
                refine performed.of_eq ?_ ?_ ?_ <;> rfl

/-! ### While a function is active -/

/-- What can happen to a program that is being run: a step, or between two steps a request that leaves
the program where it stands. -/
inductive Moves (s : Shared) : Shared → Prop where
  | step (stop : Bool) : Moves s (s.step stop).machine
  | resumed (mode : Mode) : Moves s { s with stepper := s.stepper.resume mode }
  | paused : Moves s (s.answer .pause).1
  | breakpointAdded (line : Nat) : Moves s (s.answer (.addBreakpoint line)).1
  | breakpointRemoved (line : Nat) : Moves s (s.answer (.removeBreakpoint line)).1

theorem driveUnder_moves : ∀ (fuel : Nat) (s : Shared) (stops : Nat → Bool) (notes : List Note),
    Relation.ReflTransGen Moves s (s.driveUnder stops fuel notes).1
  | 0, _, _, _ => .refl
  | fuel + 1, s, stops, notes => by
    have stepped : s.Moves (s.step (stops 0)).machine := .step (stops 0)
    rw [driveUnder]
    cases (s.step (stops 0)).outcome with
    | some o => exact .single stepped
    | none => exact .head stepped (driveUnder_moves fuel _ _ _)

/-- A request is answered by such moves. -/
theorem answer_moves (started : s.Started) (r : Request) :
    Relation.ReflTransGen Moves s (s.answer r).1 := by
  cases r with
  | pause => exact .single .paused
  | addBreakpoint line => exact .single (.breakpointAdded line)
  | removeBreakpoint line => exact .single (.breakpointRemoved line)
  | resume mode stops fuel =>
    have begun : s.begin = { machine := s } := by
      unfold begin
      rcases started with phase | phase <;> rw [phase]
    unfold answer resumeUnder
    rw [begun]
    exact .head (.resumed mode) (driveUnder_moves fuel _ _ _)

/-- A point up to which no fewer functions than `depth` have been active. -/
inductive During (depth : Nat) (s : Shared) : Shared → Prop where
  | now (active : depth ≤ s.frames.length) : During depth s s
  | later {t t' : Shared} (before : During depth s t) (moves : t.Moves t')
      (active : depth ≤ t'.frames.length) : During depth s t'

/-- A function is active above `lower`, and `low` is the stack below its base. -/
structure Within (lower : List Frame) (low : List Value) (s : Shared) : Prop where
  frames : ∃ inner frame, s.frames = inner ++ frame :: lower ∧ frame.base = low.length
  stack : low <:+ s.stack

variable {lower : List Frame} {low : List Value} {depth : Nat}

theorem Above.within (h : Above lower low s) : Within lower low s where
  frames := by
    obtain ⟨frame, frames, base⟩ := h.top
    exact ⟨[], frame, frames, base⟩
  stack := h.stack

/-- What is below a function that is not the innermost one is below the innermost one too. -/
theorem Within.innermost (runs : Running limit s) (h : Within lower low s) :
    Above lower low s ∨ ∃ inner frame high,
      Above (inner ++ frame :: lower) high s ∧ frame.base = low.length ∧ low <:+ high := by
  obtain ⟨⟨inner, frame, frames, base⟩, stack⟩ := h
  cases inner with
  | nil => exact .inl ⟨⟨frame, frames, base⟩, stack⟩
  | cons top inner =>
    have piled := runs.piled
    rw [frames, List.cons_append, List.map_cons, List.pairwise_cons, List.pairwise_cons] at piled
    have height := length_cutDown (piled.1 _ List.mem_cons_self)
    have lower_le : frame.base ≤ top.base := piled.2.1 _ (by simp)
    refine .inr ⟨inner, frame, cutDown s.stack top.base, ?_, base, ?_⟩
    · exact ⟨⟨top, frames, height.symm⟩, List.drop_suffix _ _⟩
    · refine List.suffix_of_suffix_length_le stack (List.drop_suffix _ _) ?_
      rw [← base]
      exact Nat.le_trans lower_le (Nat.le_of_eq height.symm)

/-- The function above `lower` has returned, and the one below it goes on with the result. -/
structure Returned (lower : List Frame) (low : List Value) (s s' : Shared) (result : Option Value) :
    Prop where
  returns : s.Returns result
  frames : s'.frames = lower
  stack : s'.stack = result.toList ++ low

/-- The innermost function goes on, unless the run or the function ends. -/
theorem Above.step (runs : Running limit s) (h : Above lower low s) (stop : Bool) :
    (∃ status, (s.step stop).outcome = some (.exited status) ∧ (s.step stop).machine.frames = []) ∨
      Within lower low (s.step stop).machine ∨
      ∃ result, Returned lower low s (s.step stop).machine result := by
  cases step_goes runs stop with
  | ended status exited ended => exact .inl ⟨status, exited, ended⟩
  | moved above => exact .inr (.inl (above h).within)
  | entered new caller above frames stack _ =>
    obtain ⟨⟨frame, frames', base⟩, low_le⟩ := above h
    refine .inr (.inl ⟨⟨[new], frame, ?_, base⟩, stack ▸ low_le⟩)
    rw [frames, frames']
    rfl
  | left result returns above =>
    obtain ⟨frames, stack⟩ := above h
    exact .inr (.inr ⟨result, returns, frames, stack⟩)
  | restarted root frames above =>
    obtain ⟨rfl, base, stack⟩ := above h
    exact .inr (.inl ⟨⟨[], root, frames, base⟩, stack ▸ List.suffix_rfl⟩)

/-- A step of whatever function it is leaves what is below an active function as it is. -/
theorem Within.step (runs : Running limit s) (h : Within lower low s) (stop : Bool) :
    (∃ status, (s.step stop).outcome = some (.exited status) ∧ (s.step stop).machine.frames = []) ∨
      Within lower low (s.step stop).machine ∨
      ∃ result, Returned lower low s (s.step stop).machine result := by
  rcases h.innermost runs with top | ⟨inner, frame, high, top, base, low_le⟩
  · exact top.step runs stop
  · rcases top.step runs stop with exited | within | ⟨result, returned⟩
    · exact .inl exited
    · obtain ⟨⟨inner', frame', frames, _⟩, stack⟩ := within
      refine .inr (.inl ⟨⟨inner' ++ frame' :: inner, frame, ?_, base⟩, low_le.trans stack⟩)
      rw [frames, List.append_assoc, List.cons_append]
    · refine .inr (.inl ⟨⟨inner, frame, returned.frames, base⟩, ?_⟩)
      rw [returned.stack]
      exact low_le.trans (List.suffix_append _ _)

theorem Within.length_lt (h : Within lower low s) : lower.length < s.frames.length := by
  obtain ⟨inner, frame, frames, _⟩ := h.frames
  rw [frames, List.length_append, List.length_cons]
  omega

theorem Moves.running (runs : Running limit s) (h : s.Moves s') (active : s'.frames ≠ []) :
    Running limit s' := by
  cases h with
  | step stop =>
    rcases (step_sound runs stop).goesOn with runs' | ⟨status, -, ended, -⟩
    · exact runs'
    · exact absurd ended active
  | resumed mode => exact runs.withStepper rfl rfl
  | paused => exact runs.withStepper rfl rfl
  | breakpointAdded line =>
    have lines := congrArg List.length (addBreakpoint_lines s.stepper line)
    exact runs.withStepper (addBreakpoint_depth s.stepper line) lines
  | breakpointRemoved line => exact runs.withStepper rfl rfl

theorem Within.moves (runs : Running limit s) (h : Within lower low s) (moves : s.Moves s')
    (active : lower.length < s'.frames.length) : Within lower low s' := by
  cases moves with
  | step stop =>
    rcases h.step runs stop with ⟨_, _, ended⟩ | within | ⟨result, returned⟩
    · exact absurd active (by simp [ended])
    · exact within
    · exact absurd active (by simp [returned.frames])
  | _ => exact ⟨h.frames, h.stack⟩

/-- As long as a function is active, what is below it stays as it is. -/
theorem During.within (runs : Running limit s) (h : Within lower low s)
    (during : s.During (lower.length + 1) s') : Running limit s' ∧ Within lower low s' := by
  induction during with
  | now active => exact ⟨runs, h⟩
  | later before moves active ih =>
    have runs' := moves.running ih.1 (List.ne_nil_of_length_pos (Nat.zero_lt_of_lt active))
    exact ⟨runs', ih.2.moves ih.1 moves active⟩

/-- When a function is not active any more, it has returned if the run has not ended. -/
theorem Within.returned (runs : Running limit s) (h : Within lower low s) (stop : Bool)
    (ends : (s.step stop).machine.frames.length ≤ lower.length) :
    (∃ status, (s.step stop).outcome = some (.exited status)) ∨
      ∃ result, Returned lower low s (s.step stop).machine result := by
  rcases h.step runs stop with ⟨status, exited, _⟩ | within | returned
  · exact .inl ⟨status, exited⟩
  · exact absurd within.length_lt (Nat.not_lt.2 ends)
  · exact .inr returned

/-! ### Calls -/

/-- The caller after its call. -/
def Frame.past (caller : Frame) : Frame := { caller with next := caller.next + 1 }

@[simp] theorem Frame.past_base (caller : Frame) : caller.past.base = caller.base := rfl

/-- Where a call stands. -/
def Frame.spot (caller : Frame) (f : Code.Function) (i : Code.Instruction) : Spot :=
  ⟨caller.function, f, caller.next, i.location⟩

/-- The instruction that comes next is a call. -/
structure Calling (s : Shared) (caller : Frame) (below : List Frame) (f : Code.Function)
    (i : Code.Instruction) (name : String) (argc : Nat) : Prop where
  frames : s.frames = caller :: below
  function : s.image.function? caller.function = some f
  instruction : f.code[caller.next]? = some i
  op : i.op = .call name argc ∨ i.op = .callNative name argc

/-- What is wrong with a call. -/
inductive Refusal (s : Shared) (p : Spot) (caller : Frame) (name : String) (argc : Nat) :
    RuntimeError → Prop where
  | unknown (none : p.callee? s name = none) :
      Refusal s p caller name argc (.unknownFunction name p.location)
  | arity {index : Nat} {g : Code.Function} (callee : p.callee? s name = some (index, g))
      (params : g.signature.params.length ≠ argc) :
      Refusal s p caller name argc (.arity g.name g.signature.params.length argc p.location)
  | underflow {index : Nat} {g : Code.Function} (callee : p.callee? s name = some (index, g))
      (params : g.signature.params.length = argc) (few : s.stack.length < caller.base + argc) :
      Refusal s p caller name argc (.stackUnderflow p.function.name p.location)
  | overflow {index : Nat} {g : Code.Function} {code : List Code.Instruction}
      (callee : p.callee? s name = some (index, g)) (params : g.signature.params.length = argc)
      (enough : caller.base + argc ≤ s.stack.length) (body : g.kind = .body code)
      (full : s.maxCallDepth ≤ s.frames.length) :
      Refusal s p caller name argc (.stackOverflow g.name s.maxCallDepth p.location)

/-- Nothing is wrong with a call of a function that has code. -/
structure Admitted (s : Shared) (p : Spot) (caller : Frame) (name : String) (argc index : Nat)
    (g : Code.Function) : Prop where
  callee : p.callee? s name = some (index, g)
  body : ∃ code, g.kind = .body code
  params : g.signature.params.length = argc
  enough : caller.base + argc ≤ s.stack.length
  room : s.frames.length < s.maxCallDepth

/-- Sent while no more than so many functions were active, and not because one was entered. -/
def Note.NoEntry (depth : Nat) (n : Note) : Prop :=
  n.frames ≤ depth ∧ ∀ name d, n.emission ≠ send .functionEntry (.function name d)

/-- The run ends with an error, and no function is entered before. -/
structure Refused (s : Shared) (e : RuntimeError) (a : Advance) : Prop where
  outcome : a.outcome = some (.exited (.error (.ofError e)))
  error : a.machine.error = some e
  phase : a.machine.phase = .done (.error (.ofError e))
  notes : ∀ n ∈ a.notes, n.NoEntry s.frames.length

/-- A function is entered with its arguments, which are off the stack, and its caller will go on after
the call. -/
structure Enters (s : Shared) (caller : Frame) (below : List Frame) (index : Nat) (g : Code.Function)
    (argc : Nat) (a : Advance) : Prop where
  outcome : a.outcome = none
  frames : a.machine.frames =
    { function := index
      locals := initialLocals g (s.stack.take argc).reverse
      base := (s.stack.drop argc).length } :: caller.past :: below
  stack : a.machine.stack = s.stack.drop argc

variable {caller : Frame} {below : List Frame} {f g : Code.Function} {i : Code.Instruction}
  {name : String} {argc index : Nat} {p : Spot} {e : RuntimeError}

/-- The caller is past its call, and all else is as before. -/
structure Past (s : Shared) (caller : Frame) (below : List Frame) (s' : Shared) : Prop where
  frames : s'.frames = caller.past :: below
  stack : s'.stack = s.stack
  image : s'.image = s.image
  maxCallDepth : s'.maxCallDepth = s.maxCallDepth

/-- A call is executed, after it has been announced if it was not before. -/
theorem Calling.step (h : s.Calling caller below f i name argc)
    (goesOn : ∀ reason position, (s.step false).outcome ≠ some (.suspended reason position)) :
    ∃ (s' : Shared) (notes : List Note), Past s caller below s'.goOn ∧
      (∀ n ∈ notes, n.NoEntry s.frames.length) ∧
      s.step false = (s'.perform (caller.spot f i) i).after notes := by
  have past {s' : Shared} (frames : s'.frames = s.frames) (stack : s'.stack = s.stack)
      (image : s'.image = s.image) (limit : s'.maxCallDepth = s.maxCallDepth) :
      Past s caller below s'.goOn := by
    have next : s'.goOn = { s' with frames := caller.past :: below } := by
      simp [goOn, Spot.mapTop, frames, h.frames, Frame.past]
    rw [next]
    exact ⟨rfl, stack, image, limit⟩
  have noLabel : i.op.isLabel = false := by
    rcases h.op with op | op <;> rw [op] <;> rfl
  have step : s.step false =
      if s.resuming then perform { s with resuming := false } (caller.spot f i) i
      else s.checkAndPerform (caller.spot f i) i := by
    simp [Shared.step, h.frames, h.function, h.instruction, noLabel, Frame.spot]
  rw [step] at goesOn ⊢
  by_cases resuming : s.resuming = true
  · rw [if_pos resuming] at goesOn ⊢
    exact ⟨{ s with resuming := false }, [], past rfl rfl rfl rfl,
      List.forall_mem_nil _, rfl⟩
  · rw [if_neg resuming] at goesOn ⊢
    unfold checkAndPerform at goesOn ⊢
    dsimp only at goesOn ⊢
    split
    · next reason checked =>
      rw [checked] at goesOn
      exact absurd rfl (goesOn reason _)
    · refine ⟨{ s with stepper := (s.stepper.check i.location.line).2 }, _, past rfl rfl rfl rfl,
        fun n hn => ?_, rfl⟩
      obtain rfl := List.mem_singleton.1 hn
      exact ⟨Nat.le_refl _, fun _ _ same => by cases same⟩

theorem Calling.execute (h : s.Calling caller below f i name argc) (s' : Shared) :
    p.execute s' i.op = p.call s' name argc := by
  rcases h.op with op | op <;> rw [op] <;> rfl

variable (past : Past s caller below s')

include past

theorem Past.callee? : p.callee? s' name = p.callee? s name := by
  rw [Spot.callee?, Spot.callee?, past.image]

theorem Past.length_frames (frames : s.frames = caller :: below) :
    s'.frames.length = s.frames.length := by
  rw [past.frames, frames]
  rfl

theorem Past.splitOff (enough : caller.base + argc ≤ s.stack.length) : s'.splitOff argc =
    some ((s.stack.take argc).reverse, { s' with stack := s.stack.drop argc }) := by
  simp [Shared.splitOff, past.frames, past.stack, Nat.not_lt.2 enough]

/-- With as many arguments as there are parameters, all of them operands of the caller, the callee is
invoked. -/
theorem Past.call (callee : p.callee? s name = some (index, g))
    (params : g.signature.params.length = argc) (enough : caller.base + argc ≤ s.stack.length) :
    p.call s' name argc = p.invoke { s' with stack := s.stack.drop argc } index g
      (s.stack.take argc).reverse := by
  unfold Spot.call
  rw [past.callee?, callee]
  simp only [ne_eq, params, not_true_eq_false, if_false, past.splitOff enough]
  rfl

theorem Past.refused (frames : s.frames = caller :: below) (wrong : Refusal s p caller name argc e) :
    p.call s' name argc = .error e := by
  cases wrong with
  | unknown none =>
    unfold Spot.call
    rw [past.callee?, none]
  | arity callee params =>
    unfold Spot.call
    rw [past.callee?, callee]
    exact if_pos params
  | underflow callee params few =>
    have none : s'.splitOff argc = none := by
      simp [Shared.splitOff, past.frames, past.stack, few]
    unfold Spot.call
    rw [past.callee?, callee]
    simp only [ne_eq, params, not_true_eq_false, if_false, none]
    rfl
  | overflow callee params enough body full =>
    have deep : s'.maxCallDepth ≤ s'.frames.length := by
      rw [past.maxCallDepth, past.length_frames frames]
      exact full
    rw [past.call callee params enough, Spot.invoke, body]
    refine (if_pos deep).trans ?_
    rw [past.maxCallDepth]

theorem Past.enters (frames : s.frames = caller :: below)
    (admitted : Admitted s p caller name argc index g) :
    let called : Shared := { s' with stack := s.stack.drop argc }
    p.call s' name argc = .ok
      { machine := called
        flow := .enter (called.frameOf index g (s.stack.take argc).reverse) g } := by
  obtain ⟨code, body⟩ := admitted.body
  have free : ¬s'.maxCallDepth ≤ s'.frames.length := by
    rw [past.maxCallDepth, past.length_frames frames]
    exact Nat.not_le.2 admitted.room
  rw [past.call admitted.callee admitted.params admitted.enough, Spot.invoke, body]
  exact if_neg free

omit past

/-- A call that something is wrong with ends the run. -/
theorem Calling.refused (h : s.Calling caller below f i name argc)
    (goesOn : ∀ reason position, (s.step false).outcome ≠ some (.suspended reason position))
    (wrong : Refusal s (caller.spot f i) caller name argc e) :
    s.Refused e (s.step false) := by
  obtain ⟨s', notes, past, quiet, step⟩ := h.step goesOn
  have failed : s'.perform (caller.spot f i) i = s'.fail e := by
    unfold perform
    rw [h.execute, past.refused h.frames wrong]
  rw [step, failed]
  refine ⟨rfl, rfl, rfl, fun n hn => ?_⟩
  rcases List.mem_append.1 hn with sent | exited
  · exact quiet n sent
  · obtain rfl := List.mem_singleton.1 exited
    exact ⟨Nat.zero_le _, fun _ _ same => by cases same⟩

/-- A call that nothing is wrong with enters the function. -/
theorem Calling.enters (h : s.Calling caller below f i name argc)
    (goesOn : ∀ reason position, (s.step false).outcome ≠ some (.suspended reason position))
    (admitted : Admitted s (caller.spot f i) caller name argc index g) :
    s.Enters caller below index g argc (s.step false) := by
  obtain ⟨s', notes, past, -, step⟩ := h.step goesOn
  rw [step]
  unfold perform
  rw [h.execute, past.enters h.frames admitted]
  exact ⟨rfl, congrArg (_ :: ·) past.frames, rfl⟩

theorem Standing.runs (h : Standing limit s) (active : s.frames ≠ []) : Running limit s := by
  cases h with
  | unstarted level idle empty => exact absurd empty active
  | running runs => exact runs
  | ended status phase empty => exact absurd empty active

/-- A call leaves its caller alone. -/
structure Isolated (s : Shared) (caller : Frame) (below : List Frame) (f : Code.Function)
    (i : Code.Instruction) (name : String) (argc : Nat) : Prop where
  /-- A call that something is wrong with ends the run before a function is entered. -/
  refused {e : RuntimeError} (wrong : Refusal s (caller.spot f i) caller name argc e) :
    s.Refused e (s.step false)
  entered {index : Nat} {g : Code.Function}
    (admitted : Admitted s (caller.spot f i) caller name argc index g) :
    s.Enters caller below index g argc (s.step false)
  /-- While the function is active, the functions below it and the stack below its base stay. -/
  within {index : Nat} {g : Code.Function}
    (admitted : Admitted s (caller.spot f i) caller name argc index g) {t : Shared}
    (during : (s.step false).machine.During (s.frames.length + 1) t) :
    Within (caller.past :: below) (s.stack.drop argc) t
  /-- When it is not active any more, the run has ended, or the caller has the operands that it had
  before the call, with the result if there is one in place of the arguments. -/
  returned {index : Nat} {g : Code.Function}
    (admitted : Admitted s (caller.spot f i) caller name argc index g) {t : Shared}
    (during : (s.step false).machine.During (s.frames.length + 1) t) {stop : Bool}
    (ends : (t.step stop).machine.frames.length ≤ s.frames.length) :
    (∃ status, (t.step stop).outcome = some (.exited status)) ∨
      ∃ result, Returned (caller.past :: below) (s.stack.drop argc) t (t.step stop).machine result

theorem Calling.isolated (runs : Running limit s) (h : s.Calling caller below f i name argc)
    (goesOn : ∀ reason position, (s.step false).outcome ≠ some (.suspended reason position)) :
    s.Isolated caller below f i name argc := by
  have depth : s.frames.length = below.length + 1 := by rw [h.frames, List.length_cons]
  have stays {index : Nat} {g : Code.Function}
      (admitted : Admitted s (caller.spot f i) caller name argc index g) {t : Shared}
      (during : (s.step false).machine.During (s.frames.length + 1) t) :
      Running limit t ∧ Within (caller.past :: below) (s.stack.drop argc) t := by
    have entered := h.enters goesOn admitted
    have runs' : Running limit (s.step false).machine :=
      (Moves.step false).running runs (by simp [entered.frames])
    rw [depth] at during
    exact during.within runs' ⟨⟨[], _, entered.frames, rfl⟩, entered.stack ▸ List.suffix_rfl⟩
  refine ⟨h.refused goesOn, h.enters goesOn, fun admitted t during => (stays admitted during).2,
    fun admitted t during stop ends => ?_⟩
  obtain ⟨runs', within⟩ := stays admitted during
  rw [depth] at ends
  exact within.returned runs' stop ends

/-- Whatever is asked of a program, as long as a function is active the functions below it stay as they
are, and so does the stack below its base; and a call leaves its caller alone. -/
theorem callers_undisturbed (image : Image) (limit : Nat) (rs : List Request) :
    let s := (after image limit rs).1
    s = (afterRequests image limit rs).1.laid ∧
      (s.Started → ∀ r, Relation.ReflTransGen Moves s (s.answer r).1) ∧
      (∀ inner frame lower, s.frames = inner ++ frame :: lower →
        (cutDown s.stack frame.base).length = frame.base ∧
          ∀ t, s.During (lower.length + 1) t → Within lower (cutDown s.stack frame.base) t) ∧
      ∀ caller below f i name argc, s.Calling caller below f i name argc →
        (∀ reason position, (s.step false).outcome ≠ some (.suspended reason position)) →
        s.Isolated caller below f i name argc := by
  intro s
  have standing : Standing limit s := (after_sound image limit rs).1
  refine ⟨(after_lays image limit rs).1, answer_moves, fun inner frame lower frames => ?_,
    fun caller below f i name argc calling goesOn => ?_⟩
  · have runs : Running limit s := standing.runs (by simp [frames])
    have base_le : frame.base ≤ s.stack.length :=
      (List.pairwise_cons.1 runs.piled).1 _ (by simp [frames])
    have height := length_cutDown base_le
    exact ⟨height, fun t during =>
      (during.within runs ⟨⟨inner, frame, frames, height.symm⟩, List.drop_suffix _ _⟩).2⟩
  · exact calling.isolated (standing.runs (by simp [calling.frames])) goesOn

/-- The call of `double` in the entry point. -/
def callDouble : Code.Instruction := ⟨.call "double" 1, ⟨"double", 0, 1, 1⟩⟩

/-- The entry point adds the double of a number to another one. -/
def adding : Code.Function :=
  let here : Location := ⟨"double", 0, 1, 1⟩
  ⟨"main", ⟨[], .int .i32⟩, [], .body
    [⟨.pushConst (.ofInt .i32 5), here⟩, ⟨.pushConst (.ofInt .i32 2), here⟩, callDouble,
      ⟨.binary .add, here⟩, ⟨.ret true, here⟩], here⟩

/-- The double of a number; another operand is left behind. -/
def double : Code.Function :=
  let here : Location := ⟨"double", 0, 2, 1⟩
  ⟨"double", ⟨[.int .i32], .int .i32⟩, [⟨"n", .int .i32⟩], .body
    [⟨.pushConst (.ofInt .i32 9), here⟩, ⟨.pushLocal 0, here⟩, ⟨.pushLocal 0, here⟩,
      ⟨.binary .add, here⟩, ⟨.ret true, here⟩], here⟩

def doubling : Image :=
  .interpreted { name := "double", entry := some "main", globals := [], functions := [adding, double] }
    Native.Bridge.platform

/-- The program before the call, if so many functions may be active. -/
def beforeDouble (limit : Nat) : Shared :=
  (after doubling limit [.resume .run (fun _ => false) 2]).1

/-- The only function that is active. -/
def adder (s : Shared) : Frame := s.frames.headD ⟨0, 0, [], 0⟩

theorem beforeDouble_image (limit : Nat) : (beforeDouble limit).image = doubling :=
  (congrArg image (after_lays doubling limit [.resume .run (fun _ => false) 2]).1).trans
    (answer_image (limited doubling limit) (.resume .run (fun _ => false) 2))

section

variable {limit : Nat} (function : (adder (beforeDouble limit)).function = 0)
  (next : (adder (beforeDouble limit)).next = 2)

include function next

theorem beforeDouble_calling (alone : (beforeDouble limit).frames.length = 1) :
    (beforeDouble limit).Calling (adder (beforeDouble limit)) [] adding callDouble "double" 1 where
  frames := by
    obtain ⟨frame, frames⟩ := List.length_eq_one_iff.1 alone
    rw [adder, frames]
    rfl
  function := by
    rw [beforeDouble_image, function]
    rfl
  instruction := by
    rw [next]
    rfl
  op := .inl rfl

theorem beforeDouble_callee : ((adder (beforeDouble limit)).spot adding callDouble).callee?
    (beforeDouble limit) "double" = some (1, double) := by
  simp only [Spot.callee?, Frame.spot, beforeDouble_image, function, next]
  rfl

end

theorem double_leaves :
    (let s := beforeDouble 10
     let t := (((s.step false).machine.step false).machine.step false).machine
     let t' := ((t.step false).machine.step false).machine
     s.Enters (adder s) [] 1 double 1 (s.step false) ∧
       Within [(adder s).past] (s.stack.drop 1) t ∧
       ((∃ status, (t'.step false).outcome = some (.exited status)) ∨
         ∃ result, Returned [(adder s).past] (s.stack.drop 1) t' (t'.step false).machine result) ∧
       s.stack.map Value.text = ["2", "5"] ∧ t.stack.map Value.text = ["2", "9", "5"] ∧
       (t'.step false).machine.stack.map Value.text = ["4", "5"]) ∧
      (beforeDouble 1).Refused (.stackOverflow "double" 1 callDouble.location)
        ((beforeDouble 1).step false) := by
  constructor
  · intro s t t'
    have function : (adder s).function = 0 := by decide
    have next : (adder s).next = 2 := by decide
    have goesOn : (s.step false).outcome = none :=
      Option.isNone_iff_eq_none.1 (by decide)
    have isolated : s.Isolated (adder s) [] adding callDouble "double" 1 :=
      (callers_undisturbed doubling 10 [.resume .run (fun _ => false) 2]).2.2.2 _ _ _ _ _ _
        (beforeDouble_calling function next (by decide)) (goesOn ▸ nofun)
    have admitted : Admitted s ((adder s).spot adding callDouble) (adder s) "double" 1 1 double :=
      ⟨beforeDouble_callee function next, ⟨_, rfl⟩, rfl, by decide, by decide +kernel⟩
    have during : (s.step false).machine.During (s.frames.length + 1) t :=
      .later (.later (.now (by decide)) (.step false) (by decide +kernel)) (.step false)
        (by decide)
    have during' : (s.step false).machine.During (s.frames.length + 1) t' :=
      .later (.later during (.step false) (by decide)) (.step false) (by decide +kernel)
    refine ⟨isolated.entered admitted, isolated.within admitted during,
      isolated.returned admitted during' (by decide), ?_⟩
    decide
  · have function : (adder (beforeDouble 1)).function = 0 := by decide
    have next : (adder (beforeDouble 1)).next = 2 := by decide
    have limit : (beforeDouble 1).maxCallDepth = 1 := by decide
    have ended : ((beforeDouble 1).step false).outcome = some (.exited
        (.error (.ofError (RuntimeError.stackOverflow "double" 1 callDouble.location)))) := by
      decide
    have isolated : (beforeDouble 1).Isolated (adder (beforeDouble 1)) [] adding callDouble "double" 1 :=
      (callers_undisturbed doubling 1 [.resume .run (fun _ => false) 2]).2.2.2 _ _ _ _ _ _
        (beforeDouble_calling function next (by decide)) (ended ▸ nofun)
    have full : Refusal (beforeDouble 1) ((adder (beforeDouble 1)).spot adding callDouble)
        (adder (beforeDouble 1)) "double" 1
        (RuntimeError.stackOverflow "double" (beforeDouble 1).maxCallDepth callDouble.location) :=
      .overflow (beforeDouble_callee function next) rfl (by decide) rfl (by decide +kernel)
    rw [limit] at full
    exact isolated.refused full

end ScriptLang.Machine.Shared
