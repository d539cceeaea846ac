import ScriptLang.Proofs.OperandSafety
import ScriptLang.Proofs.Resolution
import ScriptLang.Proofs.Stepping

/-!
# Linked and interpreted runs

A linked program runs as the program itself does (`interpreted_eq_linked`).  The machine learns
everything about a program from its image, and the two images answer alike wherever the machine asks
(`Image.Agree`); so machines that differ in their images alone take the same steps (`step_on`),
whenever they are told to stop and wherever they are suspended.
-/

namespace ScriptLang.Machine

open Native (Bridge)

/-! ### Sessions in which a stop can come at any time -/

/-- What a client can ask of a machine.  A request to stop can come while the program runs: `stops n`
says whether it has come when the step after `n` others is taken. -/
inductive Request where
  | pause
  | addBreakpoint (line : Nat)
  | removeBreakpoint (line : Nat)
  /-- Start or resume the run, for at most `fuel` steps. -/
  | resume (mode : Mode) (stops : Nat → Bool) (fuel : Nat)

/-- Take at most `fuel` steps while requests to stop may come. -/
def driveUnder (stops : Nat → Bool) : (fuel : Nat) → Machine → (sent : Array Emission) →
    Machine × Array Emission × Outcome
  | 0, m, sent => (m, sent, .unfinished)
  | fuel + 1, m, sent =>
    let a := m.step (stops 0)
    match a.outcome with
    | some o => (a.machine, sent ++ a.emitted, o)
    | none => driveUnder (fun n => stops (n + 1)) fuel a.machine (sent ++ a.emitted)

/-- What comes before the first step of a resumption. -/
def begin (m : Machine) : Advance :=
  match m.phase with
  | .done status => { machine := m, outcome := some (.exited status) }
  | .idle => m.start
  | _ => { machine := m }

/-- Start or resume the run in a mode while requests to stop may come. -/
def resumeUnder (m : Machine) (mode : Mode) (stops : Nat → Bool) (fuel : Nat) :
    Machine × Array Emission × Outcome :=
  match m.begin.outcome with
  | some o => (m.begin.machine, m.begin.emitted.toArray, o)
  | none =>
    let m' := { m.begin.machine with stepper := m.begin.machine.stepper.resume mode }
    driveUnder stops fuel m' m.begin.emitted.toArray

/-- Do what is asked. -/
def answer (m : Machine) : Request → Transcript
  | .pause => m.obey .pause
  | .addBreakpoint line => m.obey (.addBreakpoint line)
  | .removeBreakpoint line => m.obey (.removeBreakpoint line)
  | .resume mode stops fuel =>
    let (m, sent, outcome) := m.resumeUnder mode stops fuel
    { machine := m, sent := sent.toList, outcomes := [outcome] }

/-- Do what is asked, one request after the other. -/
def answers (m : Machine) : List Request → List Transcript
  | [] => []
  | r :: rs => m.answer r :: (m.answer r).machine.answers rs

theorem driveUnder_const (stop : Bool) : ∀ (fuel : Nat) (m : Machine) (sent : Array Emission),
    m.driveUnder (fun _ => stop) fuel sent = drive stop fuel m sent
  | 0, _, _ => rfl
  | fuel + 1, m, sent => by
    rw [driveUnder, drive]
    cases (m.step stop).outcome with
    | some o => rfl
    | none => exact driveUnder_const stop fuel _ _

/-- A run to which nothing happens meanwhile is one of the machine's own. -/
theorem resumeUnder_const (m : Machine) (mode : Mode) (stop : Bool) (fuel : Nat) :
    m.resumeUnder mode (fun _ => stop) fuel = m.resume mode stop fuel := by
  unfold resumeUnder resume
  simp only [driveUnder_const]
  rfl

section

variable {m : Machine} {stops : Nat → Bool}

theorem driveUnder_of_some {o : Outcome} (h : (m.step (stops 0)).outcome = some o) (fuel : Nat)
    (sent : Array Emission) : m.driveUnder stops (fuel + 1) sent =
      ((m.step (stops 0)).machine, sent ++ (m.step (stops 0)).emitted, o) := by
  rw [driveUnder, h]

theorem driveUnder_of_none (h : (m.step (stops 0)).outcome = none) (fuel : Nat)
    (sent : Array Emission) : m.driveUnder stops (fuel + 1) sent =
      (m.step (stops 0)).machine.driveUnder (fun n => stops (n + 1)) fuel
        (sent ++ (m.step (stops 0)).emitted) := by
  rw [driveUnder, h]

/-- Nothing comes before the next step of a program that runs. -/
theorem begin_of_started (h : m.Started) : m.begin = { machine := m } := by
  unfold begin
  obtain phase | phase := h <;> rw [phase]

theorem resumeUnder_of_started (h : m.Started) (mode : Mode) (stops : Nat → Bool) (fuel : Nat) :
    m.resumeUnder mode stops fuel =
      driveUnder stops fuel { m with stepper := m.stepper.resume mode } #[] := by
  unfold resumeUnder
  rw [begin_of_started h]

end

/-! ### Images that answer alike -/

/-- Two images answer alike wherever a machine asks. -/
structure Image.Agree (i j : Image) : Prop where
  program : i.program = j.program
  entry : i.entry? = j.entry?
  label : ∀ (index : Nat) (l : Code.Label), i.labelPlace? index l = j.labelPlace? index l
  callee : ∀ {index place : Nat} {f : Code.Function} {ins : Code.Instruction} {name : String},
    i.function? index = some f → f.code[place]? = some ins → called? ins = some name →
      i.callee? index place name = j.callee? index place name
  native : ∀ {index : Nat} {f : Code.Function} {symbol : String},
    i.function? index = some f → f.kind = .native symbol →
      ∀ args, i.callNative index args = j.callNative index args

theorem Image.Agree.function {i j : Image} (h : i.Agree j) (index : Nat) :
    i.function? index = j.function? index := by
  rw [function?, function?, h.program]

theorem Image.Agree.init {i j : Image} (h : i.Agree j) : i.init? = j.init? := by
  rw [init?, init?, h.program]

section

variable {code : Code.Program} {bridge bridge' : Bridge} {image image' : Image}

/-- A label that one image finds, the other finds at the same place. -/
theorem IsImage.labelPlace?_of_some (h : IsImage code bridge image)
    (h' : IsImage code bridge' image')
    (once : ∀ f ∈ code.functions, ∀ l, Code.placements l f.code ≤ 1) {index place : Nat}
    {l : Code.Label} (found : image.labelPlace? index l = some place) :
    image'.labelPlace? index l = some place := by
  cases hf : code.functions[index]? with
  | none =>
    have nothing : image.labelPlace? index l = none := by
      cases h with
      | interpreted =>
        rw [Image.labelPlace?, Image.function?, Image.program, hf]
        rfl
      | linked hl =>
        obtain ⟨_, _, _, hfs, _⟩ := link_eq_ok hl
        rw [Image.labelPlace?, hfs, List.getElem?_map, hf]
        rfl
    rw [nothing] at found
    cases found
  | some f =>
    obtain ⟨⟨op, location⟩, hi, rfl⟩ := h.label_of_labelPlace? hf found
    exact h'.labelPlace?_eq hf (once f (List.mem_of_getElem? hf) l) hi

/-- The images of a program whose labels are placed once agree, if their bridges find the same
symbols. -/
theorem IsImage.agree (h : IsImage code bridge image) (h' : IsImage code bridge' image')
    (once : ∀ f ∈ code.functions, ∀ l, Code.placements l f.code ≤ 1)
    (finds : ∀ symbol s args,
      (bridge'.callNamed symbol s args).1 = (bridge.callNamed symbol s args).1) :
    image.Agree image' where
  program := h.program_eq.trans h'.program_eq.symm
  entry := h.entry?_eq.trans h'.entry?_eq.symm
  label index l := by
    cases found : image.labelPlace? index l with
    | some place => exact (h.labelPlace?_of_some h' once found).symm
    | none =>
      cases found' : image'.labelPlace? index l with
      | none => rfl
      | some place =>
        rw [h'.labelPlace?_of_some h once found'] at found
        cases found
  callee {index place f ins name} hf hi hname := by
    rw [h.function?_eq] at hf
    rw [h.callee?_eq hf hi hname, h'.callee?_eq hf hi hname]
  native {index f symbol} hf hk args := by
    rw [h.function?_eq] at hf
    rw [h.callNative_eq hf hk, h'.callNative_eq hf hk, finds]

end

/-! ### Machines on another image -/

/-- The machine on another image. -/
def on (image : Image) (m : Machine) : Machine := { m with image }

def Advance.on (image : Image) (a : Advance) : Advance := { a with machine := a.machine.on image }

def Effect.on (image : Image) (e : Effect) : Effect := { e with machine := e.machine.on image }

def Transcript.on (image : Image) (t : Transcript) : Transcript :=
  { t with machine := t.machine.on image }

variable {j : Image} {m : Machine}

@[simp] theorem on_image (m : Machine) : (m.on j).image = j := rfl

@[simp] theorem on_frames (m : Machine) : (m.on j).frames = m.frames := rfl

@[simp] theorem on_phase (m : Machine) : (m.on j).phase = m.phase := rfl

@[simp] theorem on_stepper (m : Machine) : (m.on j).stepper = m.stepper := rfl

@[simp] theorem on_resuming (m : Machine) : (m.on j).resuming = m.resuming := rfl

@[simp] theorem on_maxCallDepth (m : Machine) : (m.on j).maxCallDepth = m.maxCallDepth := rfl

@[simp] theorem after_on (a : Advance) (sent : List Emission) :
    (a.after sent).on j = (a.on j).after sent := rfl

theorem entryName_on (agree : m.image.Agree j) : (m.on j).entryName = m.entryName := by
  rw [entryName, entryName, on_image, agree.program]

theorem enterRoot_on (agree : m.image.Agree j) (index : Nat) :
    (m.on j).enterRoot index = (m.enterRoot index).on j := by
  unfold enterRoot
  rw [on_image, ← agree.function]
  cases m.image.function? index with
  | none => rfl
  | some f =>
    dsimp only
    cases f.signature.params with
    | nil => rfl
    | cons ty tys => rfl

theorem enterEntry_on (agree : m.image.Agree j) : (m.on j).enterEntry = m.enterEntry.on j := by
  unfold enterEntry
  rw [on_image, ← agree.entry, entryName_on agree]
  cases m.image.entry? with
  | none => rfl
  | some entry => exact enterRoot_on (m := { m with phase := .entry }) agree entry

theorem returnTo_on (agree : m.image.Agree j) (result : Option Value) :
    (m.on j).returnTo result = (m.returnTo result).on j := by
  unfold returnTo
  rw [on_frames, on_phase]
  cases m.frames with
  | cons caller below => rfl
  | nil =>
    cases m.phase with
    | init => exact enterEntry_on agree
    | _ => rfl

theorem leave_on (agree : m.image.Agree j) (result : Option Value) :
    (m.on j).leave result = (m.leave result).on j := by
  unfold leave
  rw [on_frames, on_image]
  cases m.frames with
  | nil => rfl
  | cons frame frames =>
    dsimp only
    rw [← agree.function, after_on]
    have h := returnTo_on (m := { m with frames, stepper := m.stepper.leave }) agree result
    rw [← h]
    rfl

theorem follow_on (agree : m.image.Agree j) (flow : Flow) :
    (m.on j).follow flow = (m.follow flow).on j := by
  cases flow with
  | next => rfl
  | enter index f args => rfl
  | leave result => exact leave_on agree result

namespace Context

variable (c : Context) (m) (operands : List Value)

theorem push_on (r : Except ValueError Value) :
    c.push (m.on j) operands r = (c.push m operands r).map (Effect.on j) := by
  cases r <;> rfl

variable {m}

theorem jump_on (agree : m.image.Agree j) (l : Code.Label) :
    c.jump (m.on j) operands l = (c.jump m operands l).map (Effect.on j) := by
  unfold jump
  rw [on_image, ← agree.label]
  cases m.image.labelPlace? c.frame.function l <;> rfl

theorem invoke_on (agree : m.image.Agree j) {index : Nat} {f : Code.Function}
    (hf : m.image.function? index = some f) (args : List Value) :
    c.invoke (m.on j) operands index f args =
      (c.invoke m operands index f args).map (Effect.on j) := by
  unfold invoke withOperands
  cases hk : f.kind with
  | body code =>
    dsimp only [on_maxCallDepth, List.length_cons]
    by_cases h : m.maxCallDepth ≤ c.below.length + 1
    · rw [if_pos h, if_pos h]
      rfl
    · rw [if_neg h, if_neg h]
      rfl
  | intrinsic i => rfl
  | native symbol =>
    dsimp only [on_image]
    rw [← agree.native hf hk]
    cases m.image.callNative index args with
    | error e => rfl
    | ok v =>
      dsimp only
      by_cases h : f.signature.ret = .void
      · rw [if_pos h, if_pos h]
        rfl
      · rw [if_neg h, if_neg h]
        rfl

variable {c} {i : Code.Instruction}

/-- The context stands at an instruction of a function of the machine's program. -/
structure At (c : Context) (m : Machine) (i : Code.Instruction) : Prop where
  function : m.image.function? c.frame.function = some c.function
  instruction : c.function.code[c.index]? = some i

theorem call_on (agree : m.image.Agree j) (at_i : c.At m i) {name : String} (argc : Nat)
    (hname : called? i = some name) :
    c.call (m.on j) name argc = (c.call m name argc).map (Effect.on j) := by
  unfold call
  rw [on_image, ← agree.callee at_i.function at_i.instruction hname]
  cases hcallee : m.image.callee? c.frame.function c.index name with
  | none => rfl
  | some index =>
    simp only [bind, Option.bind, pure, ← agree.function]
    cases hf : m.image.function? index with
    | none => rfl
    | some f =>
      dsimp only
      by_cases hparams : f.signature.params.length ≠ argc
      · rw [if_pos hparams, if_pos hparams]
        rfl
      · rw [if_neg hparams, if_neg hparams]
        by_cases hargs : c.frame.operands.length < argc
        · rw [if_pos hargs, if_pos hargs]
          rfl
        · rw [if_neg hargs, if_neg hargs]
          exact invoke_on c _ agree hf _

/-- An instruction has the same effect on both images. -/
theorem execute_on (agree : m.image.Agree j) (at_i : c.At m i) :
    c.execute (m.on j) i.op = (c.execute m i.op).map (Effect.on j) := by
  have calls : ∀ name argc, i.op = .call name argc ∨ i.op = .callNative name argc →
      c.call (m.on j) name argc = (c.call m name argc).map (Effect.on j) := by
    rintro name argc (hop | hop) <;>
    · refine call_on agree at_i argc ?_
      rw [called?, hop]
  unfold execute
  dsimp only
  split
  all_goals first
    | rfl
    | apply push_on
    | exact calls _ _ (.inl ‹_›)
    | exact calls _ _ (.inr ‹_›)
    | apply jump_on c _ agree
    | (split <;> first | rfl | apply jump_on c _ agree)

end Context

/-! ### Steps on another image -/

theorem perform_on {c : Context} {i : Code.Instruction} (agree : m.image.Agree j)
    (at_i : c.At m i) : (m.on j).perform c i = (m.perform c i).on j := by
  unfold perform
  rw [Context.execute_on agree at_i]
  cases h : c.execute m i.op with
  | error e => rfl
  | ok effect =>
    have agree' : effect.machine.image.Agree j := by
      rw [(Context.execute_keeps h).image]
      exact agree
    have h := follow_on (m := { effect.machine with executed := effect.machine.executed + 1 })
      agree' effect.flow
    exact congrArg (fun a => a.after (effect.printed ++
      [effect.machine.instructionMessage .afterInstruction c.function c.index i])) h

theorem checkAndPerform_on {c : Context} {i : Code.Instruction} (agree : m.image.Agree j)
    (at_i : c.At m i) : (m.on j).checkAndPerform c i = (m.checkAndPerform c i).on j := by
  unfold checkAndPerform
  dsimp only [on_stepper]
  cases (m.stepper.check i.location.line).1 with
  | some reason => rfl
  | none =>
    have h := perform_on (m := { m with stepper := (m.stepper.check i.location.line).2 }) agree
      ⟨at_i.function, at_i.instruction⟩
    exact congrArg (fun a => a.after [m.instructionMessage .onInstruction c.function c.index i]) h

/-- A step is the same on both images. -/
theorem step_on (agree : m.image.Agree j) (stop : Bool) :
    (m.on j).step stop = (m.step stop).on j := by
  unfold step
  rw [on_frames]
  cases m.frames with
  | nil => rfl
  | cons frame below =>
    dsimp only
    rw [on_image, ← agree.function]
    cases hf : m.image.function? frame.function with
    | none => rfl
    | some f =>
      dsimp only
      cases hi : f.code[frame.next]? with
      | none => exact leave_on agree none
      | some i =>
        dsimp only
        have at_i : Context.At
            ⟨f, { frame with next := frame.next + 1 }, below, frame.next, i.location⟩ m i :=
          ⟨hf, hi⟩
        by_cases hlabel : i.op.isLabel = true
        · rw [if_pos hlabel, if_pos hlabel]
          rfl
        · rw [if_neg hlabel, if_neg hlabel]
          cases stop with
          | true => rfl
          | false =>
            rw [on_resuming]
            by_cases hresuming : m.resuming = true
            · rw [if_pos hresuming, if_pos hresuming]
              exact perform_on (m := { m with resuming := false }) agree ⟨at_i.function, hi⟩
            · rw [if_neg hresuming, if_neg hresuming]
              exact checkAndPerform_on agree at_i

theorem start_on (agree : m.image.Agree j) : (m.on j).start = m.start.on j := by
  unfold start
  dsimp only
  rw [on_image, ← agree.entry, ← agree.init, ← agree.program, entryName_on agree, after_on]
  apply congrArg fun a => Advance.after a _
  cases m.image.entry? with
  | none => rfl
  | some entry =>
    cases m.image.init? with
    | some init => exact enterRoot_on (m := { m with phase := .init }) agree init
    | none => exact enterEntry_on agree

/-! ### Runs on another image -/

theorem Image.Agree.refl (i : Image) : i.Agree i :=
  ⟨rfl, rfl, fun _ _ => rfl, fun _ _ _ => rfl, fun _ _ _ => rfl⟩

/-- A step leaves the image. -/
theorem step_image (m : Machine) (stop : Bool) : (m.step stop).machine.image = m.image :=
  congrArg (fun a : Advance => a.machine.image) (step_on (.refl m.image) stop)

/-- Steps taken one after the other are the same on both images, whenever a request to stop comes. -/
theorem driveUnder_on : ∀ {fuel : Nat} {m : Machine} {stops : Nat → Bool} (sent : Array Emission),
    m.image.Agree j → (m.on j).driveUnder stops fuel sent =
      ((m.driveUnder stops fuel sent).1.on j, (m.driveUnder stops fuel sent).2)
  | 0, _, _, _, _ => rfl
  | fuel + 1, m, stops, sent, agree => by
    rw [driveUnder, driveUnder, step_on agree]
    dsimp only [Advance.on]
    cases (m.step (stops 0)).outcome with
    | some o => rfl
    | none =>
      have agree' : (m.step (stops 0)).machine.image.Agree j := by
        rw [step_image]
        exact agree
      exact driveUnder_on (sent ++ (m.step (stops 0)).emitted) agree'

theorem begin_on (agree : m.image.Agree j) : (m.on j).begin = m.begin.on j := by
  unfold begin
  rw [on_phase]
  cases m.phase with
  | idle => exact start_on agree
  | _ => rfl

theorem begin_image (m : Machine) : m.begin.machine.image = m.image :=
  congrArg (fun a : Advance => a.machine.image) (begin_on (.refl m.image))

theorem resumeUnder_on (agree : m.image.Agree j) (mode : Mode) (stops : Nat → Bool) (fuel : Nat) :
    (m.on j).resumeUnder mode stops fuel =
      ((m.resumeUnder mode stops fuel).1.on j, (m.resumeUnder mode stops fuel).2) := by
  unfold resumeUnder
  rw [begin_on agree]
  dsimp only [Advance.on, on_stepper]
  cases m.begin.outcome with
  | some o => rfl
  | none =>
    have agree' : m.begin.machine.image.Agree j := by
      rw [begin_image]
      exact agree
    exact driveUnder_on
      (m := { m.begin.machine with stepper := m.begin.machine.stepper.resume mode }) _ agree'

/-- A request is answered the same on both images. -/
theorem answer_on (agree : m.image.Agree j) (r : Request) :
    (m.on j).answer r = (m.answer r).on j := by
  cases r with
  | resume mode stops fuel =>
    rw [answer, answer, resumeUnder_on agree]
    rfl
  | _ => rfl

theorem answer_image (m : Machine) (r : Request) : (m.answer r).machine.image = m.image :=
  congrArg (fun t : Transcript => t.machine.image) (answer_on (.refl m.image) r)

theorem answers_on : ∀ {m : Machine}, m.image.Agree j → ∀ rs : List Request,
    (m.on j).answers rs = (m.answers rs).map (Transcript.on j)
  | _, _, [] => rfl
  | m, agree, r :: rs => by
    have agree' : (m.answer r).machine.image.Agree j := by
      rw [answer_image]
      exact agree
    rw [answers, answers, List.map_cons, answer_on agree]
    exact congrArg _ (answers_on agree' rs)

/-! ### Linked programs -/

/-- Two transcripts show the same: how the run stood, what was sent, and what the run left.  Nothing
but the image tells the machines apart. -/
structure Transcript.Same (t t' : Transcript) : Prop where
  outcomes : t'.outcomes = t.outcomes
  sent : t'.sent = t.sent
  globals : t'.machine.globals = t.machine.globals
  rest : t'.machine = t.machine.on t'.machine.image

section

variable {program : Bound.Program} {name entry : String} {code : Code.Program}
  {bridge bridge' : Bridge}

/-- A lowered program places each label of a function once. -/
theorem placements_le_one_of_lower (h : Code.lower program name entry = .ok code) :
    ∀ f ∈ code.functions, ∀ l, Code.placements l f.code ≤ 1 := by
  intro f hf l
  rcases mem_functions_of_lower h hf with ⟨_, _, lowered⟩ | ⟨init, _⟩
  · exact lowered.placements_le_one l
  · exact Code.lowerInit_placements_le_one init l

theorem limited_on {image image' : Image} (agree : image.Agree image') (max : Nat) :
    limited image' max = (limited image max).on image' := by
  unfold limited ofImage on
  rw [agree.program]

/-- A program that was linked runs as one that is interpreted, whatever is asked of the machines and
whenever they are told to stop: every request is answered the same.  The bridge may have been
searched in between, as long as it has the same libraries. -/
theorem interpreted_same_as_linked (hlower : Code.lower program name entry = .ok code)
    {natives : Bool} {e : Executable} (hlink : link code bridge natives = .ok e)
    (made : bridge.Made) (made' : bridge'.Made) (same : bridge'.contents = bridge.contents)
    (max : Nat) (requests : List Request) :
    List.Forall₂ Transcript.Same ((limited (.linked e) max).answers requests)
      ((limited (.interpreted code bridge') max).answers requests) := by
  have finds := fun symbol s args =>
    Bridge.callNamed_congr made.coherent made'.coherent same symbol s args
  have agree : Image.Agree (.linked e) (.interpreted code bridge') :=
    IsImage.agree (.linked hlink) .interpreted (placements_le_one_of_lower hlower) finds
  rw [limited_on agree max, answers_on agree]
  exact List.forall₂_map_right_iff.2 (List.forall₂_same.2 fun t _ => ⟨rfl, rfl, rfl, rfl⟩)

end

/-- A program that adds up how far the numbers below three are from two, in a global, by calls of a
native function, and prints a text. -/
def distances : Bound.Program :=
  let place (line : Nat) : Location := ⟨"far", 0, line, 1⟩
  let i32 : Bound.Info := ⟨.int .i32, place 1⟩
  let number (n : Int) : Bound.Expr := .literal i32 (.wrap (.int .i32) n)
  let total : Bound.Expr := .variable i32 (.global 0)
  let far : Bound.Expr := .call i32 1 [.binary i32 .sub (.variable i32 (.local 1)) (number 2)]
  { globals := [⟨"total", .int .i32, false, some (number 0), place 1⟩]
    functions :=
      [⟨"main", [], .int .i32, [⟨"$limit", .int .i32⟩, ⟨"i", .int .i32⟩], .block
          [.for (place 2) 1 0 (number 0) (number 3)
            [.assign (place 3) (.global 0) (.binary i32 .add total far)],
          .expr (place 4) (.call ⟨.void, place 4⟩ 2 [.literal ⟨.string, place 4⟩ (.string "sum")]),
          .ret (place 5) (some total)], place 1⟩,
        ⟨"abs", [.int .i32], .int .i32, [], .native "abs", place 6⟩,
        Bound.implicitFunction .print (place 7)] }

/-- A client that sets a breakpoint, goes on to it twice and to the end of the run, unless the run is
told to stop after so many further steps. -/
def breakingTwice (steps : Nat) : List Request :=
  [.addBreakpoint 3, .resume .continue (fun _ => false) 60, .resume .continue (fun _ => false) 60,
   .resume .run (fun n => decide (steps ≤ n)) 90]

/-- How a client is answered last. -/
def lastOutcome (m : Machine) (requests : List Request) : Option Outcome :=
  ((m.answers requests).flatMap Transcript.outcomes).getLast?

/-- With a bridge that has been searched for the function meanwhile, everything is answered the same,
and the program returns the sum, or it is stopped before. -/
theorem distances_same :
    ∃ code e, Code.lower distances "far" "main" = .ok code ∧
      link code Bridge.platform true = .ok e ∧
        lastOutcome (limited (.linked e) 10) (breakingTwice 90) = some (.exited (.code 3)) ∧
        lastOutcome (limited (.linked e) 10) (breakingTwice 5) = some (.exited .stopped) ∧
        ∀ steps, List.Forall₂ Transcript.Same
          ((limited (.linked e) 10).answers (breakingTwice steps))
          ((limited (.interpreted code (Bridge.platform.resolve "abs").2) 10).answers
            (breakingTwice steps)) := by
  refine ⟨_, _, rfl, rfl, by decide, by decide +kernel, fun steps => ?_⟩
  exact interpreted_same_as_linked (rfl : Code.lower distances "far" "main" = .ok _)
    (rfl : link _ Bridge.platform true = .ok _) Bridge.platform_made
    (.resolve Bridge.platform_made "abs") (Bridge.resolve_contents _ _) 10 _

end ScriptLang.Machine
