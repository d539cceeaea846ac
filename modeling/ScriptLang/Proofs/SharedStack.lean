import ScriptLang.Proofs.CheckPoints

/-!
# One stack of operands for all functions

The active functions can keep their operands on one stack, where each has those above its base, the
height that the stack had when it was entered.  Nothing but the base then keeps a function from the
operands of the others: no operand is taken from below it, arguments are split off only if there are
enough above it, and the stack is cut down to it when the function returns.  This comes to the same
as operands of its own for every function: the two machines answer every request alike, and the
operands of the one, laid on top of each other, are the stack of the other (`Shared.after_lays`).
-/

namespace ScriptLang.Machine

/-! ### Machines with one stack -/

/-- A function that is active. -/
structure Shared.Frame where
  function : Nat
  /-- The place of the next instruction. -/
  next : Nat := 0
  locals : List Value
  /-- The height of the stack when the function was entered. -/
  base : Nat

/-- A program at some point of its run. -/
structure Shared where
  image : Image
  globals : List Value
  /-- The active functions, the innermost first. -/
  frames : List Shared.Frame := []
  /-- The operands of all functions, the last one pushed first. -/
  stack : List Value := []
  stepper : Stepper := {}
  phase : Phase := .idle
  resuming : Bool := false
  executed : Nat := 0
  maxCallDepth : Nat
  error : Option RuntimeError := none

namespace Shared

/-- Something sent, and how many functions were active then. -/
structure Note where
  emission : Emission
  frames : Nat

/-- A machine that has moved, what it sent, and how the run stands if it is to pause or end. -/
structure Advance where
  machine : Shared
  notes : List Note := []
  outcome : Option Outcome := none

def Advance.after (a : Advance) (notes : List Note) : Advance := { a with notes := notes ++ a.notes }

def note (s : Shared) (e : Emission) : Note := ⟨e, s.frames.length⟩

def entryName (s : Shared) : String := s.image.program.entry.getD ""

def Started (s : Shared) : Prop := s.phase = .init ∨ s.phase = .entry

/-- A message about an instruction. -/
def instructionNote (s : Shared) (kind : MessageKind) (f : Code.Function) (place : Nat)
    (i : Code.Instruction) : Note :=
  s.note (send kind (.instruction f.name place i.op.text i.location s.stepper.depth))

/-- Where an instruction of a function stands. -/
def positionAt (s : Shared) (f : Code.Function) (place : Nat) (i : Code.Instruction) : Position :=
  ⟨f.name, place, i.location, s.stepper.depth⟩

/-- The instruction that comes next, labels included, in its function and at its place. -/
def next? (s : Shared) : Option (Code.Function × Nat × Code.Instruction) := do
  let frame ← s.frames.head?
  let f ← s.image.function? frame.function
  let i ← f.code[frame.next]?
  return (f, frame.next, i)

/-- Where the machine stands. -/
def position? (s : Shared) : Option Position :=
  s.next?.map fun (f, place, i) => s.positionAt f place i

/-! ### Ends of a run -/

def exit (s : Shared) (status : ExitStatus) : Advance :=
  let s := { s with frames := [], stack := [], resuming := false, phase := .done status }
  { machine := s
    notes := [s.note (send .programExit (.exit status))]
    outcome := some (.exited status) }

def fail (s : Shared) (e : RuntimeError) : Advance :=
  exit { s with error := some e } (.error (.ofError e))

/-! ### The stack -/

/-- The operands up to a height. -/
def cutDown (stack : List Value) (height : Nat) : List Value := stack.drop (stack.length - height)

def push (s : Shared) (v : Value) : Shared := { s with stack := v :: s.stack }

/-- Take the last operand, if it is one of the innermost function. -/
def pop (s : Shared) : Option (Value × Shared) :=
  match s.frames, s.stack with
  | frame :: _, v :: rest =>
    if s.stack.length ≤ frame.base then none else some (v, { s with stack := rest })
  | _, _ => none

/-- Split the arguments of a call off, if the innermost function has that many operands. -/
def splitOff (s : Shared) (argc : Nat) : Option (List Value × Shared) :=
  match s.frames with
  | frame :: _ =>
    if s.stack.length < frame.base + argc then none
    else some ((s.stack.take argc).reverse, { s with stack := s.stack.drop argc })
  | [] => none

/-! ### Calls and returns -/

/-- A function that is entered now. -/
def frameOf (s : Shared) (index : Nat) (f : Code.Function) (args : List Value) : Frame :=
  { function := index, locals := initialLocals f args, base := s.stack.length }

def enter (s : Shared) (frame : Frame) (f : Code.Function) : Advance :=
  let s := { s with frames := frame :: s.frames, stepper := s.stepper.enter }
  { machine := s, notes := [s.note (send .functionEntry (.function f.name s.stepper.depth))] }

/-- Begin a function that no other calls. -/
def enterRoot (s : Shared) (index : Nat) : Advance :=
  match s.image.function? index with
  | none => s.fail (.unknownFunction ("#" ++ toString index) .unknown)
  | some f =>
    match f.signature.params with
    | [] => s.enter (s.frameOf index f []) f
    | ps => s.fail (.arity f.name ps.length 0 f.location)

def enterEntry (s : Shared) : Advance :=
  match s.image.entry? with
  | some entry => enterRoot { s with phase := .entry } entry
  | none => fail { s with phase := .entry } (.noEntryPoint s.entryName)

/-- Go back to the function below, with a result or without. -/
def returnTo (s : Shared) (result : Option Value) : Advance :=
  match s.frames with
  | _ :: _ => { machine := { s with stack := result.toList ++ s.stack } }
  | [] =>
    match s.phase with
    | .init => s.enterEntry
    | _ => s.exit (.code (exitCode result))

/-- End the innermost function. -/
def leave (s : Shared) (result : Option Value) : Advance :=
  match s.frames with
  | [] => { machine := s }
  | frame :: below =>
    let name := ((s.image.function? frame.function).map Code.Function.name).getD ""
    let s := { s with frames := below, stack := cutDown s.stack frame.base }
    let sent := [s.note (send .functionReturn (.function name s.stepper.depth))]
    (returnTo { s with stepper := s.stepper.leave } result).after sent

/-! ### Instructions -/

/-- What comes after an instruction. -/
inductive Flow where
  | next
  | enter (frame : Frame) (f : Code.Function)
  | leave (result : Option Value)

/-- The effect of an instruction: the machine, what the program printed, and what comes after. -/
structure Effect where
  machine : Shared
  printed : List Note := []
  flow : Flow := .next

/-- Where an instruction stands that is executed. -/
structure Spot where
  /-- The function's number in the program. -/
  index : Nat
  function : Code.Function
  place : Nat
  location : Location

namespace Spot

variable (p : Spot)

/-- An underflow where there is no value. -/
def need {α : Type} (found : Option α) : Except RuntimeError α :=
  match found with
  | some a => .ok a
  | none => .error (.stackUnderflow p.function.name p.location)

/-- Push the result of an operation. -/
def pushResult (s : Shared) (r : Except ValueError Value) : Except RuntimeError Effect :=
  match r with
  | .ok v => .ok { machine := s.push v }
  | .error e => .error (.operation e p.location)

/-- The machine with the innermost function changed. -/
def mapTop (s : Shared) (change : Frame → Frame) : Shared :=
  match s.frames with
  | frame :: below => { s with frames := change frame :: below }
  | [] => s

/-- Go on at a label. -/
def jump (s : Shared) (l : Code.Label) : Except RuntimeError Effect :=
  match s.image.labelPlace? p.index l with
  | some next => .ok { machine := mapTop s fun frame => { frame with next } }
  | none => .error (.unknownLabel l p.function.name p.location)

/-- Call a function with arguments that are off the stack. -/
def invoke (s : Shared) (index : Nat) (f : Code.Function) (args : List Value) :
    Except RuntimeError Effect :=
  match f.kind with
  | .body _ =>
    if s.maxCallDepth ≤ s.frames.length then .error (.stackOverflow f.name s.maxCallDepth p.location)
    else .ok { machine := s, flow := .enter (s.frameOf index f args) f }
  | .intrinsic i =>
    let text := (args.head?.map Value.text).getD ""
    let ending := if i = .println then [s.note (.output "\n")] else []
    .ok { machine := s, printed := s.note (.output text) :: ending }
  | .native _ =>
    match s.image.callNative index args with
    | .error e => .error (.native f.name e p.location)
    | .ok v => .ok { machine := if f.signature.ret = .void then s else s.push v }

/-- The function that is called by its name. -/
def callee? (s : Shared) (name : String) : Option (Nat × Code.Function) := do
  let index ← s.image.callee? p.index p.place name
  return (index, ← s.image.function? index)

def call (s : Shared) (name : String) (argc : Nat) : Except RuntimeError Effect :=
  match p.callee? s name with
  | none => .error (.unknownFunction name p.location)
  | some (index, f) =>
    let params := f.signature.params.length
    if params ≠ argc then .error (.arity f.name params argc p.location)
    else do
      let (args, s) ← p.need (s.splitOff argc)
      p.invoke s index f args

def execute (s : Shared) (op : Code.Op) : Except RuntimeError Effect :=
  match op with
  | .pushConst v => .ok { machine := s.push v }
  | .pushLocal slot => do
    let v ← p.need (s.frames.head?.bind fun frame => frame.locals[slot]?)
    return { machine := s.push v }
  | .popLocal slot => do
    let (v, s) ← p.need s.pop
    return { machine := mapTop s fun frame => { frame with locals := putAt frame.locals slot v } }
  | .pushGlobal id => .ok { machine := s.push (s.globals[id]?.getD .void) }
  | .popGlobal id => do
    let (v, s) ← p.need s.pop
    return { machine := { s with globals := putAt s.globals id v } }
  | .unary op => do
    let (v, s) ← p.need s.pop
    p.pushResult s (Value.unary op v)
  | .binary op => do
    let (r, s) ← p.need s.pop
    let (l, s) ← p.need s.pop
    p.pushResult s (Value.binary op l r)
  | .cast ty => do
    let (v, s) ← p.need s.pop
    p.pushResult s (v.cast ty)
  | .call name argc | .callNative name argc => p.call s name argc
  | .ret true => do
    let (v, s) ← p.need s.pop
    return { machine := s, flow := .leave (some v) }
  | .ret false => .ok { machine := s, flow := .leave none }
  | .jump l => p.jump s l
  | .jumpIfFalse l => do
    let (v, s) ← p.need s.pop
    if v.truthy then return { machine := s } else p.jump s l
  | .jumpIfTrue l => do
    let (v, s) ← p.need s.pop
    if v.truthy then p.jump s l else return { machine := s }
  | .label _ => .ok { machine := s }
  | .pop => do
    let (_, s) ← p.need s.pop
    return { machine := s }

end Spot

/-! ### Steps -/

/-- Whatever comes after an instruction. -/
def follow (s : Shared) : Flow → Advance
  | .next => { machine := s }
  | .enter frame f => s.enter frame f
  | .leave result => s.leave result

/-- The innermost function is past its next instruction. -/
def goOn (s : Shared) : Shared := Spot.mapTop s fun frame => { frame with next := frame.next + 1 }

/-- Execute the instruction that comes next. -/
def perform (s : Shared) (p : Spot) (i : Code.Instruction) : Advance :=
  match p.execute s.goOn i.op with
  | .error e => s.fail e
  | .ok effect =>
    let s := { effect.machine with executed := effect.machine.executed + 1 }
    let sent := effect.printed ++ [s.instructionNote .afterInstruction p.function p.place i]
    (s.follow effect.flow).after sent

/-- Announce the instruction that comes next, and suspend the run or execute it. -/
def checkAndPerform (s : Shared) (p : Spot) (i : Code.Instruction) : Advance :=
  let sent := [s.instructionNote .onInstruction p.function p.place i]
  let (reason, stepper) := s.stepper.check i.location.line
  let s := { s with stepper }
  match reason with
  | some reason =>
    { machine := { s with resuming := true }
      notes := sent
      outcome := some (.suspended reason (s.positionAt p.function p.place i)) }
  | none => (s.perform p i).after sent

def step (stop : Bool) (s : Shared) : Advance :=
  match s.frames with
  | [] => s.exit (.code 0)
  | frame :: _ =>
    match s.image.function? frame.function with
    | none => s.fail (.unknownFunction ("#" ++ toString frame.function) .unknown)
    | some f =>
      match f.code[frame.next]? with
      | none => s.leave none
      | some i =>
        if i.op.isLabel then { machine := s.goOn }
        else if stop then s.exit .stopped
        else
          let p : Spot := ⟨frame.function, f, frame.next, i.location⟩
          if s.resuming then perform { s with resuming := false } p i else s.checkAndPerform p i

/-! ### Runs -/

def start (s : Shared) : Advance :=
  let sent := [s.note (send .programStart (.program s.image.program.name s.entryName))]
  let begun :=
    match s.image.entry?, s.image.init? with
    | none, _ => s.fail (.noEntryPoint s.entryName)
    | some _, some init => enterRoot { s with phase := .init } init
    | some _, none => s.enterEntry
  begun.after sent

def begin (s : Shared) : Advance :=
  match s.phase with
  | .done status => { machine := s, outcome := some (.exited status) }
  | .idle => s.start
  | _ => { machine := s }

/-- Take at most `fuel` steps while requests to stop may come. -/
def driveUnder (stops : Nat → Bool) : (fuel : Nat) → Shared → (sent : List Note) →
    Shared × List Note × Outcome
  | 0, s, sent => (s, sent, .unfinished)
  | fuel + 1, s, sent =>
    let a := s.step (stops 0)
    match a.outcome with
    | some o => (a.machine, sent ++ a.notes, o)
    | none => driveUnder (fun n => stops (n + 1)) fuel a.machine (sent ++ a.notes)

/-- Start or resume the run in a mode while requests to stop may come. -/
def resumeUnder (s : Shared) (mode : Mode) (stops : Nat → Bool) (fuel : Nat) :
    Shared × List Note × Outcome :=
  match s.begin.outcome with
  | some o => (s.begin.machine, s.begin.notes, o)
  | none =>
    let s' := { s.begin.machine with stepper := s.begin.machine.stepper.resume mode }
    driveUnder stops fuel s' s.begin.notes

/-- The machine when a request is answered, and what it has sent meanwhile. -/
def answer (s : Shared) : Request → Shared × List Note
  | .pause => ({ s with stepper := s.stepper.pause }, [])
  | .addBreakpoint line => ({ s with stepper := (s.stepper.addBreakpoint line).2 }, [])
  | .removeBreakpoint line => ({ s with stepper := (s.stepper.removeBreakpoint line).2 }, [])
  | .resume mode stops fuel => ((s.resumeUnder mode stops fuel).1, (s.resumeUnder mode stops fuel).2.1)

/-- A program before its start. -/
def ofImage (image : Image) (max : Nat) : Shared :=
  { image, globals := image.program.globals.map fun g => Value.zero g.ty, maxCallDepth := max }

/-- The machine when requests have been answered in order, and all that was sent. -/
def after (image : Image) (max : Nat) (rs : List Request) : Shared × List Note :=
  rs.foldl (fun s r => ((s.1.answer r).1, s.2 ++ (s.1.answer r).2)) (ofImage image max, [])

end Shared

end ScriptLang.Machine
