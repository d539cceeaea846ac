import ScriptLang.Machine.Image
import ScriptLang.Machine.Message
import ScriptLang.Machine.Stepper

/-!
# The machine

The machine runs the function that sets the globals and then the entry point, one instruction after
the other.  Every function that is active has its own variables and its own operands.  `Machine.step`
takes the machine one instruction further; before an instruction the run can be suspended or stopped.
`Machine.resume` takes steps until the run is suspended or has ended, as many as it is allowed.
-/

namespace ScriptLang.Machine

/-- Where a suspended program stands. -/
structure Position where
  function : String
  index : Nat
  location : Location
  depth : Nat
deriving DecidableEq, Repr

/-- How far a run has come. -/
inductive Outcome where
  | suspended (reason : SuspendReason) (position : Position)
  | exited (status : ExitStatus)
  /-- The steps allowed were used up; the run can go on. -/
  | unfinished

/-- A function that is active. -/
structure Frame where
  function : Nat
  /-- The place of the next instruction. -/
  next : Nat := 0
  locals : List Value
  /-- The last one pushed comes first. -/
  operands : List Value := []

inductive Phase where
  | idle
  /-- The globals are being set. -/
  | init
  | entry
  | done (status : ExitStatus)

end Machine

/-- A program at some point of its run. -/
structure Machine where
  image : Machine.Image
  globals : List Value
  /-- The active functions, the innermost first. -/
  frames : List Machine.Frame := []
  stepper : Machine.Stepper := {}
  phase : Machine.Phase := .idle
  /-- Whether the run is suspended, and the instruction that comes next has been checked. -/
  resuming : Bool := false
  /-- The number of instructions executed. -/
  executed : Nat := 0
  /-- How many functions may be active. -/
  maxCallDepth : Nat := 10000
  error : Option Machine.RuntimeError := none

namespace Machine

/-- A program before its start. -/
def ofImage (image : Image) : Machine :=
  { image, globals := image.program.globals.map fun g => Value.zero g.ty }

/-- Suspend the run before its first instruction. -/
def pauseAtStart (m : Machine) : Machine := { m with stepper := m.stepper.pause }

def depth (m : Machine) : Nat := m.stepper.depth

def isFinished (m : Machine) : Bool :=
  match m.phase with
  | .done _ => true
  | _ => false

def isSuspended (m : Machine) : Bool := m.resuming && !m.isFinished

/-- Where an instruction of a function stands, at the depth that the machine has. -/
def positionAt (m : Machine) (f : Code.Function) (index : Nat) (i : Code.Instruction) : Position :=
  ⟨f.name, index, i.location, m.depth⟩

/-- The instruction that comes next. -/
def position? (m : Machine) : Option Position := do
  let frame ← m.frames.head?
  let f ← m.image.function? frame.function
  let i ← f.code[frame.next]?
  return m.positionAt f frame.next i

/-- The name of the program's entry point, empty if it has none. -/
def entryName (m : Machine) : String := m.image.program.entry.getD ""

/-! ### Messages -/

/-- A machine that has moved, what it sent, and how the run stands if it is to pause or end. -/
structure Advance where
  machine : Machine
  emitted : List Emission := []
  outcome : Option Outcome := none

/-- What was sent before comes first. -/
def Advance.after (a : Advance) (emitted : List Emission) : Advance :=
  { a with emitted := emitted ++ a.emitted }

def send (kind : MessageKind) (payload : Payload) : Emission := .message ⟨kind, payload⟩

/-- A message about an instruction. -/
def instructionMessage (m : Machine) (kind : MessageKind) (f : Code.Function) (index : Nat)
    (i : Code.Instruction) : Emission :=
  send kind (.instruction f.name index i.op.text i.location m.depth)

/-! ### Ends of a run -/

/-- End the run. -/
def exit (m : Machine) (status : ExitStatus) : Advance where
  machine := { m with frames := [], resuming := false, phase := .done status }
  emitted := [send .programExit (.exit status)]
  outcome := some (.exited status)

/-- End the run with an error. -/
def fail (m : Machine) (e : RuntimeError) : Advance :=
  exit { m with error := some e } (.error (.ofError e))

/-! ### Calls and returns -/

/-- The variables of a function that is called: the arguments, then first values. -/
def initialLocals (f : Code.Function) (args : List Value) : List Value :=
  args ++ (f.locals.drop args.length).map fun l => Value.zero l.ty

/-- Begin a function. -/
def enter (m : Machine) (index : Nat) (f : Code.Function) (args : List Value) : Advance :=
  let m := { m with
    frames := { function := index, locals := initialLocals f args } :: m.frames
    stepper := m.stepper.enter }
  { machine := m, emitted := [send .functionEntry (.function f.name m.depth)] }

/-- Begin a function that no other calls. -/
def enterRoot (m : Machine) (index : Nat) : Advance :=
  match m.image.function? index with
  | none => m.fail (.unknownFunction ("#" ++ toString index) .unknown)
  | some f =>
    match f.signature.params with
    | [] => m.enter index f []
    | ps => m.fail (.arity f.name ps.length 0 f.location)

/-- Begin the entry point. -/
def enterEntry (m : Machine) : Advance :=
  match m.image.entry? with
  | some entry => enterRoot { m with phase := .entry } entry
  | none => fail { m with phase := .entry } (.noEntryPoint m.entryName)

/-- The number that a program exits with after its entry point gave this result. -/
def exitCode (result : Option Value) : Int64 :=
  match result.bind Value.int? with
  | some n => Int64.ofInt n
  | none => 0

/-- Go back to the function below, with a result or without. -/
def returnTo (m : Machine) (result : Option Value) : Advance :=
  match m.frames with
  | caller :: below =>
    let caller := { caller with operands := result.toList ++ caller.operands }
    { machine := { m with frames := caller :: below } }
  | [] =>
    match m.phase with
    | .init => m.enterEntry
    | _ => m.exit (.code (exitCode result))

/-- End the innermost function. -/
def leave (m : Machine) (result : Option Value) : Advance :=
  match m.frames with
  | [] => { machine := m }
  | frame :: frames =>
    let name := ((m.image.function? frame.function).map Code.Function.name).getD ""
    let sent := [send .functionReturn (.function name m.depth)]
    (returnTo { m with frames, stepper := m.stepper.leave } result).after sent

/-! ### Instructions -/

/-- What comes after an instruction. -/
inductive Flow where
  | next
  | enter (index : Nat) (f : Code.Function) (args : List Value)
  | leave (result : Option Value)

/-- The effect of an instruction: the machine, what the program printed, and what comes after. -/
structure Effect where
  machine : Machine
  printed : List Emission := []
  flow : Flow := .next

/-- The value at a place, after the list has been made long enough. -/
def putAt (values : List Value) (index : Nat) (v : Value) : List Value :=
  (values ++ List.replicate (index + 1 - values.length) Value.void).set index v

/-- The innermost function and its code while one of its instructions is executed. -/
structure Context where
  function : Code.Function
  frame : Frame
  /-- The functions below. -/
  below : List Frame
  /-- The place of the instruction. -/
  index : Nat
  location : Location

namespace Context

def underflow (c : Context) : RuntimeError := .stackUnderflow c.function.name c.location

/-- The machine with changed operands of the innermost function. -/
def withOperands (c : Context) (m : Machine) (operands : List Value) : Machine :=
  { m with frames := { c.frame with operands } :: c.below }

/-- Push the result of an operation. -/
def push (c : Context) (m : Machine) (operands : List Value) (r : Except ValueError Value) :
    Except RuntimeError Effect :=
  match r with
  | .ok v => .ok { machine := c.withOperands m (v :: operands) }
  | .error e => .error (.operation e c.location)

/-- Go on at a label. -/
def jump (c : Context) (m : Machine) (operands : List Value) (l : Code.Label) :
    Except RuntimeError Effect :=
  match m.image.labelPlace? c.frame.function l with
  | some next => .ok { machine := { m with frames := { c.frame with operands, next } :: c.below } }
  | none => .error (.unknownLabel l c.function.name c.location)

/-- Call a function with arguments that are off the operands. -/
def invoke (c : Context) (m : Machine) (operands : List Value) (index : Nat) (f : Code.Function)
    (args : List Value) : Except RuntimeError Effect :=
  let m := c.withOperands m operands
  match f.kind with
  | .body _ =>
    if m.maxCallDepth ≤ m.frames.length then
      .error (.stackOverflow f.name m.maxCallDepth c.location)
    else .ok { machine := m, flow := .enter index f args }
  | .intrinsic i =>
    let text := (args.head?.map Value.text).getD ""
    let ending := if i = .println then [Emission.output "\n"] else []
    .ok { machine := m, printed := .output text :: ending }
  | .native _ =>
    match m.image.callNative index args with
    | .error e => .error (.native f.name e c.location)
    | .ok v =>
      .ok { machine := if f.signature.ret = .void then m else c.withOperands m (v :: operands) }

/-- Execute a call. -/
def call (c : Context) (m : Machine) (name : String) (argc : Nat) : Except RuntimeError Effect :=
  let callee := do
    let index ← m.image.callee? c.frame.function c.index name
    return (index, ← m.image.function? index)
  match callee with
  | none => .error (.unknownFunction name c.location)
  | some (index, f) =>
    let params := f.signature.params.length
    if params ≠ argc then .error (.arity f.name params argc c.location)
    else if c.frame.operands.length < argc then .error c.underflow
    else
      c.invoke m (c.frame.operands.drop argc) index f (c.frame.operands.take argc).reverse

/-- Execute an operation. -/
def execute (c : Context) (m : Machine) (op : Code.Op) : Except RuntimeError Effect :=
  let operands := c.frame.operands
  let done (operands : List Value) : Except RuntimeError Effect :=
    .ok { machine := c.withOperands m operands }
  match op, operands with
  | .pushConst v, _ => done (v :: operands)
  | .pushLocal slot, _ =>
    match c.frame.locals[slot]? with
    | some v => done (v :: operands)
    | none => .error c.underflow
  | .pushGlobal id, _ => done ((m.globals[id]?.getD .void) :: operands)
  | .popLocal slot, v :: rest =>
    let frame := { c.frame with locals := putAt c.frame.locals slot v, operands := rest }
    .ok { machine := { m with frames := frame :: c.below } }
  | .popGlobal id, v :: rest =>
    .ok { machine := c.withOperands { m with globals := putAt m.globals id v } rest }
  | .unary op, v :: rest => c.push m rest (Value.unary op v)
  | .binary op, r :: l :: rest => c.push m rest (Value.binary op l r)
  | .cast ty, v :: rest => c.push m rest (v.cast ty)
  | .call name argc, _ | .callNative name argc, _ => c.call m name argc
  | .ret true, v :: rest => .ok { machine := c.withOperands m rest, flow := .leave (some v) }
  | .ret false, _ => .ok { machine := c.withOperands m operands, flow := .leave none }
  | .jump l, _ => c.jump m operands l
  | .jumpIfFalse l, v :: rest => if v.truthy then done rest else c.jump m rest l
  | .jumpIfTrue l, v :: rest => if v.truthy then c.jump m rest l else done rest
  | .label _, _ => done operands
  | .pop, _ :: rest => done rest
  | _, _ => .error c.underflow

end Context

/-! ### Steps -/

/-- Whatever comes after an instruction. -/
def follow (m : Machine) : Flow → Advance
  | .next => { machine := m }
  | .enter index f args => m.enter index f args
  | .leave result => m.leave result

/-- Execute the instruction that comes next. -/
def perform (m : Machine) (c : Context) (i : Code.Instruction) : Advance :=
  match c.execute m i.op with
  | .error e => m.fail e
  | .ok effect =>
    let m := { effect.machine with executed := effect.machine.executed + 1 }
    let sent := effect.printed ++ [m.instructionMessage .afterInstruction c.function c.index i]
    (m.follow effect.flow).after sent

/-- Announce the instruction that comes next, and suspend the run or execute it. -/
def checkAndPerform (m : Machine) (c : Context) (i : Code.Instruction) : Advance :=
  let sent := [m.instructionMessage .onInstruction c.function c.index i]
  let (reason, stepper) := m.stepper.check i.location.line
  let m := { m with stepper }
  match reason with
  | some reason =>
    { machine := { m with resuming := true }
      emitted := sent
      outcome := some (.suspended reason (m.positionAt c.function c.index i)) }
  | none => (m.perform c i).after sent

/-- One step.  Labels are passed without notice.  A run that has been told to stop ends before the next
instruction; one that is being resumed executes it without another check. -/
def step (stop : Bool) (m : Machine) : Advance :=
  match m.frames with
  | [] => m.exit (.code 0)
  | frame :: below =>
    match m.image.function? frame.function with
    | none => m.fail (.unknownFunction ("#" ++ toString frame.function) .unknown)
    | some f =>
      match f.code[frame.next]? with
      | none => m.leave none
      | some i =>
        let moved := { frame with next := frame.next + 1 }
        if i.op.isLabel then { machine := { m with frames := moved :: below } }
        else if stop then m.exit .stopped
        else
          let c : Context := ⟨f, moved, below, frame.next, i.location⟩
          if m.resuming then perform { m with resuming := false } c i
          else m.checkAndPerform c i

/-- Begin the run. -/
def start (m : Machine) : Advance :=
  let sent := [send .programStart (.program m.image.program.name m.entryName)]
  let begun :=
    match m.image.entry?, m.image.init? with
    | none, _ => m.fail (.noEntryPoint m.entryName)
    | some _, some init => enterRoot { m with phase := .init } init
    | some _, none => m.enterEntry
  begun.after sent

/-- Take at most `fuel` steps; `sent` is what was sent before. -/
def drive (stop : Bool) : (fuel : Nat) → Machine → (sent : Array Emission) →
    Machine × Array Emission × Outcome
  | 0, m, sent => (m, sent, .unfinished)
  | fuel + 1, m, sent =>
    let a := m.step stop
    match a.outcome with
    | some o => (a.machine, sent ++ a.emitted, o)
    | none => drive stop fuel a.machine (sent ++ a.emitted)

/-- Start or resume the run in a mode, for at most `fuel` steps. -/
def resume (m : Machine) (mode : Mode) (stop : Bool) (fuel : Nat) :
    Machine × Array Emission × Outcome :=
  let begun : Advance :=
    match m.phase with
    | .done status => { machine := m, outcome := some (.exited status) }
    | .idle => m.start
    | _ => { machine := m }
  match begun.outcome with
  | some o => (begun.machine, begun.emitted.toArray, o)
  | none =>
    let m := { begun.machine with stepper := begun.machine.stepper.resume mode }
    drive stop fuel m begun.emitted.toArray

end Machine

end ScriptLang
