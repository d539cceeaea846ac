/-!
# Where a run suspends

A stepper follows the calls and returns of a run and decides at each check point whether the run is
suspended there: for a step that is done, or for a breakpoint.  A breakpoint is hit when a function's
execution comes to its line, and not again while it stays there, even if it calls others meanwhile.
-/

namespace ScriptLang.Machine

/-- How far a run goes before it is suspended. -/
inductive Mode where
  /-- To the end, past all breakpoints. -/
  | run
  /-- To the next instruction. -/
  | singleStep
  /-- To the next instruction of this function or of its callers. -/
  | stepOver
  /-- Until the current function has returned. -/
  | runToReturn
  /-- To the next breakpoint. -/
  | continue
deriving DecidableEq, Repr

/-- The bit that stands for a mode. -/
def Mode.code : Mode → Nat
  | run => 0
  | singleStep => 1
  | stepOver => 2
  | runToReturn => 4
  | .continue => 8

def Mode.ofCode? : Nat → Option Mode
  | 0 => some run
  | 1 => some singleStep
  | 2 => some stepOver
  | 4 => some runToReturn
  | 8 => some .continue
  | _ => none

inductive SuspendReason where
  | start
  | step
  | breakpoint
deriving DecidableEq, Repr

structure Stepper where
  mode : Mode := .run
  /-- The number of functions that are active. -/
  depth : Nat := 0
  /-- The depth at which the current step began. -/
  stepDepth : Nat := 0
  /-- Whether the function that the step began in has returned. -/
  returned : Bool := false
  /-- Whether to suspend at the next check point, whatever the mode. -/
  pausePending : Bool := false
  /-- Lines, each once. -/
  breakpoints : List Nat := []
  /-- The line of the last check point of each active function, the innermost first. -/
  lines : List (Option Nat) := []
deriving DecidableEq, Repr

namespace Stepper

def pause (s : Stepper) : Stepper := { s with pausePending := true }

/-- Begin a step. -/
def resume (s : Stepper) (mode : Mode) : Stepper :=
  { s with mode, stepDepth := s.depth, returned := false }

/-- A function was called. -/
def enter (s : Stepper) : Stepper := { s with depth := s.depth + 1, lines := none :: s.lines }

/-- The innermost function returned. -/
def leave (s : Stepper) : Stepper :=
  { s with
    returned := s.returned || (s.mode == .runToReturn && decide (s.depth ≤ s.stepDepth))
    depth := s.depth - 1
    lines := s.lines.tail }

/-- Add a breakpoint; false if it was there. -/
def addBreakpoint (s : Stepper) (line : Nat) : Bool × Stepper :=
  if s.breakpoints.contains line then (false, s)
  else (true, { s with breakpoints := line :: s.breakpoints })

/-- Remove a breakpoint; false if it was not there. -/
def removeBreakpoint (s : Stepper) (line : Nat) : Bool × Stepper :=
  (s.breakpoints.contains line, { s with breakpoints := s.breakpoints.filter (· != line) })

/-- The breakpoints in ascending order. -/
def sortedBreakpoints (s : Stepper) : List Nat := s.breakpoints.mergeSort

/-- Whether the innermost function comes to a line that it was not at. -/
def entersLine (s : Stepper) (line : Nat) : Bool :=
  match s.lines with
  | last :: _ => last != some line
  | [] => true

/-- Whether the current step is done. -/
def stepDone (s : Stepper) : Bool :=
  match s.mode with
  | .singleStep => true
  | .stepOver => decide (s.depth ≤ s.stepDepth)
  | .runToReturn => s.returned
  | .run => false
  | .continue => false

/-- Note the line that the innermost function is at. -/
def atLine (s : Stepper) (line : Nat) : Stepper :=
  match s.lines with
  | _ :: rest => { s with lines := some line :: rest }
  | [] => s

/-- A check point at a line: why the run is suspended there, if it is. -/
def check (s : Stepper) (line : Nat) : Option SuspendReason × Stepper :=
  let next := { s.atLine line with pausePending := false }
  let reason :=
    if s.pausePending then some .start
    else if s.stepDone then some .step
    else if s.mode != .run && s.entersLine line && s.breakpoints.contains line then
      some .breakpoint
    else none
  (reason, next)

end Stepper

end ScriptLang.Machine
