/-!
# Stages of a session

A program passes through the stages in order.  The last one is to run it, either in linked form or
straight from its code.
-/

namespace ScriptLang

inductive Stage where
  | init
  | parse
  | bind
  | intermediate
  | generate
  | execute
  | interpret
deriving DecidableEq, Repr

namespace Stage

def name : Stage → String
  | init => "init"
  | parse => "parse"
  | bind => "bind"
  | intermediate => "intermediate"
  | generate => "generate"
  | execute => "execute"
  | interpret => "interpret"

/-- The stage that follows; `linked` says which of the last stages is taken. -/
def next? (linked : Bool) : Stage → Option Stage
  | init => some parse
  | parse => some bind
  | bind => some intermediate
  | intermediate => some generate
  | generate => some (if linked then execute else interpret)
  | execute => none
  | interpret => none

/-- All stages of a program in order. -/
def course (linked : Bool) : List Stage :=
  [init, parse, bind, intermediate, generate, if linked then execute else interpret]

/-- Whether the stage is one that runs the program. -/
def isTerminal : Stage → Bool
  | execute | interpret => true
  | _ => false

/-- The number of stages before this one; the last stages stand side by side. -/
def rank : Stage → Nat
  | init => 0
  | parse => 1
  | bind => 2
  | intermediate => 3
  | generate => 4
  | execute => 5
  | interpret => 5

end Stage

end ScriptLang
