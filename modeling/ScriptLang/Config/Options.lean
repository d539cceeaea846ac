/-!
# Options

Options as they are given on a command line: keys, each with the values it was given, in the order in
which the keys first occurred.  A key can be given without a value, and it can be repeated.
-/

namespace ScriptLang

structure Options where
  groups : List (String × List (Option String)) := []
deriving DecidableEq, Repr

namespace Options

/-- The text before and after the first equals sign; no value without one. -/
def splitPair (pair : String) : String × Option String :=
  let cs := pair.toList
  match cs.dropWhile (· ≠ '=') with
  | _ :: value => (String.ofList (cs.takeWhile (· ≠ '=')), some (String.ofList value))
  | [] => (pair, none)

/-- Put a value at the end of a key's group. -/
def insertInto (key : String) (value : Option String) :
    List (String × List (Option String)) → List (String × List (Option String))
  | [] => [(key, [value])]
  | (k, values) :: groups =>
    if k = key then (k, values ++ [value]) :: groups
    else (k, values) :: insertInto key value groups

/-- Give a key one more value. -/
def set (o : Options) (key : String) (value : Option String) : Options :=
  ⟨insertInto key value o.groups⟩

/-- Add an option written as `key` or `key=value`. -/
def add (o : Options) (pair : String) : Options :=
  let (key, value) := splitPair pair
  o.set key value

/-- The options written by some pairs. -/
def ofPairs (pairs : List String) : Options := pairs.foldl add {}

/-- The option that an argument such as `--key=value` writes. -/
def flag? (argument : String) : Option String :=
  match argument.toList with
  | '-' :: '-' :: c :: cs => some (String.ofList (c :: cs))
  | _ => none

/-- The options written by arguments that begin with two dashes, and the other arguments. -/
def ofFlags (arguments : List String) : Options × List String :=
  (ofPairs (arguments.filterMap flag?), arguments.filter fun a => (flag? a).isNone)

/-- All values of all keys. -/
def entries (o : Options) : List (String × Option String) :=
  o.groups.flatMap fun (key, values) => values.map fun v => (key, v)

/-- An option as a pair. -/
def pairText (key : String) (value : Option String) : String :=
  match value with
  | some v => key ++ "=" ++ v
  | none => key

/-- The options as pairs. -/
def toPairs (o : Options) : List String := o.entries.map fun (key, value) => pairText key value

def has (o : Options) (key : String) : Bool := (o.groups.lookup key).isSome

/-- The value given last; `some none` if the key was last given without a value. -/
def get? (o : Options) (key : String) : Option (Option String) :=
  (o.groups.lookup key).bind List.getLast?

def isEmpty (o : Options) : Bool := o.groups.isEmpty

end Options

end ScriptLang
