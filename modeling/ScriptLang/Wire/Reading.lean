import ScriptLang.Wire.Json

/-!
# Reading values from documents

A record is written as an object with its fields as members, or as an array of its fields in order.
Members that belong to no field are skipped; no field may be given twice.  A value that is one of
several kinds is written under its kind's name: as an object with this one member (`variant?`), as the
name alone if there is nothing more to it, or as a record with the name in a field of its own
(`kinded?`).
-/

namespace ScriptLang.Wire.Json

def string? : Json → Option String
  | string s => some s
  | _ => none

def int? : Json → Option Int
  | int n => some n
  | _ => none

/-- A natural number that takes at most some number of bits. -/
def nat? (bits : Nat) (j : Json) : Option Nat :=
  j.int?.bind fun n => if 0 ≤ n ∧ n < Nat.pow 2 bits then some n.toNat else none

/-- A size or a position. -/
def size? (j : Json) : Option Nat := j.nat? 64

/-- A list of values of one kind. -/
def list? {α : Type} (read : Json → Option α) : Json → Option (List α)
  | array js => js.mapM read
  | _ => none

/-- A value that may be missing. -/
def nullable? {α : Type} (read : Json → Option α) : Json → Option (Option α)
  | null => some none
  | j => (read j).map some

/-! ### Records -/

/-- The fields that a record gives. -/
structure Fields where
  /-- Whether the fields are given in order, without their names. -/
  positional : Bool
  values : List (String × Json)

/-- The fields of a record with these names. -/
def fields? (names : List String) : Json → Option Fields
  | object ms =>
    let given := ms.toList.filter fun m => names.contains m.1
    if (given.map Prod.fst).Nodup then some ⟨false, given⟩ else none
  | array js => if js.length ≤ names.length then some ⟨true, names.zip js⟩ else none
  | _ => none

namespace Fields

/-- A field that must be given. -/
def required {α : Type} (f : Fields) (name : String) (read : Json → Option α) : Option α :=
  (f.values.lookup name).bind read

/-- A field that has a value if it is not given. -/
def defaulted {α : Type} (f : Fields) (name : String) (value : α) (read : Json → Option α) :
    Option α :=
  match f.values.lookup name with
  | some j => read j
  | none => some value

/-- A field without a value if it is not given by name. -/
def optional {α : Type} (f : Fields) (name : String) (read : Json → Option α) :
    Option (Option α) :=
  match f.values.lookup name with
  | some j => nullable? read j
  | none => if f.positional then none else some none

end Fields

/-! ### Kinds -/

mutual

/-- Whether all of a document can be read, and nests no deeper than some number of levels. -/
def readable (levels : Nat) : Json → Bool
  | unreadable => false
  | array js => 0 < levels && allReadable (levels - 1) js
  | object ms => 0 < levels && membersReadable (levels - 1) ms
  | _ => true

def allReadable (levels : Nat) : List Json → Bool
  | [] => true
  | j :: js => j.readable levels && allReadable levels js

def membersReadable (levels : Nat) : Members → Bool
  | .nil => true
  | .cons _ j ms => j.readable levels && membersReadable levels ms

end

/-- The name of a kind and what stands under it, if anything does. -/
def variant? : Json → Option (String × Option Json)
  | string name => some (name, none)
  | object (.cons name j .nil) => some (name, some j)
  | _ => none

/-- One of several kinds that have nothing but a name; `empty` says what may stand under it. -/
def unit? {α : Type} (empty : Json → Bool) (ofName? : String → Option α) (j : Json) : Option α := do
  let (name, content) ← j.variant?
  match content with
  | none => ofName? name
  | some c => if empty c then ofName? name else none

def isNull : Json → Bool
  | null => true
  | _ => false

/-- Whether a document says nothing where it has been read as a whole before. -/
def isBlank : Json → Bool
  | null => true
  | object .nil => true
  | _ => false

/-- How deep the fields of a record with its kind in a field may nest: a document has at most 127
levels, of which the record is the third. -/
def kindedLevels : Nat := 124

/-- The kind of a record that names it in the field `kind`, or first of all if it is an array, and the
record of the other fields.  All fields are read, also those that are skipped. -/
def kinded? : Json → Option (String × Json)
  | object ms =>
    if membersReadable kindedLevels ms then
      match ms.toList.partition fun m => m.1 == "kind" with
      | ([(_, .string kind)], others) => some (kind, .record others)
      | _ => none
    else none
  | array (.string kind :: js) => if allReadable kindedLevels js then some (kind, .array js) else none
  | _ => none

/-- A record without fields; an array must be empty. -/
def noFields? : Json → Option Unit
  | object _ => some ()
  | array [] => some ()
  | _ => none

end ScriptLang.Wire.Json
