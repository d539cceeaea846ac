/-!
# Documents

The documents that travel between the two ends of a connection, and their text on one line: objects
keep their members in order, and nothing is written that need not be.
-/

namespace ScriptLang.Wire

mutual

/-- A document. -/
inductive Json where
  | null
  | bool (b : Bool)
  /-- A number written with neither fraction nor exponent. -/
  | int (n : Int)
  /-- Any other number, as written. -/
  | fraction (literal : String)
  | string (s : String)
  | array (elements : List Json)
  | object (members : Members)
  /-- What can be skipped but not read: a text or an object's key with half of a surrogate pair, or a
  number too great for a float. -/
  | unreadable

inductive Members where
  | nil
  | cons (key : String) (value : Json) (rest : Members)

end

instance : Inhabited Json := ⟨.null⟩

namespace Members

def ofList : List (String × Json) → Members
  | [] => nil
  | (key, value) :: ms => cons key value (ofList ms)

def toList : Members → List (String × Json)
  | nil => []
  | cons key value rest => (key, value) :: rest.toList

end Members

namespace Json

/-- An object with these members. -/
def record (members : List (String × Json)) : Json := object (.ofList members)

/-- An object with one member. -/
def tagged (key : String) (value : Json) : Json := record [(key, value)]

def nat (n : Nat) : Json := int n

/-! ### Text -/

/-- The escape of a control character by its code. -/
def controlEscape (c : Char) : List Char :=
  '\\' :: 'u' :: '0' :: '0' :: (if c.toNat < 0x10 then ['0'] else []) ++ Nat.toDigits 16 c.toNat

/-- One character inside quotes. -/
def escapeChar (c : Char) : List Char :=
  if c = '"' then ['\\', '"']
  else if c = '\\' then ['\\', '\\']
  else if c = '\n' then ['\\', 'n']
  else if c = '\r' then ['\\', 'r']
  else if c = '\t' then ['\\', 't']
  else if c = '\x08' then ['\\', 'b']
  else if c = '\x0c' then ['\\', 'f']
  else if c.toNat < 0x20 then controlEscape c
  else [c]

/-- A text within quotes. -/
def quoted (s : String) : List Char := '"' :: s.toList.flatMap escapeChar ++ ['"']

mutual

/-- The characters of a document. -/
def chars : Json → List Char
  | null => ['n', 'u', 'l', 'l']
  | bool true => ['t', 'r', 'u', 'e']
  | bool false => ['f', 'a', 'l', 's', 'e']
  | int n => (toString n).toList
  | fraction literal => literal.toList
  | string s => quoted s
  | array elements => '[' :: elementChars elements ++ [']']
  | object members => '\x7b' :: memberChars members ++ ['\x7d']
  | unreadable => ['n', 'u', 'l', 'l']

def elementChars : List Json → List Char
  | [] => []
  | [j] => j.chars
  | j :: js => j.chars ++ ',' :: elementChars js

def memberChars : Members → List Char
  | .nil => []
  | .cons key value .nil => quoted key ++ ':' :: value.chars
  | .cons key value rest => quoted key ++ ':' :: value.chars ++ ',' :: memberChars rest

end

/-- The text of a document. -/
def text (j : Json) : String := String.ofList j.chars

end Json

end ScriptLang.Wire
