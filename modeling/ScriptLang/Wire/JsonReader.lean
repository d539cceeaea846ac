import ScriptLang.Decimal.Read
import ScriptLang.Wire.Json

/-!
# Reading documents

A document is read from the characters of its text.  Each function takes the text from some place on
and gives what it read there with the text that follows.  The first argument bounds the depth of
calls; twice the length of the text is enough, since of two calls one takes a character.
-/

namespace ScriptLang.Wire.Json

/-- Whether a character may stand between the parts of a document. -/
def isSpace (c : Char) : Bool := c == ' ' || c == '\n' || c == '\t' || c == '\r'

def skipSpace (cs : List Char) : List Char := cs.dropWhile isSpace

/-! ### Texts -/

/-- Four hexadecimal digits. -/
def readUnit : List Char → Option (Nat × List Char)
  | a :: b :: c :: d :: cs => (Decimal.readNat? 16 [a, b, c, d]).map fun n => (n, cs)
  | _ => none

def isHighSurrogate (n : Nat) : Bool := 0xd800 ≤ n && n < 0xdc00

def isLowSurrogate (n : Nat) : Bool := 0xdc00 ≤ n && n < 0xe000

/-- The character that a pair of surrogates stands for. -/
def joinSurrogates (high low : Nat) : Char :=
  Char.ofNat (0x10000 + (high - 0xd800) * 0x400 + (low - 0xdc00))

/-- The character written by a letter behind a backslash. -/
def simpleEscape? : Char → Option Char
  | '"' => some '"'
  | '\\' => some '\\'
  | '/' => some '/'
  | 'b' => some '\x08'
  | 'f' => some '\x0c'
  | 'n' => some '\n'
  | 'r' => some '\r'
  | 't' => some '\t'
  | _ => none

/-- One character inside quotes, none of it if it is half of a surrogate pair. -/
def readChar : List Char → Option (Option Char × List Char)
  | '\\' :: 'u' :: cs =>
    match readUnit cs with
    | none => none
    | some (n, rest) =>
      if isHighSurrogate n then
        match rest with
        | '\\' :: 'u' :: more =>
          match readUnit more with
          | none => none
          | some (m, after) =>
            if isLowSurrogate m then some (some (joinSurrogates n m), after) else some (none, rest)
        | _ => some (none, rest)
      else if isLowSurrogate n then some (none, rest)
      else some (some (Char.ofNat n), rest)
  | '\\' :: c :: cs => (simpleEscape? c).map fun d => (some d, cs)
  | c :: cs => if c.toNat < 0x20 || c == '"' then none else some (some c, cs)
  | [] => none

/-- The rest of a text up to its closing quote; no text if a surrogate stands alone in it. -/
def readText : (fuel : Nat) → List Char → Option (Option (List Char) × List Char)
  | _, '"' :: cs => some (some [], cs)
  | 0, _ => none
  | fuel + 1, cs =>
    match readChar cs with
    | none => none
    | some (c, cs) =>
      match readText fuel cs with
      | none => none
      | some (s, cs) =>
        let joined := do return (← c) :: (← s)
        some (joined, cs)

/-! ### Numbers -/

/-- Digits of which there is at least one, without a needless zero in front. -/
def readWhole : List Char → Option (List Char × List Char)
  | '0' :: cs => if (cs.head?.map Char.isDigit).getD false then none else some (['0'], cs)
  | cs =>
    let digits := cs.takeWhile Char.isDigit
    if digits.isEmpty then none else some (digits, cs.dropWhile Char.isDigit)

/-- A point and at least one digit, or nothing. -/
def readFraction : List Char → Option (List Char × List Char)
  | '.' :: cs =>
    let digits := cs.takeWhile Char.isDigit
    if digits.isEmpty then none else some ('.' :: digits, cs.dropWhile Char.isDigit)
  | cs => some ([], cs)

/-- An exponent, or nothing. -/
def readExponent : List Char → Option (List Char × List Char)
  | [] => some ([], [])
  | e :: cs =>
    if e == 'e' || e == 'E' then
      let (sign, cs) := match cs with
        | '-' :: cs => (['-'], cs)
        | '+' :: cs => (['+'], cs)
        | cs => ([], cs)
      let digits := cs.takeWhile Char.isDigit
      if digits.isEmpty then none
      else some (e :: (sign ++ digits), cs.dropWhile Char.isDigit)
    else some ([], e :: cs)

/-- The number that its parts make up. -/
def numberOf (negative : Bool) (whole more : List Char) : Json :=
  let magnitude := (Decimal.readNat? 10 whole).getD 0
  let literal := (if negative then ['-'] else []) ++ whole ++ more
  let finite := ((Decimal.readFloat? literal).map Float.isFinite).getD false
  if !finite then .unreadable
  else if more.isEmpty && !(negative && magnitude == 0) then
    .int (if negative then -(magnitude : Int) else magnitude)
  else .fraction (String.ofList literal)

/-- A number without its sign. -/
def readMagnitude (negative : Bool) (cs : List Char) : Option (Json × List Char) := do
  let (whole, cs) ← readWhole cs
  let (places, cs) ← readFraction cs
  let (exponent, cs) ← readExponent cs
  return (numberOf negative whole (places ++ exponent), cs)

def readNumber : List Char → Option (Json × List Char)
  | '-' :: cs => readMagnitude true cs
  | cs => readMagnitude false cs

/-! ### Documents -/

/-- A text as a document. -/
def ofText : Option (List Char) → Json
  | some s => .string (String.ofList s)
  | none => .unreadable

/-- The rest of a text, if it begins with a word. -/
def afterWord (word : List Char) (cs : List Char) : Option (List Char) :=
  if word.isPrefixOf cs then some (cs.drop word.length) else none

/-- The end of a list, or the place of its next part. -/
inductive Continuation where
  | closed (rest : List Char)
  | next (rest : List Char)

/-- A comma or the bracket that closes a list. -/
def readContinuation (close : Char) (cs : List Char) : Option Continuation :=
  match skipSpace cs with
  | c :: cs => if c = ',' then some (.next cs) else if c = close then some (.closed cs) else none
  | [] => none

/-- An object of which the keys have been read. -/
def objectOf (members : List (Option (List Char) × Json)) : Json :=
  match members.mapM fun m => m.1.map fun key => (String.ofList key, m.2) with
  | some members => .record members
  | none => .unreadable

mutual

/-- A document, behind any spaces. -/
def readValue : (fuel : Nat) → List Char → Option (Json × List Char)
  | 0, _ => none
  | fuel + 1, cs =>
    match skipSpace cs with
    | '"' :: cs => (readText fuel cs).map fun (s, cs) => (ofText s, cs)
    | '[' :: cs =>
      match skipSpace cs with
      | ']' :: cs => some (.array [], cs)
      | cs => (readElements fuel cs).map fun (js, cs) => (.array js, cs)
    | '\x7b' :: cs =>
      match skipSpace cs with
      | '\x7d' :: cs => some (.object .nil, cs)
      | cs => (readMembers fuel cs).map fun (ms, cs) => (objectOf ms, cs)
    | 'n' :: cs => (afterWord ['u', 'l', 'l'] cs).map fun cs => (.null, cs)
    | 't' :: cs => (afterWord ['r', 'u', 'e'] cs).map fun cs => (.bool true, cs)
    | 'f' :: cs => (afterWord ['a', 'l', 's', 'e'] cs).map fun cs => (.bool false, cs)
    | cs => readNumber cs

/-- Elements between commas, up to the closing bracket. -/
def readElements : (fuel : Nat) → List Char → Option (List Json × List Char)
  | 0, _ => none
  | fuel + 1, cs =>
    match readValue fuel cs with
    | none => none
    | some (j, cs) =>
      match readContinuation ']' cs with
      | none => none
      | some (.closed cs) => some ([j], cs)
      | some (.next cs) => (readElements fuel cs).map fun (js, cs) => (j :: js, cs)

/-- Members between commas, up to the closing brace. -/
def readMembers : (fuel : Nat) → List Char → Option (List (Option (List Char) × Json) × List Char)
  | 0, _ => none
  | fuel + 1, cs =>
    match skipSpace cs with
    | '"' :: cs =>
      match readText fuel cs with
      | none => none
      | some (key, cs) =>
        match skipSpace cs with
        | ':' :: cs =>
          match readValue fuel cs with
          | none => none
          | some (value, cs) =>
            match readContinuation '\x7d' cs with
            | none => none
            | some (.closed cs) => some ([(key, value)], cs)
            | some (.next cs) => (readMembers fuel cs).map fun (ms, cs) => ((key, value) :: ms, cs)
        | _ => none
    | _ => none

end

/-- The document that a text is, with nothing but spaces around it. -/
def ofString? (s : String) : Option Json :=
  match readValue (2 * s.toList.length + 2) s.toList with
  | some (j, rest) => if (skipSpace rest).isEmpty then some j else none
  | none => none

end ScriptLang.Wire.Json
