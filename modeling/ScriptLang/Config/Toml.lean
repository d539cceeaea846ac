import ScriptLang.Decimal.Read

/-!
# Configuration text

A reader for the TOML language: lines of `key = value`, gathered in tables that headers name.  Of a
value only what settings can use is kept: texts, truth values, integers, and lists of values.  Each
reading function takes the text from some place on and gives what it read with the text that follows;
the first argument of some bounds the number of calls, for which the length of the text is enough.
-/

namespace ScriptLang.Toml

/-- How a table came to be. -/
inductive Origin where
  /-- Named by a header of its own. -/
  | header
  /-- Named on the way to another table. -/
  | passed
  /-- Named by a dotted key. -/
  | dotted
deriving DecidableEq, Repr

inductive Value where
  | string (s : String)
  | int (n : Int)
  | bool (b : Bool)
  | array (elements : List Value)
  /-- A value of any other kind: a float, a date or time, or a table within braces. -/
  | other
  | table (origin : Origin) (entries : List (String × Value))
  /-- Tables that headers in double brackets add to, the last one first. -/
  | tables (entries : List (List (String × Value)))

abbrev Entries := List (String × Value)

/-! ### Blanks and line ends -/

def isSpace (c : Char) : Bool := c == ' ' || c == '\t'

def skipSpace (cs : List Char) : List Char := cs.dropWhile isSpace

/-- Whether a character may stand in a comment or between quotes. -/
def isPrintable (c : Char) : Bool := c == '\t' || (' ' ≤ c && c != '\x7f')

/-- The text after a line break. -/
def newline? : List Char → Option (List Char)
  | '\n' :: cs => some cs
  | '\r' :: '\n' :: cs => some cs
  | _ => none

/-- The text after a comment, if there is one. -/
def skipComment : List Char → List Char
  | '#' :: cs => cs.dropWhile isPrintable
  | cs => cs

/-- The text after the end of a line, on which nothing but a comment may be left. -/
def lineEnd? (cs : List Char) : Option (List Char) :=
  match skipComment (skipSpace cs) with
  | [] => some []
  | cs => newline? cs

/-- Skip blanks, comments and line breaks. -/
def skipLines : (fuel : Nat) → List Char → List Char
  | 0, cs => cs
  | fuel + 1, cs =>
    match newline? (skipComment (skipSpace cs)) with
    | some cs => skipLines fuel cs
    | none => skipComment (skipSpace cs)

/-! ### Texts -/

/-- The character with a code point written in some number of hexadecimal digits. -/
def readCodePoint (digits : Nat) (cs : List Char) : Option (Char × List Char) := do
  let front := cs.take digits
  if front.length < digits then none
  else
    let n ← Decimal.readNat? 16 front
    if n.isValidChar then some (Char.ofNat n, cs.drop digits) else none

/-- What stands behind a backslash. -/
def readEscape : List Char → Option (Char × List Char)
  | 'b' :: cs => some ('\x08', cs)
  | 't' :: cs => some ('\t', cs)
  | 'n' :: cs => some ('\n', cs)
  | 'f' :: cs => some ('\x0c', cs)
  | 'r' :: cs => some ('\r', cs)
  | '"' :: cs => some ('"', cs)
  | '\\' :: cs => some ('\\', cs)
  | 'u' :: cs => readCodePoint 4 cs
  | 'U' :: cs => readCodePoint 8 cs
  | _ => none

/-- The rest of a text within double quotes. -/
def readBasic : (fuel : Nat) → List Char → Option (List Char × List Char)
  | _, '"' :: cs => some ([], cs)
  | 0, _ => none
  | fuel + 1, '\\' :: cs => do
    let (c, cs) ← readEscape cs
    let (s, cs) ← readBasic fuel cs
    return (c :: s, cs)
  | fuel + 1, c :: cs =>
    if isPrintable c then (readBasic fuel cs).map fun (s, cs) => (c :: s, cs) else none
  | _, [] => none

/-- The rest of a text within single quotes. -/
def readLiteral (cs : List Char) : Option (List Char × List Char) :=
  match cs.dropWhile fun c => isPrintable c && c != '\'' with
  | '\'' :: rest => some (cs.takeWhile fun c => isPrintable c && c != '\'', rest)
  | _ => none

/-- The quotes at the end of a text within three quotes: two more than needed may belong to it. -/
def closing? (quote : Char) (cs : List Char) : Option (List Char × List Char) :=
  let run := (cs.takeWhile (· == quote)).length
  if run < 3 then none
  else
    let extra := min (run - 3) 2
    some (List.replicate extra quote, cs.drop (extra + 3))

/-- The text after blanks and line breaks. -/
def skipBlankLines : (fuel : Nat) → List Char → List Char
  | 0, cs => cs
  | fuel + 1, cs =>
    match newline? (skipSpace cs) with
    | some cs => skipBlankLines fuel cs
    | none => skipSpace cs

/-- The text after a backslash that joins lines, and after the blanks behind it. -/
def joinedLines? (cs : List Char) : Option (List Char) :=
  (newline? (skipSpace cs)).map fun cs => skipBlankLines (cs.length + 1) cs

/-- The rest of a text of many lines; escapes mean something only between double quotes. -/
def readLong (quote : Char) : (fuel : Nat) → List Char → Option (List Char × List Char)
  | 0, _ => none
  | fuel + 1, cs =>
    match closing? quote cs with
    | some found => some found
    | none =>
      match newline? cs with
      | some rest => (readLong quote fuel rest).map fun (s, cs) => ('\n' :: s, cs)
      | none =>
        match cs with
        | [] => none
        | c :: rest =>
          if c == '\\' && quote == '"' then
            match joinedLines? rest with
            | some rest => readLong quote fuel rest
            | none => do
              let (c, rest) ← readEscape rest
              let (s, cs) ← readLong quote fuel rest
              return (c :: s, cs)
          else if isPrintable c then
            (readLong quote fuel rest).map fun (s, cs) => (c :: s, cs)
          else none

/-- A line break right behind the opening quotes says nothing. -/
def afterOpening (cs : List Char) : List Char := (newline? cs).getD cs

/-- A text with its quotes. -/
def readString (cs : List Char) : Option (String × List Char) :=
  let text (r : Option (List Char × List Char)) : Option (String × List Char) :=
    r.map fun (s, cs) => (String.ofList s, cs)
  match cs with
  | '"' :: '"' :: '"' :: cs => text (readLong '"' (cs.length + 1) (afterOpening cs))
  | '\'' :: '\'' :: '\'' :: cs => text (readLong '\'' (cs.length + 1) (afterOpening cs))
  | '"' :: cs => text (readBasic cs.length cs)
  | '\'' :: cs => text (readLiteral cs)
  | _ => none

/-! ### Keys -/

def isBareKeyChar (c : Char) : Bool := c.isAlphanum || c == '_' || c == '-'

/-- One part of a key. -/
def readKeyPart (cs : List Char) : Option (String × List Char) :=
  match cs with
  | '"' :: '"' :: '"' :: _ => none
  | '\'' :: '\'' :: '\'' :: _ => none
  | '"' :: _ => readString cs
  | '\'' :: _ => readString cs
  | _ =>
    let word := cs.takeWhile isBareKeyChar
    if word.isEmpty then none else some (String.ofList word, cs.dropWhile isBareKeyChar)

/-- The most parts that a key may have. -/
def maxParts : Nat := 79

/-- At most some number of parts of a key, between dots. -/
def readParts : (limit : Nat) → List Char → Option (List String × List Char)
  | 0, _ => none
  | limit + 1, cs => do
    let (part, rest) ← readKeyPart cs
    match skipSpace rest with
    | '.' :: more => do
      let (parts, rest) ← readParts limit (skipSpace more)
      return (part :: parts, rest)
    | _ => return ([part], rest)

/-- A key. -/
def readKey (cs : List Char) : Option (List String × List Char) := readParts maxParts cs

/-! ### Numbers, dates and times -/

/-- Digits of a base with single underscores between them. -/
def readDigits (base : Nat) : List Char → List Char × List Char
  | [] => ([], [])
  | '_' :: c :: cs =>
    if (Decimal.digitValue? base c).isSome then
      let (ds, rest) := readDigits base cs
      (c :: ds, rest)
    else ([], '_' :: c :: cs)
  | c :: cs =>
    if (Decimal.digitValue? base c).isSome then
      let (ds, rest) := readDigits base cs
      (c :: ds, rest)
    else ([], c :: cs)

/-- Digits of a base, the first of them without an underscore in front. -/
def readDigitRun (base : Nat) (cs : List Char) : Option (List Char × List Char) :=
  match cs with
  | c :: _ =>
    if (Decimal.digitValue? base c).isSome then some (readDigits base cs) else none
  | [] => none

/-- An integer of 64 bits. -/
def intValue? (n : Int) : Option Value :=
  if Int64.minValue.toInt ≤ n ∧ n ≤ Int64.maxValue.toInt then some (.int n) else none

/-- An integer of a base other than ten. -/
def readBased (base : Nat) (cs : List Char) : Option (Value × List Char) := do
  let (ds, rest) ← readDigitRun base cs
  let v ← intValue? (← Decimal.readNat? base ds)
  return (v, rest)

def readSign : List Char → Bool × List Char
  | '-' :: cs => (true, cs)
  | '+' :: cs => (false, cs)
  | cs => (false, cs)

/-- Decimal digits without a needless zero in front. -/
def readWhole : List Char → Option (List Char × List Char)
  | '0' :: cs => some (['0'], cs)
  | cs => readDigitRun 10 cs

/-- An exponent. -/
def readExponent? : List Char → Option (List Char × List Char)
  | c :: cs =>
    if c == 'e' || c == 'E' then do
      let (negative, cs) := readSign cs
      let (ds, rest) ← readDigitRun 10 cs
      return ('e' :: (if negative then ['-'] else []) ++ ds, rest)
    else none
  | [] => none

/-- What makes a number a float: a fraction, an exponent, or both. -/
def readFloatPart : List Char → Option (List Char × List Char)
  | '.' :: cs => do
    let (ds, rest) ← readDigitRun 10 cs
    match readExponent? rest with
    | some (e, rest) => return ('.' :: ds ++ e, rest)
    | none => return ('.' :: ds, rest)
  | cs => readExponent? cs

/-- A decimal number with an optional sign.  A float must not exceed the doubles, though it may lie
below them. -/
def readNumber (cs : List Char) : Option (Value × List Char) := do
  let (negative, cs) := readSign cs
  match cs with
  | 'i' :: 'n' :: 'f' :: rest => return (.other, rest)
  | 'n' :: 'a' :: 'n' :: rest => return (.other, rest)
  | cs =>
    let (whole, rest) ← readWhole cs
    match readFloatPart rest with
    | some (more, rest) =>
      let finite := ((Decimal.readFloat? (whole ++ more)).map Float.isFinite).getD false
      if finite || negative then return (.other, rest) else none
    | none =>
      let n ← Decimal.readNat? 10 whole
      let v ← intValue? (if negative then -(n : Int) else n)
      return (v, rest)

/-- A number of exactly some digits, within bounds. -/
def readField (digits least greatest : Nat) (cs : List Char) : Option (Nat × List Char) := do
  let front := cs.take digits
  if front.length < digits || !front.all Char.isDigit then none
  else
    let n ← Decimal.readNat? 10 front
    if least ≤ n ∧ n ≤ greatest then some (n, cs.drop digits) else none

/-- The text after a character that must be there. -/
def after? (c : Char) : List Char → Option (List Char)
  | d :: cs => if c = d then some cs else none
  | [] => none

def isLeapYear (y : Nat) : Bool := (y % 4 == 0 && y % 100 != 0) || y % 400 == 0

def daysInMonth (y m : Nat) : Nat :=
  if m = 2 then if isLeapYear y then 29 else 28
  else if m = 4 ∨ m = 6 ∨ m = 9 ∨ m = 11 then 30
  else 31

/-- The text after a date. -/
def skipDate? (cs : List Char) : Option (List Char) := do
  let (y, cs) ← readField 4 0 9999 cs
  let cs ← after? '-' cs
  let (m, cs) ← readField 2 1 12 cs
  let cs ← after? '-' cs
  let (_, cs) ← readField 2 1 (daysInMonth y m) cs
  return cs

/-- The text after a time of the day. -/
def skipTime? (cs : List Char) : Option (List Char) := do
  let (_, cs) ← readField 2 0 23 cs
  let cs ← after? ':' cs
  let (_, cs) ← readField 2 0 59 cs
  let cs ← after? ':' cs
  let (_, cs) ← readField 2 0 60 cs
  match cs with
  | '.' :: c :: rest => if c.isDigit then return rest.dropWhile Char.isDigit else return cs
  | cs => return cs

/-- The text after the distance from universal time, if it is given. -/
def skipOffset (cs : List Char) : List Char :=
  let distance (cs : List Char) : Option (List Char) := do
    let (_, cs) ← readField 2 0 23 cs
    let cs ← after? ':' cs
    let (_, cs) ← readField 2 0 59 cs
    return cs
  match cs with
  | 'Z' :: rest => rest
  | 'z' :: rest => rest
  | '+' :: rest => (distance rest).getD cs
  | '-' :: rest => (distance rest).getD cs
  | cs => cs

/-- The text after a date, a time, or both. -/
def skipMoment? (cs : List Char) : Option (List Char) :=
  match skipDate? cs with
  | none => skipTime? cs
  | some rest =>
    match rest with
    | c :: more =>
      if c == 'T' || c == 't' || c == ' ' then
        match skipTime? more with
        | some rest => some (skipOffset rest)
        | none => some rest
      else some rest
    | [] => some []

/-- A number, a date or a time. -/
def readNumeric (cs : List Char) : Option (Value × List Char) :=
  match skipMoment? cs with
  | some rest => some (.other, rest)
  | none =>
    match cs with
    | '0' :: 'x' :: cs => readBased 16 cs
    | '0' :: 'o' :: cs => readBased 8 cs
    | '0' :: 'b' :: cs => readBased 2 cs
    | cs => readNumber cs

/-- The text after a word. -/
def afterWord (word : List Char) (cs : List Char) : Option (List Char) :=
  if word.isPrefixOf cs then some (cs.drop word.length) else none

/-! ### Tables -/

/-- The entries of a table that may be entered, and how to put changed entries in its place.  A dotted
key must not enter a table that has a header. -/
def enter? (dotted : Bool) : Option Value → Option (Entries × (Entries → Value))
  | none => some ([], .table (if dotted then .dotted else .passed))
  | some (.table origin entries) =>
    if dotted && origin == .header then none else some (entries, .table origin)
  | some (.tables (last :: others)) => some (last, fun entries => .tables (entries :: others))
  | some _ => none

/-- Put a value under a key, in the place of an earlier one. -/
def put (key : String) (v : Value) : Entries → Entries
  | [] => [(key, v)]
  | (k, w) :: es => if k = key then (k, v) :: es else (k, w) :: put key v es

/-- Change the table at the end of a path. -/
def change (dotted : Bool) (f : Entries → Option Entries) : List String → Entries → Option Entries
  | [], es => f es
  | key :: keys, es => do
    let (inner, rebuild) ← enter? dotted (es.lookup key)
    return put key (rebuild (← change dotted f keys inner)) es

/-- Put a value under a key that must be new. -/
def insertNew (key : String) (v : Value) (es : Entries) : Option Entries :=
  if (es.lookup key).isSome then none else some (es ++ [(key, v)])

/-- Whether a table was named by a dotted key. -/
def isDotted : Option Value → Bool
  | some (.table .dotted _) => true
  | _ => false

/-- Put a value under a dotted key of a table. -/
def assign (keys : List String) (v : Value) (es : Entries) : Option Entries :=
  match keys.getLast?, keys.dropLast with
  | none, _ => none
  | some key, [] => insertNew key v es
  | some key, first :: path =>
    let parents := (first :: path).dropLast
    let parent := (first :: path).getLast (List.cons_ne_nil _ _)
    change true (fun es => do
      let existing := es.lookup parent
      let (inner, rebuild) ← enter? true existing
      if existing.isSome && !isDotted existing then none
      else return put parent (rebuild (← insertNew key v inner)) es) parents es

/-- Begin the table that a header names. -/
def openTable (keys : List String) (es : Entries) : Option Entries := do
  let key ← keys.getLast?
  change false (fun es =>
    match es.lookup key with
    | none => some (es ++ [(key, .table .header [])])
    | some (.table .passed inner) => some (put key (.table .header inner) es)
    | some _ => none) keys.dropLast es

/-- Begin another table of the list that a header in double brackets names. -/
def openElement (keys : List String) (es : Entries) : Option Entries := do
  let key ← keys.getLast?
  change false (fun es =>
    match es.lookup key with
    | none => some (es ++ [(key, .tables [[]])])
    | some (.tables others) => some (put key (.tables ([] :: others)) es)
    | some _ => none) keys.dropLast es

/-! ### Values -/

/-- How deep lists and tables within braces may nest. -/
def maxDepth : Nat := 79

mutual

/-- A value within which values may nest to some depth. -/
def readValue : (fuel depth : Nat) → List Char → Option (Value × List Char)
  | 0, _, _ => none
  | fuel + 1, depth, cs =>
    match cs with
    | '"' :: _ => (readString cs).map fun (s, cs) => (.string s, cs)
    | '\'' :: _ => (readString cs).map fun (s, cs) => (.string s, cs)
    | '[' :: rest =>
      match depth with
      | 0 => none
      | depth + 1 =>
        (readElements fuel depth (skipLines rest.length rest)).map fun (vs, cs) => (.array vs, cs)
    | '\x7b' :: rest =>
      match depth, skipSpace rest with
      | 0, _ => none
      | _, '\x7d' :: rest => some (.other, rest)
      | depth + 1, rest => (readPairs fuel depth rest []).map fun (_, cs) => (.other, cs)
    | 't' :: rest => (afterWord ['r', 'u', 'e'] rest).map fun cs => (.bool true, cs)
    | 'f' :: rest => (afterWord ['a', 'l', 's', 'e'] rest).map fun cs => (.bool false, cs)
    | cs => readNumeric cs

/-- The elements of a list up to the closing bracket; a comma may stand before it. -/
def readElements : (fuel depth : Nat) → List Char → Option (List Value × List Char)
  | 0, _, _ => none
  | _ + 1, _, ']' :: cs => some ([], cs)
  | fuel + 1, depth, cs =>
    match readValue fuel depth cs with
    | none => none
    | some (v, cs) =>
      match skipLines cs.length cs with
      | ',' :: cs =>
        (readElements fuel depth (skipLines cs.length cs)).map fun (vs, cs) => (v :: vs, cs)
      | ']' :: cs => some ([v], cs)
      | _ => none

/-- The pairs of a table within braces, up to the closing brace. -/
def readPairs : (fuel depth : Nat) → List Char → Entries → Option (Entries × List Char)
  | 0, _, _, _ => none
  | fuel + 1, depth, cs, es =>
    match readKey (skipSpace cs) with
    | none => none
    | some (keys, cs) =>
      match skipSpace cs with
      | '=' :: cs =>
        match readValue fuel depth (skipSpace cs) with
        | none => none
        | some (v, cs) =>
          match assign keys v es, skipSpace cs with
          | some es, ',' :: cs => readPairs fuel depth cs es
          | some es, '\x7d' :: cs => some (es, cs)
          | _, _ => none
      | _ => none

end

/-! ### Documents -/

/-- The entries read so far, and the path of the table that pairs belong to. -/
structure Document where
  entries : Entries := []
  current : List String := []

/-- Read the line that begins with a header's first bracket. -/
def readHeader (d : Document) (cs : List Char) : Option (Document × List Char) := do
  let (double, cs) := match cs with
    | '[' :: cs => (true, cs)
    | cs => (false, cs)
  let (keys, cs) ← readKey (skipSpace cs)
  let cs ← after? ']' (skipSpace cs)
  let cs ← if double then after? ']' cs else some cs
  let entries ← if double then openElement keys d.entries else openTable keys d.entries
  return ({ entries, current := keys }, ← lineEnd? cs)

/-- Read a line `key = value`, whose value may take more lines. -/
def readPair (d : Document) (cs : List Char) : Option (Document × List Char) := do
  let (keys, cs) ← readKey cs
  let cs ← after? '=' (skipSpace cs)
  let (v, cs) ← readValue (2 * cs.length + 2) maxDepth (skipSpace cs)
  let entries ← change false (assign keys v) d.current d.entries
  return ({ d with entries }, ← lineEnd? cs)

/-- Read lines until the text ends. -/
def readDocument : (fuel : Nat) → Document → List Char → Option Entries
  | 0, _, _ => none
  | fuel + 1, d, cs =>
    match skipLines cs.length cs with
    | [] => some d.entries
    | '[' :: cs => do
      let (d, cs) ← readHeader d cs
      readDocument fuel d cs
    | cs => do
      let (d, cs) ← readPair d cs
      readDocument fuel d cs

/-- The entries of a text. -/
def ofString? (s : String) : Option Entries :=
  let cs := match s.toList with
    | '\ufeff' :: cs => cs
    | cs => cs
  readDocument (cs.length + 1) {} cs

end ScriptLang.Toml
