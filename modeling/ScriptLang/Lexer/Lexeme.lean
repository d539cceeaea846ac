import ScriptLang.Lexer.Profile
import ScriptLang.Text.CharClass

/-!
# Lexemes

`Lexeme.scan` finds the lexeme that a nonempty text begins with.  Every lexeme covers at least one
byte (`Lexeme.scan_width_pos`), so reading lexemes makes progress.
-/

namespace ScriptLang

/-- A stretch of text with its meaning, before its place is known. -/
structure Lexeme where
  kind : TokenKind
  code : Nat
  text : String
  /-- The number of bytes covered. -/
  width : Nat
  terminated : Bool := true
  /-- The phases of the directive that the lexeme begins. -/
  phases : List DirectivePhase := []

namespace Lexeme

open Text

/-- A lexeme that covers exactly its own text. -/
def plain (kind : TokenKind) (code : Nat) (cs : List Char) : Lexeme :=
  ⟨kind, code, String.ofList cs, byteLength cs, true, []⟩

/-! ### Operators and directives -/

/-- Whether a keyword is written in signs rather than letters. -/
def isOperatorWord (word : String) : Bool :=
  match word.toList with
  | [] => false
  | c :: _ => !isWordChar c

/-- The longest operator keyword that a text begins with, and its code; of equal ones the last. -/
def longestOperator (cs : List Char) :
    (code : Nat) → (found : Option (Nat × List Char)) → List String → Option (Nat × List Char)
  | _, found, [] => found
  | code, found, word :: words =>
    let better := isOperatorWord word && word.toList.isPrefixOf cs &&
      found.all fun f => byteLength f.2 ≤ byteLength word.toList
    longestOperator cs (code + 1) (if better then some (code, word.toList) else found) words

/-- An operator keyword, or else one character by itself. -/
def scanOperator (p : Profile) (c : Char) (cs : List Char) : Lexeme :=
  match longestOperator (c :: cs) 0 none p.keywords with
  | some (code, word) => plain .keyword code word
  | none => plain .symbol c.toNat [c]

/-- The index and the phases of the directive with a name. -/
def findDirective (name : String) : (index : Nat) → List Directive → Option (Nat × Directive)
  | _, [] => none
  | index, d :: ds => if d.name = name then some (index, d) else findDirective name (index + 1) ds

/-- A directive's name behind the trigger, or else an operator. -/
def scanDirective (p : Profile) (trigger : Char) (cs : List Char) : Lexeme :=
  let name := cs.takeWhile isWordChar
  match findDirective (String.ofList name) 0 p.directives with
  | some (index, d) =>
    if name.isEmpty then scanOperator p trigger cs
    else
      { kind := .directive, code := index, text := String.ofList name
        width := byteLength (trigger :: name), phases := d.phases }
  | none => scanOperator p trigger cs

/-! ### Numbers and strings -/

/-- Digits behind a two-character mark such as `0x`; the mark alone is no number. -/
def scanRadix (form : Notation) (mark : List Char) (digits : List Char) : Lexeme :=
  if digits.isEmpty then plain .unknown 0 mark
  else
    { kind := .number, code := form.code, text := String.ofList digits
      width := byteLength mark + byteLength digits }

/-- Decimal digits, with a fraction if a point and a digit follow. -/
def scanDecimal (c : Char) (cs : List Char) : Lexeme :=
  let whole := c :: cs.takeWhile Char.isDigit
  match cs.dropWhile Char.isDigit with
  | '.' :: d :: rest =>
    if d.isDigit then
      plain .number Notation.decimal.code (whole ++ '.' :: d :: rest.takeWhile Char.isDigit)
    else plain .number Notation.integer.code whole
  | _ => plain .number Notation.integer.code whole

/-- A number that begins with the digit `c`. -/
def scanNumber (c : Char) (cs : List Char) : Lexeme :=
  match c, cs with
  | '0', m :: rest =>
    if m = 'x' ∨ m = 'X' then scanRadix .hex [c, m] (rest.takeWhile isHexDigit)
    else if m = 'b' ∨ m = 'B' then
      scanRadix .binary [c, m] (rest.takeWhile fun d => d == '0' || d == '1')
    else scanDecimal c cs
  | c, cs => scanDecimal c cs

/-- The character that a backslash before `c` stands for. -/
def unescape : Char → Char
  | 'n' => '\n'
  | 't' => '\t'
  | 'r' => '\r'
  | '0' => '\x00'
  | c => c

/-- The inside of a string up to its quote: the characters meant, the bytes covered (the quote
included), and whether there is a closing quote. -/
def scanInside (quote : Char) : List Char → List Char × Nat × Bool
  | [] => ([], 0, false)
  | c :: cs =>
    if c = quote then ([], c.utf8Size, true)
    else if c = '\\' then
      match cs with
      | [] => ([], c.utf8Size, false)
      | e :: cs =>
        let (inside, width, closed) := scanInside quote cs
        (unescape e :: inside, c.utf8Size + e.utf8Size + width, closed)
    else
      let (inside, width, closed) := scanInside quote cs
      (c :: inside, c.utf8Size + width, closed)

/-- A string that begins with the quote. -/
def scanString (quote : Char) (cs : List Char) : Lexeme :=
  let (inside, width, closed) := scanInside quote cs
  { kind := .quotedString, code := quote.toNat, text := String.ofList inside
    width := quote.utf8Size + width, terminated := closed }

/-! ### Comments, blanks and words -/

/-- The text before the first `*/`, if there is one. -/
def blockBody : List Char → Option (List Char)
  | '*' :: '/' :: _ => some []
  | c :: cs => (blockBody cs).map (c :: ·)
  | [] => none

/-- A comment to the end of the line, behind `//`. -/
def scanLineComment (cs : List Char) : Lexeme :=
  let body := cs.takeWhile (· != '\n')
  { kind := .comment, code := CommentStyle.line.code, text := String.ofList body
    width := 2 + byteLength body }

/-- A comment to the next `*/`, behind `/*`; without one it takes all that is left. -/
def scanBlockComment (cs : List Char) : Lexeme :=
  match blockBody cs with
  | some body =>
    { kind := .comment, code := CommentStyle.block.code, text := String.ofList body
      width := byteLength body + 4 }
  | none =>
    { kind := .comment, code := CommentStyle.block.code, text := String.ofList cs
      width := 2 + byteLength cs, terminated := false }

/-- Blanks up to the end of the line; a carriage return stands alone. -/
def scanBlanks (c : Char) (cs : List Char) : Lexeme :=
  if c = '\r' then plain .whitespace 0 [c]
  else plain .whitespace 0 (c :: cs.takeWhile fun d => isBlank d && d != '\n' && d != '\r')

/-- A keyword or an identifier. -/
def scanWord (p : Profile) (c : Char) (cs : List Char) : Lexeme :=
  let word := c :: cs.takeWhile isWordChar
  match p.keywordCode? (String.ofList word) with
  | some code => plain .keyword code word
  | none => plain .identifier 0 word

/-- The lexeme that the text `c :: cs` begins with, ends of lines and comments apart. -/
def scanOther (p : Profile) (c : Char) (cs : List Char) : Lexeme :=
  if isBlank c then scanBlanks c cs
  else if p.trigger = some c then scanDirective p c cs
  else if c.isDigit then scanNumber c cs
  else if isQuote c then scanString c cs
  else if isWordStart c then scanWord p c cs
  else scanOperator p c cs

/-- The lexeme that the text `c :: cs` begins with. -/
def scan (p : Profile) (c : Char) (cs : List Char) : Lexeme :=
  match c, cs with
  | '\n', _ => plain .endOfLine 0 ['\n']
  | '\r', '\n' :: _ => { plain .endOfLine 0 ['\n'] with width := 2 }
  | '/', '/' :: rest => scanLineComment rest
  | '/', '*' :: rest => scanBlockComment rest
  | c, cs => scanOther p c cs

/-! ### Progress -/

theorem plain_width_pos (kind : TokenKind) (code : Nat) (c : Char) (cs : List Char) :
    0 < (plain kind code (c :: cs)).width := by
  have := c.utf8Size_pos
  simp only [plain, byteLength_cons]
  omega

theorem longestOperator_length_pos {cs : List Char} {words : List String} {code k : Nat}
    {found : Option (Nat × List Char)} {w : List Char} (hfound : ∀ f ∈ found, 0 < byteLength f.2)
    (h : longestOperator cs code found words = some (k, w)) : 0 < byteLength w := by
  induction words generalizing code found with
  | nil => exact hfound (k, w) (by simpa [longestOperator] using h)
  | cons word words ih =>
    refine ih ?_ h
    intro f hf
    split at hf
    · next better =>
      obtain rfl : f = (code, word.toList) := by simpa using hf.symm
      simp only [Bool.and_eq_true] at better
      have hop := better.1.1
      unfold isOperatorWord at hop
      split at hop
      · simp at hop
      · next c _ hw =>
        have := c.utf8Size_pos
        simp only [hw, byteLength_cons]
        omega
    · exact hfound f hf

theorem scanOperator_width_pos (p : Profile) (c : Char) (cs : List Char) :
    0 < (scanOperator p c cs).width := by
  unfold scanOperator
  split
  · next h => exact longestOperator_length_pos (by simp) h
  · exact plain_width_pos ..

theorem scanDirective_width_pos (p : Profile) (c : Char) (cs : List Char) :
    0 < (scanDirective p c cs).width := by
  have := c.utf8Size_pos
  unfold scanDirective
  simp only
  split
  · split
    · exact scanOperator_width_pos ..
    · simp only [byteLength_cons]
      omega
  · exact scanOperator_width_pos ..

theorem scanDecimal_width_pos (c : Char) (cs : List Char) : 0 < (scanDecimal c cs).width := by
  unfold scanDecimal
  simp only
  split
  · split <;> exact plain_width_pos ..
  · exact plain_width_pos ..

theorem scanRadix_width_pos (form : Notation) (c : Char) (mark digits : List Char) :
    0 < (scanRadix form (c :: mark) digits).width := by
  have := c.utf8Size_pos
  unfold scanRadix
  split
  · exact plain_width_pos ..
  · simp only [byteLength_cons]
    omega

theorem scanNumber_width_pos (c : Char) (cs : List Char) : 0 < (scanNumber c cs).width := by
  unfold scanNumber
  split
  · split
    · exact scanRadix_width_pos ..
    · split
      · exact scanRadix_width_pos ..
      · exact scanDecimal_width_pos ..
  · exact scanDecimal_width_pos ..

theorem scanWord_width_pos (p : Profile) (c : Char) (cs : List Char) :
    0 < (scanWord p c cs).width := by
  unfold scanWord
  simp only
  split <;> exact plain_width_pos ..

theorem scanBlanks_width_pos (c : Char) (cs : List Char) : 0 < (scanBlanks c cs).width := by
  unfold scanBlanks
  split <;> exact plain_width_pos ..

theorem scanString_width_pos (c : Char) (cs : List Char) : 0 < (scanString c cs).width := by
  have := c.utf8Size_pos
  simp only [scanString]
  omega

theorem scanOther_width_pos (p : Profile) (c : Char) (cs : List Char) :
    0 < (scanOther p c cs).width := by
  unfold scanOther
  split
  · exact scanBlanks_width_pos ..
  · split
    · exact scanDirective_width_pos ..
    · split
      · exact scanNumber_width_pos ..
      · split
        · exact scanString_width_pos ..
        · split
          · exact scanWord_width_pos ..
          · exact scanOperator_width_pos ..

/-- Every lexeme covers at least one byte. -/
theorem scan_width_pos (p : Profile) (c : Char) (cs : List Char) : 0 < (scan p c cs).width := by
  unfold scan
  split
  · exact plain_width_pos ..
  · decide
  · simp only [scanLineComment]
    omega
  · unfold scanBlockComment
    split <;> simp only <;> omega
  · exact scanOther_width_pos ..

end Lexeme

end ScriptLang
