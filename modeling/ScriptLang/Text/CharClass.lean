import ScriptLang.Text.AlphabeticTable
import ScriptLang.Text.NumericTable

/-!
# Classes of characters

The three classes that source text is cut by: blanks (the Unicode property `White_Space`), letters
(`Alphabetic`) and numeric characters (the general categories Nd, Nl and No).  ASCII is decided by
comparison, everything else by the tables.
-/

namespace ScriptLang.Text

/-- Whether a character lies in one of the closed ranges. -/
def inRanges (ranges : List (Nat × Nat)) (c : Char) : Bool :=
  ranges.any fun r => r.1 ≤ c.toNat && c.toNat ≤ r.2

/-- Closed ranges of the blank code points from U+0080 on. -/
def blankRanges : List (Nat × Nat) :=
  [(0x85, 0x85), (0xa0, 0xa0), (0x1680, 0x1680), (0x2000, 0x200a), (0x2028, 0x2029),
   (0x202f, 0x202f), (0x205f, 0x205f), (0x3000, 0x3000)]

/-- Whether a character is white space. -/
def isBlank (c : Char) : Bool :=
  if c.toNat < 128 then c == ' ' || ('\t' ≤ c && c ≤ '\r') else inRanges blankRanges c

/-- Whether a character is a letter. -/
def isLetter (c : Char) : Bool :=
  if c.toNat < 128 then c.isAlpha else inRanges alphabeticRanges c

/-- Whether a character is a decimal digit, a letter number or another numeric sign. -/
def isNumeric (c : Char) : Bool :=
  if c.toNat < 128 then c.isDigit else inRanges numericRanges c

/-- Whether a character can begin a word. -/
def isWordStart (c : Char) : Bool := isLetter c || c == '_'

/-- Whether a character can continue a word. -/
def isWordChar (c : Char) : Bool := isLetter c || isNumeric c || c == '_'

/-- Whether a character is an ASCII hexadecimal digit. -/
def isHexDigit (c : Char) : Bool :=
  c.isDigit || ('a' ≤ c && c ≤ 'f') || ('A' ≤ c && c ≤ 'F')

theorem isWordChar_of_isWordStart {c : Char} (h : isWordStart c = true) : isWordChar c = true := by
  simp only [isWordStart, isWordChar, Bool.or_eq_true] at h ⊢
  rcases h with h | h
  · exact Or.inl (Or.inl h)
  · exact Or.inr h

end ScriptLang.Text
