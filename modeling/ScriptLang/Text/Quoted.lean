import ScriptLang.Text.CharClass
import ScriptLang.Text.HiddenTable

/-!
# Quoted texts

A text between double quotes in which every character can be seen: the quote and the backslash are
written behind a backslash, the common controls by their letters, and whatever does not show in
print, or would attach to the character before it, by its code point.
-/

namespace ScriptLang.Text

/-- Whether a character shows in print as itself. -/
def isVisible (c : Char) : Bool :=
  if c.toNat < 128 then ' ' ≤ c && c ≤ '~'
  else !inRanges hiddenRanges c && !inRanges attachedRanges c

/-- A number in lower-case hexadecimal digits. -/
def hexText (n : Nat) : String :=
  String.ofList (Nat.toDigits 16 n)

/-- One character as it stands inside the quotes. -/
def escapeChar (c : Char) : String :=
  if c = '\x00' then "\\0"
  else if c = '\t' then "\\t"
  else if c = '\r' then "\\r"
  else if c = '\n' then "\\n"
  else if c = '\\' then "\\\\"
  else if c = '"' then "\\\""
  else if isVisible c then String.singleton c
  else "\\u\x7b" ++ hexText c.toNat ++ "\x7d"

/-- A text between double quotes, with every character visible. -/
def quoted (s : String) : String :=
  "\"" ++ String.join (s.toList.map escapeChar) ++ "\""

end ScriptLang.Text
