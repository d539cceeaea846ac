import ScriptLang.Text.CharClass

/-!
# Words and lines

The words of a text are its longest stretches without blanks.  Its lines end with line breaks, the last
one perhaps with the text.
-/

namespace ScriptLang.Text

/-- The words of some characters, when a word has been begun with the characters `word`, last one
first. -/
def wordsFrom (word : List Char) : List Char → List (List Char)
  | [] => if word.isEmpty then [] else [word.reverse]
  | c :: cs =>
    if isBlank c then (if word.isEmpty then [] else [word.reverse]) ++ wordsFrom [] cs
    else wordsFrom (c :: word) cs

/-- The words of a text. -/
def words (s : String) : List String := (wordsFrom [] s.toList).map String.ofList

/-- The lines of some characters, when a line has been begun with the characters `line`, last one
first. -/
def linesFrom (line : List Char) : List Char → List (List Char)
  | [] => if line.isEmpty then [] else [line.reverse]
  | c :: cs => if c = '\n' then line.reverse :: linesFrom [] cs else linesFrom (c :: line) cs

/-- The lines of a text without their line breaks. -/
def lines (s : String) : List String := (linesFrom [] s.toList).map String.ofList

end ScriptLang.Text
