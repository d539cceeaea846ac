import ScriptLang.Token
import ScriptLang.Text.Bytes

/-!
# Language profiles

A profile tells the lexer which words and operators are keywords, which character introduces
directives and which directives there are.  A directive is a list of phases.  Each looks at the text
that follows and says what to do with it; when the phases are through, ordinary reading resumes.
-/

namespace ScriptLang

/-- What a phase of a directive does with the text that follows. -/
inductive DirectiveStep where
  /-- Leave the text to the next phase. -/
  | pass
  /-- Make a token of the next `width` bytes. -/
  | produce (kind : TokenKind) (width : Nat)
  /-- Make an argument of the next `width` bytes and read the source called `name`. -/
  | request (width : Nat) (name : String)
  /-- Skip `width` bytes with an error. -/
  | reject (width : Nat) (message : String)
  /-- End the directive. -/
  | finish
deriving DecidableEq, Repr

/-- One phase of a directive. -/
abbrev DirectivePhase := (rest : List Char) → DirectiveStep

structure Directive where
  name : String
  phases : List DirectivePhase

structure Profile where
  name : String
  /-- The spellings of the keywords; a keyword's code is its index. -/
  keywords : List String
  directives : List Directive := []
  trigger : Option Char := none

/-- The code of a keyword. -/
def Profile.keywordCode? (p : Profile) (word : String) : Option Nat := p.keywords.idxOf? word

end ScriptLang
