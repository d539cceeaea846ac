import ScriptLang.Lexer.Profile
import ScriptLang.Text.CharClass

/-!
# The keywords and directives of the language

Keywords are words and the operators of more than one character.  The only directive,
`$include "file"`, reads another source in its place.
-/

namespace ScriptLang

/-- A keyword, in the order of the codes. -/
inductive Keyword where
  | as | «break» | const | «continue» | elif | «else» | enum | error | «for» | func | «if» | «import»
  | «in» | loop | «match» | «return» | struct | var | variant | «while» | true | false
  | bitAndAssign | bitOrAssign | bitXorAssign | shlAssign | shrAssign
  | subAssign | addAssign | mulAssign | divAssign | remAssign
  | shl | shr | equal | greaterEqual | lessEqual | logicalAnd | logicalOr | notEqual
  | range | arrow | wideArrow | decrement | increment
deriving DecidableEq, Repr

namespace Keyword

def all : List Keyword :=
  [as, «break», const, «continue», elif, «else», enum, error, «for», func, «if», «import», «in»,
   loop, «match», «return», struct, var, variant, «while», true, false,
   bitAndAssign, bitOrAssign, bitXorAssign, shlAssign, shrAssign,
   subAssign, addAssign, mulAssign, divAssign, remAssign,
   shl, shr, equal, greaterEqual, lessEqual, logicalAnd, logicalOr, notEqual,
   range, arrow, wideArrow, decrement, increment]

def text : Keyword → String
  | as => "as"
  | «break» => "break"
  | const => "const"
  | «continue» => "continue"
  | elif => "elif"
  | «else» => "else"
  | enum => "enum"
  | error => "error"
  | «for» => "for"
  | func => "func"
  | «if» => "if"
  | «import» => "import"
  | «in» => "in"
  | loop => "loop"
  | «match» => "match"
  | «return» => "return"
  | struct => "struct"
  | var => "var"
  | variant => "variant"
  | «while» => "while"
  | true => "true"
  | false => "false"
  | bitAndAssign => "&="
  | bitOrAssign => "|="
  | bitXorAssign => "^="
  | shlAssign => "<<="
  | shrAssign => ">>="
  | subAssign => "-="
  | addAssign => "+="
  | mulAssign => "*="
  | divAssign => "/="
  | remAssign => "%="
  | shl => "<<"
  | shr => ">>"
  | equal => "=="
  | greaterEqual => ">="
  | lessEqual => "<="
  | logicalAnd => "&&"
  | logicalOr => "||"
  | notEqual => "!="
  | range => ".."
  | arrow => "->"
  | wideArrow => "=>"
  | decrement => "--"
  | increment => "++"

/-- The code of the keyword's tokens. -/
def code (k : Keyword) : Nat := k.ctorIdx

def ofCode? (code : Nat) : Option Keyword := all[code]?

end Keyword

/-- The blanks before the file name of an include. -/
def includeBlanks : DirectivePhase := fun rest =>
  let blanks := rest.takeWhile fun c => Text.isBlank c && c != '\n'
  if blanks.isEmpty then .pass else .produce .whitespace (Text.byteLength blanks)

/-- The file name of an include, up to the character that closes it. -/
def includeName (close : Char) (rest : List Char) : DirectiveStep :=
  let inside := fun c => c != close && c != '\n'
  let name := rest.takeWhile inside
  if (rest.dropWhile inside).head? = some close then
    .request (Text.byteLength name + 2) (String.ofList name)
  else .reject (Text.byteLength name + 1) "unterminated file name in $include"

/-- The quoted file name of an include. -/
def includeArgument : DirectivePhase
  | '"' :: rest => includeName '"' rest
  | '<' :: rest => includeName '>' rest
  | rest =>
    .reject (Text.byteLength (rest.takeWhile (· != '\n')))
      "expected a quoted file name after $include"

/-- The profile of the language itself. -/
def Profile.language : Profile where
  name := "scribble"
  keywords := Keyword.all.map Keyword.text
  directives := [⟨"include", [includeBlanks, includeArgument]⟩]
  trigger := some '$'

/-- Whether a token is a certain keyword of the language. -/
def Token.isWord (t : Token) (k : Keyword) : Bool := t.isKeyword k.code

end ScriptLang
