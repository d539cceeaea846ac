import ScriptLang.Lexer.Error

/-!
# Errors of parsing
-/

namespace ScriptLang.Syntax

inductive ParseError where
  | expected (expected found : String) (location : Location) (width : Nat)
  | invalidLiteral (text reason : String) (location : Location) (width : Nat)
  | notCallable (location : Location) (width : Nat)
  | tooDeep (limit : Nat) (location : Location) (width : Nat)
  | importNotFound (name : String) (location : Location)
  | unreadable (path message : String)
  | lex (e : LexError)
deriving DecidableEq, Repr

namespace ParseError

/-- A token that was not expected is a matter of parsing, all else is one of reading tokens. -/
def ofLex : LexError → ParseError
  | .unexpected exp found l width => expected exp found l width
  | e => lex e

/-- The error that something else was expected where the token `found` stands. -/
def atToken (what : String) (found : Token) : ParseError :=
  expected what found.describe found.location found.width

def location? : ParseError → Option Location
  | expected _ _ l _ | invalidLiteral _ _ l _ | notCallable l _ | tooDeep _ l _
  | importNotFound _ l => some l
  | unreadable .. => none
  | lex e => some e.location

def code : ParseError → String
  | expected .. => "scribble::parse::expected"
  | invalidLiteral .. => "scribble::parse::invalid_literal"
  | notCallable .. => "scribble::parse::not_callable"
  | tooDeep .. => "scribble::parse::too_deep"
  | importNotFound .. => "scribble::parse::import_not_found"
  | unreadable .. => "scribble::parse::io"
  | lex e => Described.code e

def message : ParseError → String
  | expected exp found l _ => l.text ++ ": expected " ++ exp ++ ", got " ++ found
  | invalidLiteral text reason l _ => l.text ++ ": invalid literal '" ++ text ++ "': " ++ reason
  | notCallable l _ => l.text ++ ": only named functions can be called"
  | tooDeep limit l _ => l.text ++ ": nesting deeper than " ++ toString limit ++ " levels"
  | importNotFound name l => l.text ++ ": cannot find imported module '" ++ name ++ "'"
  | unreadable path message => "cannot read " ++ path ++ ": " ++ message
  | lex e => Described.message e

def help? : ParseError → Option String
  | tooDeep .. => some "split the expression or block into smaller pieces"
  | lex e => Described.help? e
  | _ => none

def labels : ParseError → List Label
  | expected exp _ l width => [l.label width ("expected " ++ exp)]
  | invalidLiteral _ _ l width => [l.label width "in this literal"]
  | notCallable l width => [l.label width "this is not a function name"]
  | tooDeep _ l width => [l.label width "too deeply nested"]
  | lex e => Described.labels e
  | _ => []

instance : Described ParseError where
  code := code
  message := message
  location? := location?
  help? := help?
  labels := labels

end ParseError

end ScriptLang.Syntax
