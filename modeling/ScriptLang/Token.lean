import ScriptLang.Location

/-!
# Tokens

A token has a kind and, within the kind, a code: the character of a symbol, the index of a keyword,
the notation of a number, the quote of a string, the style of a comment, the index of a directive.
-/

namespace ScriptLang

inductive TokenKind where
  | unknown
  | endOfFile
  | endOfLine
  | whitespace
  | comment
  | symbol
  | keyword
  | identifier
  | number
  | quotedString
  | directive
  | directiveArg
deriving DecidableEq, Repr

namespace TokenKind

def all : List TokenKind :=
  [unknown, endOfFile, endOfLine, whitespace, comment, symbol, keyword, identifier, number,
   quotedString, directive, directiveArg]

/-- Whether tokens of the kind are left out unless asked for. -/
def isTrivia : TokenKind → Bool
  | whitespace | endOfLine | comment | directive | directiveArg => true
  | _ => false

/-- The name used in messages. -/
def text : TokenKind → String
  | unknown => "unknown token"
  | endOfFile => "end of file"
  | endOfLine => "end of line"
  | whitespace => "whitespace"
  | comment => "comment"
  | symbol => "symbol"
  | keyword => "keyword"
  | identifier => "identifier"
  | number => "number"
  | quotedString => "string"
  | directive => "directive"
  | directiveArg => "directive argument"

end TokenKind

/-- How a number is written. -/
inductive Notation where
  | integer | decimal | hex | binary
deriving DecidableEq, Repr

def Notation.code : Notation → Nat
  | integer => 0
  | decimal => 1
  | hex => 2
  | binary => 3

def Notation.ofCode? : Nat → Option Notation
  | 0 => some integer
  | 1 => some decimal
  | 2 => some hex
  | 3 => some binary
  | _ => none

/-- How a comment is delimited. -/
inductive CommentStyle where
  | block | line
deriving DecidableEq, Repr

def CommentStyle.code : CommentStyle → Nat
  | block => 0
  | line => 1

/-- The characters that enclose a string. -/
def isQuote (c : Char) : Bool := c == '\'' || c == '"' || c == '`'

/-- A stretch of source with its meaning.  `text` is the payload (the spelling of a word, the digits
of a number, the contents of a string, the body of a comment) and `width` the number of bytes that
the token covers. -/
structure Token where
  kind : TokenKind
  code : Nat
  text : String
  location : Location
  width : Nat
  terminated : Bool := true
deriving DecidableEq, Repr

namespace Token

def endOfFile (location : Location) : Token := ⟨.endOfFile, 0, "", location, 0, true⟩

instance : Inhabited Token := ⟨endOfFile .unknown⟩

def is (t : Token) (kind : TokenKind) (code : Nat) : Bool := t.kind == kind && t.code == code

def isSymbol (t : Token) (c : Char) : Bool := t.is .symbol c.toNat

def isKeyword (t : Token) (code : Nat) : Bool := t.is .keyword code

def isEndOfFile (t : Token) : Bool := t.kind == .endOfFile

def notation? (t : Token) : Option Notation :=
  if t.kind = .number then Notation.ofCode? t.code else none

def quote? (t : Token) : Option Char :=
  if t.kind = .quotedString ∧ isQuote (Char.ofNat t.code) then some (Char.ofNat t.code) else none

def commentStyle? (t : Token) : Option CommentStyle :=
  match t.kind, t.code with
  | .comment, 0 => some .block
  | .comment, 1 => some .line
  | _, _ => none

/-- How messages name the token. -/
def describe (t : Token) : String :=
  match t.kind with
  | .endOfFile => "end of file"
  | .endOfLine => "end of line"
  | .symbol | .keyword => "'" ++ t.text ++ "'"
  | .quotedString => "string \"" ++ t.text ++ "\""
  | kind => kind.text ++ " '" ++ t.text ++ "'"

/-- The token and its place. -/
def describeAt (t : Token) : String := t.describe ++ " at " ++ t.location.text

/-- Mark the token's own stretch. -/
def label (t : Token) (text : String) : Label := t.location.label t.width text

end Token

end ScriptLang
