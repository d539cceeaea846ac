import ScriptLang.Lexer

/-!
# The tokens of a source, as the parser reads them

A token reader holds the tokens that are left: those already looked at and those not yet reached,
each with the lexical errors that reaching it brings up.  Beyond the last token there are only
further ends of file.
-/

namespace ScriptLang.Syntax

structure TokenReader where
  /-- Tokens looked at and not consumed. -/
  ahead : List Token := []
  /-- Tokens not reached, each with the errors found on the way to it. -/
  rest : List (Token × List LexError)
  /-- Errors found and not yet reported. -/
  found : List LexError := []
  /-- The end of file. -/
  last : Token
  /-- Remarks about sources that were found but could not be read. -/
  remarks : List String := []

namespace TokenReader

/-- The tokens of a lexer from its present place on. -/
def ofLexer (lx : Lexer) : TokenReader :=
  let (rest, lx) := lx.drain
  { rest, last := (rest.getLast?.map Prod.fst).getD default, remarks := lx.remarks }

/-- How many tokens are left. -/
def size (r : TokenReader) : Nat := r.ahead.length + r.rest.length

/-- All tokens that are left. -/
def toList (r : TokenReader) : List Token := r.ahead ++ r.rest.map Prod.fst

/-- Reach `n` more tokens. -/
def reach : (n : Nat) → TokenReader → TokenReader
  | 0, r => r
  | n + 1, r =>
    match r.rest with
    | [] => r
    | (t, es) :: rest => reach n { r with ahead := r.ahead ++ [t], rest, found := r.found ++ es }

/-- The token `n` places behind the next one. -/
def peekNth (r : TokenReader) (n : Nat) : Token × TokenReader :=
  let r := reach (n + 1 - r.ahead.length) r
  ((r.ahead[n]?).getD r.last, r)

/-- Consume the next token. -/
def next (r : TokenReader) : Token × TokenReader :=
  match (reach (1 - r.ahead.length) r).ahead with
  | t :: ts => (t, { reach (1 - r.ahead.length) r with ahead := ts })
  | [] => (r.last, r)

/-- The errors found and not yet reported, and the reader without them. -/
def takeFound (r : TokenReader) : List LexError × TokenReader := (r.found, { r with found := [] })

end TokenReader

end ScriptLang.Syntax
