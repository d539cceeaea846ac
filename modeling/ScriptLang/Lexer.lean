import ScriptLang.Lexer.Progress

/-!
# Reading tokens

`Lexer.lex` gives out tokens one by one, `peekNth` looks ahead without giving any out, and the
`expect` and `accept` functions give out a token only if it is the one asked for.  `Lexer.drain`
reads to the end of the root source and keeps beside each token the errors found on the way to it;
`Lexer.tokenize` is what it amounts to.
-/

namespace ScriptLang

namespace Lexer

/-- Make the next token that the options keep. -/
def nextKept (lx : Lexer) : Token × Lexer :=
  match _h : lx.nextRaw with
  | (token, lx') => if _hk : lx.options.keeps token.kind then (token, lx') else lx'.nextKept
termination_by lx.rank
decreasing_by
  have hne : lx.nextRaw.1.kind ≠ .endOfFile := by
    rw [_h]
    intro he
    exact _hk (by rw [he]; rfl)
  have hlt := rank_nextRaw_lt hne
  rw [_h] at hlt
  exact hlt

/-! ### To the end of the text -/

/-- The tokens to the end of the root source, each with the errors found since the one before. -/
def drain (lx : Lexer) : List (Token × List LexError) × Lexer :=
  match _h : lx.nextRaw with
  | (token, lx') =>
    if _hend : token.kind = .endOfFile then ([(token, lx'.errors)], lx')
    else if lx.options.keeps token.kind then
      let (tokens, last) := { lx' with errors := [] }.drain
      ((token, lx'.errors) :: tokens, last)
    else lx'.drain
termination_by lx.rank
decreasing_by
  all_goals
    have hlt := @rank_nextRaw_lt lx (by rw [_h]; exact _hend)
    rw [_h] at hlt
    exact hlt

/-- All tokens to be made, the end of file included, and all errors found in making them. -/
def tokenize (lx : Lexer) : List Token × List LexError :=
  let tokens := lx.drain.1
  (tokens.map Prod.fst, tokens.flatMap Prod.snd)

/-! ### Token by token -/

/-- Make `n` more tokens and keep them. -/
def lookAhead : (n : Nat) → Lexer → Lexer
  | 0, lx => lx
  | n + 1, lx =>
    let (token, lx) := lx.nextKept
    lookAhead n { lx with lookahead := lx.lookahead ++ [token] }

/-- The token `n` places behind the next one. -/
def peekNth (lx : Lexer) (n : Nat) : Token × Lexer :=
  let lx := lookAhead (n + 1 - lx.lookahead.length) lx
  ((lx.lookahead[n]?).getD default, lx)

/-- The next token. -/
def peek (lx : Lexer) : Token × Lexer := lx.peekNth 0

/-- Give out the next token. -/
def lex (lx : Lexer) : Token × Lexer :=
  match lx.lookahead with
  | token :: tokens => (token, { lx with lookahead := tokens })
  | [] => lx.nextKept

/-- How messages name a token that is asked for. -/
def describeExpected (p : Profile) (kind : TokenKind) (code : Nat) : String :=
  match kind with
  | .symbol =>
    if code.isValidChar then "'" ++ String.singleton (Char.ofNat code) ++ "'" else kind.text
  | .keyword =>
    match p.keywords[code]? with
    | some word => "'" ++ word ++ "'"
    | none => kind.text
  | _ => kind.text

/-- The error that the next token is not the one asked for. -/
def unexpected (expected : String) (found : Token) : LexError :=
  .unexpected expected found.describe found.location found.width

/-- Give out the next token if the test holds of it. -/
def expectIf (lx : Lexer) (test : Token → Bool) (expected : String) :
    Except LexError Token × Lexer :=
  let (found, lx) := lx.peek
  if test found then
    let (token, lx) := lx.lex
    (.ok token, lx)
  else (.error (unexpected expected found), lx)

/-- Give out the next token if it has the kind and the code. -/
def expect (lx : Lexer) (kind : TokenKind) (code : Nat) : Except LexError Token × Lexer :=
  lx.expectIf (fun t => t.is kind code) (describeExpected lx.profile kind code)

/-- Give out the next token if it has the kind. -/
def expectKind (lx : Lexer) (kind : TokenKind) : Except LexError Token × Lexer :=
  lx.expectIf (fun t => t.kind == kind) kind.text

def expectSymbol (lx : Lexer) (c : Char) : Except LexError Token × Lexer :=
  lx.expect .symbol c.toNat

def expectKeyword (lx : Lexer) (code : Nat) : Except LexError Token × Lexer :=
  lx.expect .keyword code

def expectIdentifier (lx : Lexer) : Except LexError Token × Lexer := lx.expectKind .identifier

/-- Give out the next token if it has the kind and the code, and do nothing otherwise. -/
def accept (lx : Lexer) (kind : TokenKind) (code : Nat) : Option Token × Lexer :=
  match lx.expect kind code with
  | (.ok token, lx) => (some token, lx)
  | (.error _, lx) => (none, lx)

def acceptSymbol (lx : Lexer) (c : Char) : Bool × Lexer :=
  let (token, lx) := lx.accept .symbol c.toNat
  (token.isSome, lx)

def acceptKeyword (lx : Lexer) (code : Nat) : Bool × Lexer :=
  let (token, lx) := lx.accept .keyword code
  (token.isSome, lx)

end Lexer

end ScriptLang
