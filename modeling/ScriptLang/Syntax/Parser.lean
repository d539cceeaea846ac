import ScriptLang.Syntax.Error
import ScriptLang.Syntax.OperatorTable
import ScriptLang.Syntax.TokenReader
import ScriptLang.Syntax.Tree
import ScriptLang.Decimal.Read
import ScriptLang.Types

/-!
# Parsing one source

Expressions are parsed by climbing the precedences of the operator table.  Blocks, operands and
chained operators each count a level of nesting; the levels that are left are the argument on which
the parsers of expressions and blocks recurse, and running out of them is the error `tooDeep`.  Other
repetitions are bounded by the tokens that are left.

A failure inside a block is recorded and skipped to the next `;`, or to the `}` that ends the block;
a failure in an item is skipped to the next item.
-/

namespace ScriptLang.Syntax

/-- The state of parsing one source. -/
structure ParserState where
  reader : TokenReader
  errors : List ParseError := []
  /-- The first identity not yet given to a node. -/
  nextId : Nat := 0
  /-- How many levels may nest. -/
  limit : Nat := 128

/-- A parser: it fails with an error, and keeps its state also then. -/
abbrev Parser := ExceptT ParseError (StateM ParserState)

namespace Parser

/-! ### Tokens -/

def peekNth (n : Nat) : Parser Token :=
  modifyGet fun s =>
    let (t, reader) := s.reader.peekNth n
    (t, { s with reader })

def peek : Parser Token := peekNth 0

def next : Parser Token :=
  modifyGet fun s =>
    let (t, reader) := s.reader.next
    (t, { s with reader })

/-- How many tokens are left. -/
def remaining : Parser Nat := do return (← get).reader.size

def freshId : Parser Nat := modifyGet fun s => (s.nextId, { s with nextId := s.nextId + 1 })

/-- A node at a token. -/
def nodeAt (token : Token) : Parser Node := do return ⟨← freshId, token⟩

/-- Consume the next token if the test holds of it; otherwise `what` was expected. -/
def expectIf (test : Token → Bool) (what : String) : Parser Token := do
  let found ← peek
  if test found then next else throw (.atToken what found)

def expectSymbol (c : Char) : Parser Token :=
  expectIf (·.isSymbol c) ("'" ++ String.singleton c ++ "'")

def expectWord (k : Keyword) : Parser Token := expectIf (·.isWord k) ("'" ++ k.text ++ "'")

def expectKind (kind : TokenKind) : Parser Token := expectIf (·.kind == kind) kind.text

/-- Consume the next token if the test holds of it. -/
def acceptIf (test : Token → Bool) : Parser Bool := do
  if test (← peek) then
    let _ ← next
    return true
  else return false

def acceptSymbol (c : Char) : Parser Bool := acceptIf (·.isSymbol c)

def acceptWord (k : Keyword) : Parser Bool := acceptIf (·.isWord k)

/-! ### Errors -/

/-- Report the lexical errors found so far. -/
def reportFound : Parser Unit :=
  modify fun s =>
    let (found, reader) := s.reader.takeFound
    { s with reader, errors := s.errors ++ found.map .ofLex }

/-- Report an error, after the lexical errors found before it. -/
def report (e : ParseError) : Parser Unit := do
  reportFound
  modify fun s => { s with errors := s.errors ++ [e] }

/-- Fail because something else was expected. -/
def failExpected {α : Type} (what : String) : Parser α := do throw (.atToken what (← peek))

/-- Fail because the levels of nesting are used up. -/
def failTooDeep {α : Type} : Parser α := do
  let t ← peek
  throw (.tooDeep (← get).limit t.location t.width)

/-! ### Names and numbers -/

def ident : Parser Ident := do
  let t ← expectKind .identifier
  return ⟨t.text, t⟩

def typeName : Parser TypeName := do
  let t ← expectKind .identifier
  return ⟨t.text, t⟩

/-- The type that may follow an integer. -/
def suffix : Parser (Option TypeName) := do
  let t ← peek
  if t.kind = .identifier ∧ (Ty.ofName? t.text).isSome then
    let t ← next
    return some ⟨t.text, t⟩
  else return none

/-- The base in which a number is written. -/
def baseOf (t : Token) : Nat :=
  match t.notation? with
  | some .hex => 16
  | some .binary => 2
  | _ => 10

def invalidLiteral {α : Type} (t : Token) (reason : String) : Parser α :=
  throw (.invalidLiteral t.text reason t.location t.width)

/-- The number of a token that has been consumed.  Integers are below `2 ^ 127`. -/
def number (t : Token) : Parser (Node → Expr) := do
  if t.notation? = some .decimal then
    match Decimal.readFloat? t.text.toList with
    | some x => return fun node => .decimal node x
    | none => invalidLiteral t "invalid float literal"
  else
    match Decimal.readNat? (baseOf t) t.text.toList with
    | none => invalidLiteral t "invalid digit found in string"
    | some n =>
      if Nat.pow 2 127 ≤ n then invalidLiteral t "number too large to fit in target type"
      else
        let ty ← suffix
        return fun node => .integer node n ty

/-! ### Expressions -/

/-- An operand that is no operator's: a literal or a name. -/
def atom (t : Token) : Parser Expr := do
  let make ← match t.kind with
    | .number => do
      let t ← next
      number t
    | .quotedString => do
      let t ← next
      if t.terminated then pure fun node => .string node t.text
      else invalidLiteral t "unterminated string"
    | .identifier => do
      let t ← next
      pure fun node => .name node t.text
    | _ =>
      if t.isWord .true then do
        let _ ← next
        pure fun node => .bool node true
      else if t.isWord .false then do
        let _ ← next
        pure fun node => .bool node false
      else failExpected "expression"
  return make (← nodeAt t)

/-- An expression in brackets, behind the opening one.  What is in brackets cannot be called. -/
def bracketed (expression : Parser Expr) (op : Operator) (opening : Token) : Parser Expr := do
  let inner ← expression
  let _ ← expectSymbol (op.closing.getD ')')
  match Operator.find? (← peek) .binary with
  | some { meaning := .call, .. } => throw (.notCallable opening.location 1)
  | _ => return inner

/-- Arguments separated by commas, up to the closing character; at most `fuel` of them. -/
def argumentList (expression : Parser Expr) (closing : Char) : (fuel : Nat) → Parser (List Expr)
  | 0 => failExpected "expression"
  | fuel + 1 => do
    let e ← expression
    if ← acceptSymbol ',' then return e :: (← argumentList expression closing fuel)
    else
      let _ ← expectSymbol closing
      return [e]

def arguments (expression : Parser Expr) (closing : Char) : Parser (List Expr) := do
  if ← acceptSymbol closing then return []
  else argumentList expression closing (← remaining)

/-- What an operator behind `lhs` makes of it.  `expression` parses a whole expression, `operand` an
operand, and `climb e p` what follows the operand `e` as far as operators of precedence `p` and
more reach. -/
def applyOperator (expression operand : Parser Expr) (climb : Expr → Nat → Parser Expr)
    (op : Operator) (token : Token) (lhs : Expr) : Parser Expr := do
  let id ← freshId
  match op.meaning with
  | .call =>
    match lhs with
    | .name node name =>
      return .call ⟨id, node.token⟩ ⟨name, node.token⟩
        (← arguments expression (op.closing.getD ')'))
    | e => throw (.notCallable e.token.location e.token.width)
  | .cast => return .cast ⟨id, token⟩ lhs (← typeName)
  | .ternary =>
    let yes ← expression
    let _ ← expectSymbol ':'
    let no ← climb (← operand) op.precedence
    return .ternary ⟨id, token⟩ lhs yes no
  | .binary b =>
    let rhs ← operand
    match Operator.find? (← peek) .binary with
    | some following =>
      if op.precedence < following.precedence then
        return .binary ⟨id, token⟩ b lhs (← climb rhs (op.precedence + 1))
      else return .binary ⟨id, token⟩ b lhs rhs
    | none => return .binary ⟨id, token⟩ b lhs rhs
  | .unary _ | .group => return lhs

/-- Apply the operators that follow `lhs` and bind at least as tightly as `least`, one after the
other, at most `links` of them. -/
def chain (apply : Operator → Token → Expr → Parser Expr) (least : Nat) :
    (links : Nat) → (lhs : Expr) → Parser Expr
  | links, lhs => do
    let token ← peek
    match Operator.find? token .binary with
    | none => return lhs
    | some op =>
      if op.precedence < least then return lhs
      else
        match links with
        | 0 => failTooDeep
        | links + 1 =>
          let _ ← next
          chain apply least links (← apply op token lhs)

mutual

/-- An expression, with so many levels of nesting left. -/
def expression : (levels : Nat) → Parser Expr
  | 0 => failTooDeep
  | levels + 1 => do
    let lhs ← operand levels
    climb levels lhs 0

/-- An operand: a literal, a name, an expression in brackets, or an operator before an operand. -/
def operand : (levels : Nat) → Parser Expr
  | 0 => failTooDeep
  | levels + 1 => do
    let token ← peek
    match Operator.find? token .unary with
    | none => atom token
    | some op =>
      let _ ← next
      match op.meaning with
      | .group => bracketed (expression levels) op token
      | .unary u =>
        let inner ← operand levels
        let e ← climb levels inner op.precedence
        return .unary (← nodeAt token) u e
      | _ => failExpected "expression"

/-- What follows the operand `lhs`, as far as operators of precedence `least` and more reach. -/
def climb : (levels : Nat) → (lhs : Expr) → (least : Nat) → Parser Expr
  | 0, _, _ => failTooDeep
  | levels + 1, lhs, least =>
    chain (applyOperator (expression levels) (operand levels) (climb levels)) least levels lhs

end

/-! ### Statements -/

def varDecl (expression : Parser Expr) : Parser VarDecl := do
  let token ← next
  if !token.isWord .const && !token.isWord .var then
    throw (.atToken "'var' or 'const'" token)
  let node ← nodeAt token
  let name ← ident
  let type ← if ← acceptSymbol ':' then some <$> typeName else pure none
  let init ← if ← acceptSymbol '=' then some <$> expression else pure none
  let _ ← expectSymbol ';'
  return ⟨node, name, type, init, token.isWord .const⟩

/-- The branches that follow a condition and its block; at most `fuel` of them. -/
def branches (expression : Parser Expr) (block : Parser Block) : (fuel : Nat) → Parser Branches
  | 0 => return .none
  | fuel + 1 => do
    if ← acceptWord .elif then
      let cond ← expression
      let body ← block
      return .branch cond body (← branches expression block fuel)
    else if ← acceptWord .else then
      if ← acceptWord .if then
        let cond ← expression
        let body ← block
        return .branch cond body (← branches expression block fuel)
      else return .otherwise (← block)
    else return .none

/-- The operator of `x++` or `x--`. -/
def stepOperator? (t : Token) : Option BinaryOp :=
  if t.isWord .increment then some .add
  else if t.isWord .decrement then some .sub
  else none

/-- An assignment, if the token after the next one makes the statement one. -/
def assignment? (expression : Parser Expr) : Parser (Option (Node → Stmt)) := do
  let t ← peekNth 1
  let step := stepOperator? t
  let op := compoundAssignment? t
  if !t.isSymbol '=' && op.isNone && step.isNone then return none
  else
    let target ← ident
    let operator ← next
    let value ← match step with
      | some _ => do
        let node ← nodeAt operator
        pure (.integer node 1 none)
      | none => expression
    let _ ← expectSymbol ';'
    return some fun node => .assign node target (op.or step) value

def expressionStatement (expression : Parser Expr) : Parser (Node → Stmt) := do
  let e ← expression
  let _ ← expectSymbol ';'
  return fun node => .expr node e

/-- A statement that begins with a keyword. -/
def keywordStatement (expression : Parser Expr) (block : Parser Block) (k : Option Keyword) :
    Parser (Node → Stmt) := do
  match k with
  | some .var | some .const =>
    let decl ← varDecl expression
    return fun node => .var node decl
  | some .if =>
    let _ ← next
    let cond ← expression
    let body ← block
    let rest ← branches expression block (← remaining)
    return fun node => .cond node (.branch cond body rest)
  | some .while =>
    let _ ← next
    let cond ← expression
    let body ← block
    return fun node => .while node cond body
  | some .loop =>
    let _ ← next
    let body ← block
    return fun node => .loop node body
  | some .for =>
    let _ ← next
    let var ← ident
    let _ ← expectWord .in
    let start ← expression
    let _ ← expectWord .range
    let stop ← expression
    let body ← block
    return fun node => .for node var start stop body
  | some .return =>
    let _ ← next
    let value ← if (← peek).isSymbol ';' then pure none else some <$> expression
    let _ ← expectSymbol ';'
    return fun node => .ret node value
  | some .break =>
    let _ ← next
    let _ ← expectSymbol ';'
    return .break
  | some .continue =>
    let _ ← next
    let _ ← expectSymbol ';'
    return .continue
  | _ => expressionStatement expression

def statement (expression : Parser Expr) (block : Parser Block) : Parser Stmt := do
  let token ← peek
  let make ←
    if token.isSymbol '{' then do
      let body ← block
      pure fun node => .block node body
    else if token.kind = .keyword then
      keywordStatement expression block (Keyword.ofCode? token.code)
    else if token.kind = .identifier then do
      match ← assignment? expression with
      | some make => pure make
      | none => expressionStatement expression
    else expressionStatement expression
  return make (← nodeAt token)

/-- Skip to the end of a statement: behind the next `;`, or before a `}` that closes no bracket opened
on the way.  At most `fuel` tokens are skipped. -/
def skipStatement : (fuel depth : Nat) → Parser Unit
  | 0, _ => return
  | fuel + 1, depth => do
    let t ← peek
    if t.isEndOfFile then return
    else if t.isSymbol '}' then
      match depth with
      | 0 => return
      | depth + 1 =>
        let _ ← next
        skipStatement fuel depth
    else
      let _ ← next
      if t.isSymbol '{' then skipStatement fuel (depth + 1)
      else if t.isSymbol ';' && depth == 0 then return
      else skipStatement fuel depth

/-- Run a parser; report its failure and then skip what `skip` skips. -/
def recover {α : Type} (p : Parser α) (skip : Parser Unit) : Parser (Option α) := do
  try
    return some (← p)
  catch e =>
    report e
    skip
    return none

/-- The statements up to the end of a block, without those that fail; at most `fuel` of them. -/
def statements (statement : Parser Stmt) : (fuel : Nat) → Parser (List Stmt)
  | 0 => return []
  | fuel + 1 => do
    let t ← peek
    if t.isSymbol '}' || t.isEndOfFile then return []
    else
      let found ← recover statement do skipStatement (← remaining) 0
      return found.toList ++ (← statements statement fuel)

/-- A block, with so many levels of nesting left. -/
def block : (levels : Nat) → Parser Block
  | 0 => failTooDeep
  | levels + 1 => do
    let token ← expectSymbol '{'
    let node ← nodeAt token
    let stmts ← statements (statement (expression levels) (block levels)) (← remaining)
    let _ ← expectSymbol '}'
    return .mk node stmts

/-! ### Items -/

/-- Parameters up to the closing bracket; at most `fuel` of them. -/
def paramList : (fuel : Nat) → Parser (List Param)
  | 0 => failExpected "identifier"
  | fuel + 1 => do
    let name ← ident
    let _ ← expectSymbol ':'
    let type ← typeName
    if ← acceptSymbol ',' then return ⟨name, type⟩ :: (← paramList fuel)
    else
      let _ ← expectSymbol ')'
      return [⟨name, type⟩]

/-- The quoted name behind `->` or `=>`. -/
def outsideName : Parser String := do
  let t ← expectKind .quotedString
  let _ ← expectSymbol ';'
  return t.text

def functionBody (levels : Nat) : Parser FunctionBody := do
  if (← peek).isSymbol '{' then return .block (← block levels)
  else if ← acceptWord .arrow then return .native (← outsideName)
  else if ← acceptWord .wideArrow then return .intrinsic (← outsideName)
  else failExpected "function body, '->' or '=>'"

def function (levels : Nat) : Parser Function := do
  let _ ← expectWord .func
  let name ← ident
  let _ ← expectSymbol '('
  let params ← if ← acceptSymbol ')' then pure [] else do paramList (← remaining)
  let ret ← if ← acceptSymbol ':' then some <$> typeName else pure none
  let body ← functionBody levels
  return ⟨name, params, ret, body⟩

/-- The name behind `import`, quoted or not. -/
def importName : Parser String := do
  if (← peek).kind = .quotedString then return (← next).text
  else return (← ident).name

def item (levels : Nat) : Parser Item := do
  let token ← peek
  let node ← nodeAt token
  if token.isWord .func then return ⟨node, .function (← function levels)⟩
  else if token.isWord .import then
    let _ ← next
    let name ← importName
    let _ ← expectSymbol ';'
    return ⟨node, .imported name⟩
  else return ⟨node, .variable (← varDecl (expression levels))⟩

/-- Whether an item can begin with the token. -/
def isItemStart (t : Token) : Bool :=
  t.isWord .func || t.isWord .var || t.isWord .const || t.isWord .import

/-- Skip to the next token outside braces that begins an item.  At most `fuel` tokens are skipped. -/
def skipItem : (fuel depth : Nat) → Parser Unit
  | 0, _ => return
  | fuel + 1, depth => do
    let t ← peek
    if t.isEndOfFile || (depth == 0 && isItemStart t) then return
    else
      let _ ← next
      if t.isSymbol '{' then skipItem fuel (depth + 1)
      else if t.isSymbol '}' then skipItem fuel (depth - 1)
      else skipItem fuel depth

/-- The items up to the end of the source, without those that fail; at most `fuel` of them. -/
def items (levels : Nat) : (fuel : Nat) → Parser (List Item)
  | 0 => return []
  | fuel + 1 => do
    reportFound
    let t ← peek
    if t.isEndOfFile then return []
    else
      let skip : Parser Unit := do skipItem (← remaining) 0
      if isItemStart t then
        let found ← recover (item levels) skip
        return found.toList ++ (← items levels fuel)
      else
        report (.atToken "'func', 'var', 'const' or 'import'" t)
        let _ ← next
        skip
        items levels fuel

/-- A whole source. -/
def module (name : String) : Parser Module := do
  let found ← items (← get).limit (← remaining)
  reportFound
  return ⟨name, found⟩

/-- One expression and nothing after it. -/
def standalone : Parser Expr := do
  let e ← expression (← get).limit
  let _ ← expectKind .endOfFile
  return e

end Parser

/-- Parse a source that is one expression.  A syntactic error comes before lexical ones. -/
def parseExpression (text : String) : Except ParseError Expr :=
  let reader := TokenReader.ofLexer (.ofText .language "<expr>" text)
  let (result, s) := Parser.standalone.run.run { reader }
  let (_, s) := Parser.reportFound.run.run s
  match result, s.errors with
  | .ok e, [] => .ok e
  | .ok _, e :: _ => .error e
  | .error e, _ => .error e

end ScriptLang.Syntax
