import ScriptLang.Lexer.Keyword
import ScriptLang.Operator

/-!
# The operator table

Which tokens are operators, how tightly they bind and to which side they group.  A higher precedence
binds tighter.  The same token can be one operator before an operand and another one behind it.
-/

namespace ScriptLang.Syntax

inductive Arity where
  | unary | binary
deriving DecidableEq, Repr

inductive Associativity where
  | left | right
deriving DecidableEq, Repr

/-- What an operator does with its operands. -/
inductive Meaning where
  | binary (op : BinaryOp)
  | unary (op : UnaryOp)
  /-- `e as type` -/
  | cast
  /-- `c ? a : b` -/
  | ternary
  /-- `f(args)` -/
  | call
  /-- `(e)` -/
  | group
deriving DecidableEq, Repr

structure Operator where
  kind : TokenKind
  code : Nat
  arity : Arity
  precedence : Nat
  associativity : Associativity := .left
  /-- The character that ends what the operator opens. -/
  closing : Option Char := none
  meaning : Meaning
deriving DecidableEq, Repr

namespace Operator

/-- The precedence of the operators before an operand. -/
def unaryPrecedence : Nat := 14

def ofSymbol (c : Char) (precedence : Nat) (op : BinaryOp) : Operator :=
  { kind := .symbol, code := c.toNat, arity := .binary, precedence, meaning := .binary op }

def ofKeyword (k : Keyword) (precedence : Nat) (op : BinaryOp) : Operator :=
  { kind := .keyword, code := k.code, arity := .binary, precedence, meaning := .binary op }

def ofUnary (c : Char) (op : UnaryOp) : Operator :=
  { kind := .symbol, code := c.toNat, arity := .unary, precedence := unaryPrecedence
    meaning := .unary op }

def ternary : Operator :=
  { kind := .symbol, code := '?'.toNat, arity := .binary, precedence := 2, associativity := .right
    meaning := .ternary }

def cast : Operator :=
  { kind := .keyword, code := Keyword.as.code, arity := .binary, precedence := 13, meaning := .cast }

def call : Operator :=
  { kind := .symbol, code := '('.toNat, arity := .binary, precedence := 15, closing := some ')'
    meaning := .call }

def group : Operator :=
  { kind := .symbol, code := '('.toNat, arity := .unary, precedence := 0, closing := some ')'
    meaning := .group }

def table : List Operator :=
  [ternary,
   ofKeyword .logicalOr 3 .or,
   ofKeyword .logicalAnd 4 .and,
   ofSymbol '|' 5 .bitOr,
   ofSymbol '^' 6 .bitXor,
   ofSymbol '&' 7 .bitAnd,
   ofKeyword .equal 8 .eq,
   ofKeyword .notEqual 8 .ne,
   ofSymbol '<' 9 .lt,
   ofSymbol '>' 9 .gt,
   ofKeyword .lessEqual 9 .le,
   ofKeyword .greaterEqual 9 .ge,
   ofKeyword .shl 10 .shl,
   ofKeyword .shr 10 .shr,
   ofSymbol '+' 11 .add,
   ofSymbol '-' 11 .sub,
   ofSymbol '*' 12 .mul,
   ofSymbol '/' 12 .div,
   ofSymbol '%' 12 .rem,
   cast,
   ofUnary '-' .neg,
   ofUnary '!' .not,
   ofUnary '~' .bitNot,
   call,
   group]

/-- The operator that a token is at a place for the given number of operands. -/
def find? (t : Token) (arity : Arity) : Option Operator :=
  table.find? fun o => o.arity == arity && t.is o.kind o.code

end Operator

/-- The operator of a keyword that assigns through one, such as `+=`. -/
def compoundAssignment? (t : Token) : Option BinaryOp :=
  if t.kind = .keyword then
    match Keyword.ofCode? t.code with
    | some .addAssign => some .add
    | some .subAssign => some .sub
    | some .mulAssign => some .mul
    | some .divAssign => some .div
    | some .remAssign => some .rem
    | some .bitAndAssign => some .bitAnd
    | some .bitOrAssign => some .bitOr
    | some .bitXorAssign => some .bitXor
    | some .shlAssign => some .shl
    | some .shrAssign => some .shr
    | _ => none
  else none

end ScriptLang.Syntax
