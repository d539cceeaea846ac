import ScriptLang.Syntax.Parser

/-!
# Expressions in writing

A `Word` is a token as it is spelled.  `Writes level e words` says that the words are a way to write
the expression `e` where operators of precedence `level` and more are expected: brackets stand
wherever the operator table asks for them, and may stand around every expression beside.  `Spaced`
texts are words with blanks between them.
-/

namespace ScriptLang.Syntax

open Text (isBlank isWordStart isWordChar isHexDigit)

/-! ### Words -/

/-- A character of a string as it is spelled. -/
inductive StringPiece where
  | plain (c : Char)
  /-- A backslash and the character behind it. -/
  | escaped (c : Char)

namespace StringPiece

def spelling : StringPiece → List Char
  | plain c => [c]
  | escaped c => ['\\', c]

/-- The character that is meant. -/
def meaning : StringPiece → Char
  | plain c => c
  | escaped c => Lexeme.unescape c

/-- Whether the piece can stand in a string with this quote. -/
def Fits (quote : Char) : StringPiece → Prop
  | plain c => c ≠ quote ∧ c ≠ '\\'
  | escaped _ => True

end StringPiece

/-- A token of an expression, as it is spelled. -/
inductive Word where
  | symbol (c : Char)
  | keyword (k : Keyword)
  | name (cs : List Char)
  /-- Digits behind a mark, which integers and decimals do not have. -/
  | number (form : Notation) (mark digits : List Char)
  | string (quote : Char) (pieces : List StringPiece)

namespace Word

def spelling : Word → List Char
  | symbol c => [c]
  | keyword k => k.text.toList
  | name cs => cs
  | number _ mark digits => mark ++ digits
  | string quote pieces => quote :: pieces.flatMap StringPiece.spelling ++ [quote]

/-- The lexeme that is spelled so. -/
def lexeme : Word → Lexeme
  | symbol c => .plain .symbol c.toNat [c]
  | keyword k => .plain .keyword k.code k.text.toList
  | name cs => .plain .identifier 0 cs
  | number form mark digits =>
    { kind := .number, code := form.code, text := String.ofList digits
      width := Text.byteLength mark + Text.byteLength digits }
  | string quote pieces =>
    { kind := .quotedString, code := quote.toNat
      text := String.ofList (pieces.map StringPiece.meaning)
      width := Text.byteLength (string quote pieces).spelling }

/-- The signs that expressions are written with. -/
def signs : List Char :=
  ['?', ':', ',', '(', ')', '|', '^', '&', '<', '>', '+', '-', '*', '/', '%', '!', '~']

/-- The word is a token of the language. -/
inductive Legal : Word → Prop
  | symbol {c : Char} (sign : c ∈ signs) : Legal (.symbol c)
  | keyword (k : Keyword) : Legal (.keyword k)
  | name {c : Char} {cs : List Char} (start : isWordStart c = true)
      (rest : ∀ d ∈ cs, isWordChar d = true)
      (free : Profile.language.keywordCode? (String.ofList (c :: cs)) = none) :
      Legal (.name (c :: cs))
  | integer {d : Char} {ds : List Char} (digits : ∀ x ∈ d :: ds, x.isDigit = true) :
      Legal (.number .integer [] (d :: ds))
  | hex {m d : Char} {ds : List Char} (mark : m = 'x' ∨ m = 'X')
      (digits : ∀ x ∈ d :: ds, isHexDigit x = true) : Legal (.number .hex ['0', m] (d :: ds))
  | binary {m d : Char} {ds : List Char} (mark : m = 'b' ∨ m = 'B')
      (digits : ∀ x ∈ d :: ds, x = '0' ∨ x = '1') : Legal (.number .binary ['0', m] (d :: ds))
  | decimal {d f : Char} {ds fs : List Char} (whole : ∀ x ∈ d :: ds, x.isDigit = true)
      (fraction : ∀ x ∈ f :: fs, x.isDigit = true) :
      Legal (.number .decimal [] (d :: ds ++ '.' :: f :: fs))
  | string {quote : Char} {pieces : List StringPiece} (mark : isQuote quote = true)
      (fits : ∀ p ∈ pieces, p.Fits quote) : Legal (.string quote pieces)

end Word

/-- The text is at its end or begins with a blank. -/
def Separated (cs : List Char) : Prop := ∀ c ∈ cs.head?, isBlank c = true

/-- The text consists of words with blanks between them, and may begin and end with blanks. -/
inductive Spaced : List Word → List Char → Prop
  | nil {blanks : List Char} (h : ∀ c ∈ blanks, isBlank c = true) : Spaced [] blanks
  | cons {blanks rest : List Char} {w : Word} {ws : List Word} (h : ∀ c ∈ blanks, isBlank c = true)
      (apart : Separated rest) (tail : Spaced ws rest) :
      Spaced (w :: ws) (blanks ++ (w.spelling ++ rest))

/-! ### Expressions -/

/-- The base that integers of a notation are written in. -/
def Notation.base : Notation → Nat
  | .integer | .decimal => 10
  | .hex => 16
  | .binary => 2

namespace Operator

/-- The word that stands for an operator. -/
def word (o : Operator) : Word :=
  match o.kind, Keyword.ofCode? o.code with
  | .keyword, some k => .keyword k
  | _, _ => .symbol (Char.ofNat o.code)

/-- The precedence asked of what stands to the left of an operator. -/
def leftLevel (o : Operator) : Nat :=
  if o.associativity = .left then o.precedence else o.precedence + 1

/-- The precedence asked of what stands to the right of an operator. -/
def rightLevel (o : Operator) : Nat :=
  if o.associativity = .left then o.precedence + 1 else o.precedence

end Operator

mutual

/-- The words are a way to write an expression where operators of precedence `level` and more are
expected. -/
inductive Writes : (level : Nat) → Expr → List Word → Prop
  | group {level : Nat} {e : Expr} {ws : List Word} (inner : Writes 0 e ws) :
      Writes level e (.symbol '(' :: (ws ++ [.symbol ')']))
  | name {level : Nat} {node : Node} {cs : List Char} (legal : (Word.name cs).Legal) :
      Writes level (.name node (String.ofList cs)) [.name cs]
  | integer {level n : Nat} {node : Node} {form : Notation} {mark digits : List Char}
      (legal : (Word.number form mark digits).Legal) (whole : form ≠ .decimal)
      (value : Decimal.readNat? (Notation.base form) digits = some n) (fits : n < Nat.pow 2 127) :
      Writes level (.integer node n none) [.number form mark digits]
  | suffixed {level n : Nat} {node : Node} {form : Notation} {mark digits cs : List Char}
      {token : Token} (legal : (Word.number form mark digits).Legal) (whole : form ≠ .decimal)
      (value : Decimal.readNat? (Notation.base form) digits = some n) (fits : n < Nat.pow 2 127)
      (type : (Word.name cs).Legal) (known : (Ty.ofName? (String.ofList cs)).isSome = true) :
      Writes level (.integer node n (some ⟨String.ofList cs, token⟩))
        [.number form mark digits, .name cs]
  | decimal {level : Nat} {node : Node} {digits : List Char} {x : Float}
      (legal : (Word.number .decimal [] digits).Legal)
      (value : Decimal.readFloat? digits = some x) :
      Writes level (.decimal node x) [.number .decimal [] digits]
  | string {level : Nat} {node : Node} {quote : Char} {pieces : List StringPiece}
      (legal : (Word.string quote pieces).Legal) :
      Writes level (.string node (String.ofList (pieces.map StringPiece.meaning)))
        [.string quote pieces]
  | bool {level : Nat} {node : Node} (b : Bool) :
      Writes level (.bool node b) [.keyword (if b then .true else .false)]
  | unary {level : Nat} {node : Node} {o : Operator} {op : UnaryOp} {e : Expr} {ws : List Word}
      (known : o ∈ Operator.table) (means : o.meaning = .unary op) (bound : level ≤ o.precedence)
      (operand : Writes o.precedence e ws) : Writes level (.unary node op e) (o.word :: ws)
  | binary {level : Nat} {node : Node} {o : Operator} {op : BinaryOp} {l r : Expr}
      {ws ws' : List Word} (known : o ∈ Operator.table) (means : o.meaning = .binary op)
      (bound : level ≤ o.precedence) (left : Writes o.leftLevel l ws)
      (right : Writes o.rightLevel r ws') :
      Writes level (.binary node op l r) (ws ++ o.word :: ws')
  | cast {level : Nat} {node : Node} {e : Expr} {ws : List Word} {cs : List Char} {token : Token}
      (bound : level ≤ Operator.cast.precedence) (operand : Writes Operator.cast.leftLevel e ws)
      (type : (Word.name cs).Legal) :
      Writes level (.cast node e ⟨String.ofList cs, token⟩)
        (ws ++ [Operator.cast.word, .name cs])
  | ternary {level : Nat} {node : Node} {c y n : Expr} {ws ws' ws'' : List Word}
      (bound : level ≤ Operator.ternary.precedence) (cond : Writes Operator.ternary.leftLevel c ws)
      (yes : Writes 0 y ws') (no : Writes Operator.ternary.rightLevel n ws'') :
      Writes level (.ternary node c y n)
        (ws ++ Operator.ternary.word :: (ws' ++ .symbol ':' :: ws''))
  | call {level : Nat} {node : Node} {cs : List Char} {token : Token} {args : List Expr}
      {ws : List Word} (bound : level ≤ Operator.call.precedence) (callee : (Word.name cs).Legal)
      (args_written : WritesArgs args ws) :
      Writes level (.call node ⟨String.ofList cs, token⟩ args)
        (.name cs :: Operator.call.word :: (ws ++ [.symbol ')']))

/-- The words are a way to write arguments, with commas between them. -/
inductive WritesArgs : List Expr → List Word → Prop
  | none : WritesArgs [] []
  | last {e : Expr} {ws : List Word} (arg : Writes 0 e ws) : WritesArgs [e] ws
  | more {e e' : Expr} {es : List Expr} {ws ws' : List Word} (arg : Writes 0 e ws)
      (rest : WritesArgs (e' :: es) ws') :
      WritesArgs (e :: e' :: es) (ws ++ .symbol ',' :: ws')

end

/-! ### Expressions without places -/

mutual

/-- The expression without the identities and tokens of its nodes. -/
def Expr.bare : Expr → Expr
  | .integer _ value suffix =>
    .integer ⟨0, default⟩ value (suffix.map fun t => ⟨t.name, default⟩)
  | .decimal _ x => .decimal ⟨0, default⟩ x
  | .string _ s => .string ⟨0, default⟩ s
  | .bool _ b => .bool ⟨0, default⟩ b
  | .name _ n => .name ⟨0, default⟩ n
  | .unary _ op e => .unary ⟨0, default⟩ op e.bare
  | .binary _ op l r => .binary ⟨0, default⟩ op l.bare r.bare
  | .cast _ e t => .cast ⟨0, default⟩ e.bare ⟨t.name, default⟩
  | .ternary _ c y n => .ternary ⟨0, default⟩ c.bare y.bare n.bare
  | .call _ callee args => .call ⟨0, default⟩ ⟨callee.name, default⟩ (Expr.bareArgs args)

def Expr.bareArgs : List Expr → List Expr
  | [] => []
  | e :: es => e.bare :: Expr.bareArgs es

end

end ScriptLang.Syntax
