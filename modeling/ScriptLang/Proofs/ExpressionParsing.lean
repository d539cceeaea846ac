import ScriptLang.Proofs.Acceptance
import ScriptLang.Proofs.WordReading

/-!
# Expressions are parsed as they are written

Whatever way an expression is written, it is parsed to that expression
(`parseExpressionWithin_of_writes`).  The parser climbs the precedences in a loop, so the statement
that an induction over the writing proves is one about the loop: it goes on from the written
expression as it goes on from the expression itself (`accepts_of_writes`).
-/

namespace ScriptLang.Syntax

open ScriptLang.Syntax.Parser (operand expression climb chain applyOperator)

/-! ### Operators and words -/

namespace Word

/-- The operator that a word is at a place for the given number of operands. -/
def operator? (w : Word) (arity : Arity) : Option Operator :=
  Operator.table.find? fun o => o.arity == arity &&
    (w.lexeme.kind == o.kind && w.lexeme.code == o.code)

variable {w : Word} {t : Token}

theorem Spells.find? (h : w.Spells t) (arity : Arity) :
    Operator.find? t arity = w.operator? arity := by
  unfold Operator.find? operator? Token.is
  rw [h.kind, h.code]

theorem Spells.isSymbol (h : w.Spells t) (c : Char) :
    t.isSymbol c = (w.lexeme.kind == .symbol && w.lexeme.code == c.toNat) := by
  rw [Token.isSymbol, Token.is, h.kind, h.code]

theorem Spells.isWord (h : w.Spells t) (k : Keyword) :
    t.isWord k = (w.lexeme.kind == .keyword && w.lexeme.code == k.code) := by
  rw [Token.isWord, Token.isKeyword, Token.is, h.kind, h.code]

end Word

/-- Operators are symbols and keywords. -/
theorem find?_eq_none {t : Token} (hsymbol : t.kind ≠ .symbol) (hkeyword : t.kind ≠ .keyword)
    (arity : Arity) : Operator.find? t arity = none := by
  have kinds : ∀ o ∈ Operator.table, o.kind = .symbol ∨ o.kind = .keyword := by decide
  refine List.find?_eq_none.2 fun o ho => ?_
  have hne : (t.kind == o.kind) = false := by
    rw [beq_eq_false_iff_ne]
    rcases kinds o ho with h | h <;> rw [h] <;> assumption
  rw [Token.is, hne, Bool.false_and, Bool.and_false]
  exact Bool.false_ne_true

theorem Word.Spells.not_operator {w : Word} {t : Token} (h : w.Spells t)
    (hsymbol : w.lexeme.kind ≠ .symbol) (hkeyword : w.lexeme.kind ≠ .keyword) (arity : Arity) :
    Operator.find? t arity = none :=
  find?_eq_none (h.kind ▸ hsymbol) (h.kind ▸ hkeyword) arity

/-- Every operator of the table is found by its word. -/
theorem operator?_word {o : Operator} (h : o ∈ Operator.table) :
    o.word.operator? o.arity = some o := by
  revert o
  decide

theorem unary_spec {o : Operator} {op : UnaryOp} (h : o ∈ Operator.table)
    (means : o.meaning = .unary op) : o.arity = .unary ∧ o.precedence = 14 := by
  have all : ∀ o ∈ Operator.table, ∀ op, o.meaning = .unary op →
      o.arity = .unary ∧ o.precedence = 14 := by
    intro o ho op
    revert o
    cases op <;> decide
  exact all o h op means

theorem binary_spec {o : Operator} {op : BinaryOp} (h : o ∈ Operator.table)
    (means : o.meaning = .binary op) :
    o.arity = .binary ∧ o.associativity = .left ∧ 2 < o.precedence ∧ o.precedence < 13 := by
  have all : ∀ o ∈ Operator.table, ∀ op, o.meaning = .binary op →
      o.arity = .binary ∧ o.associativity = .left ∧ 2 < o.precedence ∧ o.precedence < 13 := by
    intro o ho op
    revert o
    cases op <;> decide
  exact all o h op means

theorem word_legal {o : Operator} (h : o ∈ Operator.table) : o.word.Legal := by
  have all : ∀ o ∈ Operator.table,
      (o.kind = .keyword ∧ (Keyword.ofCode? o.code).isSome = true) ∨
        Char.ofNat o.code ∈ Word.signs := by
    decide
  unfold Operator.word
  split
  · exact .keyword _
  · rename_i hne
    rcases all o h with ⟨hkind, hcode⟩ | hsign
    · obtain ⟨k, hk⟩ := Option.isSome_iff_exists.1 hcode
      exact absurd hk (hne k hkind)
    · exact .symbol hsign

/-- Behind an operand there is no operator that binds as those before one do, and only calls bind
tighter. -/
theorem precedence_of_find? {t : Token} {o : Operator} (h : Operator.find? t .binary = some o) :
    2 ≤ o.precedence ∧ o.precedence ≠ 14 ∧ (o.meaning = .call → o.precedence = 15) ∧
      (o.precedence = 2 → o.associativity = .right) := by
  have all : ∀ o ∈ Operator.table, o.arity = .binary → 2 ≤ o.precedence ∧ o.precedence ≠ 14 ∧
      (o.meaning = .call → o.precedence = 15) ∧ (o.precedence = 2 → o.associativity = .right) := by
    decide
  have found := List.find?_some h
  rw [Bool.and_eq_true, beq_iff_eq] at found
  exact all o (List.mem_of_find?_eq_some h) found.1

/-- The word is the bracket that ends arguments. -/
def Word.closes (w : Word) : Bool := w.lexeme.kind == .symbol && w.lexeme.code == ')'.toNat

/-! ### What ends an expression -/

/-- The token ends an expression of some precedence: it is no type of an integer before it, and no
operator that would take what stands before it. -/
structure Ends (level : Nat) (t : Token) : Prop where
  kind : t.kind ≠ .identifier
  operator : ∀ o, Operator.find? t .binary = some o →
    o.precedence < level ∨ (o.precedence = level ∧ o.associativity = .left)

theorem Ends.mono {level level' : Nat} {t : Token} (h : Ends level t) (le : level ≤ level') :
    Ends level' t := by
  refine ⟨h.kind, fun o ho => ?_⟩
  rcases h.operator o ho with hlt | ⟨heq, hleft⟩
  · exact .inl (Nat.lt_of_lt_of_le hlt le)
  · rcases Nat.lt_or_eq_of_le le with hlt | rfl
    · exact .inl (heq ▸ hlt)
    · exact .inr ⟨heq, hleft⟩

/-- A word that is no operator ends every expression. -/
theorem Ends.of_none {w : Word} {t : Token} (h : w.Spells t) (hkind : w.lexeme.kind ≠ .identifier)
    (none : w.operator? .binary = none) (level : Nat) : Ends level t := by
  refine ⟨h.kind ▸ hkind, fun o ho => ?_⟩
  rw [h.find?, none] at ho
  cases ho

/-- An operator ends what is written on its left. -/
theorem Ends.of_operator {o : Operator} {t : Token} (h : o.word.Spells t)
    (known : o ∈ Operator.table) (harity : o.arity = .binary) : Ends o.leftLevel t := by
  have kinds : ∀ o ∈ Operator.table, o.word.lexeme.kind ≠ .identifier := by decide
  refine ⟨h.kind ▸ kinds o known, fun o' ho' => ?_⟩
  rw [h.find?, ← harity, operator?_word known, Option.some.injEq] at ho'
  subst ho'
  unfold Operator.leftLevel
  cases ha : o.associativity with
  | left => exact .inr ⟨rfl, rfl⟩
  | right => exact .inl (Nat.lt_succ_self _)

/-! ### The loop over operators -/

/-- The loop that applies operators of precedence `least` and more, at most `links` of them, each with
so many levels of nesting left. -/
def loop (levels least links : Nat) (lhs : Expr) : Parser Expr :=
  chain (applyOperator (expression levels) (operand levels) (climb levels)) least links lhs

/-- What the loop does when it has seen the next token. -/
def loopAt (levels least links : Nat) (lhs : Expr) (token : Token) : Parser Expr :=
  match Operator.find? token .binary with
  | none => return lhs
  | some op =>
    if op.precedence < least then return lhs
    else
      match links with
      | 0 => Parser.failTooDeep
      | links + 1 => do
        let _ ← Parser.next
        loop levels least links
          (← applyOperator (expression levels) (operand levels) (climb levels) op token lhs)

theorem loop_eq (levels least links : Nat) (lhs : Expr) :
    loop levels least links lhs = Parser.peek >>= loopAt levels least links lhs := by
  rw [loop, chain]
  rfl

theorem climb_succ (levels : Nat) (lhs : Expr) (least : Nat) :
    climb (levels + 1) lhs least = loop levels least levels lhs := by
  rw [climb]
  rfl

theorem expression_succ_succ (levels : Nat) :
    expression (levels + 2) = operand (levels + 1) >>= loop levels 0 levels := by
  rw [expression]
  simp only [climb_succ]

variable {levels least links : Nat} {e lhs : Expr} {t : Token} {ts rest final : List Token}
  {Q : Expr → Prop}

/-- The loop is left before a token that is no operator for it. -/
theorem accepts_loop_stop (h : ∀ o, Operator.find? t .binary = some o → o.precedence < least) :
    Accepts (loop levels least links lhs) (t :: rest) (t :: rest) (· = lhs) := by
  rw [loop_eq]
  refine (accepts_peek t rest).bind_eq ?_
  unfold loopAt
  cases hfind : Operator.find? t .binary with
  | none => exact .pure rfl
  | some o =>
    dsimp only
    rw [if_pos (h o hfind)]
    exact .pure rfl

/-- The loop applies an operator that binds tightly enough, and goes on from the result. -/
theorem accepts_loop_apply {o : Operator} (mid : List Token) (R : Expr → Prop)
    (hfind : Operator.find? t .binary = some o) (hle : least ≤ o.precedence)
    (apply : Accepts (applyOperator (expression levels) (operand levels) (climb levels) o t lhs)
      rest mid R)
    (goesOn : ∀ e', R e' → Accepts (loop levels least links e') mid final Q) :
    Accepts (loop levels least (links + 1) lhs) (t :: rest) final Q := by
  rw [loop_eq]
  refine (accepts_peek t rest).bind_eq ?_
  unfold loopAt
  rw [hfind]
  dsimp only
  rw [if_neg (Nat.not_lt.2 hle)]
  refine (accepts_next t rest).bind fun _ _ => ?_
  exact apply.bind goesOn

/-- The right operand of a binary operator is what climbing from one precedence higher finds. -/
theorem applyOperator_binary {o : Operator} {op : BinaryOp} (means : o.meaning = .binary op)
    (levels : Nat) (t : Token) (lhs : Expr) :
    applyOperator (expression (levels + 1)) (operand (levels + 1)) (climb (levels + 1)) o t lhs =
      (do
        let id ← Parser.freshId
        let first ← operand (levels + 1)
        let rhs ← loop levels (o.precedence + 1) levels first
        return .binary ⟨id, t⟩ op lhs rhs) := by
  unfold applyOperator
  simp only [means, climb_succ]
  congr 1
  funext id
  congr 1
  funext first
  rw [loop_eq levels (o.precedence + 1), bind_assoc]
  refine peek_bind_ext fun t' s hpeek => ?_
  cases hfind : Operator.find? t' .binary with
  | none =>
    rw [loopAt, hfind]
    rfl
  | some following =>
    dsimp only
    by_cases hlt : o.precedence < following.precedence
    · -- The loop looks again at the token that decides whether it is entered.
      rw [if_pos hlt, run_bind, hpeek]
    · rw [if_neg hlt, loopAt, hfind]
      dsimp only
      rw [if_pos (show following.precedence < o.precedence + 1 by omega)]
      rfl

/-! ### Operands -/

attribute [local simp] Expr.bare

/-- A result that is some expression, places apart. -/
def IsBare (e e' : Expr) : Prop := e'.bare = e.bare

variable {w : Word}

theorem accepts_operand_of_atom (hnone : Operator.find? t .unary = none)
    (atom : Accepts (Parser.atom t) (t :: rest) final Q) :
    Accepts (operand (levels + 1)) (t :: rest) final Q := by
  rw [operand]
  refine (accepts_peek t rest).bind_eq ?_
  rw [hnone]
  exact atom

/-- An expression is put together with the node that is made for it. -/
theorem accepts_make {f : Node → Expr} (hf : ∀ node, IsBare e (f node)) (token : Token) :
    Accepts (do return f (← Parser.nodeAt token)) ts ts (IsBare e) :=
  (accepts_nodeAt token ts).bind fun node _ => .pure (hf node)

theorem accepts_name {cs : List Char} (h : (Word.name cs).Spells t) (node : Node) :
    Accepts (Parser.atom t) (t :: rest) rest (IsBare (.name node (String.ofList cs))) := by
  have hkind : t.kind = .identifier := h.kind
  have htext : t.text = String.ofList cs := h.text
  unfold Parser.atom
  rw [hkind]
  refine (accepts_next t rest).bind_eq (.pure_bind (accepts_make (fun node' => ?_) t))
  rw [IsBare, Expr.bare, Expr.bare, htext]

theorem accepts_string {quote : Char} {pieces : List StringPiece}
    (h : (Word.string quote pieces).Spells t) (node : Node) :
    Accepts (Parser.atom t) (t :: rest) rest
      (IsBare (.string node (String.ofList (pieces.map StringPiece.meaning)))) := by
  have hkind : t.kind = .quotedString := h.kind
  have htext : t.text = String.ofList (pieces.map StringPiece.meaning) := h.text
  unfold Parser.atom
  rw [hkind]
  refine (accepts_next t rest).bind_eq ?_
  rw [if_pos h.terminated]
  refine .pure_bind (accepts_make (fun node' => ?_) t)
  rw [IsBare, Expr.bare, Expr.bare, htext]

theorem accepts_bool {b : Bool}
    (h : (Word.keyword (if b then .true else .false)).Spells t) (node : Node) :
    Accepts (Parser.atom t) (t :: rest) rest (IsBare (.bool node b)) := by
  have hkind : t.kind = .keyword := h.kind
  have htrue : t.isWord .true = b := by
    rw [h.isWord]
    cases b <;> rfl
  have hfalse : t.isWord .false = !b := by
    rw [h.isWord]
    cases b <;> rfl
  unfold Parser.atom
  rw [hkind]
  dsimp only
  rw [htrue, hfalse]
  cases b with
  | true =>
    refine (accepts_next t rest).bind fun _ _ => .pure_bind (accepts_make (fun node' => ?_) t)
    rfl
  | false =>
    refine (accepts_next t rest).bind fun _ _ => .pure_bind (accepts_make (fun node' => ?_) t)
    rfl

/-! ### Numbers -/

theorem notation?_of_spells {form : Notation} {mark digits : List Char}
    (h : (Word.number form mark digits).Spells t) : t.notation? = some form := by
  have hkind : t.kind = .number := h.kind
  have hcode : t.code = form.code := h.code
  rw [Token.notation?, if_pos hkind, hcode]
  cases form <;> rfl

theorem accepts_atom_number {form : Notation} {mark digits : List Char}
    (h : (Word.number form mark digits).Spells t)
    (number : Accepts (Parser.number t) ts rest fun f => ∀ node, IsBare e (f node)) :
    Accepts (Parser.atom t) (t :: ts) rest (IsBare e) := by
  have hkind : t.kind = .number := h.kind
  unfold Parser.atom
  rw [hkind]
  exact (accepts_next t ts).bind_eq (number.bind fun f hf => accepts_make hf t)

/-- The digits of an integer are read, and then the type that may follow if there are not too many. -/
theorem number_eq {form : Notation} {mark digits : List Char} {n : Nat}
    (h : (Word.number form mark digits).Spells t) (whole : form ≠ .decimal)
    (value : Decimal.readNat? (Notation.base form) digits = some n) :
    Parser.number t =
      if Nat.pow 2 127 ≤ n then Parser.invalidLiteral t "number too large to fit in target type"
      else do
        let ty ← Parser.suffix
        return fun node => .integer node n ty := by
  have spelled := notation?_of_spells h
  have htext : t.text = String.ofList digits := h.text
  have hbase : Parser.baseOf t = Notation.base form := by
    rw [Parser.baseOf, spelled]
    cases form <;> rfl
  have notDecimal : ¬ t.notation? = some .decimal := by
    rw [spelled]
    exact fun he => whole (Option.some.inj he)
  unfold Parser.number
  rw [if_neg notDecimal, hbase, htext, String.toList_ofList, value]

theorem accepts_number {form : Notation} {mark digits : List Char} {n : Nat}
    (h : (Word.number form mark digits).Spells t) (whole : form ≠ .decimal)
    (value : Decimal.readNat? (Notation.base form) digits = some n) (fits : n < Nat.pow 2 127)
    {type : Option TypeName} {node : Node}
    (suffix : Accepts Parser.suffix ts rest fun ty =>
      ty.map TypeName.name = type.map TypeName.name) :
    Accepts (Parser.number t) ts rest fun f => ∀ node', IsBare (.integer node n type) (f node') := by
  rw [number_eq h whole value, if_neg (show ¬ Nat.pow 2 127 ≤ n from Nat.not_le.2 fits)]
  refine suffix.bind fun ty hty => .pure fun node' => ?_
  rw [IsBare, Expr.bare, Expr.bare]
  cases ty <;> cases type <;> simp_all

theorem accepts_suffix_none (h : t.kind ≠ .identifier) :
    Accepts Parser.suffix (t :: rest) (t :: rest) fun ty =>
      ty.map TypeName.name = Option.map TypeName.name none := by
  refine (accepts_peek t rest).bind_eq ?_
  rw [if_neg fun hboth => h hboth.1]
  exact .pure rfl

theorem accepts_suffix {cs : List Char} (h : (Word.name cs).Spells t)
    (known : (Ty.ofName? (String.ofList cs)).isSome = true) (token : Token) :
    Accepts Parser.suffix (t :: rest) rest fun ty =>
      ty.map TypeName.name = Option.map TypeName.name (some ⟨String.ofList cs, token⟩) := by
  have hkind : t.kind = .identifier := h.kind
  have htext : t.text = String.ofList cs := h.text
  refine (accepts_peek t rest).bind_eq ?_
  rw [if_pos ⟨hkind, htext ▸ known⟩]
  refine (accepts_next t rest).bind_eq (.pure ?_)
  rw [htext]
  rfl

theorem accepts_decimal {digits : List Char} {x : Float}
    (h : (Word.number .decimal [] digits).Spells t) (value : Decimal.readFloat? digits = some x)
    (node : Node) :
    Accepts (Parser.number t) rest rest fun f => ∀ node', IsBare (.decimal node x) (f node') := by
  have htext : t.text = String.ofList digits := h.text
  unfold Parser.number
  rw [if_pos (notation?_of_spells h), htext, String.toList_ofList, value]
  exact .pure fun node' => rfl

/-! ### What the loop makes of written expressions -/

theorem spells_append : ∀ {ws ws' : List Word} {ts : List Token},
    List.Forall₂ Word.Spells (ws ++ ws') ts → ∃ us us', ts = us ++ us' ∧
      List.Forall₂ Word.Spells ws us ∧ List.Forall₂ Word.Spells ws' us'
  | [], _, ts, h => ⟨[], ts, rfl, .nil, h⟩
  | _ :: _, _, _, .cons hw hws => by
    obtain ⟨us, us', rfl, hus, hus'⟩ := spells_append hws
    exact ⟨_ :: us, us', rfl, .cons hw hus, hus'⟩

/-- Where an operand can stand, the words are taken as the expression: the loop goes on behind them
as it does from the expression. -/
structure Taken (level : Nat) (e : Expr) (ws : List Word) : Prop where
  accepts : ∀ {levels least links : Nat} {ts : List Token} {t : Token} {rest final : List Token}
    {Q : Expr → Prop}, least ≤ level → ws.length ≤ levels → ws.length ≤ links →
    List.Forall₂ Word.Spells ws ts → Ends level t →
    (∀ e' links', IsBare e e' → links ≤ links' + ws.length →
      Accepts (loop levels least links' e') (t :: rest) final Q) →
    Accepts (operand (levels + 1) >>= loop levels least links) (ts ++ t :: rest) final Q

/-- Between brackets, the words are taken as the arguments. -/
structure ArgsTaken (args : List Expr) (ws : List Word) : Prop where
  accepts : ∀ {levels fuel : Nat} {ts : List Token} {t : Token} {rest : List Token}, args ≠ [] →
    ws.length + 2 ≤ levels → ws.length ≤ fuel → List.Forall₂ Word.Spells ws ts →
    (Word.symbol ')').Spells t →
    Accepts (Parser.argumentList (expression levels) ')' fuel) (ts ++ t :: rest) rest
      fun es => Expr.bareArgs es = Expr.bareArgs args

section

variable {level : Nat} {ws ws' ws'' : List Word}

/-- An operand that is complete in itself. -/
theorem Taken.of_operand
    (h : ∀ {levels : Nat} {ts : List Token} {t : Token} {rest : List Token}, ws.length ≤ levels →
      List.Forall₂ Word.Spells ws ts → Ends level t →
      Accepts (operand (levels + 1)) (ts ++ t :: rest) (t :: rest) (IsBare e)) :
    Taken level e ws := by
  refine ⟨?_⟩
  intro levels least links ts t rest final Q _ hlevels _ spells ends goesOn
  exact (h hlevels spells ends).bind fun e' he => goesOn e' links he (by omega)

/-- The loop ends behind the expression. -/
theorem Taken.climb (h : Taken level e ws) (hleast : least ≤ level) (hlevels : ws.length ≤ levels)
    (spells : List.Forall₂ Word.Spells ws ts) (ends : Ends level t)
    (stop : ∀ o, Operator.find? t .binary = some o → o.precedence < least) :
    Accepts (operand (levels + 1) >>= loop levels least levels) (ts ++ t :: rest) (t :: rest)
      (IsBare e) :=
  h.accepts hleast hlevels hlevels spells ends fun _ _ he _ =>
    (accepts_loop_stop stop).mono fun _ heq => heq ▸ he

theorem Taken.expression (h : Taken 0 e ws) (hlevels : ws.length + 2 ≤ levels)
    (spells : List.Forall₂ Word.Spells ws ts) (ends : Ends 0 t) :
    Accepts (expression levels) (ts ++ t :: rest) (t :: rest) (IsBare e) := by
  obtain ⟨n, rfl⟩ : ∃ n, levels = n + 2 := ⟨levels - 2, by omega⟩
  rw [expression_succ_succ]
  refine h.climb (Nat.le_refl 0) (by omega) spells ends fun o ho => ?_
  rcases ends.operator o ho with hlt | ⟨heq, hleft⟩
  · exact hlt
  · have := (precedence_of_find? ho).1
    omega

theorem Taken.group (inner : Taken 0 e ws) (hlevel : level ≤ 14) :
    Taken level e (.symbol '(' :: (ws ++ [.symbol ')'])) := by
  refine Taken.of_operand fun {levels ts t rest} hlevels spells ends => ?_
  cases spells with
  | @cons _ opening _ _ hopening spells =>
  obtain ⟨us, us', rfl, hus, hus'⟩ := spells_append spells
  cases hus' with
  | @cons _ closing _ _ hclosing hnil =>
  cases hnil
  have hfind : Operator.find? opening .unary = some Operator.group := by
    rw [hopening.find?]
    decide
  have closes : Ends 0 closing := .of_none hclosing nofun (by decide) 0
  rw [List.length_cons, List.length_append, List.length_singleton] at hlevels
  rw [operand, List.cons_append, List.append_assoc, List.singleton_append]
  refine (accepts_peek _ _).bind_eq ?_
  rw [hfind]
  refine (accepts_next _ _).bind fun _ _ => ?_
  refine (inner.expression (by omega) hus closes).bind fun e' he => ?_
  refine (accepts_expectIf _ ((hclosing.isSymbol ')').trans rfl) _ _).bind fun _ _ => ?_
  refine (accepts_peek _ _).bind_eq ?_
  -- Calls bind tighter than what can stand behind the bracket.
  cases hbinary : Operator.find? t .binary with
  | none => exact .pure he
  | some o =>
    have hcall : o.meaning ≠ .call := by
      intro hmeans
      have hprecedence := (precedence_of_find? hbinary).2.2.1 hmeans
      rcases ends.operator o hbinary with hlt | ⟨heq, _⟩ <;> omega
    obtain ⟨kind, code, arity, precedence, associativity, closing, meaning⟩ := o
    cases meaning with
    | call => exact absurd rfl hcall
    | _ => exact .pure he

theorem Taken.unary {node : Node} {o : Operator} {op : UnaryOp} (known : o ∈ Operator.table)
    (means : o.meaning = .unary op) (hlevel : level ≤ 14) (inner : Taken o.precedence e ws) :
    Taken level (.unary node op e) (o.word :: ws) := by
  refine Taken.of_operand fun {levels ts t rest} hlevels spells ends => ?_
  cases spells with
  | @cons _ sign _ us hsign hus =>
  obtain ⟨harity, hprecedence⟩ := unary_spec known means
  have hfind : Operator.find? sign .unary = some o := by
    rw [hsign.find?, ← harity, operator?_word known]
  rw [List.length_cons] at hlevels
  obtain ⟨n, rfl⟩ : ∃ n, levels = n + 1 := ⟨levels - 1, by omega⟩
  rw [operand, List.cons_append]
  refine (accepts_peek _ _).bind_eq ?_
  rw [hfind]
  refine (accepts_next _ _).bind fun _ _ => ?_
  simp only [means, climb_succ]
  rw [← bind_assoc]
  refine (inner.climb (Nat.le_refl _) (by omega) hus (ends.mono (hprecedence ▸ hlevel))
    fun o' ho' => ?_).bind fun e' he => accepts_make (fun node' => ?_) sign
  · have hne := (precedence_of_find? ho').2.1
    rcases ends.operator o' ho' with hlt | ⟨heq, _⟩ <;> omega
  · rw [IsBare, Expr.bare, Expr.bare, he]

theorem Taken.binary {node : Node} {o : Operator} {op : BinaryOp} {l r : Expr}
    (known : o ∈ Operator.table) (means : o.meaning = .binary op) (bound : level ≤ o.precedence)
    (left : Taken o.leftLevel l ws) (right : Taken o.rightLevel r ws') (hws : ws ≠ []) :
    Taken level (.binary node op l r) (ws ++ o.word :: ws') := by
  refine ⟨?_⟩
  intro levels least links ts t rest final Q hleast hlevels hlinks spells ends goesOn
  obtain ⟨us, us', rfl, hus, hus'⟩ := spells_append spells
  cases hus' with
  | @cons _ sign _ vs hsign hvs =>
  obtain ⟨harity, hleft, _⟩ := binary_spec known means
  have leftLevel : o.leftLevel = o.precedence := if_pos hleft
  have rightLevel : o.rightLevel = o.precedence + 1 := if_pos hleft
  have hpos := List.length_pos_iff.2 hws
  rw [List.length_append, List.length_cons] at hlevels hlinks goesOn
  obtain ⟨n, rfl⟩ : ∃ n, levels = n + 1 := ⟨levels - 1, by omega⟩
  have hfind : Operator.find? sign .binary = some o := by
    rw [hsign.find?, ← harity, operator?_word known]
  rw [List.append_assoc, List.cons_append]
  refine left.accepts (by omega) (by omega) (by omega) hus (.of_operator hsign known harity)
    fun l' links' hl hlinks' => ?_
  obtain ⟨k, rfl⟩ : ∃ k, links' = k + 1 := ⟨links' - 1, by omega⟩
  refine accepts_loop_apply (t :: rest) (IsBare (.binary node op l r)) hfind
    (Nat.le_trans hleast bound) ?_ fun e' he => goesOn e' k he (by omega)
  rw [applyOperator_binary means]
  refine (accepts_freshId _).bind fun id _ => ?_
  rw [← bind_assoc]
  rw [rightLevel] at right
  refine (right.climb (Nat.le_refl _) (by omega) hvs (ends.mono (by omega))
    fun o' ho' => ?_).bind fun r' hr => .pure ?_
  · rcases ends.operator o' ho' with hlt | ⟨heq, _⟩ <;> omega
  · rw [IsBare, Expr.bare, Expr.bare, hl, hr]

theorem accepts_typeName {cs : List Char} (h : (Word.name cs).Spells t) :
    Accepts Parser.typeName (t :: rest) rest fun ty => ty.name = String.ofList cs := by
  have hkind : (t.kind == .identifier) = true := beq_iff_eq.2 h.kind
  refine (accepts_expectIf (·.kind == .identifier) hkind _ _).bind_eq (.pure ?_)
  exact h.text

theorem Taken.cast {node : Node} {cs : List Char} {token : Token}
    (bound : level ≤ Operator.cast.precedence) (inner : Taken Operator.cast.leftLevel e ws) :
    Taken level (.cast node e ⟨String.ofList cs, token⟩)
      (ws ++ [Operator.cast.word, .name cs]) := by
  refine ⟨?_⟩
  intro levels least links ts t rest final Q hleast hlevels hlinks spells ends goesOn
  obtain ⟨us, us', rfl, hus, hus'⟩ := spells_append spells
  cases hus' with
  | @cons _ sign _ vs hsign hvs =>
  cases hvs with
  | @cons _ type _ _ htype hnil =>
  cases hnil
  rw [List.length_append, List.length_cons, List.length_singleton] at hlevels hlinks goesOn
  have known : Operator.cast ∈ Operator.table := by decide
  have hfind : Operator.find? sign .binary = some Operator.cast := by
    rw [hsign.find?]
    exact operator?_word known
  rw [List.append_assoc, List.cons_append, List.singleton_append]
  refine inner.accepts (Nat.le_trans hleast bound) (by omega) (by omega) hus (.of_operator hsign known rfl)
    fun e₁ links' he₁ hlinks' => ?_
  obtain ⟨k, rfl⟩ : ∃ k, links' = k + 1 := ⟨links' - 1, by omega⟩
  refine accepts_loop_apply (t :: rest)
    (IsBare (.cast node e ⟨String.ofList cs, token⟩)) hfind (Nat.le_trans hleast bound) ?_
    fun e' he => goesOn e' k he (by omega)
  refine (accepts_freshId _).bind fun id _ => (accepts_typeName htype).bind fun ty hty => .pure ?_
  rw [IsBare, Expr.bare, Expr.bare, he₁, hty]

theorem Taken.ternary {node : Node} {c y n : Expr} (bound : level ≤ Operator.ternary.precedence)
    (cond : Taken Operator.ternary.leftLevel c ws) (yes : Taken 0 y ws')
    (no : Taken Operator.ternary.rightLevel n ws'') (hws : ws ≠ []) :
    Taken level (.ternary node c y n)
      (ws ++ Operator.ternary.word :: (ws' ++ .symbol ':' :: ws'')) := by
  refine ⟨?_⟩
  intro levels least links ts t rest final Q hleast hlevels hlinks spells ends goesOn
  obtain ⟨us, us', rfl, hus, hus'⟩ := spells_append spells
  cases hus' with
  | @cons _ sign _ _ hsign hus' =>
  obtain ⟨vs, vs', rfl, hvs, hvs'⟩ := spells_append hus'
  cases hvs' with
  | @cons _ colon _ xs hcolon hxs =>
  have hpos := List.length_pos_iff.2 hws
  simp only [List.length_append, List.length_cons] at hlevels hlinks goesOn
  obtain ⟨m, rfl⟩ : ∃ m, levels = m + 1 := ⟨levels - 1, by omega⟩
  have known : Operator.ternary ∈ Operator.table := by decide
  have hfind : Operator.find? sign .binary = some Operator.ternary := by
    rw [hsign.find?]
    exact operator?_word known
  have closes : Ends 0 colon := .of_none hcolon nofun (by decide) 0
  have hprecedence : Operator.ternary.precedence = 2 := rfl
  have hrightLevel : Operator.ternary.rightLevel = 2 := rfl
  have hleftLevel : Operator.ternary.leftLevel = 3 := rfl
  rw [hprecedence] at bound
  rw [List.append_assoc, List.cons_append, List.append_assoc, List.cons_append]
  refine cond.accepts (by omega) (by omega) (by omega) hus (.of_operator hsign known rfl)
    fun c' links' hc hlinks' => ?_
  obtain ⟨k, rfl⟩ : ∃ k, links' = k + 1 := ⟨links' - 1, by omega⟩
  refine accepts_loop_apply (t :: rest) (IsBare (.ternary node c y n)) hfind
    (by omega) ?_ fun e' he => goesOn e' k he (by omega)
  refine (accepts_freshId _).bind fun id _ => ?_
  refine (yes.expression (by omega) hvs closes).bind fun y' hy => ?_
  refine (accepts_expectIf _ ((hcolon.isSymbol ':').trans rfl) _ _).bind fun _ _ => ?_
  simp only [climb_succ]
  rw [← bind_assoc]
  refine (no.climb (Nat.le_refl _) (by omega) hxs (ends.mono (by omega))
    fun o ho => ?_).bind fun n' hn => .pure ?_
  · obtain ⟨htwo, _, _, hright⟩ := precedence_of_find? ho
    rcases ends.operator o ho with hlt | ⟨heq, hleft⟩
    · omega
    · rw [hright (by omega)] at hleft
      cases hleft
  · rw [IsBare, Expr.bare, Expr.bare, hc, hy, hn]

/-- A name is called by the brackets behind it. -/
theorem eq_name_of_isBare {node : Node} {s : String} {e' : Expr} (h : IsBare (.name node s) e') :
    ∃ node', e' = .name node' s := by
  cases e' <;> simp_all [IsBare, Expr.bare]

/-- Arguments are there or not, and if they are they do not begin with the bracket that ends them. -/
def ArgsShaped (args : List Expr) (ws : List Word) : Prop :=
  (args = [] ∧ ws = []) ∨ (args ≠ [] ∧ ∃ w ws', ws = w :: ws' ∧ w.closes = false)

theorem accepts_arguments {args : List Expr} {close : Token} (hargs : ArgsTaken args ws)
    (shaped : ArgsShaped args ws) (hlevels : ws.length + 2 ≤ levels)
    (spells : List.Forall₂ Word.Spells ws ts) (hclose : (Word.symbol ')').Spells close) :
    Accepts (Parser.arguments (expression levels) ')') (ts ++ close :: rest) rest
      fun es => Expr.bareArgs es = Expr.bareArgs args := by
  rcases shaped with ⟨rfl, rfl⟩ | ⟨hargs_ne, w, ws', rfl, hw⟩
  · cases spells
    refine (accepts_acceptIf ((hclose.isSymbol ')').trans rfl) rest).bind_eq ?_
    exact .pure rfl
  · cases spells with
    | @cons _ first _ us hfirst hus =>
    have hne : first.isSymbol ')' = false := by
      rw [hfirst.isSymbol]
      exact hw
    refine (accepts_not_acceptIf hne _).bind_eq ?_
    rw [if_neg Bool.false_ne_true]
    refine (accepts_remaining _).bind_eq ?_
    refine hargs.accepts hargs_ne hlevels ?_ (.cons hfirst hus) hclose
    have hlength := hus.length_eq
    simp only [List.length_cons, List.append_eq, List.length_append]
    omega

theorem Taken.call {node : Node} {cs : List Char} {token : Token} {args : List Expr}
    (hlevel : level ≤ 14) (hargs : ArgsTaken args ws) (shaped : ArgsShaped args ws) :
    Taken level (.call node ⟨String.ofList cs, token⟩ args)
      (.name cs :: Operator.call.word :: (ws ++ [.symbol ')'])) := by
  refine ⟨?_⟩
  intro levels least links ts t rest final Q hleast hlevels hlinks spells ends goesOn
  cases spells with
  | @cons _ callee _ _ hcallee spells =>
  cases spells with
  | @cons _ opening _ _ hopening spells =>
  obtain ⟨us, us', rfl, hus, hus'⟩ := spells_append spells
  cases hus' with
  | @cons _ close _ _ hclose hnil =>
  cases hnil
  simp only [List.length_append, List.length_cons, List.length_nil] at hlevels hlinks goesOn
  have hfind : Operator.find? opening .binary = some Operator.call := by
    rw [hopening.find?]
    exact operator?_word (by decide)
  have hprecedence : Operator.call.precedence = 15 := rfl
  rw [List.cons_append, List.cons_append, List.append_assoc, List.singleton_append]
  refine (accepts_operand_of_atom (hcallee.not_operator (by nofun) (by nofun) _)
    (accepts_name hcallee node)).bind fun f hf => ?_
  obtain ⟨node', rfl⟩ := eq_name_of_isBare hf
  obtain ⟨k, rfl⟩ : ∃ k, links = k + 1 := ⟨links - 1, by omega⟩
  refine accepts_loop_apply (t :: rest)
    (IsBare (.call node ⟨String.ofList cs, token⟩ args)) hfind (by omega) ?_
    fun e' he => goesOn e' k he (by omega)
  refine (accepts_freshId _).bind fun id _ => ?_
  refine (accepts_arguments hargs shaped (by omega) hus hclose).bind fun es hes => .pure ?_
  rw [IsBare, Expr.bare, Expr.bare, hes]

/-! ### Arguments -/

theorem ArgsTaken.last (arg : Taken 0 e ws) (hws : ws ≠ []) : ArgsTaken [e] ws := by
  refine ⟨?_⟩
  intro levels fuel ts close rest _ hlevels hfuel spells hclose
  have hpos := List.length_pos_iff.2 hws
  have closes : Ends 0 close := .of_none hclose nofun (by decide) 0
  have notComma : close.isSymbol ',' = false := (hclose.isSymbol ',').trans rfl
  obtain ⟨k, rfl⟩ : ∃ k, fuel = k + 1 := ⟨fuel - 1, by omega⟩
  rw [Parser.argumentList]
  refine (arg.expression hlevels spells closes).bind fun e' he => ?_
  refine (accepts_not_acceptIf notComma rest).bind_eq ?_
  rw [if_neg Bool.false_ne_true]
  refine (accepts_expectIf _ ((hclose.isSymbol ')').trans rfl) _ rest).bind fun _ _ => .pure ?_
  rw [Expr.bareArgs, Expr.bareArgs, he]
  rfl

theorem ArgsTaken.more {es : List Expr} (arg : Taken 0 e ws) (later : ArgsTaken es ws')
    (hes : es ≠ []) : ArgsTaken (e :: es) (ws ++ .symbol ',' :: ws') := by
  refine ⟨?_⟩
  intro levels fuel ts close rest _ hlevels hfuel spells hclose
  obtain ⟨us, us', rfl, hus, hus'⟩ := spells_append spells
  cases hus' with
  | @cons _ comma _ vs hcomma hvs =>
  rw [List.length_append, List.length_cons] at hlevels hfuel
  have closes : Ends 0 comma := .of_none hcomma nofun (by decide) 0
  obtain ⟨k, rfl⟩ : ∃ k, fuel = k + 1 := ⟨fuel - 1, by omega⟩
  rw [Parser.argumentList, List.append_assoc, List.cons_append]
  refine (arg.expression (by omega) hus closes).bind fun e' he => ?_
  refine (accepts_acceptIf ((hcomma.isSymbol ',').trans rfl) _).bind_eq ?_
  rw [if_pos rfl]
  refine (later.accepts hes (by omega) (by omega) hvs hclose).bind fun es' hes' => .pure ?_
  rw [Expr.bareArgs, Expr.bareArgs, he, hes']

end

/-! ### Written expressions -/

/-- What is written does not begin with a closing bracket. -/
theorem Writes.head : ∀ {level : Nat} {e : Expr} {ws : List Word}, Writes level e ws →
    ∃ w ws', ws = w :: ws' ∧ w.closes = false
  | _, _, _, .group _ => ⟨_, _, rfl, rfl⟩
  | _, _, _, .name _ => ⟨_, _, rfl, rfl⟩
  | _, _, _, .integer .. => ⟨_, _, rfl, rfl⟩
  | _, _, _, .suffixed .. => ⟨_, _, rfl, rfl⟩
  | _, _, _, .decimal .. => ⟨_, _, rfl, rfl⟩
  | _, _, _, .string .. => ⟨_, _, rfl, rfl⟩
  | _, _, _, .bool _ => ⟨_, _, rfl, rfl⟩
  | _, _, _, .unary known _ _ _ => by
    have all : ∀ o ∈ Operator.table, o.word.closes = false := by decide
    exact ⟨_, _, rfl, all _ known⟩
  | _, _, _, .binary _ _ _ left _ => by
    obtain ⟨w, ws', rfl, hw⟩ := left.head
    exact ⟨w, _, rfl, hw⟩
  | _, _, _, .cast _ inner _ => by
    obtain ⟨w, ws', rfl, hw⟩ := inner.head
    exact ⟨w, _, rfl, hw⟩
  | _, _, _, .ternary _ cond _ _ => by
    obtain ⟨w, ws', rfl, hw⟩ := cond.head
    exact ⟨w, _, rfl, hw⟩
  | _, _, _, .call .. => ⟨_, _, rfl, rfl⟩

theorem Writes.ne_nil {level : Nat} {e : Expr} {ws : List Word} (h : Writes level e ws) :
    ws ≠ [] := by
  obtain ⟨w, ws', rfl, _⟩ := h.head
  exact List.cons_ne_nil w ws'

theorem WritesArgs.shaped {args : List Expr} {ws : List Word} (h : WritesArgs args ws) :
    ArgsShaped args ws := by
  cases h with
  | none => exact .inl ⟨rfl, rfl⟩
  | last arg => exact .inr ⟨List.cons_ne_nil _ _, arg.head⟩
  | more arg rest =>
    obtain ⟨w, ws', rfl, hw⟩ := arg.head
    exact .inr ⟨List.cons_ne_nil _ _, w, _, rfl, hw⟩

/-- The levels of operands are below those of calls. -/
theorem levels_le {o : Operator} {op : BinaryOp} (known : o ∈ Operator.table)
    (means : o.meaning = .binary op) : o.leftLevel ≤ 14 ∧ o.rightLevel ≤ 14 := by
  obtain ⟨_, hleft, _, hprecedence⟩ := binary_spec known means
  rw [Operator.leftLevel, Operator.rightLevel, if_pos hleft, if_pos hleft]
  omega

mutual

/-- Written expressions are taken, whatever way they are written. -/
theorem taken_of_writes : ∀ {level : Nat} {e : Expr} {ws : List Word}, Writes level e ws →
    level ≤ 14 → Taken level e ws
  | _, _, _, .group inner, hlevel => (taken_of_writes inner (Nat.zero_le 14)).group hlevel
  | _, _, _, .name _, _ => by
    refine Taken.of_operand fun {levels ts t rest} _ spells _ => ?_
    cases spells with
    | cons hname hnil =>
    cases hnil
    exact accepts_operand_of_atom (hname.not_operator (by nofun) (by nofun) _) (accepts_name hname _)
  | _, _, _, .integer _ whole value fits, _ => by
    refine Taken.of_operand fun {levels ts t rest} _ spells ends => ?_
    cases spells with
    | cons hnumber hnil =>
    cases hnil
    refine accepts_operand_of_atom (hnumber.not_operator (by nofun) (by nofun) _) ?_
    exact accepts_atom_number hnumber
      (accepts_number hnumber whole value fits (accepts_suffix_none ends.kind))
  | _, _, _, .suffixed _ whole value fits _ known, _ => by
    refine Taken.of_operand fun {levels ts t rest} _ spells _ => ?_
    cases spells with
    | cons hnumber spells =>
    cases spells with
    | cons htype hnil =>
    cases hnil
    refine accepts_operand_of_atom (hnumber.not_operator (by nofun) (by nofun) _) ?_
    exact accepts_atom_number hnumber
      (accepts_number hnumber whole value fits (accepts_suffix htype known _))
  | _, _, _, .decimal _ value, _ => by
    refine Taken.of_operand fun {levels ts t rest} _ spells _ => ?_
    cases spells with
    | cons hnumber hnil =>
    cases hnil
    exact accepts_operand_of_atom (hnumber.not_operator (by nofun) (by nofun) _)
      (accepts_atom_number hnumber (accepts_decimal hnumber value _))
  | _, _, _, .string _, _ => by
    refine Taken.of_operand fun {levels ts t rest} _ spells _ => ?_
    cases spells with
    | cons hstring hnil =>
    cases hnil
    exact accepts_operand_of_atom (hstring.not_operator (by nofun) (by nofun) _)
      (accepts_string hstring _)
  | _, _, _, .bool b, _ => by
    refine Taken.of_operand fun {levels ts t rest} _ spells _ => ?_
    cases spells with
    | cons hbool hnil =>
    cases hnil
    refine accepts_operand_of_atom ?_ (accepts_bool hbool _)
    rw [hbool.find?]
    cases b <;> decide
  | _, _, _, .unary known means _ inner, hlevel =>
    (taken_of_writes inner (Nat.le_of_eq (unary_spec known means).2)).unary known means hlevel
  | _, _, _, .binary known means bound left right, _ =>
    .binary known means bound (taken_of_writes left (levels_le known means).1)
      (taken_of_writes right (levels_le known means).2) left.ne_nil
  | _, _, _, .cast bound inner _, _ => (taken_of_writes inner (by decide)).cast bound
  | _, _, _, .ternary bound cond yes no, _ =>
    .ternary bound (taken_of_writes cond (by decide)) (taken_of_writes yes (by decide))
      (taken_of_writes no (by decide)) cond.ne_nil
  | _, _, _, .call _ _ args, hlevel => .call hlevel (argsTaken_of_writes args) args.shaped

theorem argsTaken_of_writes : ∀ {args : List Expr} {ws : List Word}, WritesArgs args ws →
    ArgsTaken args ws
  | _, _, .none => ⟨fun h => absurd rfl h⟩
  | _, _, .last arg => .last (taken_of_writes arg (Nat.zero_le 14)) arg.ne_nil
  | _, _, .more arg rest =>
    .more (taken_of_writes arg (Nat.zero_le 14)) (argsTaken_of_writes rest) (List.cons_ne_nil _ _)

end

/-! ### Texts -/

mutual

/-- Only tokens of the language are written. -/
theorem Writes.legal : ∀ {level : Nat} {e : Expr} {ws : List Word}, Writes level e ws →
    ∀ w ∈ ws, w.Legal
  | _, _, _, .group inner => by
    rw [List.forall_mem_cons, List.forall_mem_append, List.forall_mem_singleton]
    exact ⟨.symbol (by decide), inner.legal, .symbol (by decide)⟩
  | _, _, _, .name legal => List.forall_mem_singleton.2 legal
  | _, _, _, .integer legal _ _ _ => List.forall_mem_singleton.2 legal
  | _, _, _, .suffixed legal _ _ _ type _ =>
    List.forall_mem_cons.2 ⟨legal, List.forall_mem_singleton.2 type⟩
  | _, _, _, .decimal legal _ => List.forall_mem_singleton.2 legal
  | _, _, _, .string legal => List.forall_mem_singleton.2 legal
  | _, _, _, .bool _ => List.forall_mem_singleton.2 (.keyword _)
  | _, _, _, .unary known _ _ inner => List.forall_mem_cons.2 ⟨word_legal known, inner.legal⟩
  | _, _, _, .binary known _ _ left right => by
    rw [List.forall_mem_append, List.forall_mem_cons]
    exact ⟨left.legal, word_legal known, right.legal⟩
  | _, _, _, .cast _ inner type => by
    rw [List.forall_mem_append, List.forall_mem_cons, List.forall_mem_singleton]
    exact ⟨inner.legal, word_legal (by decide), type⟩
  | _, _, _, .ternary _ cond yes no => by
    rw [List.forall_mem_append, List.forall_mem_cons, List.forall_mem_append, List.forall_mem_cons]
    exact ⟨cond.legal, word_legal (by decide), yes.legal, .symbol (by decide), no.legal⟩
  | _, _, _, .call _ callee args => by
    rw [List.forall_mem_cons, List.forall_mem_cons, List.forall_mem_append,
      List.forall_mem_singleton]
    exact ⟨callee, word_legal (by decide), args.legal, .symbol (by decide)⟩

theorem WritesArgs.legal : ∀ {args : List Expr} {ws : List Word}, WritesArgs args ws →
    ∀ w ∈ ws, w.Legal
  | _, _, .none => nofun
  | _, _, .last arg => arg.legal
  | _, _, .more arg rest => by
    rw [List.forall_mem_append, List.forall_mem_cons]
    exact ⟨arg.legal, .symbol (by decide), rest.legal⟩

end

/-- Parse a source that is one expression, with at most so many levels of nesting. -/
def parseExpressionWithin (limit : Nat) (text : String) : Except ParseError Expr :=
  let reader := TokenReader.ofLexer (.ofText .language "<expr>" text)
  let (result, s) := Parser.standalone.run.run { reader, limit }
  let (_, s) := Parser.reportFound.run.run s
  match result, s.errors with
  | .ok e, [] => .ok e
  | .ok _, e :: _ => .error e
  | .error e, _ => .error e

theorem parseExpressionWithin_default : parseExpressionWithin 128 = parseExpression := rfl

/-- A text is read without errors if its tokens are. -/
theorem before_of_drain {text : String} {ts : List Token} (limit : Nat)
    (drained : (Lexer.before (.start "<expr>" text)).drain.1 = ts.map fun t => (t, [])) :
    ParserState.Before { reader := .ofLexer (.ofText .language "<expr>" text), limit } ts := by
  have hrest : (TokenReader.ofLexer (.ofText .language "<expr>" text)).rest =
      ts.map fun t => (t, []) := drained
  refine ⟨?_, ⟨?_, rfl⟩, rfl⟩
  · change [] ++ (TokenReader.ofLexer (.ofText .language "<expr>" text)).rest.map Prod.fst = _
    rw [hrest, List.map_map, List.nil_append]
    exact List.map_id _
  · intro p hp
    change p ∈ (TokenReader.ofLexer (.ofText .language "<expr>" text)).rest at hp
    rw [hrest] at hp
    obtain ⟨t, _, rfl⟩ := List.mem_map.1 hp
    rfl

/-- A text of words is read without errors. -/
theorem before_of_spaced {ws : List Word} {text : String} (spaced : Spaced ws text.toList)
    (legal : ∀ w ∈ ws, w.Legal) (limit : Nat) : ∃ ts last,
      ParserState.Before
          { reader := .ofLexer (.ofText .language "<expr>" text), limit } (ts ++ [last]) ∧
        List.Forall₂ Word.Spells ws ts ∧ last.kind = .endOfFile := by
  obtain ⟨ts, last, hdrain, spells, hlast⟩ := Lexer.drain_of_spaced spaced legal (.startOf "<expr>")
  exact ⟨ts, last, before_of_drain limit hdrain, spells, hlast⟩

/-- No expression goes on past the end of a text. -/
theorem find?_endOfFile {last : Token} (h : last.kind = .endOfFile) (arity : Arity) :
    Operator.find? last arity = none :=
  find?_eq_none (by rw [h]; nofun) (by rw [h]; nofun) arity

theorem Ends.of_endOfFile {last : Token} (h : last.kind = .endOfFile) (level : Nat) :
    Ends level last := by
  refine ⟨by rw [h]; nofun, fun o ho => ?_⟩
  rw [find?_endOfFile h] at ho
  cases ho

theorem accepts_loop_end {last : Token} (h : last.kind = .endOfFile) :
    Accepts (loop levels least links lhs) (last :: rest) (last :: rest) (· = lhs) :=
  accepts_loop_stop fun o ho => by
    rw [find?_endOfFile h] at ho
    cases ho

/-- A text is parsed to what the tokens before its end are taken as. -/
theorem parse_of_accepts {text : String} {limit : Nat} {ts : List Token} {last : Token}
    (before : ParserState.Before { reader := .ofLexer (.ofText .language "<expr>" text), limit } ts)
    (hlast : last.kind = .endOfFile) (taken : Accepts (expression limit) ts [last] Q) :
    ∃ e, parseExpressionWithin limit text = .ok e ∧ Q e := by
  have hkind : (last.kind == .endOfFile) = true := beq_iff_eq.2 hlast
  have accepted : Accepts (do
      let e ← expression limit
      let _ ← Parser.expectKind .endOfFile
      return e) ts [] Q :=
    taken.bind fun e he =>
      (accepts_expectIf (·.kind == .endOfFile) hkind _ _).bind fun _ _ => .pure he
  obtain ⟨e, s', hrun, after, he⟩ := accepted _ before
  refine ⟨e, ?_, he⟩
  have standalone : Parser.standalone.run.run
      { reader := .ofLexer (.ofText .language "<expr>" text), limit } = (.ok e, s') := hrun
  have reported : (Parser.reportFound.run.run s').2.errors = [] := by
    change s'.errors ++ s'.reader.found.map .ofLex = []
    rw [after.errors, after.clean.found]
    rfl
  unfold parseExpressionWithin
  dsimp only
  rw [standalone]
  dsimp only
  cases hreport : Parser.reportFound.run.run s' with
  | mk r s'' =>
    rw [hreport] at reported
    dsimp only at reported ⊢
    rw [reported]

/-- What the tokens are refused with is the error that the text has. -/
theorem parse_of_refuses {text : String} {limit : Nat} {ts : List Token} {e : ParseError}
    (before : ParserState.Before { reader := .ofLexer (.ofText .language "<expr>" text), limit } ts)
    (refused : Refuses (expression limit) ts e) : parseExpressionWithin limit text = .error e := by
  obtain ⟨s', hrun⟩ := refused.bind (f := fun e => do
    let _ ← Parser.expectKind .endOfFile
    return e) _ before
  have standalone : Parser.standalone.run.run
      { reader := .ofLexer (.ofText .language "<expr>" text), limit } = (.error e, s') := hrun
  unfold parseExpressionWithin
  dsimp only
  rw [standalone]
  rfl

/-- An expression that is written in a text of words with blanks between them is what the text is
parsed to, places apart. -/
theorem exists_parse_of_writes {e : Expr} {ws : List Word} {text : String} {limit : Nat}
    (writes : Writes 0 e ws) (spaced : Spaced ws text.toList) (room : ws.length + 2 ≤ limit) :
    ∃ e', parseExpressionWithin limit text = .ok e' ∧ e'.bare = e.bare := by
  obtain ⟨ts, last, before, spells, hlast⟩ := before_of_spaced spaced writes.legal limit
  exact parse_of_accepts before hlast
    ((taken_of_writes writes (Nat.zero_le 14)).expression room spells (.of_endOfFile hlast 0))

/-- Expressions are parsed as the operator table says: operators on two values group to the left, the
ternary to the right, casts bind less than operators before an operand, and calls bind tightest.
Whatever text an expression is written in, with brackets wherever the table asks for them, is parsed
to the expression. -/
theorem parsing_follows_table :
    (∀ o ∈ Operator.table, ∀ op, o.meaning = .binary op → o.associativity = .left) ∧
      Operator.ternary.associativity = .right ∧
      (∀ o ∈ Operator.table, ∀ op, o.meaning = .unary op →
        Operator.cast.precedence < o.precedence) ∧
      (∀ o ∈ Operator.table, o.meaning ≠ .call → o.precedence < Operator.call.precedence) ∧
      ∀ (e : Expr) (ws : List Word) (text : String) (limit : Nat), Writes 0 e ws →
        Spaced ws text.toList → ws.length + 2 ≤ limit →
          ∃ e', parseExpressionWithin limit text = .ok e' ∧ e'.bare = e.bare := by
  refine ⟨fun o known op means => (binary_spec known means).2.1, rfl, fun o known op means => ?_,
    by decide, fun _ _ _ _ => exists_parse_of_writes⟩
  rw [(unary_spec known means).2]
  decide

/-- Words with a blank behind each. -/
def line (ws : List Word) : List Char := ws.flatMap fun w => w.spelling ++ [' ']

theorem spaced_line : ∀ (ws : List Word) (blanks : List Char),
    (∀ c ∈ blanks, Text.isBlank c = true) → Spaced ws (blanks ++ line ws)
  | [], blanks, h => by
    rw [line, List.flatMap_nil, List.append_nil]
    exact .nil h
  | w :: ws, blanks, h => by
    have behind : Spaced ws ([' '] ++ line ws) :=
      spaced_line ws _ (List.forall_mem_singleton.2 (by decide))
    have apart : Separated ([' '] ++ line ws) := by
      rintro c ⟨⟩
      decide
    rw [line, List.flatMap_cons, List.append_assoc]
    exact .cons h apart behind

/-- `-f(a, 16 i32) as i64 - b - 2.5 * c ? "s" : d ? true : e`, without places, where `x` is 2.5. -/
def mixed (x : Float) : Expr :=
  let node : Node := ⟨0, default⟩
  let name (s : String) : Expr := .name node s
  let call : Expr :=
    .call node ⟨"f", default⟩ [name "a", .integer node 16 (some ⟨"i32", default⟩)]
  .ternary node
    (.binary node .sub (.binary node .sub (.cast node (.unary node .neg call) ⟨"i64", default⟩)
      (name "b")) (.binary node .mul (.decimal node x) (name "c")))
    (.string node "s") (.ternary node (name "d") (.bool node true) (name "e"))

/-- A way to write it with no brackets but one pair that could be left out. -/
def mixedWords : List Word :=
  [.symbol '-', .name ['f'], .symbol '(', .name ['a'], .symbol ',',
   .number .hex ['0', 'x'] ['1', '0'], .name ['i', '3', '2'], .symbol ')', .keyword .as,
   .name ['i', '6', '4'], .symbol '-', .name ['b'], .symbol '-',
   .number .decimal [] ['2', '.', '5'], .symbol '*', .name ['c'], .symbol '?',
   .string '"' [.plain 's'], .symbol ':', .symbol '(', .name ['d'], .symbol '?', .keyword .true,
   .symbol ':', .name ['e'], .symbol ')']

theorem mixed_writes : ∃ x, Decimal.readFloat? ['2', '.', '5'] = some x ∧
    Writes 0 (mixed x) mixedWords := by
  refine ⟨_, rfl, ?_⟩
  let node : Node := ⟨0, default⟩
  have letter : ∀ c ∈ ['a', 'b', 'c', 'd', 'e', 'f'], (Word.name [c]).Legal := by
    intro c hc
    have letters : (['a', 'b', 'c', 'd', 'e', 'f'].all fun c => Text.isWordStart c &&
        decide (Profile.language.keywordCode? (String.ofList [c]) = none)) = true := by
      decide
    obtain ⟨start, free⟩ := Bool.and_eq_true_iff.1 (List.all_eq_true.1 letters c hc)
    exact .name start nofun (of_decide_eq_true free)
  have i32 : (Word.name ['i', '3', '2']).Legal :=
    .name (by decide) (List.all_eq_true.1 (by decide)) (by decide)
  have i64 : (Word.name ['i', '6', '4']).Legal :=
    .name (by decide) (List.all_eq_true.1 (by decide)) (by decide)
  have sixteen : (Word.number .hex ['0', 'x'] ['1', '0']).Legal :=
    .hex (.inl rfl) (List.all_eq_true.1 (by decide))
  have half : (Word.number .decimal [] ['2', '.', '5']).Legal :=
    @Word.Legal.decimal '2' '5' [] [] (List.all_eq_true.1 (by decide))
      (List.all_eq_true.1 (by decide))
  have name (level : Nat) (c : Char) (hc : c ∈ ['a', 'b', 'c', 'd', 'e', 'f']) :
      Writes level (.name node (String.ofList [c])) [.name [c]] := .name (letter c hc)
  have suffixed : Writes 0 (.integer node 16 (some ⟨String.ofList ['i', '3', '2'], default⟩))
      [.number .hex ['0', 'x'] ['1', '0'], .name ['i', '3', '2']] :=
    .suffixed sixteen nofun (by decide) (by decide) i32 (by decide)
  have call := @Writes.call 14 node ['f'] default _ _ (by decide) (letter 'f' (by decide))
    (.more (name 0 'a' (by decide)) (.last suffixed))
  have negation := @Writes.unary 13 node (.ofUnary '-' .neg) .neg _ _ (by decide) rfl (by decide) call
  have cast := @Writes.cast 11 node _ _ ['i', '6', '4'] default (by decide) negation i64
  have product := @Writes.binary 12 node (.ofSymbol '*' 12 .mul) .mul _ _ _ _ (by decide) rfl
    (by decide) (@Writes.decimal 12 node _ _ half rfl) (name 13 'c' (by decide))
  have first := @Writes.binary 11 node (.ofSymbol '-' 11 .sub) .sub _ _ _ _ (by decide) rfl
    (by decide) cast (name 12 'b' (by decide))
  have cond := @Writes.binary 3 node (.ofSymbol '-' 11 .sub) .sub _ _ _ _ (by decide) rfl
    (by decide) first product
  have inner := @Writes.ternary 0 node _ _ _ _ _ _ (by decide) (name 3 'd' (by decide))
    (@Writes.bool 0 node true) (name 2 'e' (by decide))
  have text := @Writes.string 0 node '"' [.plain 's'] (.string rfl (by simp [StringPiece.Fits]))
  exact .ternary (by decide) cond text (.group inner)

/-- The text is parsed as it is meant. -/
theorem mixed_parsed : ∃ x e', Decimal.readFloat? ['2', '.', '5'] = some x ∧
    parseExpressionWithin 30
      "- f ( a , 0x10 i32 ) as i64 - b - 2.5 * c ? \"s\" : ( d ? true : e ) " = .ok e' ∧
      e'.bare = mixed x := by
  obtain ⟨x, hx, writes⟩ := mixed_writes
  have htext : "- f ( a , 0x10 i32 ) as i64 - b - 2.5 * c ? \"s\" : ( d ? true : e ) ".toList =
      line mixedWords := by
    decide
  have spaced := spaced_line mixedWords [] nofun
  rw [List.nil_append, ← htext] at spaced
  obtain ⟨_, _, _, _, parses⟩ := parsing_follows_table
  obtain ⟨e', hparse, he⟩ := parses _ _ _ 30 writes spaced (by decide)
  exact ⟨x, e', hx, hparse, he⟩

end ScriptLang.Syntax
