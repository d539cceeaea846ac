import ScriptLang.Proofs.ItemRounds

/-!
# The end of the source stays ahead

Inside an item or a statement no parser takes the end of file, whatever it meets (`Spares`).  So where a
repetition is bounded by the number of tokens that are left, a token is left each time it goes on, and a
greater bound makes no difference (`Ample`).  Both are told of two parsers at once (`Coincide`), parser
by parser.
-/

namespace ScriptLang.Syntax

open TokenReader (EndsOnce)

/-- What is seen depends on the tokens that are left, not on how many of them have been reached. -/
theorem TokenReader.peekNth_congr {r r' : TokenReader} (tokens : r.toList = r'.toList)
    (last : r.last = r'.last) (n : Nat) : (r.peekNth n).1 = (r'.peekNth n).1 := by
  rw [peekNth_eq, peekNth_eq, tokens, last]

/-! ### States before the end -/

/-- An end of file is left as the last token, and no other is. -/
structure ParserState.Ended (s : ParserState) : Prop where
  tokens : ∃ ts eof, s.reader.toList = ts ++ [eof] ∧ eof.isEndOfFile = true ∧
    ∀ t ∈ ts, t.isEndOfFile = false
  last : s.reader.last.isEndOfFile = true

namespace ParserState.Ended

variable {s t : ParserState}

theorem of_tokens (h : s.Ended) (tokens : t.reader.toList = s.reader.toList)
    (last : t.reader.last = s.reader.last) : t.Ended :=
  ⟨tokens ▸ h.tokens, last ▸ h.last⟩

/-- A token is left, and it is the next one. -/
theorem exists_cons (h : s.Ended) : ∃ ts, s.reader.toList = (s.reader.peekNth 0).1 :: ts := by
  obtain ⟨ts, eof, tokens, -, -⟩ := h.tokens
  obtain ⟨u, us, some⟩ := List.exists_cons_of_ne_nil (l := s.reader.toList) (by rw [tokens]; simp)
  exact ⟨us, by rw [some, TokenReader.peek_eq some]⟩

theorem size_pos (h : s.Ended) : 0 < s.reader.size := by
  obtain ⟨ts, tokens⟩ := h.exists_cons
  rw [TokenReader.size_eq, tokens]
  exact Nat.succ_pos _

theorem endsOnce (h : s.Ended) : EndsOnce s.reader.toList := by
  obtain ⟨ts, eof, tokens, -, others⟩ := h.tokens
  rw [tokens]
  clear tokens
  induction ts with
  | nil => exact ⟨fun _ => rfl, trivial⟩
  | cons t ts ih =>
    obtain ⟨other, others⟩ := List.forall_mem_cons.1 others
    exact ⟨fun final => absurd final (by rw [other]; exact Bool.false_ne_true), ih others⟩

/-- At the end of file nothing else is left. -/
theorem eq_singleton (h : s.Ended) (final : (s.reader.peekNth 0).1.isEndOfFile = true) :
    s.reader.toList = [(s.reader.peekNth 0).1] := by
  obtain ⟨ts, tokens⟩ := h.exists_cons
  have once := h.endsOnce
  rw [tokens] at once ⊢
  rw [once.1 final]

/-- Behind a token that is no end of file the end of file is still left. -/
theorem tail (h : s.Ended) (other : (s.reader.peekNth 0).1.isEndOfFile = false)
    (tokens : t.reader.toList = s.reader.toList.tail) (last : t.reader.last = s.reader.last) :
    t.Ended := by
  refine ⟨?_, last ▸ h.last⟩
  obtain ⟨us, next⟩ := h.exists_cons
  obtain ⟨ts, eof, whole, final, others⟩ := h.tokens
  rw [next] at whole
  rw [tokens, next]
  cases ts with
  | nil =>
    obtain ⟨same, -⟩ := List.cons.inj whole
    rw [same, final] at other
    cases other
  | cons u ts =>
    obtain ⟨-, rest⟩ := List.cons.inj whole
    exact ⟨ts, eof, rest, final, fun v hv => others v (List.mem_cons_of_mem _ hv)⟩

end ParserState.Ended

/-- At most `k` tokens are left, the end of file among them. -/
def Within (k : Nat) (s : ParserState) : Prop := s.Ended ∧ s.reader.size ≤ k

/-- The next of them is `t`. -/
def WithinAt (k : Nat) (t : Token) (s : ParserState) : Prop :=
  Within k s ∧ (s.reader.peekNth 0).1 = t

/-- The second of them is `t`. -/
def WithinBehind (k : Nat) (t : Token) (s : ParserState) : Prop :=
  Within k s ∧ (s.reader.peekNth 1).1 = t

theorem Within.mono {j k : Nat} {s : ParserState} (h : Within j s) (le : j ≤ k) : Within k s :=
  ⟨h.1, Nat.le_trans h.2 le⟩

/-- Nothing but the next token has been taken. -/
theorem WithinAt.next {k : Nat} {t : Token} {s : ParserState} (h : WithinAt k t s)
    (other : t.isEndOfFile = false) : Within (k - 1) (Parser.next.run.run s).2 := by
  have tokens : (Parser.next.run.run s).2.reader.toList = s.reader.toList.tail :=
    TokenReader.toList_next _
  refine ⟨h.1.1.tail (h.2.symm ▸ other) tokens (TokenReader.last_next _), ?_⟩
  have few := h.1.2
  rw [TokenReader.size_eq] at few ⊢
  rw [tokens, List.length_tail]
  omega

/-! ### Parsers that do the same -/

/-- From the states of `I` the parsers do the same, and then at most `k` tokens are left, the end of
file among them. -/
def CoincideFrom {α : Type} (I : ParserState → Prop) (k : Nat) (p q : Parser α) : Prop :=
  ∀ s, I s → p.run.run s = q.run.run s ∧ Within k (p.run.run s).2

/-- Where at most `k` tokens are left the parsers do the same and spare the end of file. -/
abbrev Coincide {α : Type} (k : Nat) (p q : Parser α) : Prop := CoincideFrom (Within k) k p q

/-- The same where `t` is next. -/
abbrev CoincideAt {α : Type} (k : Nat) (t : Token) (p q : Parser α) : Prop :=
  CoincideFrom (WithinAt k t) k p q

/-- Where at most `k` tokens are left the parser spares the end of file. -/
abbrev Spares {α : Type} (k : Nat) (p : Parser α) : Prop := Coincide k p p

/-- The same where `t` is next. -/
abbrev SparesAt {α : Type} (k : Nat) (t : Token) (p : Parser α) : Prop := CoincideAt k t p p

/-- The number of the tokens that are left is as good a bound of the loop as any greater one. -/
def Ample {α : Type} (loop : Nat → Parser α) : Prop :=
  ∀ k n m, k ≤ n → k ≤ m → Coincide k (loop n) (loop m)

section

variable {α β : Type} {I : ParserState → Prop} {j k : Nat} {t : Token} {p q p' q' : Parser α}
  {f g : α → Parser β}

theorem CoincideFrom.bind (hp : CoincideFrom I k p q) (hf : ∀ a, Coincide k (f a) (g a)) :
    CoincideFrom I k (p >>= f) (q >>= g) := by
  intro s hs
  obtain ⟨same, within⟩ := hp s hs
  rw [run_bind, run_bind, ← same]
  generalize p.run.run s = r at within
  obtain ⟨r, t⟩ := r
  cases r with
  | ok a => exact hf a t within
  | error e => exact ⟨rfl, within⟩

theorem CoincideFrom.ite {c : Prop} [Decidable c] (hp : CoincideFrom I k p q)
    (hq : CoincideFrom I k p' q') : CoincideFrom I k (if c then p else p') (if c then q else q') := by
  split
  · exact hp
  · exact hq

theorem CoincideFrom.mono (h : Coincide j p q) (le : j ≤ k) : CoincideFrom (Within j) k p q :=
  fun s hs => ⟨(h s hs).1, (h s hs).2.mono le⟩

theorem CoincideFrom.at (h : Coincide k p q) : CoincideAt k t p q := fun s hs => h s hs.1

theorem spares_pure (a : α) : Spares k (pure a) := fun _ hs => ⟨rfl, hs⟩

theorem spares_throw (e : ParseError) : Spares k (throw e : Parser α) := fun _ hs => ⟨rfl, hs⟩

/-- Where no token is left there is no end of file. -/
theorem coincide_zero : Coincide 0 p q := fun _ hs => absurd hs.1.size_pos (Nat.not_lt.2 hs.2)

theorem within_peekNth {s : ParserState} (n : Nat) (h : Within k s) :
    Within k ((Parser.peekNth n).run.run s).2 := by
  have tokens : ((Parser.peekNth n).run.run s).2.reader.toList = s.reader.toList :=
    TokenReader.toList_reach _ _
  refine ⟨h.1.of_tokens tokens (TokenReader.last_reach _ _), ?_⟩
  have few := h.2
  rw [TokenReader.size_eq] at few ⊢
  rwa [tokens]

/-- After a look at the next token. -/
theorem CoincideFrom.look {f g : Token → Parser β} (h : ∀ t, CoincideAt k t (f t) (g t)) :
    Coincide k (Parser.peek >>= f) (Parser.peek >>= g) := by
  intro s hs
  rw [run_bind, run_bind, run_peek]
  refine h _ _ ⟨within_peekNth 0 hs, ?_⟩
  change ((s.reader.peekNth 0).2.peekNth 0).1 = _
  rw [TokenReader.peek_again]

/-- Who looks again sees the same token. -/
theorem CoincideFrom.lookAgain {f : Token → Parser β} (h : SparesAt k t (f t)) :
    SparesAt k t (Parser.peek >>= f) := by
  intro s hs
  rw [run_bind, run_peek, hs.2]
  refine h _ ⟨within_peekNth 0 hs.1, ?_⟩
  rw [← hs.2]
  exact congrArg Prod.fst (TokenReader.peek_again s.reader)

/-- After the next token, which is no end of file. -/
theorem CoincideFrom.take {f g : Token → Parser β} (other : t.isEndOfFile = false)
    (h : ∀ t, Coincide (k - 1) (f t) (g t)) :
    CoincideAt k t (Parser.next >>= f) (Parser.next >>= g) := fun _ hs =>
  (h _).mono (Nat.sub_le k 1) _ (hs.next other)

theorem spares_next (other : t.isEndOfFile = false) : SparesAt k t Parser.next := fun _ hs =>
  ⟨rfl, (hs.next other).mono (Nat.sub_le k 1)⟩

theorem CoincideFrom.node {f : Node → Parser β} (u : Token) (h : ∀ node, SparesAt k t (f node)) :
    SparesAt k t (Parser.nodeAt u >>= f) := fun s hs =>
  h _ { s with nextId := s.nextId + 1 } ⟨⟨⟨hs.1.1.tokens, hs.1.1.last⟩, hs.1.2⟩, hs.2⟩

theorem spares_freshId : Spares k Parser.freshId := fun _ hs =>
  ⟨rfl, ⟨hs.1.tokens, hs.1.last⟩, hs.2⟩

theorem spares_nodeAt (u : Token) : Spares k (Parser.nodeAt u) :=
  spares_freshId.bind fun _ => spares_pure _

/-- The number of the tokens that are left bounds what follows. -/
theorem CoincideFrom.counted {f : Nat → Parser β} (h : ∀ n, Spares n (f n)) :
    Spares k (do f (← Parser.remaining)) := fun s hs =>
  (h s.reader.size).mono hs.2 s ⟨hs.1, Nat.le_refl _⟩

theorem Ample.spares {loop : Nat → Parser β} (h : Ample loop) (n : Nat) : Spares n (loop n) :=
  h n n n (Nat.le_refl n) (Nat.le_refl n)

theorem spares_expectIf {test : Token → Bool} (plain : ∀ t, test t = true → t.isEndOfFile = false)
    (what : String) : Spares k (Parser.expectIf test what) := by
  refine .look fun t => ?_
  split
  · next yes => exact spares_next (plain t yes)
  · exact .at (spares_throw _)

/-- With a token taken there is one less left. -/
theorem CoincideFrom.branch {test : Token → Bool}
    (plain : ∀ t, test t = true → t.isEndOfFile = false) (hp : Coincide (k - 1) p q)
    (hq : Coincide k p' q') :
    Coincide k (do if ← Parser.acceptIf test then p else p')
      (do if ← Parser.acceptIf test then q else q') := by
  unfold Parser.acceptIf
  simp only [bind_assoc]
  refine .look fun t => ?_
  split
  · next yes =>
    simp only [bind_assoc, pure_bind, if_true]
    exact .take (plain t yes) fun _ => hp
  · simp only [pure_bind, Bool.false_eq_true, if_false]
    exact .at hq

end

/-! ### Tokens that are no end -/

section

variable {t : Token}

theorem other_of_kind {kind : TokenKind} (h : t.kind = kind) (other : kind ≠ .endOfFile) :
    t.isEndOfFile = false :=
  beq_eq_false_iff_ne.2 (h ▸ other)

theorem other_of_isSymbol {c : Char} (h : t.isSymbol c = true) : t.isEndOfFile = false :=
  other_of_kind (isSymbol_iff.1 h).1 (by decide)

theorem other_of_isWord {w : Keyword} (h : t.isWord w = true) : t.isEndOfFile = false :=
  other_of_kind (kind_of_isWord h) (by decide)

/-- What makes a statement an assignment is an operator. -/
theorem other_of_assigns (h : ¬(!t.isSymbol '=' && (compoundAssignment? t).isNone &&
    (Parser.stepOperator? t).isNone) = true) : t.isEndOfFile = false := by
  refine Bool.eq_false_iff.2 fun final => h ?_
  have kind : t.kind = .endOfFile := beq_iff_eq.1 final
  simp [compoundAssignment?, Parser.stepOperator?, isWord_of_isEndOfFile final, Token.isSymbol,
    Token.is, kind]

theorem other_of_find? {a : Arity} {op : Operator} (h : Operator.find? t a = some op) :
    t.isEndOfFile = false := by
  have kinds : ∀ o ∈ Operator.table, o.kind ≠ .endOfFile := by decide
  have found := List.find?_some h
  rw [Bool.and_eq_true, Token.is, Bool.and_eq_true, beq_iff_eq] at found
  exact other_of_kind (beq_iff_eq.1 found.2.1) (kinds op (List.mem_of_find?_eq_some h))

end

/-! ### Names and numbers -/

section

variable {α β : Type} {k : Nat} {t : Token} {p q p' q' : Parser α}

theorem spares_expectSymbol (c : Char) : Spares k (Parser.expectSymbol c) :=
  spares_expectIf (fun _ => other_of_isSymbol) _

theorem spares_ended (c : Char) (a : α) : Spares k (do let _ ← Parser.expectSymbol c; return a) :=
  (spares_expectSymbol c).bind fun _ => spares_pure a

theorem spares_expectWord (w : Keyword) : Spares k (Parser.expectWord w) :=
  spares_expectIf (fun _ => other_of_isWord) _

theorem spares_expectKind {kind : TokenKind} (other : kind ≠ .endOfFile) :
    Spares k (Parser.expectKind kind) :=
  spares_expectIf (fun _ h => other_of_kind (beq_iff_eq.1 h) other) _

theorem CoincideFrom.symbol {c : Char} (hp : Coincide (k - 1) p q) (hq : Coincide k p' q') :
    Coincide k (do if ← Parser.acceptSymbol c then p else p')
      (do if ← Parser.acceptSymbol c then q else q') :=
  .branch (fun _ => other_of_isSymbol) hp hq

theorem CoincideFrom.word {w : Keyword} (hp : Coincide (k - 1) p q) (hq : Coincide k p' q') :
    Coincide k (do if ← Parser.acceptWord w then p else p')
      (do if ← Parser.acceptWord w then q else q') :=
  .branch (fun _ => other_of_isWord) hp hq

theorem spares_failExpected (what : String) : Spares k (Parser.failExpected what : Parser α) :=
  .look fun _ => .at (spares_throw _)

theorem spares_failTooDeep : Spares k (Parser.failTooDeep : Parser α) := by
  refine .look fun t => ?_
  intro s hs
  exact ⟨rfl, hs.1⟩

theorem spares_ident : Spares k Parser.ident :=
  (spares_expectKind (by decide)).bind fun _ => spares_pure _

theorem reader_of_ident {s s' : ParserState} {name : Ident}
    (run : Parser.ident.run.run s = (.ok name, s')) :
    s'.reader.toList = s.reader.toList.tail ∧ s'.reader.last = s.reader.last := by
  obtain ⟨u, s₁, first, second⟩ := run_bind_ok run
  cases second
  rw [Parser.expectKind, Parser.expectIf, run_bind, run_peek] at first
  dsimp only at first
  split at first
  · cases first
    have tokens : (s.reader.peekNth 0).2.toList = s.reader.toList := TokenReader.toList_reach _ _
    have last : (s.reader.peekNth 0).2.last = s.reader.last := TokenReader.last_reach _ _
    exact ⟨tokens ▸ TokenReader.toList_next _, last ▸ TokenReader.last_next _⟩
  · cases first

theorem spares_typeName : Spares k Parser.typeName :=
  (spares_expectKind (by decide)).bind fun _ => spares_pure _

theorem spares_suffix : Spares k Parser.suffix := by
  refine .look fun t => ?_
  split
  · next named => exact .take (other_of_kind named.1 (by decide)) fun _ => spares_pure _
  · exact .at (spares_pure _)

theorem spares_number (t : Token) : Spares k (Parser.number t) := by
  unfold Parser.number
  refine .ite ?_ ?_
  · cases Decimal.readFloat? t.text.toList with
    | some x => exact spares_pure _
    | none => exact spares_throw _
  · cases Decimal.readNat? (Parser.baseOf t) t.text.toList with
    | none => exact spares_throw _
    | some n => exact .ite (spares_throw _) (spares_suffix.bind fun _ => spares_pure _)

/-! ### Expressions -/

theorem spares_made {make : Node → β} (u : Token) : Spares k (do return make (← Parser.nodeAt u)) :=
  (spares_nodeAt u).bind fun _ => spares_pure _

theorem spares_atom (t : Token) : SparesAt k t (Parser.atom t) := by
  unfold Parser.atom
  split
  · next kind =>
    exact .take (other_of_kind kind (by decide)) fun t' =>
      (spares_number t').bind fun _ => spares_made t
  · next kind =>
    refine .take (other_of_kind kind (by decide)) fun t' => .ite ?_ ?_
    · exact (spares_pure _).bind fun _ => spares_made t
    · exact (spares_throw _).bind fun _ => spares_made t
  · next kind =>
    exact .take (other_of_kind kind (by decide)) fun t' =>
      (spares_pure _).bind fun _ => spares_made t
  · split
    · next yes =>
      exact .take (other_of_isWord yes) fun _ => (spares_pure _).bind fun _ => spares_made t
    · split
      · next no =>
        exact .take (other_of_isWord no) fun _ => (spares_pure _).bind fun _ => spares_made t
      · exact .at ((spares_failExpected _).bind fun _ => spares_made t)

variable {expr operand : Parser Expr} {climb : Expr → Nat → Parser Expr} {body : Parser Block}

theorem spares_bracketed (hexpr : ∀ k, Spares k expr) (op : Operator) (opening : Token) :
    Spares k (Parser.bracketed expr op opening) := by
  refine (hexpr k).bind fun inner => (spares_expectSymbol _).bind fun _ => .look fun t => ?_
  split
  · exact .at (spares_throw _)
  · exact .at (spares_pure _)

/-- Of arguments there are no more than tokens. -/
theorem ample_argumentList (hexpr : ∀ k, Spares k expr) (closing : Char) :
    Ample (Parser.argumentList expr closing)
  | 0, _, _, _, _ => coincide_zero
  | k + 1, n + 1, m + 1, hn, hm => by
    unfold Parser.argumentList
    refine (hexpr _).bind fun e => .symbol ?_ ?_
    · exact (ample_argumentList hexpr closing k n m (Nat.le_of_succ_le_succ hn)
        (Nat.le_of_succ_le_succ hm)).bind fun _ => spares_pure _
    · exact spares_ended _ _

theorem spares_arguments (hexpr : ∀ k, Spares k expr) (closing : Char) :
    Spares k (Parser.arguments expr closing) :=
  .symbol (spares_pure _) (.counted (ample_argumentList hexpr closing).spares)

theorem spares_applyOperator (hexpr : ∀ k, Spares k expr)
    (hoperand : ∀ k, Spares k operand) (hclimb : ∀ e n k, Spares k (climb e n))
    (op : Operator) (t : Token) (lhs : Expr) :
    Spares k (Parser.applyOperator expr operand climb op t lhs) := by
  refine spares_freshId.bind fun id => ?_
  cases op.meaning with
  | call =>
    cases lhs with
    | name node name => exact (spares_arguments hexpr _).bind fun _ => spares_pure _
    | _ => exact spares_throw _
  | cast => exact spares_typeName.bind fun _ => spares_pure _
  | ternary =>
    refine (hexpr k).bind fun yes => (spares_expectSymbol _).bind fun _ => ?_
    exact (hoperand k).bind fun rhs => (hclimb rhs _ k).bind fun _ => spares_pure _
  | binary b =>
    refine (hoperand k).bind fun rhs => .look fun next => ?_
    cases Operator.find? next .binary with
    | some following =>
      exact .at (.ite ((hclimb rhs _ k).bind fun _ => spares_pure _) (spares_pure _))
    | none => exact .at (spares_pure _)
  | unary u => exact spares_pure _
  | group => exact spares_pure _

theorem spares_chain {apply : Operator → Token → Expr → Parser Expr}
    (happly : ∀ op t lhs k, Spares k (apply op t lhs)) (least : Nat) :
    ∀ links lhs k, Spares k (Parser.chain apply least links lhs) := by
  intro links
  induction links with
  | zero =>
    intro lhs k
    unfold Parser.chain
    refine .look fun t => ?_
    cases Operator.find? t .binary with
    | none => exact .at (spares_pure _)
    | some op => exact .at (.ite (spares_pure _) spares_failTooDeep)
  | succ links ih =>
    intro lhs k
    unfold Parser.chain
    refine .look fun t => ?_
    cases found : Operator.find? t .binary with
    | none => exact .at (spares_pure _)
    | some op =>
      refine .ite (.at (spares_pure _)) ?_
      exact .take (other_of_find? found) fun _ => (happly op t lhs _).bind fun e => ih e _

/-- The parsers of expressions, with so many levels of nesting left. -/
theorem spares_expressions (levels : Nat) :
    (∀ k, Spares k (Parser.expression levels)) ∧
    (∀ k, Spares k (Parser.operand levels)) ∧
    ∀ lhs least k, Spares k (Parser.climb levels lhs least) := by
  induction levels with
  | zero =>
    exact ⟨fun _ => spares_failTooDeep, fun _ => spares_failTooDeep,
      fun _ _ _ => spares_failTooDeep⟩
  | succ levels ih =>
    obtain ⟨hexpr, hoperand, hclimb⟩ := ih
    refine ⟨fun k => ?_, fun k => ?_, fun lhs least k => ?_⟩
    · unfold Parser.expression
      exact (hoperand k).bind fun lhs => hclimb lhs 0 k
    · unfold Parser.operand
      refine .look fun t => ?_
      cases found : Operator.find? t .unary with
      | none => exact spares_atom t
      | some op =>
        refine .take (other_of_find? found) fun _ => ?_
        cases op.meaning with
        | group => exact spares_bracketed hexpr op t
        | unary u =>
          exact (hoperand _).bind fun inner => (hclimb inner _ _).bind fun e =>
            (spares_nodeAt t).bind fun _ => spares_pure _
        | _ => exact spares_failExpected _
    · unfold Parser.climb
      exact spares_chain (fun op t e k => spares_applyOperator hexpr hoperand hclimb op t e) least
        levels lhs k

theorem spares_expression (levels k : Nat) : Spares k (Parser.expression levels) :=
  (spares_expressions levels).1 k

/-! ### Statements -/

/-- A part that may be left out. -/
theorem CoincideFrom.optionally {c : Char} {p : Parser α} (hp : ∀ k, Spares k p)
    {f : Option α → Parser β} (hf : ∀ a k, Spares k (f a)) :
    Spares k (do if ← Parser.acceptSymbol c then f (← some <$> p) else f (← pure none)) := by
  refine .symbol (CoincideFrom.bind ?_ fun a => hf a _) (hf none k)
  rw [map_eq_pure_bind]
  exact (hp _).bind fun _ => spares_pure _

theorem spares_varDecl (hexpr : ∀ k, Spares k expr) (other : t.isEndOfFile = false) :
    SparesAt k t (Parser.varDecl expr) := by
  refine .take other fun token => .ite ((spares_throw _).bind fun _ => ?_) ?_
  -- what follows stands behind the failure as well as in its place
  all_goals
    refine (spares_nodeAt token).bind fun node => spares_ident.bind fun name => ?_
    refine .optionally (fun _ => spares_typeName) fun type k => ?_
    refine .optionally hexpr fun init k => ?_
    exact spares_ended _ _

/-- Of branches there are no more than tokens. -/
theorem ample_branches (hexpr : ∀ k, Spares k expr) (hbody : ∀ k, Spares k body) :
    Ample (Parser.branches expr body)
  | 0, _, _, _, _ => coincide_zero
  | k + 1, n + 1, m + 1, hn, hm => by
    have further (j : Nat) (le : j ≤ k) : Coincide j
        (do return Branches.branch (← expr) (← body) (← Parser.branches expr body n))
        (do return Branches.branch (← expr) (← body) (← Parser.branches expr body m)) :=
      (hexpr j).bind fun cond => (hbody j).bind fun block =>
        (ample_branches hexpr hbody j n m (by omega) (by omega)).bind fun _ => spares_pure _
    unfold Parser.branches
    refine .word (further k (Nat.le_refl k)) (.word ?_ (spares_pure _))
    exact .word (further (k - 1) (Nat.sub_le k 1)) ((hbody _).bind fun _ => spares_pure _)

/-- After a look at the token behind the next one. -/
theorem CoincideFrom.lookBehind {f : Token → Parser β}
    (h : ∀ t, CoincideFrom (WithinBehind k t) k (f t) (f t)) :
    Spares k (Parser.peekNth 1 >>= f) := by
  intro s hs
  have run : (Parser.peekNth 1).run.run s =
      (.ok (s.reader.peekNth 1).1, { s with reader := (s.reader.peekNth 1).2 }) := rfl
  rw [run_bind, run]
  refine h _ _ ⟨within_peekNth 1 hs, ?_⟩
  exact TokenReader.peekNth_congr (TokenReader.toList_reach _ _) (TokenReader.last_reach _ _) 1

/-- Behind a name the second token has become the next one. -/
theorem CoincideFrom.named {f : Ident → Parser β} (h : ∀ name, SparesAt k t (f name)) :
    CoincideFrom (WithinBehind k t) k (Parser.ident >>= f) (Parser.ident >>= f) := by
  intro s hs
  have within := (spares_ident s hs.1).2
  rw [run_bind]
  cases run : Parser.ident.run.run s with
  | mk r s' =>
    rw [run] at within
    cases r with
    | error e => exact ⟨rfl, within⟩
    | ok name =>
      obtain ⟨tokens, last⟩ := reader_of_ident run
      refine h name s' ⟨within, ?_⟩
      rw [← hs.2, TokenReader.peekNth_eq, TokenReader.peekNth_eq, tokens, last, List.getElem?_tail]

/-- An assignment takes a name and the operator that was seen behind it. -/
theorem spares_assignment? (hexpr : ∀ k, Spares k expr) : Spares k (Parser.assignment? expr) := by
  refine .lookBehind fun t => ?_
  dsimp only
  split
  · exact fun _ hs => ⟨rfl, hs.1⟩
  · next assigns =>
    refine .named fun target => .take (other_of_assigns assigns) fun operator => ?_
    cases Parser.stepOperator? t with
    | some op =>
      refine (spares_nodeAt operator).bind fun node => (spares_pure _).bind fun value => ?_
      exact spares_ended _ _
    | none => exact (hexpr _).bind fun value => spares_ended _ _

theorem spares_expressionStatement (hexpr : ∀ k, Spares k expr) :
    Spares k (Parser.expressionStatement expr) :=
  (hexpr k).bind fun _ => spares_ended _ _

theorem spares_keywordStatement (hexpr : ∀ k, Spares k expr)
    (hbody : ∀ k, Spares k body) (other : t.isEndOfFile = false) (w : Option Keyword) :
    SparesAt k t (Parser.keywordStatement expr body w) := by
  unfold Parser.keywordStatement
  split
  · exact (spares_varDecl hexpr other).bind fun _ => spares_pure _
  · exact (spares_varDecl hexpr other).bind fun _ => spares_pure _
  · refine .take other fun _ => (hexpr _).bind fun cond => (hbody _).bind fun block => ?_
    refine .counted fun n => ?_
    exact ((ample_branches hexpr hbody).spares n).bind fun _ => spares_pure _
  · exact .take other fun _ => (hexpr _).bind fun cond => (hbody _).bind fun _ => spares_pure _
  · exact .take other fun _ => (hbody _).bind fun _ => spares_pure _
  · refine .take other fun _ => spares_ident.bind fun var => (spares_expectWord _).bind fun _ => ?_
    refine (hexpr _).bind fun start => (spares_expectWord _).bind fun _ => ?_
    exact (hexpr _).bind fun stop => (hbody _).bind fun _ => spares_pure _
  · refine .take other fun _ => .look fun u => .at (.ite ?_ ?_)
    · exact (spares_pure _).bind fun _ => spares_ended _ _
    · rw [map_eq_pure_bind]
      exact ((hexpr _).bind fun _ => spares_pure _).bind fun _ => spares_ended _ _
  · exact .take other fun _ => spares_ended _ _
  · exact .take other fun _ => spares_ended _ _
  · exact .at (spares_expressionStatement hexpr)

theorem spares_statement (hexpr : ∀ k, Spares k expr) (hbody : ∀ k, Spares k body) :
    Spares k (Parser.statement expr body) := by
  refine .look fun t => .ite ?_ ?_
  · exact .at ((hbody k).bind fun _ => (spares_pure _).bind fun _ => spares_made t)
  · split
    · next keyword =>
      exact (spares_keywordStatement hexpr hbody (other_of_kind keyword (by decide)) _).bind
        fun _ => spares_made t
    · refine .at (.ite ((spares_assignment? hexpr).bind fun found => ?_) ?_)
      · cases found with
        | some make => exact (spares_pure _).bind fun _ => spares_made t
        | none => exact (spares_expressionStatement hexpr).bind fun _ => spares_made t
      · exact (spares_expressionStatement hexpr).bind fun _ => spares_made t

/-! ### Skipping -/

/-- No more tokens are skipped than there are. -/
theorem ample_skipStatement : ∀ depth, Ample (Parser.skipStatement · depth)
  | _, 0, _, _, _, _ => coincide_zero
  | depth, k + 1, n + 1, m + 1, hn, hm => by
    have skip (depth : Nat) :
        Coincide k (Parser.skipStatement n depth) (Parser.skipStatement m depth) :=
      ample_skipStatement depth k n m (Nat.le_of_succ_le_succ hn) (Nat.le_of_succ_le_succ hm)
    unfold Parser.skipStatement
    refine .look fun t => ?_
    by_cases final : t.isEndOfFile = true
    · rw [if_pos final, if_pos final]
      exact .at (spares_pure _)
    · have other := Bool.eq_false_iff.2 final
      rw [if_neg final, if_neg final]
      refine .ite ?_ (.take other fun _ => .ite (skip _) (.ite (spares_pure _) (skip _)))
      cases depth with
      | zero => exact .at (spares_pure _)
      | succ depth => exact .take other fun _ => skip depth

theorem ample_skipItem : ∀ depth, Ample (Parser.skipItem · depth)
  | _, 0, _, _, _, _ => coincide_zero
  | depth, k + 1, n + 1, m + 1, hn, hm => by
    have skip (depth : Nat) : Coincide k (Parser.skipItem n depth) (Parser.skipItem m depth) :=
      ample_skipItem depth k n m (Nat.le_of_succ_le_succ hn) (Nat.le_of_succ_le_succ hm)
    unfold Parser.skipItem
    refine .look fun t => ?_
    by_cases stops : (t.isEndOfFile || (depth == 0 && Parser.isItemStart t)) = true
    · rw [if_pos stops, if_pos stops]
      exact .at (spares_pure _)
    · have other : t.isEndOfFile = false :=
        Bool.eq_false_iff.2 fun final => stops (Bool.or_eq_true_iff.2 (.inl final))
      rw [if_neg stops, if_neg stops]
      exact .take other fun _ => .ite (skip _) (.ite (skip _) (skip _))

theorem spares_reportFound : Spares k Parser.reportFound := fun _ hs =>
  ⟨rfl, ⟨hs.1.tokens, hs.1.last⟩, hs.2⟩

theorem spares_report (e : ParseError) : Spares k (Parser.report e) :=
  spares_reportFound.bind fun _ _ hs => ⟨rfl, ⟨hs.1.tokens, hs.1.last⟩, hs.2⟩

/-- A report takes no token. -/
theorem CoincideFrom.reported (e : ParseError) (h : SparesAt k t p) :
    SparesAt k t (do Parser.report e; p) := by
  intro s hs
  rw [run_bind, run_report]
  refine h _ ⟨⟨⟨hs.1.1.tokens, hs.1.1.last⟩, hs.1.2⟩, ?_⟩
  have tokens : s.reader.takeFound.2.toList = s.reader.toList := rfl
  exact (TokenReader.peekNth_congr tokens rfl 0).trans hs.2

theorem CoincideFrom.recover {I : ParserState → Prop} {skip : Parser Unit}
    (hp : CoincideFrom I k p p) (hskip : Spares k skip) :
    CoincideFrom I k (Parser.recover p skip) (Parser.recover p skip) := by
  intro s hs
  obtain ⟨-, within⟩ := hp s hs
  refine ⟨rfl, ?_⟩
  rw [run_recover]
  generalize p.run.run s = r at within
  obtain ⟨r, t⟩ := r
  cases r with
  | ok a => exact within
  | error e =>
    have skipped : Spares k (do Parser.report e; skip; return none : Parser (Option α)) :=
      (spares_report e).bind fun _ => hskip.bind fun _ => spares_pure _
    exact (skipped t within).2

/-! ### Blocks and items -/

theorem spares_statements {p : Parser Stmt} (hp : ∀ k, Spares k p) (n : Nat) :
    ∀ k, Spares k (Parser.statements p n) := by
  induction n with
  | zero => exact fun k => spares_pure _
  | succ n ih =>
    intro k
    refine .look fun t => .at (.ite (spares_pure _) ?_)
    refine CoincideFrom.bind (.recover (hp k) ?_) fun found => ?_
    · exact .counted (ample_skipStatement 0).spares
    · exact (ih k).bind fun _ => spares_pure _

theorem spares_block : ∀ levels k, Spares k (Parser.block levels)
  | 0, _ => spares_failTooDeep
  | levels + 1, k => by
    have body := spares_block levels
    unfold Parser.block
    refine (spares_expectSymbol _).bind fun token => (spares_nodeAt token).bind fun node => ?_
    refine .counted fun n => CoincideFrom.bind (spares_statements ?_ n n) fun stmts => ?_
    · exact fun k => spares_statement (spares_expression levels) body
    · exact spares_ended _ _

/-- Of parameters there are no more than tokens. -/
theorem ample_paramList : Ample Parser.paramList
  | 0, _, _, _, _ => coincide_zero
  | k + 1, n + 1, m + 1, hn, hm => by
    unfold Parser.paramList
    refine spares_ident.bind fun name => (spares_expectSymbol _).bind fun _ => ?_
    refine spares_typeName.bind fun type => .symbol ?_ ?_
    · exact (ample_paramList k n m (Nat.le_of_succ_le_succ hn) (Nat.le_of_succ_le_succ hm)).bind
        fun _ => spares_pure _
    · exact spares_ended _ _

theorem spares_outsideName : Spares k Parser.outsideName :=
  (spares_expectKind (by decide)).bind fun _ => spares_ended _ _

theorem spares_functionBody (levels : Nat) : Spares k (Parser.functionBody levels) := by
  refine .look fun t => .at (.ite ((spares_block levels k).bind fun _ => spares_pure _) ?_)
  refine .word (spares_outsideName.bind fun _ => spares_pure _) ?_
  exact .word (spares_outsideName.bind fun _ => spares_pure _) (spares_failExpected _)

theorem spares_function (levels : Nat) : Spares k (Parser.function levels) := by
  have typed (name : Ident) (params : List Param) (k : Nat) : Spares k
      (do
        let ret ← if ← Parser.acceptSymbol ':' then some <$> Parser.typeName else pure none
        let body ← Parser.functionBody levels
        return (⟨name, params, ret, body⟩ : Function)) :=
    .optionally (fun _ => spares_typeName) fun ret k =>
      (spares_functionBody levels).bind fun _ => spares_pure _
  unfold Parser.function
  refine (spares_expectWord _).bind fun _ => spares_ident.bind fun name => ?_
  refine (spares_expectSymbol _).bind fun _ => .symbol ?_ (.counted fun n => ?_)
  · exact (spares_pure _).bind fun params => typed name params _
  · exact (ample_paramList.spares n).bind fun params => typed name params _

theorem spares_importName : Spares k Parser.importName := by
  refine .look fun t => ?_
  split
  · next quoted => exact .take (other_of_kind quoted (by decide)) fun _ => spares_pure _
  · exact .at (spares_ident.bind fun _ => spares_pure _)

/-- An item that does not begin with the end of file does not take it. -/
theorem spares_item (levels : Nat) (other : t.isEndOfFile = false) :
    SparesAt k t (Parser.item levels) := by
  rw [Parser.item_eq]
  refine .lookAgain (.node t fun node => .ite ?_ (.ite ?_ ?_))
  · exact .at ((spares_function levels).bind fun _ => spares_pure _)
  · refine .take other fun _ => spares_importName.bind fun name => ?_
    exact spares_ended _ _
  · exact (spares_varDecl (fun _ => spares_expression levels _) other).bind fun _ => spares_pure _

end

end ScriptLang.Syntax
