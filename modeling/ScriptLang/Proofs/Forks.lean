import ScriptLang.Proofs.Mirroring
import ScriptLang.Proofs.Renumbering

/-!
# Reading up to a fork

Two runs of a parser over sources that go on alike up to some token, and differently behind it, do the
same as long as they do not look behind that token; only identities may be counted from elsewhere
(`Fork`).  The token is one that ends a statement or a block.  Parsers of expressions, names and
parameters never consume such a token, so they keep abreast (`Fork.expression`, `Fork.paramList`).
-/

namespace ScriptLang.Syntax

/-! ### Closing tokens -/

/-- The token ends a statement or a block. -/
def isCloser (t : Token) : Bool := t.isSymbol ';' || t.isSymbol '}'

/-- No closing token is this symbol. -/
def isPlain (c : Char) : Bool := !([';', '}'].contains c)

section

variable {t : Token}

theorem isSymbol_iff {c : Char} : t.isSymbol c = true ↔ t.kind = .symbol ∧ t.code = c.toNat := by
  rw [Token.isSymbol, Token.is, Bool.and_eq_true, beq_iff_eq, beq_iff_eq]

theorem isWord_iff {w : Keyword} : t.isWord w = true ↔ t.kind = .keyword ∧ t.code = w.code := by
  rw [Token.isWord, Token.isKeyword, Token.is, Bool.and_eq_true, beq_iff_eq, beq_iff_eq]

theorem kind_of_isWord {w : Keyword} (h : t.isWord w = true) : t.kind = .keyword :=
  (isWord_iff.1 h).1

theorem kind_of_isCloser (h : isCloser t = true) : t.kind = .symbol := by
  rcases Bool.or_eq_true_iff.1 h with h | h
  · exact (isSymbol_iff.1 h).1
  · exact (isSymbol_iff.1 h).1

theorem code_of_isCloser (h : isCloser t = true) : t.code ∈ [';', '}'].map Char.toNat := by
  rcases Bool.or_eq_true_iff.1 h with h | h
  · simp [(isSymbol_iff.1 h).2]
  · simp [(isSymbol_iff.1 h).2]

/-- A token of another kind closes nothing. -/
theorem not_isCloser_of_kind (symbol : t.kind ≠ .symbol) : isCloser t = false :=
  Bool.eq_false_iff.2 fun h => symbol (kind_of_isCloser h)

theorem not_isCloser_of_isWord {w : Keyword} (h : t.isWord w = true) : isCloser t = false :=
  not_isCloser_of_kind (by rw [kind_of_isWord h]; decide)

theorem not_isCloser_of_isSymbol {c : Char} (plain : isPlain c = true) (h : t.isSymbol c = true) :
    isCloser t = false := by
  refine Bool.eq_false_iff.2 fun closer => ?_
  obtain ⟨d, mem, same⟩ := List.mem_map.1 (code_of_isCloser closer)
  obtain rfl : d = c := Char.toNat_inj.1 (same.trans (isSymbol_iff.1 h).2)
  simp only [isPlain, Bool.not_eq_true', List.contains_eq_mem, decide_eq_false_iff_not] at plain
  exact plain mem

theorem not_isCloser_of_find? {a : Arity} {op : Operator} (h : Operator.find? t a = some op) :
    isCloser t = false := by
  have known : ∀ o ∈ Operator.table, o.kind = .keyword ∨ o.code ∉ [';', '}'].map Char.toNat := by
    decide
  have found := List.find?_some h
  simp only [Token.is, Bool.and_eq_true, beq_iff_eq] at found
  refine Bool.eq_false_iff.2 fun closer => ?_
  rcases known op (List.mem_of_find?_eq_some h) with keyword | code
  · cases (kind_of_isCloser closer).symm.trans (found.2.1.trans keyword)
  · exact code (found.2.2 ▸ code_of_isCloser closer)

/-- What an operator opens is closed by a bracket. -/
theorem closing_of_find? {a : Arity} {op : Operator} (h : Operator.find? t a = some op) :
    isPlain (op.closing.getD ')') = true := by
  have known : ∀ o ∈ Operator.table, isPlain (o.closing.getD ')') = true := by decide
  exact known op (List.mem_of_find?_eq_some h)

end

section

variable {α β : Type} {f : Location → Location} {R₀ R₁ R R' : ParserState → ParserState → Prop}
  {Q : α → β → Prop} {p p₂ : Parser α} {q q₂ : Parser β}

/-- Fewer pairs of states to begin with, and more to come to. -/
theorem MirrorsFrom.weaken (h : MirrorsFrom f R₀ R Q p q) (before : ∀ s s', R₁ s s' → R₀ s s')
    (after : ∀ s s', R s s' → R' s s') : MirrorsFrom f R₁ R' Q p q := fun s s' hs =>
  ⟨(h s s' (before s s' hs)).1, after _ _ (h s s' (before s s' hs)).2⟩

theorem Alike.imp {Q' : α → β → Prop} {r : Except ParseError α} {r' : Except ParseError β}
    (h : Alike f Q r r') (results : ∀ a b, Q a b → Q' a b) : Alike f Q' r r' := by
  cases h with
  | ok h => exact .ok (results _ _ h)
  | error own => exact .error own

theorem MirrorsFrom.imp {Q' : α → β → Prop} (h : MirrorsFrom f R₀ R Q p q)
    (results : ∀ a b, Q a b → Q' a b) : MirrorsFrom f R₀ R Q' p q :=
  fun s s' hs => ⟨(h s s' hs).1.imp results, (h s s' hs).2⟩

theorem MirrorsFrom.ite {c : Prop} [Decidable c] (hp : c → MirrorsFrom f R₀ R Q p q)
    (hp₂ : ¬c → MirrorsFrom f R₀ R Q p₂ q₂) :
    MirrorsFrom f R₀ R Q (if c then p else p₂) (if c then q else q₂) := by
  split
  · next yes => exact hp yes
  · next no => exact hp₂ no

end

/-- Whoever accepts a token looks at it first. -/
theorem Parser.acceptIf_branch_eq {α : Type} (test : Token → Bool) (p p₂ : Parser α) :
    (do if ← acceptIf test then p else p₂) =
      (do
        let t ← peek
        if test t then do
          let _ ← next
          p
        else p₂) := by
  rw [acceptIf, bind_assoc]
  refine bind_congr fun t => ?_
  by_cases yes : test t = true
  · rw [if_pos yes, if_pos yes, bind_assoc]
    rfl
  · rw [if_neg yes, if_neg yes]
    rfl

/-! ### Forks -/

/-- The second state differs from the first one only in that more tokens have been looked at. -/
structure Looked (s t : ParserState) : Prop where
  tokens : t.reader.toList = s.reader.toList
  clean : s.reader.Clean → t.reader.Clean
  last : t.reader.last = s.reader.last
  errors : t.errors = s.errors
  ids : t.nextId = s.nextId
  limit : t.limit = s.limit

theorem Looked.refl (s : ParserState) : Looked s s := ⟨rfl, id, rfl, rfl, rfl, rfl⟩

theorem looked_peekNth (s : ParserState) (i : Nat) :
    Looked s { s with reader := (s.reader.peekNth i).2 } where
  tokens := TokenReader.toList_reach _ _
  clean := TokenReader.clean_reach _
  last := TokenReader.last_reach _ _
  errors := rfl
  ids := rfl
  limit := rfl

/-- A token that does not go on with a conditional comes first. -/
def Unbranched (ts : List Token) : Prop :=
  ∃ t ts', ts = t :: ts' ∧ t.isWord .elif = false ∧ t.isWord .else = false

/-- Two sources that go on alike up to a closing token and differently behind it.  The second run has
reported `errors` before, and counts its identities from elsewhere. -/
structure Fork where
  stop : Token
  near : List Token
  far : List Token
  shift : Nat := 0
  errors : List ParseError := []
  /-- Blocks may begin before the fork. -/
  wide : Prop := True
  /-- The fork ends a block that is of interest, and not also the last statement in it. -/
  loose : Prop := False
  stops : isCloser stop = true
  follows : loose ∨ Unbranched near ∧ Unbranched far

namespace Fork

variable {k : Fork}

/-- The runs stand before the tokens `ts` and `ts'`, and have reported nothing since they began. -/
structure Stands (k : Fork) (ts ts' : List Token) (s s' : ParserState) : Prop where
  tokens : s.reader.toList = ts
  tokens' : s'.reader.toList = ts'
  clean : s.reader.Clean
  clean' : s'.reader.Clean
  last : s.reader.last.isEndOfFile = true
  limit : s.limit = s'.limit
  ids : s'.nextId = s.nextId + k.shift
  silent : s.errors = []
  errors : s'.errors = k.errors

/-- Both runs stand before the tokens `us`, less than `n` of them, and then before the stop. -/
structure Before (k : Fork) (n : Nat) (us : List Token) (s s' : ParserState) : Prop where
  few : us.length < n
  narrow : k.wide ∨ ∀ t ∈ us ++ [k.stop], t.isSymbol '{' = false
  stands : k.Stands (us ++ k.stop :: k.near) (us ++ k.stop :: k.far) s s'

/-- Both runs stand before the same tokens up to the stop. -/
def Abreast (k : Fork) (n : Nat) (s s' : ParserState) : Prop := ∃ us, k.Before n us s s'

/-- The next token of both runs is `t`. -/
def Facing (k : Fork) (n : Nat) (t : Token) (s s' : ParserState) : Prop :=
  ∃ us, k.Before n us s s' ∧ (us ++ [k.stop]).head? = some t

/-- Both runs stand right behind the stop. -/
def Behind (k : Fork) (s s' : ParserState) : Prop := k.Stands k.near k.far s s'

/-- The second value is the first one with its identities counted on. -/
def Counted {α : Type} [Numbered α] (k : Fork) (a b : α) : Prop := b = renumber k.shift a

/-- A function of a node that yields the value counted on for the node counted on. -/
def CountedAt {α : Type} [Numbered α] (k : Fork) (make make' : Node → α) : Prop :=
  ∀ node, make' (renumber k.shift node) = renumber k.shift (make node)

variable {n m : Nat} {s s' : ParserState} {ts ts' : List Token} {t : Token}

theorem Before.mono {us : List Token} (h : k.Before m us s s') (le : m ≤ n) : k.Before n us s s' :=
  ⟨Nat.lt_of_lt_of_le h.few le, h.narrow, h.stands⟩

/-- As many rounds as there are tokens up to the stop are no more than either run has tokens left. -/
theorem Before.exactly {us : List Token} (h : k.Before n us s s') :
    us.length + 1 ≤ s.reader.size ∧ us.length + 1 ≤ s'.reader.size ∧
      k.Abreast (us.length + 1) s s' := by
  refine ⟨?_, ?_, us, Nat.lt_succ_self _, h.narrow, h.stands⟩
  · rw [TokenReader.size_eq, h.stands.tokens, List.length_append, List.length_cons]
    omega
  · rw [TokenReader.size_eq, h.stands.tokens', List.length_append, List.length_cons]
    omega

theorem Abreast.mono (h : k.Abreast m s s') (le : m ≤ n) : k.Abreast n s s' := by
  obtain ⟨us, before⟩ := h
  exact ⟨us, before.mono le⟩

theorem Facing.abreast (h : k.Facing n t s s') : k.Abreast n s s' := by
  obtain ⟨us, before, -⟩ := h
  exact ⟨us, before⟩

theorem Stands.looked {u u' : ParserState} (h : k.Stands ts ts' s s') (hs : Looked s u)
    (hs' : Looked s' u') : k.Stands ts ts' u u' where
  tokens := hs.tokens.trans h.tokens
  tokens' := hs'.tokens.trans h.tokens'
  clean := hs.clean h.clean
  clean' := hs'.clean h.clean'
  last := hs.last.symm ▸ h.last
  limit := by rw [hs.limit, hs'.limit, h.limit]
  ids := by rw [hs.ids, hs'.ids, h.ids]
  silent := hs.errors.trans h.silent
  errors := hs'.errors.trans h.errors

theorem Stands.peekNth (h : k.Stands ts ts' s s') (i : Nat) : k.Stands ts ts'
    { s with reader := (s.reader.peekNth i).2 } { s' with reader := (s'.reader.peekNth i).2 } :=
  h.looked (looked_peekNth s i) (looked_peekNth s' i)

theorem Stands.next {u u' : Token} (h : k.Stands (u :: ts) (u' :: ts') s s') : k.Stands ts ts'
    { s with reader := s.reader.next.2 } { s' with reader := s'.reader.next.2 } where
  tokens := (TokenReader.next_spec h.tokens h.clean).2.1
  tokens' := (TokenReader.next_spec h.tokens' h.clean').2.1
  clean := (TokenReader.next_spec h.tokens h.clean).2.2
  clean' := (TokenReader.next_spec h.tokens' h.clean').2.2
  last := by
    change s.reader.next.2.last.isEndOfFile = true
    rw [TokenReader.last_next]
    exact h.last
  limit := h.limit
  ids := h.ids
  silent := h.silent
  errors := h.errors

theorem Stands.freshId (h : k.Stands ts ts' s s') : k.Stands ts ts'
    { s with nextId := s.nextId + 1 } { s' with nextId := s'.nextId + 1 } where
  tokens := h.tokens
  tokens' := h.tokens'
  clean := h.clean
  clean' := h.clean'
  last := h.last
  limit := h.limit
  ids := by
    change s'.nextId + 1 = s.nextId + 1 + k.shift
    rw [h.ids]
    omega
  silent := h.silent
  errors := h.errors

/-- Both runs see the token they are before. -/
theorem Facing.peek_eq (h : k.Facing n t s s') :
    (s.reader.peekNth 0).1 = t ∧ (s'.reader.peekNth 0).1 = t := by
  obtain ⟨us, before, head⟩ := h
  have tokens := before.stands.tokens
  have tokens' := before.stands.tokens'
  cases us with
  | nil =>
    cases head
    exact ⟨TokenReader.peek_eq tokens, TokenReader.peek_eq tokens'⟩
  | cons u us =>
    cases head
    exact ⟨TokenReader.peek_eq tokens, TokenReader.peek_eq tokens'⟩

theorem Facing.peekNth (h : k.Facing n t s s') (i : Nat) : k.Facing n t
    { s with reader := (s.reader.peekNth i).2 } { s' with reader := (s'.reader.peekNth i).2 } := by
  obtain ⟨us, before, head⟩ := h
  exact ⟨us, ⟨before.few, before.narrow, before.stands.peekNth i⟩, head⟩

theorem Abreast.facing (h : k.Abreast n s s') : ∃ t, k.Facing n t s s' := by
  obtain ⟨us, before⟩ := h
  cases us with
  | nil => exact ⟨k.stop, [], before, rfl⟩
  | cons u us => exact ⟨u, u :: us, before, rfl⟩

/-! ### Tokens -/

section

variable {α β γ δ : Type} {Q : α → β → Prop} {R : ParserState → ParserState → Prop} {p : Parser α}
  {q : Parser β}

theorem from_abreast (t : Token) (h : Mirrors id (k.Abreast n) Q p q) :
    MirrorsFrom id (k.Facing n t) (k.Abreast n) Q p q :=
  MirrorsFrom.weaken h (fun _ _ => Facing.abreast) fun _ _ => id

/-- What is done after a look at the next token depends on it. -/
theorem peek_bind {f : Token → Parser α} {g : Token → Parser β}
    (h : ∀ t, MirrorsFrom id (k.Facing n t) R Q (f t) (g t)) :
    MirrorsFrom id (k.Abreast n) R Q (Parser.peek >>= f) (Parser.peek >>= g) := by
  intro s s' abreast
  obtain ⟨t, facing⟩ := abreast.facing
  obtain ⟨first, second⟩ := facing.peek_eq
  rw [run_bind, run_bind, run_peek, run_peek, first, second]
  exact h t _ _ (facing.peekNth 0)

theorem next_lt (plain : isCloser t = false) :
    MirrorsFrom id (k.Facing (n + 1) t) (k.Abreast n) (fun a b => a = t ∧ b = t) Parser.next
      Parser.next := by
  rintro s s' ⟨us, before, head⟩
  cases us with
  | nil =>
    cases head
    cases plain.symm.trans k.stops
  | cons u us =>
    cases head
    have first := TokenReader.next_spec before.stands.tokens before.stands.clean
    have second := TokenReader.next_spec before.stands.tokens' before.stands.clean'
    refine ⟨.ok ⟨first.1, second.1⟩, us, Nat.lt_of_succ_lt_succ before.few, ?_, before.stands.next⟩
    exact before.narrow.imp_right fun narrow u hu => narrow u (List.mem_cons_of_mem _ hu)

/-- A token that closes nothing is consumed by both runs. -/
theorem next (plain : isCloser t = false) :
    MirrorsFrom id (k.Facing n t) (k.Abreast n) (fun a b => a = t ∧ b = t) Parser.next
      Parser.next := by
  cases n with
  | zero =>
    rintro s s' ⟨us, before, -⟩
    exact absurd before.few (Nat.not_lt_zero _)
  | succ n => exact (next_lt plain).weaken (fun _ _ => id) fun _ _ h => h.mono (Nat.le_succ n)

/-- A token that closes nothing is consumed by both runs, and then they go on. -/
theorem next_bind {f : Token → Parser α} {g : Token → Parser β} (plain : isCloser t = false)
    (h : Mirrors id (k.Abreast n) Q (f t) (g t)) :
    MirrorsFrom id (k.Facing n t) (k.Abreast n) Q (Parser.next >>= f) (Parser.next >>= g) := by
  refine (next plain).bind ?_
  rintro _ _ ⟨rfl, rfl⟩
  exact h

/-- The parser fails before the token. -/
theorem throws {e : ParseError} (own : e.IsSyntactic) :
    MirrorsFrom id (k.Facing n t) (k.Abreast n) Q (throw e : Parser α) (throw e : Parser β) :=
  from_abreast t (.throw own (ParseError.relocate_id e).symm)

/-- Something that closes nothing is expected. -/
theorem expectIf {test : Token → Bool} (plain : ∀ t, test t = true → isCloser t = false)
    (what : String) :
    Mirrors id (k.Abreast n) Eq (Parser.expectIf test what) (Parser.expectIf test what) := by
  refine peek_bind fun t => .ite (fun yes => ?_) fun _ => throws trivial
  refine (next (plain t yes)).imp ?_
  rintro _ _ ⟨rfl, rfl⟩
  rfl

theorem expectSymbol {c : Char} (plain : isPlain c = true) :
    Mirrors id (k.Abreast n) Eq (Parser.expectSymbol c) (Parser.expectSymbol c) :=
  expectIf (fun _ => not_isCloser_of_isSymbol plain) _

theorem expectWord (w : Keyword) :
    Mirrors id (k.Abreast n) Eq (Parser.expectWord w) (Parser.expectWord w) :=
  expectIf (fun _ => not_isCloser_of_isWord) _

theorem expectKind (kind : TokenKind) (symbol : kind ≠ .symbol) :
    Mirrors id (k.Abreast n) Eq (Parser.expectKind kind) (Parser.expectKind kind) := by
  refine expectIf (fun t h => ?_) _
  have same : t.kind = kind := eq_of_beq h
  exact not_isCloser_of_kind (same ▸ symbol)

/-- What is done after a yes, with a token less to come, and what after a no. -/
theorem acceptIf_branch {test : Token → Bool} (plain : ∀ t, test t = true → isCloser t = false)
    {p₂ : Parser α} {q₂ : Parser β} (hp : MirrorsFrom id (k.Abreast (n - 1)) (k.Abreast n) Q p q)
    (hp₂ : Mirrors id (k.Abreast n) Q p₂ q₂) :
    Mirrors id (k.Abreast n) Q (do if ← Parser.acceptIf test then p else p₂)
      (do if ← Parser.acceptIf test then q else q₂) := by
  rw [Parser.acceptIf_branch_eq, Parser.acceptIf_branch_eq]
  refine peek_bind (fun t => .ite (fun yes => ?_) fun _ => from_abreast t hp₂)
  cases n with
  | zero =>
    rintro s s' ⟨us, before, -⟩
    exact absurd before.few (Nat.not_lt_zero _)
  | succ n =>
    exact (next_lt (plain t yes)).andThen (fun _ _ h => h.mono (Nat.le_succ n)) fun _ _ _ => hp

theorem acceptIf {test : Token → Bool} (plain : ∀ t, test t = true → isCloser t = false) :
    Mirrors id (k.Abreast n) Eq (Parser.acceptIf test) (Parser.acceptIf test) :=
  peek_bind fun t => .ite (fun yes => next_bind (plain t yes) (.pure rfl)) fun _ =>
    from_abreast t (.pure rfl)

theorem acceptSymbol_branch {c : Char} (plain : isPlain c = true) {p₂ : Parser α} {q₂ : Parser β}
    (hp : MirrorsFrom id (k.Abreast (n - 1)) (k.Abreast n) Q p q)
    (hp₂ : Mirrors id (k.Abreast n) Q p₂ q₂) :
    Mirrors id (k.Abreast n) Q (do if ← Parser.acceptSymbol c then p else p₂)
      (do if ← Parser.acceptSymbol c then q else q₂) :=
  acceptIf_branch (fun _ => not_isCloser_of_isSymbol plain) hp hp₂

theorem failExpected (what : String) :
    Mirrors id (k.Abreast n) Q (Parser.failExpected what : Parser α)
      (Parser.failExpected what : Parser β) := peek_bind fun _ => throws trivial

theorem failTooDeep :
    Mirrors id (k.Abreast n) Q (Parser.failTooDeep : Parser α) (Parser.failTooDeep : Parser β) := by
  refine peek_bind fun t s s' facing => ?_
  obtain ⟨us, before⟩ := facing.abreast
  refine ⟨?_, us, before⟩
  change Alike id Q (.error (.tooDeep s.limit t.location t.width))
    (.error (.tooDeep s'.limit t.location t.width))
  rw [← before.stands.limit]
  exact .error trivial

theorem freshId :
    Mirrors id (k.Abreast n) (fun a b => b = a + k.shift) Parser.freshId Parser.freshId := by
  rintro s s' ⟨us, before⟩
  exact ⟨.ok before.stands.ids, us, before.few, before.narrow, before.stands.freshId⟩

theorem nodeAt (t : Token) :
    Mirrors id (k.Abreast n) k.Counted (Parser.nodeAt t) (Parser.nodeAt t) :=
  freshId.bind fun _ _ h => .pure (by rw [h]; rfl)

/-- A repetition is allowed as many rounds as tokens are left, and that is enough on both sides. -/
theorem remaining_bind {f : Nat → Parser α} {g : Nat → Parser β}
    (h : ∀ m a b, m ≤ a → m ≤ b → Mirrors id (k.Abreast m) Q (f a) (g b)) :
    Mirrors id (k.Abreast n) Q (Parser.remaining >>= f) (Parser.remaining >>= g) := by
  rintro s s' ⟨us, before⟩
  obtain ⟨size, size', short⟩ := before.exactly
  obtain ⟨results, states⟩ := h (us.length + 1) _ _ size size' s s' short
  exact ⟨results, states.mono before.few⟩

end

/-! ### Names and numbers -/

theorem ident : Mirrors id (k.Abreast n) Eq Parser.ident Parser.ident := by
  refine (expectKind .identifier nofun).bind ?_
  rintro t _ rfl
  exact .pure rfl

theorem typeName : Mirrors id (k.Abreast n) Eq Parser.typeName Parser.typeName := by
  refine (expectKind .identifier nofun).bind ?_
  rintro t _ rfl
  exact .pure rfl

theorem suffix : Mirrors id (k.Abreast n) Eq Parser.suffix Parser.suffix := by
  refine peek_bind fun t => .ite (fun named => ?_) fun _ => from_abreast t (.pure rfl)
  exact next_bind (not_isCloser_of_kind (by rw [named.1]; decide)) (.pure rfl)

theorem invalidLiteral {α β : Type} {Q : α → β → Prop} (t : Token) (reason : String) :
    Mirrors id (k.Abreast n) Q (Parser.invalidLiteral t reason) (Parser.invalidLiteral t reason) :=
  Mirrors.throw trivial rfl

theorem number (t : Token) :
    Mirrors id (k.Abreast n) k.CountedAt (Parser.number t) (Parser.number t) := by
  unfold Parser.number
  refine .ite ?_ ?_
  · cases Decimal.readFloat? t.text.toList with
    | some x => exact .pure fun _ => rfl
    | none => exact invalidLiteral t _
  · cases Decimal.readNat? (Parser.baseOf t) t.text.toList with
    | none => exact invalidLiteral t _
    | some i =>
      refine .ite (invalidLiteral t _) (suffix.bind ?_)
      rintro ty _ rfl
      exact .pure fun _ => rfl

/-! ### Expressions -/

theorem atom (t : Token) :
    MirrorsFrom id (k.Facing n t) (k.Abreast n) k.Counted (Parser.atom t) (Parser.atom t) := by
  have made {make make' : Node → Expr} (h : k.CountedAt make make') :
      Mirrors id (k.Abreast n) k.Counted (do return make (← Parser.nodeAt t))
        (do return make' (← Parser.nodeAt t)) := by
    refine (nodeAt t).bind ?_
    rintro node _ rfl
    exact .pure (h node)
  have plain {kind : TokenKind} (h : t.kind = kind) (symbol : kind ≠ .symbol) :
      isCloser t = false := not_isCloser_of_kind (h ▸ symbol)
  unfold Parser.atom
  split
  · next kind => exact next_bind (plain kind nofun) ((number t).bind fun _ _ => made)
  · next kind =>
    refine next_bind (plain kind nofun) (.ite ?_ ?_)
    · exact .bind (.pure fun _ => rfl) fun _ _ => made
    · exact (invalidLiteral t _).bind fun _ _ => made
  · next kind =>
    refine next_bind (plain kind nofun) ?_
    exact .bind (.pure fun _ => rfl) fun _ _ => made
  · refine .ite (fun yes => ?_) fun _ => .ite (fun no => ?_) fun _ => ?_
    · refine next_bind (not_isCloser_of_isWord yes) ?_
      exact .bind (.pure fun _ => rfl) fun _ _ => made
    · refine next_bind (not_isCloser_of_isWord no) ?_
      exact .bind (.pure fun _ => rfl) fun _ _ => made
    · exact from_abreast t ((failExpected _).bind fun _ _ => made)

section

variable {expr operand : Parser Expr} {climb : Expr → Nat → Parser Expr}
  (hexpr : ∀ n, Mirrors id (k.Abreast n) k.Counted expr expr)

include hexpr

theorem bracketed {op : Operator} (plain : isPlain (op.closing.getD ')') = true) (opening : Token) :
    Mirrors id (k.Abreast n) k.Counted (Parser.bracketed expr op opening)
      (Parser.bracketed expr op opening) := by
  refine (hexpr n).bind fun inner _ hinner => (expectSymbol plain).bind fun _ _ _ =>
    peek_bind fun t => ?_
  split
  · exact throws trivial
  · exact from_abreast t (.pure hinner)

theorem argumentList {closing : Char} (plain : isPlain closing = true) : ∀ m a b, m ≤ a → m ≤ b →
    Mirrors id (k.Abreast m) k.Counted (Parser.argumentList expr closing a)
      (Parser.argumentList expr closing b)
  | 0, _, _, _, _ => fun s s' ⟨us, before⟩ => absurd before.few (Nat.not_lt_zero _)
  | m + 1, a + 1, b + 1, ha, hb => by
    unfold Parser.argumentList
    refine (hexpr _).bind ?_
    rintro e _ rfl
    refine acceptSymbol_branch rfl ?_ ((expectSymbol plain).bind fun _ _ _ => .pure rfl)
    refine (argumentList plain m a b (Nat.le_of_succ_le_succ ha)
      (Nat.le_of_succ_le_succ hb)).andThen
      (fun _ _ h => h.mono (Nat.le_succ m)) ?_
    rintro es _ rfl
    exact MirrorsFrom.weaken (Mirrors.pure rfl) (fun _ _ h => h) fun _ _ h => h.mono (Nat.le_succ m)

theorem arguments {closing : Char} (plain : isPlain closing = true) :
    Mirrors id (k.Abreast n) k.Counted (Parser.arguments expr closing)
      (Parser.arguments expr closing) := by
  refine acceptSymbol_branch plain ?_ (remaining_bind (argumentList hexpr plain))
  exact MirrorsFrom.weaken (Mirrors.pure rfl) (fun _ _ h => h) fun _ _ h => h.mono (Nat.sub_le n 1)

variable (hoperand : ∀ n, Mirrors id (k.Abreast n) k.Counted operand operand)
  (hclimb : ∀ n e p, Mirrors id (k.Abreast n) k.Counted (climb e p)
    (climb (renumber k.shift e) p))

include hoperand hclimb

theorem applyOperator {op : Operator} (plain : isPlain (op.closing.getD ')') = true) (t : Token)
    (lhs : Expr) :
    Mirrors id (k.Abreast n) k.Counted (Parser.applyOperator expr operand climb op t lhs)
      (Parser.applyOperator expr operand climb op t (renumber k.shift lhs)) := by
  refine freshId.bind ?_
  rintro i _ rfl
  cases op.meaning with
  | call =>
    cases lhs with
    | name node name =>
      refine (arguments hexpr plain).bind ?_
      rintro args _ rfl
      exact .pure (by rw [Counted, ← Expr.allRenumbered_eq]; rfl)
    | _ => exact .throw trivial rfl
  | cast =>
    refine typeName.bind ?_
    rintro type _ rfl
    exact .pure rfl
  | ternary =>
    refine (hexpr _).bind ?_
    rintro yes _ rfl
    refine (expectSymbol rfl).bind fun _ _ _ => (hoperand _).bind ?_
    rintro rhs _ rfl
    refine (hclimb _ rhs _).bind ?_
    rintro no _ rfl
    exact .pure rfl
  | binary b =>
    refine (hoperand _).bind ?_
    rintro rhs _ rfl
    refine peek_bind fun next => from_abreast next ?_
    cases Operator.find? next .binary with
    | some following =>
      refine Mirrors.ite ((hclimb _ rhs _).bind ?_) (.pure rfl)
      rintro e _ rfl
      exact .pure rfl
    | none => exact Mirrors.pure rfl
  | unary u => exact .pure rfl
  | group => exact .pure rfl

omit hexpr hoperand hclimb in
theorem chain {apply : Operator → Token → Expr → Parser Expr}
    (happly : ∀ op t lhs, isPlain (op.closing.getD ')') = true →
      Mirrors id (k.Abreast n) k.Counted (apply op t lhs) (apply op t (renumber k.shift lhs)))
    (least : Nat) : ∀ links lhs, Mirrors id (k.Abreast n) k.Counted
      (Parser.chain apply least links lhs) (Parser.chain apply least links (renumber k.shift lhs)) := by
  intro links
  induction links with
  | zero =>
    intro lhs
    unfold Parser.chain
    refine peek_bind fun t => from_abreast t ?_
    cases Operator.find? t .binary with
    | none => exact Mirrors.pure rfl
    | some op => exact Mirrors.ite (.pure rfl) failTooDeep
  | succ links ih =>
    intro lhs
    unfold Parser.chain
    refine peek_bind fun t => ?_
    cases found : Operator.find? t .binary with
    | none => exact from_abreast t (Mirrors.pure rfl)
    | some op =>
      refine .ite (fun _ => from_abreast t (Mirrors.pure rfl)) fun _ => ?_
      refine next_bind (not_isCloser_of_find? found) ((happly op t lhs (closing_of_find? found)).bind ?_)
      rintro e _ rfl
      exact ih e

end

/-- The parsers of expressions, with so many levels of nesting left. -/
theorem expressions (levels : Nat) :
    (∀ n, Mirrors id (k.Abreast n) k.Counted (Parser.expression levels) (Parser.expression levels)) ∧
    (∀ n, Mirrors id (k.Abreast n) k.Counted (Parser.operand levels) (Parser.operand levels)) ∧
    ∀ n lhs least, Mirrors id (k.Abreast n) k.Counted (Parser.climb levels lhs least)
      (Parser.climb levels (renumber k.shift lhs) least) := by
  induction levels with
  | zero => exact ⟨fun _ => failTooDeep, fun _ => failTooDeep, fun _ _ _ => failTooDeep⟩
  | succ levels ih =>
    obtain ⟨hexpr, hoperand, hclimb⟩ := ih
    refine ⟨fun n => ?_, fun n => ?_, fun n lhs least => ?_⟩
    · unfold Parser.expression
      refine (hoperand n).bind ?_
      rintro lhs _ rfl
      exact hclimb n lhs 0
    · unfold Parser.operand
      refine peek_bind fun t => ?_
      cases found : Operator.find? t .unary with
      | none => exact atom t
      | some op =>
        refine next_bind (not_isCloser_of_find? found) ?_
        cases op.meaning with
        | group => exact bracketed hexpr (closing_of_find? found) t
        | unary u =>
          refine (hoperand n).bind ?_
          rintro inner _ rfl
          refine (hclimb n inner _).bind ?_
          rintro e _ rfl
          refine (nodeAt t).bind ?_
          rintro node _ rfl
          exact .pure rfl
        | _ => exact failExpected _
    · unfold Parser.climb
      exact chain (fun _ t lhs plain => applyOperator hexpr hoperand hclimb plain t lhs) least levels lhs

theorem expression (levels : Nat) :
    Mirrors id (k.Abreast n) k.Counted (Parser.expression levels) (Parser.expression levels) :=
  (expressions levels).1 n

/-! ### Heads of functions -/

theorem paramList : ∀ m a b, m ≤ a → m ≤ b →
    Mirrors id (k.Abreast m) Eq (Parser.paramList a) (Parser.paramList b)
  | 0, _, _, _, _ => fun s s' ⟨us, before⟩ => absurd before.few (Nat.not_lt_zero _)
  | m + 1, a + 1, b + 1, ha, hb => by
    unfold Parser.paramList
    refine ident.bind ?_
    rintro name _ rfl
    refine (expectSymbol rfl).bind fun _ _ _ => typeName.bind ?_
    rintro type _ rfl
    refine acceptSymbol_branch rfl ?_ ((expectSymbol rfl).bind fun _ _ _ => .pure rfl)
    refine (paramList m a b (Nat.le_of_succ_le_succ ha) (Nat.le_of_succ_le_succ hb)).andThen
      (fun _ _ h => h.mono (Nat.le_succ m)) ?_
    rintro params _ rfl
    exact MirrorsFrom.weaken (Mirrors.pure rfl) (fun _ _ h => h) fun _ _ h => h.mono (Nat.le_succ m)

end Fork

end ScriptLang.Syntax
