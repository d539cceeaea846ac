import ScriptLang.Proofs.ItemRounds

/-!
# Recovery in a block

What is wrong with a statement is reported once, and then the parser goes on behind its semicolon: a
body made of statements and of broken ones in any order becomes a block of just the statements, with
one error for each broken one (`statements_of_pieces`), and the rest of the source is as it would be
(`statements_recovered`).
-/

namespace ScriptLang.Syntax

open TokenReader (EndsOnce)

/-! ### Statements by themselves -/

/-- The parser of the statements of a function, where so many levels may nest in it. -/
abbrev Parser.statementIn (levels : Nat) : Parser Stmt :=
  statement (expression levels) (block levels)

/-- The tokens are a statement, directly in a function and by themselves. -/
def IsStatement (levels : Nat) (eof : Token) (ts : List Token) (stmt : Stmt) : Prop :=
  Whole (Parser.statementIn levels) (levels + 1) eof ts stmt

/-- The tokens go up to their only semicolon and are in no way a statement: reading one fails. -/
structure IsBroken (levels : Nat) (eof : Token) (ts : List Token) (e : ParseError) : Prop where
  ended : ∃ us semicolon, ts = us ++ [semicolon] ∧ semicolon.isSymbol ';' = true ∧
    ∀ t ∈ us, t.isSymbol ';' = false
  braceless : ∀ t ∈ ts, t.isSymbol '{' = false ∧ t.isSymbol '}' = false
  begins : ∀ t ∈ ts.head?, t.isWord .elif = false ∧ t.isWord .else = false
  fails : ∃ t,
    (Parser.statementIn levels).run.run (byItself (levels + 1) (ts ++ [eof])) = (.error e, t)

/-- Tokens made of statements and of broken ones: the statements, and the errors of the broken ones. -/
inductive Pieces (levels : Nat) (eof : Token) : List Token → List Stmt → List ParseError → Prop where
  | nil : Pieces levels eof [] [] []
  | statement {ts rest : List Token} {stmt : Stmt} {stmts : List Stmt} {es : List ParseError}
    (whole : IsStatement levels eof ts stmt) (others : Pieces levels eof rest stmts es) :
    Pieces levels eof (ts ++ rest) (stmt :: stmts) es
  | broken {ts rest : List Token} {e : ParseError} {stmts : List Stmt} {es : List ParseError}
    (broken : IsBroken levels eof ts e) (others : Pieces levels eof rest stmts es) :
    Pieces levels eof (ts ++ rest) stmts (e :: es)

/-- The second statement is the first one with its identities counted from elsewhere. -/
def Stmt.SameAs (a b : Stmt) : Prop := ∃ m, b = renumber m a

/-! ### Where no statement begins -/

/-- No expression begins with the token. -/
structure BeginsNothing (t : Token) : Prop where
  operator : Operator.find? t .unary = none
  kind : t.kind = .symbol ∨ t.kind = .keyword ∨ t.kind = .endOfFile
  noTrue : t.isWord .true = false
  noFalse : t.isWord .false = false

section

variable {t : Token} {ts : List Token} {s : ParserState}

theorem BeginsNothing.of_kind (kind : t.kind = .symbol ∨ t.kind = .keyword ∨ t.kind = .endOfFile)
    (operator : ∀ o ∈ Operator.table, o.arity = .unary → t.kind = o.kind → t.code ≠ o.code)
    (words : t.isWord .true = false ∧ t.isWord .false = false) : BeginsNothing t where
  operator := by
    refine List.find?_eq_none.2 fun o mem found => ?_
    simp only [Token.is, Bool.and_eq_true, beq_iff_eq] at found
    exact operator o mem found.1 found.2.1 found.2.2
  kind := kind
  noTrue := words.1
  noFalse := words.2

theorem beginsNothing_of_brace (h : t.isSymbol '}' = true) : BeginsNothing t := by
  obtain ⟨kind, code⟩ := isSymbol_iff.1 h
  have other (w : Keyword) : t.isWord w = false :=
    Bool.eq_false_iff.2 fun word => nomatch kind.symm.trans (kind_of_isWord word)
  have known : ∀ o ∈ Operator.table, '}'.toNat ≠ o.code := by decide
  exact .of_kind (.inl kind) (fun o mem _ _ => code ▸ known o mem) ⟨other _, other _⟩

theorem beginsNothing_of_end (h : t.isEndOfFile = true) : BeginsNothing t := by
  have kind : t.kind = .endOfFile := beq_iff_eq.1 h
  have known : ∀ o ∈ Operator.table, .endOfFile ≠ o.kind := by decide
  exact .of_kind (.inr (.inr kind)) (fun o mem _ same => absurd (kind.symm.trans same) (known o mem))
    ⟨isWord_of_isEndOfFile h _, isWord_of_isEndOfFile h _⟩

theorem beginsNothing_of_word {w : Keyword} (branch : w = .else ∨ w = .elif)
    (h : t.isWord w = true) : BeginsNothing t := by
  obtain ⟨kind, code⟩ := isWord_iff.1 h
  have other (v : Keyword) (differ : w.code ≠ v.code) : t.isWord v = false :=
    Bool.eq_false_iff.2 fun word => differ (code.symm.trans (isWord_iff.1 word).2)
  have known : ∀ o ∈ Operator.table, o.arity = .unary → o.kind ≠ .keyword := by decide
  refine .of_kind (.inr (.inl kind)) (fun o mem unary same => ?_) ?_
  · exact absurd (same.symm.trans kind) (known o mem unary)
  · rcases branch with rfl | rfl
    · exact ⟨other .true (by decide), other .false (by decide)⟩
    · exact ⟨other .true (by decide), other .false (by decide)⟩

theorem fails_tooDeep {α : Type} : ∃ e u, (Parser.failTooDeep : Parser α).run.run s = (.error e, u) :=
  ⟨_, _, rfl⟩

theorem fails_atom (nothing : BeginsNothing t) :
    ∃ e u, (Parser.atom t).run.run s = (.error e, u) := by
  have failed {f : (Node → Expr) → Parser Expr} : ∃ e u,
      ((Parser.failExpected "expression" >>= f : Parser Expr)).run.run s = (.error e, u) :=
    fails_bind ⟨_, _, rfl⟩
  unfold Parser.atom
  rw [nothing.noTrue, nothing.noFalse]
  rcases nothing.kind with kind | kind | kind
  · rw [kind]
    exact failed
  · rw [kind]
    exact failed
  · rw [kind]
    exact failed

theorem fails_expression (nothing : BeginsNothing t) (tokens : s.reader.toList = t :: ts) :
    ∀ levels, ∃ e u, (Parser.expression levels).run.run s = (.error e, u)
  | 0 => fails_tooDeep
  | 1 => fails_bind fails_tooDeep
  | levels + 2 => by
    unfold Parser.expression Parser.operand
    refine fails_bind (fails_peek tokens fun u tokens => ?_)
    rw [nothing.operator]
    exact fails_atom nothing

/-- Neither does a statement begin so. -/
theorem fails_statement (nothing : BeginsNothing t) (brace : t.isSymbol '{' = false)
    (keyword : t.kind = .keyword → Keyword.ofCode? t.code = some .else ∨
      Keyword.ofCode? t.code = some .elif) (tokens : s.reader.toList = t :: ts) (levels : Nat) :
    ∃ e u, (Parser.statementIn levels).run.run s = (.error e, u) := by
  have simple (u : ParserState) (tokens : u.reader.toList = t :: ts) : ∃ e v,
      (Parser.expressionStatement (Parser.expression levels)).run.run u = (.error e, v) :=
    fails_bind (fails_expression nothing tokens levels)
  unfold Parser.statementIn Parser.statement
  refine fails_peek tokens fun u tokens => ?_
  rw [if_neg (by rw [brace]; exact Bool.false_ne_true)]
  by_cases word : t.kind = .keyword
  · rw [if_pos word]
    refine fails_bind ?_
    unfold Parser.keywordStatement
    rcases keyword word with code | code
    · rw [code]
      exact simple u tokens
    · rw [code]
      exact simple u tokens
  · rw [if_neg word, if_neg fun named => ?_]
    · exact fails_bind (simple u tokens)
    · rcases nothing.kind with kind | kind | kind <;> cases named.symm.trans kind

/-- The token cannot be the first one of a statement. -/
def isUnbegun (t : Token) : Bool :=
  t.isSymbol '}' || t.isEndOfFile || t.isWord .elif || t.isWord .else

theorem fails_unbegun (unbegun : isUnbegun t = true) (tokens : s.reader.toList = t :: ts)
    (levels : Nat) : ∃ e u, (Parser.statementIn levels).run.run s = (.error e, u) := by
  simp only [isUnbegun, Bool.or_eq_true] at unbegun
  have other {kind : TokenKind} (h : t.kind = kind) (symbol : kind ≠ .symbol) :
      t.isSymbol '{' = false := Bool.eq_false_iff.2 fun brace =>
    symbol (h.symm.trans (isSymbol_iff.1 brace).1)
  rcases unbegun with ((brace | last) | elif) | else'
  · have kind := (isSymbol_iff.1 brace).1
    refine fails_statement (beginsNothing_of_brace brace) ?_ ?_ tokens levels
    · refine Bool.eq_false_iff.2 fun opening => ?_
      have same := (isSymbol_iff.1 brace).2.symm.trans (isSymbol_iff.1 opening).2
      exact absurd same (by decide)
    · exact fun word => nomatch kind.symm.trans word
  · have kind : t.kind = .endOfFile := beq_iff_eq.1 last
    exact fails_statement (beginsNothing_of_end last) (other kind nofun)
      (fun word => nomatch kind.symm.trans word) tokens levels
  · obtain ⟨kind, code⟩ := isWord_iff.1 elif
    exact fails_statement (beginsNothing_of_word (.inr rfl) elif) (other kind nofun)
      (fun _ => .inr (by rw [code]; rfl)) tokens levels
  · obtain ⟨kind, code⟩ := isWord_iff.1 else'
    exact fails_statement (beginsNothing_of_word (.inl rfl) else') (other kind nofun)
      (fun _ => .inl (by rw [code]; rfl)) tokens levels

end

/-! ### Statements among others -/

section

variable {levels : Nat} {eof : Token} {ts us far : List Token} {stmt : Stmt} {e : ParseError}
  {s u v : ParserState} {es es' : List ParseError}

/-- A statement begins with a token that can begin one. -/
theorem IsStatement.begins (whole : IsStatement levels eof ts stmt)
    (final : eof.isEndOfFile = true) : ∃ t us, ts = t :: us ∧ isUnbegun t = false :=
  Whole.begins whole isUnbegun (fun _ _ _ unbegun tokens => fails_unbegun unbegun tokens levels)
    (by simp [isUnbegun, final])

/-- What is a statement by itself is the same statement among others. -/
theorem statement_in_place (whole : IsStatement levels eof ts stmt) (final : eof.isEndOfFile = true)
    (tokens : s.reader.toList = ts ++ far) (clean : s.reader.Clean) (limit : s.limit = levels + 1)
    (unbranched : Unbranched far) : ∃ u,
      (Parser.statementIn levels).run.run s = (.ok (renumber s.nextId stmt), u) ∧ Went s u far [] := by
  obtain ⟨first, us, rfl, -⟩ := whole.begins final
  have follows : False ∨ Unbranched far := .inr unbranched
  refine Whole.in_place whole rfl (closes_statement levels) (slides_statement levels) ?_ final follows
    tokens clean limit
  intro k n strict
  have steps := k.statement_steps levels n
  rw [propext strict] at steps
  exact Fork.steps_from_abreast first steps

/-- The tokens inside a broken statement. -/
structure IsInner (t : Token) : Prop where
  semicolon : t.isSymbol ';' = false
  opening : t.isSymbol '{' = false
  closing : t.isSymbol '}' = false
  last : t.isEndOfFile = false

/-- What is left of a broken statement is skipped, its semicolon with it. -/
theorem run_skipStatement {semicolon : Token} (semi : semicolon.isSymbol ';' = true) :
    ∀ (us : List Token) (fuel : Nat) (s : ParserState), us.length < fuel →
      s.reader.toList = us ++ semicolon :: far → s.reader.Clean → (∀ t ∈ us, IsInner t) →
      ∃ u, (Parser.skipStatement fuel 0).run.run s = (.ok (), u) ∧ Went s u far [] := by
  obtain ⟨kind, code⟩ := isSymbol_iff.1 semi
  have last : semicolon.isEndOfFile = false := Bool.eq_false_iff.2 fun last => by
    cases kind.symm.trans (beq_iff_eq.1 last)
  have other {c : Char} (h : ';'.toNat ≠ c.toNat) : semicolon.isSymbol c = false :=
    Bool.eq_false_iff.2 fun same => h (code.symm.trans (isSymbol_iff.1 same).2)
  intro us
  induction us with
  | nil =>
    intro fuel s enough tokens clean _
    obtain ⟨fuel, rfl⟩ := Nat.exists_eq_succ_of_ne_zero (Nat.ne_of_gt enough)
    have looked := looked_peekNth s 0
    obtain ⟨u, run, went⟩ := run_next (looked.tokens.trans tokens) (looked.clean clean)
    refine ⟨u, ?_, (Went.of_looked looked tokens clean).trans went⟩
    rw [Parser.skipStatement, run_bind, run_peek, TokenReader.peek_eq tokens]
    dsimp only
    rw [last, other (c := '}') (by decide), if_neg Bool.false_ne_true, if_neg Bool.false_ne_true,
      run_bind, run]
    dsimp only
    rw [other (c := '{') (by decide), if_neg Bool.false_ne_true, semi]
    rfl
  | cons t us ih =>
    intro fuel s enough tokens clean inner
    obtain ⟨fuel, rfl⟩ := Nat.exists_eq_succ_of_ne_zero (Nat.ne_of_gt (Nat.zero_lt_of_lt enough))
    have here := inner t List.mem_cons_self
    have looked := looked_peekNth s 0
    obtain ⟨u, run, went⟩ := run_next (looked.tokens.trans tokens) (looked.clean clean)
    obtain ⟨v, run', went'⟩ := ih fuel u (Nat.lt_of_succ_lt_succ enough) went.tokens went.clean
      fun t mem => inner t (List.mem_cons_of_mem _ mem)
    refine ⟨v, ?_, (Went.of_looked looked tokens clean).trans (went.trans went')⟩
    rw [Parser.skipStatement, run_bind, run_peek, TokenReader.peek_eq tokens]
    dsimp only
    rw [here.last, here.closing, if_neg Bool.false_ne_true, if_neg Bool.false_ne_true, run_bind, run]
    dsimp only
    rw [here.opening, here.semicolon, if_neg Bool.false_ne_true]
    exact run'

/-- What is no statement by itself fails just so among others, before its semicolon. -/
theorem broken_in_place (broken : IsBroken levels eof ts e) (final : eof.isEndOfFile = true)
    (tokens : s.reader.toList = ts ++ far) (clean : s.reader.Clean) (limit : s.limit = levels + 1) :
    ∃ us vs semicolon u, ts = us ++ vs ++ [semicolon] ∧ semicolon.isSymbol ';' = true ∧
      (∀ t ∈ us ++ vs, t.isSymbol ';' = false) ∧
      (Parser.statementIn levels).run.run s = (.error e, u) ∧
      Went s u (vs ++ semicolon :: far) [] := by
  obtain ⟨us, semicolon, rfl, semi, plain⟩ := broken.ended
  obtain ⟨t, run⟩ := broken.fails
  let k : Fork :=
    { stop := semicolon, near := [eof], far, shift := s.nextId, errors := s.errors, wide := False
      loose := True, stops := Bool.or_eq_true_iff.2 (.inl semi), follows := .inl trivial }
  have begins : k.Abreast (us.length + 1) (byItself (levels + 1) (us ++ [semicolon] ++ [eof])) s :=
    ⟨us, Fork.before_byItself rfl final rfl rfl (.inr fun t mem => (broken.braceless t mem).1)
      (by rw [tokens, List.append_assoc]; rfl) clean limit⟩
  obtain ⟨u, run', vs, before⟩ := k.together_of_fails (k.statement_steps levels _) id begins run
  have after := slides_statement levels s
  have after' := slides_statement levels (byItself (levels + 1) (us ++ [semicolon] ++ [eof]))
  rw [show (Parser.statement _ _).run.run s = _ from run'] at after
  rw [show (Parser.statement _ _).run.run (byItself _ _) = _ from run] at after'
  obtain ⟨ws, split⟩ := after'.tokens
  rw [toList_byItself, before.stands.tokens, List.append_assoc, ← List.append_assoc ws] at split
  obtain rfl : ws ++ vs = us := List.append_cancel_right split
  refine ⟨ws, vs, semicolon, u, rfl, semi, plain, run', before.stands.tokens', before.stands.clean',
    after.last, after.limit, ?_⟩
  exact before.stands.errors.trans (List.append_nil _).symm

/-- What fails in a block is reported once and skipped up to its semicolon. -/
theorem recover_broken (broken : IsBroken levels eof ts e) (final : eof.isEndOfFile = true)
    (tokens : s.reader.toList = ts ++ far) (clean : s.reader.Clean) (limit : s.limit = levels + 1)
    (more : ∀ t ∈ ts, t.isEndOfFile = false) : ∃ u,
      (Parser.recover (Parser.statementIn levels)
        (do Parser.skipStatement (← Parser.remaining) 0)).run.run s = (.ok none, u) ∧
      Went s u far [e] := by
  obtain ⟨us, vs, semicolon, u, rfl, semi, plain, run, went⟩ :=
    broken_in_place broken final tokens clean limit
  let reported : ParserState := { u with errors := u.errors ++ [e] }
  have inner : ∀ t ∈ vs, IsInner t := fun t mem => by
    have inside : t ∈ us ++ vs := List.mem_append_right _ mem
    have whole : t ∈ us ++ vs ++ [semicolon] := List.mem_append_left _ inside
    exact ⟨plain t inside, (broken.braceless t whole).1, (broken.braceless t whole).2, more t whole⟩
  have enough : vs.length < reported.reader.size := by
    rw [TokenReader.size_eq, show reported.reader.toList = _ from went.tokens, List.length_append,
      List.length_cons]
    omega
  obtain ⟨v, skipped, went'⟩ :=
    run_skipStatement semi vs reported.reader.size reported enough went.tokens went.clean inner
  refine ⟨v, ?_, ?_⟩
  · rw [run_recover, run]
    dsimp only
    rw [run_bind, run_report_clean went.clean]
    dsimp only
    rw [run_bind, show (do Parser.skipStatement (← Parser.remaining) 0 : Parser Unit).run.run
      { u with errors := u.errors ++ [e] } = _ from skipped]
    rfl
  · refine ⟨went'.tokens, went'.clean, went'.last.trans went.last, went'.limit.trans went.limit, ?_⟩
    rw [went'.errors, show reported.errors = u.errors ++ [e] from rfl, went.errors, List.append_nil,
      List.append_nil]

theorem IsBroken.ne_nil (broken : IsBroken levels eof ts e) : ∃ t us, ts = t :: us := by
  obtain ⟨us, semicolon, rfl, -⟩ := broken.ended
  cases us with
  | nil => exact ⟨semicolon, [], rfl⟩
  | cons t us => exact ⟨t, us ++ [semicolon], rfl⟩

/-- No piece begins as the branch of a conditional does. -/
theorem Pieces.unbranched {stmts : List Stmt} (pieces : Pieces levels eof ts stmts es)
    (final : eof.isEndOfFile = true) {closing : Token} (brace : closing.isSymbol '}' = true) :
    Unbranched (ts ++ closing :: far) := by
  cases pieces with
  | nil =>
    have other (w : Keyword) : closing.isWord w = false := Bool.eq_false_iff.2 fun word =>
      nomatch (isSymbol_iff.1 brace).1.symm.trans (kind_of_isWord word)
    exact ⟨closing, far, rfl, other _, other _⟩
  | @statement ts rest stmt stmts es whole others =>
    obtain ⟨t, us, rfl, begun⟩ := whole.begins final
    simp only [isUnbegun, Bool.or_eq_false_iff] at begun
    exact ⟨t, us ++ rest ++ closing :: far, rfl, begun.1.2, begun.2⟩
  | @broken ts rest e stmts es broken others =>
    obtain ⟨t, us, rfl⟩ := broken.ne_nil
    obtain ⟨elif, else'⟩ := broken.begins t rfl
    exact ⟨t, us ++ rest ++ closing :: far, rfl, elif, else'⟩

/-- One more round of the loop over the statements of a block. -/
theorem run_statements_succ {t : Token} {fuel : Nat} {found : Option Stmt} {stmts : List Stmt}
    (tokens : s.reader.toList = t :: ts) (begun : t.isSymbol '}' = false ∧ t.isEndOfFile = false)
    (first : (Parser.recover (Parser.statementIn levels)
      (do Parser.skipStatement (← Parser.remaining) 0)).run.run
        { s with reader := (s.reader.peekNth 0).2 } = (.ok found, u))
    (rest : (Parser.statements (Parser.statementIn levels) fuel).run.run u = (.ok stmts, v)) :
    (Parser.statements (Parser.statementIn levels) (fuel + 1)).run.run s =
      (.ok (found.toList ++ stmts), v) := by
  rw [Parser.statements, run_bind, run_peek, TokenReader.peek_eq tokens]
  dsimp only
  rw [begun.1, begun.2, if_neg (by decide), run_bind, first]
  dsimp only
  rw [run_bind, rest]
  rfl

/-- A body made of pieces becomes the statements among them, with the errors of the broken ones. -/
theorem statements_of_pieces {closing : Token} (brace : closing.isSymbol '}' = true)
    (final : eof.isEndOfFile = true) {stmts : List Stmt} (pieces : Pieces levels eof ts stmts es) :
    ∀ (fuel : Nat) (s : ParserState), ts.length < fuel → s.reader.toList = ts ++ closing :: far →
      s.reader.Clean → s.limit = levels + 1 → (∀ t ∈ ts, t.isEndOfFile = false) →
      ∃ stmts' u, (Parser.statements (Parser.statementIn levels) fuel).run.run s = (.ok stmts', u) ∧
        List.Forall₂ Stmt.SameAs stmts stmts' ∧ Went s u (closing :: far) es := by
  induction pieces with
  | nil =>
    intro fuel s enough tokens clean limit _
    obtain ⟨fuel, rfl⟩ := Nat.exists_eq_succ_of_ne_zero (Nat.ne_of_gt enough)
    refine ⟨[], _, ?_, .nil, Went.of_looked (looked_peekNth s 0) tokens clean⟩
    rw [Parser.statements, run_bind, run_peek, TokenReader.peek_eq tokens]
    dsimp only
    rw [brace, if_pos (by rfl)]
    rfl
  | @statement ts rest stmt stmts es whole others ih =>
    intro fuel s enough tokens clean limit more
    obtain ⟨fuel, rfl⟩ := Nat.exists_eq_succ_of_ne_zero (Nat.ne_of_gt (Nat.zero_lt_of_lt enough))
    obtain ⟨t, us, rfl, begun⟩ := whole.begins final
    simp only [isUnbegun, Bool.or_eq_false_iff] at begun
    rw [List.append_assoc] at tokens
    have shorter : rest.length < fuel := by
      rw [List.length_append, List.length_cons] at enough
      omega
    have looked := looked_peekNth s 0
    obtain ⟨u, run, went⟩ := statement_in_place whole final (looked.tokens.trans tokens)
      (looked.clean clean) limit (others.unbranched final brace)
    obtain ⟨stmts', v, run', same, went'⟩ := ih fuel u shorter went.tokens went.clean
      (went.limit.trans limit) fun t mem => more t (List.mem_append_right _ mem)
    have first : (Parser.recover (Parser.statementIn levels)
        (do Parser.skipStatement (← Parser.remaining) 0)).run.run
          { s with reader := (s.reader.peekNth 0).2 } =
        (.ok (some (renumber s.nextId stmt)), u) := by
      rw [run_recover, run]
    exact ⟨_, v, run_statements_succ tokens begun.1.1 first run', .cons ⟨_, rfl⟩ same,
      (Went.of_looked looked tokens clean).trans (went.trans went')⟩
  | @broken ts rest e stmts es broken others ih =>
    intro fuel s enough tokens clean limit more
    obtain ⟨fuel, rfl⟩ := Nat.exists_eq_succ_of_ne_zero (Nat.ne_of_gt (Nat.zero_lt_of_lt enough))
    obtain ⟨t, us, rfl⟩ := broken.ne_nil
    rw [List.append_assoc] at tokens
    have shorter : rest.length < fuel := by
      rw [List.length_append, List.length_cons] at enough
      omega
    have looked := looked_peekNth s 0
    obtain ⟨u, run, went⟩ := recover_broken broken final (looked.tokens.trans tokens)
      (looked.clean clean) limit fun t mem => more t (List.mem_append_left _ mem)
    obtain ⟨stmts', v, run', same, went'⟩ := ih fuel u shorter went.tokens went.clean
      (went.limit.trans limit) fun t mem => more t (List.mem_append_right _ mem)
    have begun : t.isSymbol '}' = false ∧ t.isEndOfFile = false :=
      ⟨(broken.braceless t List.mem_cons_self).2,
        more t (List.mem_append_left _ List.mem_cons_self)⟩
    exact ⟨stmts', v, run_statements_succ tokens begun run run', same,
      (Went.of_looked looked tokens clean).trans (went.trans went')⟩

theorem run_expectSymbol {c : Char} {t : Token} (symbol : t.isSymbol c = true)
    (tokens : s.reader.toList = t :: ts) (clean : s.reader.Clean) : ∃ r,
      (Parser.expectSymbol c).run.run s = (.ok t, { s with reader := r }) ∧ r.toList = ts ∧
      r.Clean ∧ r.last = s.reader.last := by
  have looked := looked_peekNth s 0
  obtain ⟨token, list, clean'⟩ :=
    TokenReader.next_spec (looked.tokens.trans tokens) (looked.clean clean)
  refine ⟨_, ?_, list, clean', (TokenReader.last_next _).trans looked.last⟩
  rw [Parser.expectSymbol, Parser.expectIf, run_bind, run_peek, TokenReader.peek_eq tokens]
  dsimp only
  rw [if_pos symbol]
  exact congrArg (fun t => (Except.ok t, _)) token

/-- The block of such a body. -/
theorem block_of_pieces {opening closing : Token} (braces : opening.isSymbol '{' = true ∧
    closing.isSymbol '}' = true) (final : eof.isEndOfFile = true) {stmts : List Stmt}
    (pieces : Pieces levels eof ts stmts es) (more : ∀ t ∈ ts, t.isEndOfFile = false)
    (tokens : s.reader.toList = opening :: (ts ++ closing :: far)) (clean : s.reader.Clean)
    (limit : s.limit = levels + 1) : ∃ stmts' u,
      (Parser.block (levels + 1)).run.run s = (.ok (.mk ⟨s.nextId, opening⟩ stmts'), u) ∧
      List.Forall₂ Stmt.SameAs stmts stmts' ∧ Went s u far es := by
  obtain ⟨r, run, list, clean', last⟩ := run_expectSymbol braces.1 tokens clean
  let u : ParserState := { s with reader := r, nextId := s.nextId + 1 }
  have enough : ts.length < u.reader.size := by
    rw [TokenReader.size_eq, show u.reader.toList = _ from list, List.length_append, List.length_cons]
    omega
  obtain ⟨stmts', v, run', same, went⟩ := statements_of_pieces braces.2 final pieces u.reader.size u
    enough list clean' limit more
  obtain ⟨r', run'', list', clean'', last'⟩ := run_expectSymbol braces.2 went.tokens went.clean
  refine ⟨stmts', { v with reader := r' }, ?_, same, list', clean'', ?_, went.limit, went.errors⟩
  · rw [Parser.block, run_bind, run]
    dsimp only
    rw [run_bind, show (Parser.nodeAt opening).run.run { s with reader := r } =
      (.ok ⟨s.nextId, opening⟩, u) from rfl]
    dsimp only
    rw [run_bind, show Parser.remaining.run.run u = (.ok u.reader.size, u) from rfl]
    dsimp only
    rw [run_bind, run']
    dsimp only
    rw [run_bind, run'']
    rfl
  · exact last'.trans (went.last.trans last)

end

/-! ### Functions -/

/-- What stands before the body of a function, from `func` on. -/
def Parser.signature (node : Node) : Parser (FunctionBody → Item) := do
  let _ ← expectWord .func
  let name ← ident
  let _ ← expectSymbol '('
  let params ← if ← acceptSymbol ')' then pure [] else do paramList (← remaining)
  let ret ← if ← acceptSymbol ':' then some <$> typeName else pure none
  return fun body => ⟨node, .function ⟨name, params, ret, body⟩⟩

theorem Parser.function_eq (levels : Nat) (node : Node) :
    (do return ⟨node, .function (← function levels)⟩) = (do
      let make ← signature node
      return make (← functionBody levels)) := by
  have branches {α β : Type} (c : Bool) (p q : Parser α) (f : α → Parser β) :
      (if c = true then p else q) >>= f = if c = true then p >>= f else q >>= f := by
    cases c <;> rfl
  simp only [function, signature, bind_assoc, branches, pure_bind]

/-- What stands before the body of a function. -/
def Parser.functionHead : Parser (FunctionBody → Item) := do
  let token ← peek
  if token.isWord .func then signature (← nodeAt token) else failExpected "'func'"

/-- The parser of the items comes to the body of a function: `before` it there are these items, and
`make` makes the function of the body. -/
def BodyAt (levels : Nat) (s : ParserState) (before : List Item) (make : FunctionBody → Item)
    (u : ParserState) : Prop :=
  ∃ t, Arrives levels s before t ∧ Parser.functionHead.run.run t = (.ok make, u)

section

variable {levels : Nat} {eof : Token} {ts far : List Token} {es : List ParseError}
  {s t u : ParserState}

/-- The first token of the head of a function, and what is done when it has been looked at. -/
theorem run_functionHead {make : FunctionBody → Item}
    (head : Parser.functionHead.run.run t = (.ok make, u)) :
    (t.reader.peekNth 0).1.isWord .func = true ∧
      (do Parser.signature (← Parser.nodeAt (t.reader.peekNth 0).1)).run.run
        { t with reader := (t.reader.peekNth 0).2 } = (.ok make, u) := by
  rw [Parser.functionHead, run_bind, run_peek] at head
  dsimp only at head
  split at head
  · next func => exact ⟨func, head⟩
  · cases head

/-- An item is the function that its head makes of its body. -/
theorem run_item_of_head {make : FunctionBody → Item}
    (head : Parser.functionHead.run.run t = (.ok make, u)) (levels : Nat) :
    (Parser.item levels).run.run { t with reader := (t.reader.peekNth 0).2 } =
      (do return make (← Parser.functionBody levels) : Parser Item).run.run u := by
  obtain ⟨func, head⟩ := run_functionHead head
  have item : (Parser.item levels).run.run { t with reader := (t.reader.peekNth 0).2 } =
      (do
        let node ← Parser.nodeAt (t.reader.peekNth 0).1
        return ⟨node, .function (← Parser.function levels)⟩ : Parser Item).run.run
          { t with reader := (t.reader.peekNth 0).2 } := by
    rw [Parser.item, run_bind, run_peek]
    dsimp only
    simp only [TokenReader.peek_again, func, if_true]
  rw [item]
  simp only [Parser.function_eq]
  rw [← bind_assoc, run_bind, head]

/-- The round in which the function is read. -/
theorem round_of_pieces {opening closing : Token} {make : FunctionBody → Item}
    (clean : t.reader.Clean) (head : Parser.functionHead.run.run t = (.ok make, u))
    (clean' : u.reader.Clean)
    (braces : opening.isSymbol '{' = true ∧ closing.isSymbol '}' = true)
    (final : eof.isEndOfFile = true) {stmts : List Stmt} (pieces : Pieces levels eof ts stmts es)
    (more : ∀ t ∈ ts, t.isEndOfFile = false)
    (tokens : u.reader.toList = opening :: (ts ++ closing :: far)) (limit : u.limit = levels + 1) :
    ∃ stmts' v, (Parser.round (levels + 1)).run.run t =
        (.ok (some [make (.block (.mk ⟨u.nextId, opening⟩ stmts'))]), v) ∧
      List.Forall₂ Stmt.SameAs stmts stmts' ∧ Went u v far es := by
  have looked := looked_peekNth u 0
  obtain ⟨stmts', v, run, same, went⟩ := block_of_pieces braces final pieces more
    (looked.tokens.trans tokens) (looked.clean clean') limit
  have body : (do return make (← Parser.functionBody (levels + 1)) : Parser Item).run.run u =
      (.ok (make (.block (.mk ⟨u.nextId, opening⟩ stmts'))), v) := by
    rw [Parser.functionBody, bind_assoc, run_bind, run_peek, TokenReader.peek_eq tokens]
    dsimp only
    rw [if_pos braces.1, bind_assoc, run_bind, run]
    rfl
  have item := (run_item_of_head head (levels + 1)).trans body
  refine ⟨stmts', v, ?_, same, (Went.of_looked looked tokens clean').trans went⟩
  have func := (run_functionHead head).1
  have starts : Parser.isItemStart (t.reader.peekNth 0).1 = true := by
    simp [Parser.isItemStart, func]
  have begun : ¬(t.reader.peekNth 0).1.isEndOfFile = true := fun last => by
    cases (kind_of_isWord func).symm.trans (beq_iff_eq.1 last)
  rw [Parser.round, run_bind, run_reportFound clean]
  dsimp only
  rw [run_bind, run_peek]
  dsimp only
  rw [if_neg begun, Parser.turn, if_pos starts, run_bind, run_bind,
    run_recover, item]
  rfl

theorem slides_functionHead : Slides Parser.functionHead := by
  have typed {α : Type} (f : Option TypeName → α) : Slides (do
      let ret ← if ← Parser.acceptSymbol ':' then some <$> Parser.typeName else pure none
      return f ret) :=
    (slides_acceptIf fun _ => rfl).bind fun _ => .ite (slides_typeName.map.bind fun _ => .pure _)
      ((Slides.pure _).bind fun _ => .pure _)
  unfold Parser.functionHead Parser.signature
  refine slides_peek.bind fun t => .ite ?_ (slides_peek.bind fun _ => slides_throw _)
  refine (slides_nodeAt t).bind fun node => (slides_expectWord _).bind fun _ =>
    slides_ident.bind fun name => (slides_expectSymbol _).bind fun _ =>
      (slides_acceptIf fun _ => rfl).bind fun none => .ite ?_ ?_
  · exact (Slides.pure _).bind fun params => typed _
  · exact slides_remaining.bind fun fuel => (slides_paramList fuel).bind fun params => typed _

/-- Recovery in a block.  Whenever the parser of a source without lexical errors comes to the body of a
function, and up to its brace there are only statements and broken ones, the function gets a block of
just the statements, in their order, and each broken one is reported once, in its place.  The items
before the function and their errors stay as they are, and behind it the source is parsed as if the
rest was a source by itself. -/
theorem statements_recovered {options : ParseOptions} {name text : String}
    {front body post : List Token} {opening closing : Token} (nesting : options.maxNesting = levels + 1)
    (lexed : LexesTo options name text (front ++ opening :: (body ++ closing :: post)) eof)
    {before : List Item} {make : FunctionBody → Item}
    (function : BodyAt (levels + 1) (startOf options name text) before make u)
    (tokens : u.reader.toList = opening :: (body ++ closing :: (post ++ [eof])))
    (braces : opening.isSymbol '{' = true ∧ closing.isSymbol '}' = true) {stmts : List Stmt}
    (pieces : Pieces levels eof body stmts es) :
    ∃ stmts' after n v, List.Forall₂ Stmt.SameAs stmts stmts' ∧
      (Parser.module name).run.run { byItself options.maxNesting (post ++ [eof]) with nextId := n } =
        (.ok ⟨name, after⟩, v) ∧
      (parseText options name text).program.modules.head? =
        some ⟨name, before ++ make (.block (.mk ⟨u.nextId, opening⟩ stmts')) :: after⟩ ∧
      u.errors ++ es ++ v.errors <+: (parseText options name text).errors ∧
      (ProgramParser.importsOf
          ⟨name, before ++ make (.block (.mk ⟨u.nextId, opening⟩ stmts')) :: after⟩ = [] →
        (parseText options name text).errors = u.errors ++ es ++ v.errors) := by
  obtain ⟨t, arrives, head⟩ := function
  have clean := arrives.after.clean lexed.clean
  have further := slides_functionHead t
  rw [head] at further
  have limit : u.limit = levels + 1 :=
    further.limit.trans (arrives.after.limit.trans nesting)
  have more : ∀ t ∈ body, t.isEndOfFile = false := by
    intro t mem
    refine lexed.endsOnce.not_isEndOfFile (List.cons_ne_nil _ _) t (List.mem_append_right _ ?_)
    exact List.mem_cons_of_mem _ (List.mem_append_left _ mem)
  obtain ⟨stmts', v, round, same, went⟩ := round_of_pieces clean head (further.clean clean) braces
    lexed.isEndOfFile pieces more tokens limit
  have all := arrives.trans (.round round (.refl v))
  rw [List.append_nil, ← nesting] at all
  obtain ⟨after, w, w', module, run, errors⟩ := run_module_of_arrives lexed all went.tokens
  obtain ⟨root, own, alone⟩ := parseText_of_module run
  rw [List.append_assoc] at root alone
  rw [errors, went.errors] at own alone
  exact ⟨stmts', after, v.nextId, w, same, module, root, own, alone⟩

end

/-! ### A function with two broken statements -/

/-- The error with which reading a statement fails. -/
def failure? (levels : Nat) (eof : Token) (ts : List Token) : Option ParseError :=
  match (Parser.statementIn levels).run.run (byItself (levels + 1) (ts ++ [eof])) with
  | (.error e, _) => some e
  | _ => none

theorem fails_of_failure? {levels : Nat} {eof : Token} {ts : List Token} {e : ParseError}
    (h : failure? levels eof ts = some e) : ∃ t,
    (Parser.statementIn levels).run.run (byItself (levels + 1) (ts ++ [eof])) = (.error e, t) := by
  unfold failure? at h
  split at h
  · next found t run =>
    cases h
    exact ⟨t, run⟩
  · cases h

/-- The state in which reading the head of a function ends. -/
def pastHead? (s : ParserState) : Option ParserState :=
  match Parser.functionHead.run.run s with
  | (.ok _, u) => some u
  | _ => none

theorem head_of_pastHead? {s u : ParserState} (h : pastHead? s = some u) :
    ∃ make, Parser.functionHead.run.run s = (.ok make, u) := by
  unfold pastHead? at h
  split at h
  · next make u run =>
    cases h
    exact ⟨make, run⟩
  · cases h

/-- Two broken statements around one that is not. -/
def recoveringText : String := "func f() { x = ; g(); h(; }"

def recoveringSlice (i j : Nat) : List Token := sliceOf recoveringText i j

def recoveringToken (i : Nat) : Token := tokenOf recoveringText i

/-- What stands between the braces. -/
def recoveringBody : List Token :=
  recoveringSlice 5 8 ++ (recoveringSlice 8 12 ++ (recoveringSlice 12 15 ++ []))

/-- At each of the broken statements an expression is missing before the semicolon. -/
def recoveringErrors : List ParseError :=
  [.expected "expression" "';'" ⟨"t", 15, 1, 16⟩ 1, .expected "expression" "';'" ⟨"t", 24, 1, 25⟩ 1]

theorem recovering_pieces :
    ∃ stmt, Pieces 127 (recoveringToken 16) recoveringBody [stmt] recoveringErrors := by
  have first : IsBroken 127 (recoveringToken 16) (recoveringSlice 5 8)
      (.expected "expression" "';'" ⟨"t", 15, 1, 16⟩ 1) :=
    ⟨⟨recoveringSlice 5 7, recoveringToken 7, by decide +kernel⟩, by decide +kernel,
      by decide +kernel, fails_of_failure? (by decide +kernel)⟩
  have third : IsBroken 127 (recoveringToken 16) (recoveringSlice 12 15)
      (.expected "expression" "';'" ⟨"t", 24, 1, 25⟩ 1) :=
    ⟨⟨recoveringSlice 12 14, recoveringToken 14, by decide +kernel⟩, by decide +kernel,
      by decide +kernel, fails_of_failure? (by decide +kernel)⟩
  obtain ⟨stmt, second⟩ : ∃ stmt, whole? (Parser.statementIn 127) 128 (recoveringToken 16)
      (recoveringSlice 8 12) = some stmt := Option.isSome_iff_exists.1 (by decide +kernel)
  exact ⟨stmt, .broken first (.statement (whole_of_whole? second) (.broken third .nil))⟩

/-- The parser comes to the body of the only function. -/
theorem recovering_body : ∃ make u,
    LexesTo {} "t" recoveringText (recoveringSlice 0 4 ++ recoveringToken 4 ::
      (recoveringBody ++ recoveringToken 15 :: [])) (recoveringToken 16) ∧
    BodyAt 128 (startOf {} "t" recoveringText) [] make u ∧ u.errors = [] ∧
    u.reader.toList = recoveringToken 4 ::
      (recoveringBody ++ recoveringToken 15 :: ([] ++ [recoveringToken 16])) := by
  have known : (startWithin 40 {} "t" recoveringText).any (fun r =>
      decide (r.1 = (recoveringSlice 0 4 ++ recoveringToken 4 ::
        (recoveringBody ++ recoveringToken 15 :: []) ++ [recoveringToken 16]).map fun t => (t, [])) &&
      (pastHead? r.2).any fun u => decide (u.errors = [] ∧ u.reader.toList = recoveringToken 4 ::
          (recoveringBody ++ recoveringToken 15 :: ([] ++ [recoveringToken 16])))) = true := by
    decide +kernel
  obtain ⟨⟨drained, s⟩, started, facts⟩ := (Option.any_eq_true _ _).1 known
  obtain ⟨lexes, starts⟩ := startOf_of_startWithin started
  obtain ⟨tokens, facts⟩ := (Bool.and_eq_true _ _).mp facts
  obtain ⟨u, head, left⟩ := (Option.any_eq_true _ _).1 facts
  obtain ⟨make, run⟩ := head_of_pastHead? head
  exact ⟨make, u, lexes.trans (of_decide_eq_true tokens), ⟨_, .refl _, starts ▸ run⟩,
    of_decide_eq_true left⟩

/-- The function keeps its one statement, and both errors are reported. -/
theorem recovering_recovered :
    ∃ (make : FunctionBody → Item) (node : Node) (stmts : List Stmt),
      (parseText {} "t" recoveringText).program.modules.head? =
        some ⟨"t", [make (.block (.mk node stmts))]⟩ ∧ stmts.length = 1 ∧
      recoveringErrors <+: (parseText {} "t" recoveringText).errors := by
  obtain ⟨stmt, pieces⟩ := recovering_pieces
  obtain ⟨make, u, lexed, function, silent, tokens⟩ := recovering_body
  obtain ⟨stmts, after, n, v, same, rest, root, errors, -⟩ :=
    statements_recovered rfl lexed function tokens (by decide +kernel) pieces
  have final : (recoveringToken 16).isEndOfFile = true := by decide +kernel
  obtain ⟨w, nothing, -⟩ := run_module_end final "t" 128 n
  cases rest.symm.trans nothing
  rw [silent] at errors
  exact ⟨make, _, stmts, root, same.length_eq.symm, (List.prefix_append _ _).trans errors⟩

end ScriptLang.Syntax
