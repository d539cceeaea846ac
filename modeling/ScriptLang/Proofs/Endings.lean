import ScriptLang.Proofs.Forks
import ScriptLang.Proofs.ModuleParsing

/-!
# Where statements and items end

A parser only goes forward (`Slides`).  Statements and items are read up to a `;` or a `}` that is the
last token they consume (`closes_statement`, `closes_item`).
-/

namespace ScriptLang.Syntax

/-! ### Readers -/

namespace TokenReader

theorem ahead_reach_getElem? {i k : Nat} {r : TokenReader} (h : i < r.ahead.length + k) :
    (reach k r).ahead[i]? = r.toList[i]? := by
  fun_induction reach k r with
  | case1 r => rw [toList, List.getElem?_append_left h]
  | case2 r k rest => rw [toList, rest, List.map_nil, List.append_nil]
  | case3 r k t es rest hrest ih =>
    rw [ih (by rw [List.length_append, List.length_singleton]; omega), toList, toList, hrest,
      List.map_cons, List.append_assoc]
    rfl

/-- The token at some place of what is left; behind it there are only ends of file. -/
theorem peekNth_eq (r : TokenReader) (i : Nat) : (r.peekNth i).1 = (r.toList[i]?).getD r.last := by
  have reached := ahead_reach_getElem? (i := i) (k := i + 1 - r.ahead.length) (r := r) (by omega)
  change ((reach (i + 1 - r.ahead.length) r).ahead[i]?).getD (reach _ r).last = _
  rw [reached, last_reach]

theorem peek_nil {r : TokenReader} (h : r.toList = []) : (r.peekNth 0).1 = r.last := by
  rw [peekNth_eq, h]
  rfl

theorem next_val (r : TokenReader) : r.next.1 = (r.toList.head?).getD r.last := by
  cases tokens : r.toList with
  | cons t ts => exact (next_eq tokens).1
  | nil =>
    obtain ⟨ahead, rest⟩ := toList_eq_nil tokens
    have same : reach (1 - r.ahead.length) r = r := by
      rw [ahead]
      change reach 1 r = r
      unfold reach
      rw [rest]
    rw [next, same, ahead]
    rfl

end TokenReader

/-! ### Going forward -/

/-- The state is one further on: tokens are gone from the front, errors have come up. -/
structure After (s t : ParserState) : Prop where
  tokens : t.reader.toList <:+ s.reader.toList
  last : t.reader.last = s.reader.last
  clean : s.reader.Clean → t.reader.Clean
  errors : s.errors <+: t.errors
  limit : t.limit = s.limit

/-- Whatever the parser does, it only goes on. -/
def Slides {α : Type} (p : Parser α) : Prop := ∀ s, After s (p.run.run s).2

theorem After.refl (s : ParserState) : After s s :=
  ⟨List.suffix_rfl, rfl, id, List.prefix_rfl, rfl⟩

theorem After.trans {s t u : ParserState} (h : After s t) (h' : After t u) : After s u :=
  ⟨h'.tokens.trans h.tokens, h'.last.trans h.last, fun clean => h'.clean (h.clean clean),
    h.errors.trans h'.errors, h'.limit.trans h.limit⟩

theorem kept_after (s₀ : ParserState) : Kept (After s₀) where
  peekNth n s h := by
    have same : (s.reader.peekNth n).2.toList = s.reader.toList := TokenReader.toList_reach _ _
    exact h.trans ⟨same ▸ List.suffix_rfl, TokenReader.last_reach _ _, TokenReader.clean_reach _,
      List.prefix_rfl, rfl⟩
  next s h := by
    refine h.trans ⟨?_, TokenReader.last_next _, TokenReader.clean_next, List.prefix_rfl, rfl⟩
    change s.reader.next.2.toList <:+ s.reader.toList
    rw [TokenReader.toList_next]
    exact List.tail_suffix _
  freshId _ h := ⟨h.tokens, h.last, h.clean, h.errors, h.limit⟩
  reportFound s h :=
    h.trans ⟨List.suffix_rfl, rfl, fun clean => ⟨clean.rest, rfl⟩, List.prefix_append _ _, rfl⟩
  record s e _ h := h.trans ⟨List.suffix_rfl, rfl, id, List.prefix_append _ _, rfl⟩

section

variable {α β : Type} {p : Parser α} {f : α → Parser β}

/-- What keeps all that the operations keep only goes on. -/
theorem Slides.of_kept (h : ∀ I, Kept I → Preserves I p) : Slides p :=
  fun s => h _ (kept_after s) s (.refl s)

theorem Slides.bind (hp : Slides p) (hf : ∀ a, Slides (f a)) : Slides (p >>= f) := by
  intro s
  have before := hp s
  rw [run_bind]
  generalize p.run.run s = r at before
  obtain ⟨r, t⟩ := r
  cases r with
  | ok a => exact before.trans (hf a t)
  | error e => exact before

theorem Slides.pure (a : α) : Slides (Pure.pure a : Parser α) := fun s => .refl s

theorem Slides.map {g : α → β} (hp : Slides p) : Slides (g <$> p) := by
  rw [map_eq_pure_bind]
  exact hp.bind fun _ => .pure _

end

theorem slides_throw {α : Type} (e : ParseError) : Slides (throw e : Parser α) :=
  fun s => .refl s

theorem slides_peek : Slides Parser.peek := .of_kept fun _ kept => .of_mirrors kept.stable.peek

theorem slides_peekNth (n : Nat) : Slides (Parser.peekNth n) :=
  .of_kept fun _ kept => .of_mirrors (kept.stable.peekNth n)

theorem slides_next : Slides Parser.next := .of_kept fun _ kept => .of_mirrors kept.stable.next

theorem slides_nodeAt (t : Token) : Slides (Parser.nodeAt t) :=
  .of_kept fun _ kept => .of_mirrors (kept.stable.nodeAt t)

theorem slides_remaining : Slides Parser.remaining :=
  .of_kept fun _ kept => .of_mirrors kept.stable.remaining

theorem slides_expectSymbol (c : Char) : Slides (Parser.expectSymbol c) :=
  .of_kept fun _ kept => .of_mirrors (kept.stable.expectSymbol c)

theorem slides_expression (levels : Nat) : Slides (Parser.expression levels) :=
  .of_kept fun _ kept => .of_mirrors (kept.stable.expression levels)

theorem slides_block (levels : Nat) : Slides (Parser.block levels) :=
  .of_kept fun _ kept => .of_mirrors (kept.stable.block levels)

theorem slides_statement (levels : Nat) :
    Slides (Parser.statement (Parser.expression levels) (Parser.block levels)) :=
  .of_kept fun _ kept =>
    .of_mirrors (kept.stable.statement (kept.stable.expression levels) (kept.stable.block levels))

/-! ### Closing tokens -/

/-- The tokens `ts` are those up to a closing token and then `ts'`. -/
def ClosedBy (ts ts' : List Token) : Prop :=
  ∃ us t, ts = us ++ t :: ts' ∧ isCloser t = true

theorem ClosedBy.length_lt {ts ts' : List Token} (h : ClosedBy ts ts') : ts'.length < ts.length := by
  obtain ⟨us, t, rfl, -⟩ := h
  rw [List.length_append, List.length_cons]
  omega

theorem ClosedBy.of_suffix {ts ts' ts'' : List Token} (h : ClosedBy ts' ts'') (suffix : ts' <:+ ts) :
    ClosedBy ts ts'' := by
  obtain ⟨us, t, rfl, closer⟩ := h
  obtain ⟨vs, rfl⟩ := suffix
  exact ⟨vs ++ us, t, by rw [List.append_assoc], closer⟩

/-- The parser succeeds only with a closing token. -/
def Closes {α : Type} (p : Parser α) : Prop :=
  ∀ s a t, s.reader.last.isEndOfFile = true → p.run.run s = (.ok a, t) →
    ClosedBy s.reader.toList t.reader.toList

/-- The parser succeeds with a closing token, or where it is. -/
def Settles {α : Type} (p : Parser α) : Prop :=
  ∀ s a t, s.reader.last.isEndOfFile = true → p.run.run s = (.ok a, t) →
    t.reader.toList = s.reader.toList ∨ ClosedBy s.reader.toList t.reader.toList

section

variable {α β : Type} {p q : Parser α} {f : α → Parser β}

theorem settles_pure (a : α) : Settles (Pure.pure a : Parser α) := by
  intro s b t _ run
  cases run
  exact .inl rfl

theorem settles_nodeAt (t : Token) : Settles (Parser.nodeAt t) := by
  intro s b t _ run
  cases run
  exact .inl rfl

theorem run_bind_ok {s t : ParserState} {b : β} (run : (p >>= f).run.run s = (.ok b, t)) :
    ∃ a s', p.run.run s = (.ok a, s') ∧ (f a).run.run s' = (.ok b, t) := by
  rw [run_bind] at run
  generalize p.run.run s = r at run
  obtain ⟨r, s'⟩ := r
  cases r with
  | ok a => exact ⟨a, s', rfl, run⟩
  | error e => cases run

/-- After something else. -/
theorem Slides.closes (hp : Slides p) (hf : ∀ a, Closes (f a)) : Closes (p >>= f) := by
  intro s b t last run
  obtain ⟨a, s', first, second⟩ := run_bind_ok run
  have before := hp s
  rw [first] at before
  exact (hf a s' b t (before.last.symm ▸ last) second).of_suffix before.tokens

/-- Before something that may close nothing. -/
theorem Closes.bind (hp : Closes p) (slides : Slides p) (hf : ∀ a, Settles (f a)) :
    Closes (p >>= f) := by
  intro s b t last run
  obtain ⟨a, s', first, second⟩ := run_bind_ok run
  have before := slides s
  rw [first] at before
  rcases hf a s' b t (before.last.symm ▸ last) second with same | closed
  · rw [same]
    exact hp s a s' last first
  · exact closed.of_suffix before.tokens

theorem Settles.bind (hp : Settles p) (slides : Slides p) (hf : ∀ a, Settles (f a)) :
    Settles (p >>= f) := by
  intro s b t last run
  obtain ⟨a, s', first, second⟩ := run_bind_ok run
  have before := slides s
  rw [first] at before
  rcases hf a s' b t (before.last.symm ▸ last) second with same | closed
  · rw [same]
    exact hp s a s' last first
  · exact .inr (closed.of_suffix before.tokens)

theorem Closes.ite {c : Prop} [Decidable c] (hp : Closes p) (hq : Closes q) :
    Closes (if c then p else q) := by
  split
  · exact hp
  · exact hq

theorem closes_throw (e : ParseError) : Closes (throw e : Parser α) := nofun

end

/-- Behind the end of the source there is no symbol. -/
theorem closes_expectSymbol {c : Char}
    (closer : ∀ t : Token, t.isSymbol c = true → isCloser t = true) : Closes (Parser.expectSymbol c) := by
  intro s a t last run
  rw [Parser.expectSymbol, Parser.expectIf, run_bind, run_peek] at run
  dsimp only at run
  split at run
  · next yes =>
    cases tokens : s.reader.toList with
    | nil =>
      rw [TokenReader.peek_nil tokens] at yes
      cases (isSymbol_iff.1 yes).1.symm.trans (beq_iff_eq.1 last)
    | cons u us =>
      rw [TokenReader.peek_eq tokens] at yes
      cases run
      refine ⟨[], u, ?_, closer u yes⟩
      change u :: us = u :: (s.reader.peekNth 0).2.next.2.toList
      rw [TokenReader.toList_next, show (s.reader.peekNth 0).2.toList = s.reader.toList from
        TokenReader.toList_reach _ _, tokens]
      rfl
  · cases run

theorem closes_semicolon : Closes (Parser.expectSymbol ';') :=
  closes_expectSymbol fun _ h => Bool.or_eq_true_iff.2 (.inl h)

theorem closes_brace : Closes (Parser.expectSymbol '}') :=
  closes_expectSymbol fun _ h => Bool.or_eq_true_iff.2 (.inr h)

theorem slides_branches (levels fuel : Nat) :
    Slides (Parser.branches (Parser.expression levels) (Parser.block levels) fuel) :=
  .of_kept fun _ kept =>
    .of_mirrors (kept.stable.branches (kept.stable.expression levels) (kept.stable.block levels) fuel)

theorem slides_statements (levels fuel : Nat) : Slides (Parser.statements
    (Parser.statement (Parser.expression levels) (Parser.block levels)) fuel) :=
  .of_kept fun _ kept => .of_mirrors (kept.stable.statements
    (kept.stable.statement (kept.stable.expression levels) (kept.stable.block levels)) fuel)

theorem slides_ident : Slides Parser.ident := .of_kept fun _ kept => .of_mirrors kept.stable.ident

theorem slides_typeName : Slides Parser.typeName :=
  .of_kept fun _ kept => .of_mirrors kept.stable.typeName

theorem slides_expectWord (w : Keyword) : Slides (Parser.expectWord w) :=
  .of_kept fun _ kept => .of_mirrors (kept.stable.expectWord w)

theorem slides_varDecl (levels : Nat) : Slides (Parser.varDecl (Parser.expression levels)) :=
  .of_kept fun _ kept => .of_mirrors (kept.stable.varDecl (kept.stable.expression levels))

theorem slides_acceptIf {test : Token → Bool} (h : ∀ t, test (relocate id t) = test t) :
    Slides (Parser.acceptIf test) :=
  .of_kept fun _ kept => .of_mirrors (kept.stable.acceptIf h)

theorem Closes.branch {α : Type} {p q : Parser α} {c : Parser Bool} (hc : Slides c) (hp : Closes p)
    (hq : Closes q) : Closes (do if ← c then p else q) := hc.closes fun _ => .ite hp hq

theorem slides_assignment? (levels : Nat) :
    Slides (Parser.assignment? (Parser.expression levels)) :=
  .of_kept fun _ kept => .of_mirrors (kept.stable.assignment? (kept.stable.expression levels))

theorem slides_expressionStatement (levels : Nat) :
    Slides (Parser.expressionStatement (Parser.expression levels)) :=
  .of_kept fun _ kept => .of_mirrors (kept.stable.expressionStatement (kept.stable.expression levels))

theorem slides_keywordStatement (levels : Nat) (w : Option Keyword) :
    Slides (Parser.keywordStatement (Parser.expression levels) (Parser.block levels) w) :=
  .of_kept fun _ kept => .of_mirrors (kept.stable.keywordStatement (kept.stable.expression levels)
    (kept.stable.block levels) w)

theorem slides_expectKind (kind : TokenKind) : Slides (Parser.expectKind kind) :=
  .of_kept fun _ kept => .of_mirrors (kept.stable.expectKind kind)

theorem slides_outsideName : Slides Parser.outsideName :=
  .of_kept fun _ kept => .of_mirrors kept.stable.outsideName

theorem slides_functionBody (levels : Nat) : Slides (Parser.functionBody levels) :=
  .of_kept fun _ kept => .of_mirrors (kept.stable.functionBody levels)

theorem slides_function (levels : Nat) : Slides (Parser.function levels) :=
  .of_kept fun _ kept => .of_mirrors (kept.stable.function_from levels (kept.stable.expectWord _))

theorem slides_paramList (fuel : Nat) : Slides (Parser.paramList fuel) :=
  .of_kept fun _ kept => .of_mirrors (kept.stable.paramList fuel)

theorem slides_importName : Slides Parser.importName :=
  .of_kept fun _ kept => .of_mirrors kept.stable.importName

theorem slides_item (levels : Nat) : Slides (Parser.item levels) :=
  .of_kept fun _ kept => .of_mirrors (kept.stable.item levels)

/-! ### Statements -/

section

variable (levels : Nat)

theorem closes_block : Closes (Parser.block levels) := by
  cases levels with
  | zero => exact slides_peek.closes fun t => nofun
  | succ levels =>
    unfold Parser.block
    refine (slides_expectSymbol _).closes fun t => (slides_nodeAt t).closes fun node => ?_
    refine slides_remaining.closes fun fuel => (slides_statements levels fuel).closes fun stmts => ?_
    exact closes_brace.bind (slides_expectSymbol _) fun _ => settles_pure _

theorem closes_varDecl : Closes (Parser.varDecl (Parser.expression levels)) := by
  have closed (node : Node) (name : Ident) (type : Option TypeName) (init : Option Expr)
      (isConst : Bool) : Closes (do
        let _ ← Parser.expectSymbol ';'
        return (⟨node, name, type, init, isConst⟩ : VarDecl)) :=
    closes_semicolon.bind (slides_expectSymbol _) fun _ => settles_pure _
  have optional {α : Type} {c : Parser Bool} {p : Parser α} {f : Option α → Parser VarDecl}
      (hc : Slides c) (hp : Slides p) (hf : ∀ a, Closes (f a)) :
      Closes (do if ← c then f (← some <$> p) else f (← pure none)) :=
    .branch hc (hp.map.closes hf) ((Slides.pure _).closes hf)
  have named (token : Token) : Closes (do
      let node ← Parser.nodeAt token
      let name ← Parser.ident
      let type ← if ← Parser.acceptSymbol ':' then some <$> Parser.typeName else pure none
      let init ← if ← Parser.acceptSymbol '=' then some <$> Parser.expression levels else pure none
      let _ ← Parser.expectSymbol ';'
      return (⟨node, name, type, init, token.isWord .const⟩ : VarDecl)) := by
    refine (slides_nodeAt token).closes fun node => slides_ident.closes fun name => ?_
    refine optional (slides_acceptIf fun _ => rfl) slides_typeName fun type => ?_
    refine optional (slides_acceptIf fun _ => rfl) (slides_expression levels) fun init => ?_
    exact closed _ _ _ _ _
  unfold Parser.varDecl
  refine slides_next.closes fun token => .ite ?_ (named token)
  exact (slides_throw _).closes fun _ => named token

theorem closes_assignment? {s t : ParserState} {make : Node → Stmt}
    (last : s.reader.last.isEndOfFile = true)
    (run : (Parser.assignment? (Parser.expression levels)).run.run s = (.ok (some make), t)) :
    ClosedBy s.reader.toList t.reader.toList := by
  have closed (target : Ident) (op : Option BinaryOp) (value : Expr) : Closes (do
      let _ ← Parser.expectSymbol ';'
      return some fun node => Stmt.assign node target op value) :=
    closes_semicolon.bind (slides_expectSymbol _) fun _ => settles_pure _
  unfold Parser.assignment? at run
  obtain ⟨u, s', first, second⟩ := run_bind_ok run
  have before := slides_peekNth 1 s
  rw [first] at before
  refine .of_suffix ?_ before.tokens
  dsimp only at second
  split at second
  · cases second
  · refine Slides.closes slides_ident (fun target => slides_next.closes fun operator => ?_) _ _ _
      (before.last.symm ▸ last) second
    split
    · exact (slides_nodeAt operator).closes fun node => (Slides.pure _).closes fun _ => closed _ _ _
    · exact (slides_expression levels).closes fun _ => closed _ _ _

theorem closes_expressionStatement :
    Closes (Parser.expressionStatement (Parser.expression levels)) :=
  (slides_expression levels).closes fun _ =>
    closes_semicolon.bind (slides_expectSymbol _) fun _ => settles_pure _

theorem settles_accept {α : Type} {p q : Parser α} {test : Token → Bool}
    (h : ∀ t, test (relocate id t) = test t) (hp : Closes p) (hq : Settles q) :
    Settles (do if ← Parser.acceptIf test then p else q) := by
  intro s a t last run
  obtain ⟨b, s', first, second⟩ := run_bind_ok run
  have before := slides_acceptIf h s
  rw [first] at before
  cases b with
  | true => exact .inr ((hp s' a t (before.last.symm ▸ last) second).of_suffix before.tokens)
  | false =>
    have same : s'.reader.toList = s.reader.toList := by
      rw [Parser.acceptIf, run_bind, run_peek] at first
      dsimp only at first
      split at first <;> cases first
      exact TokenReader.toList_reach _ _
    rw [← same]
    exact hq s' a t (before.last.symm ▸ last) second

theorem settles_branches : ∀ fuel,
    Settles (Parser.branches (Parser.expression levels) (Parser.block levels) fuel)
  | 0 => settles_pure _
  | fuel + 1 => by
    have further : Closes (do
        let cond ← Parser.expression levels
        let body ← Parser.block levels
        return Branches.branch cond body
          (← Parser.branches (Parser.expression levels) (Parser.block levels) fuel)) :=
      (slides_expression levels).closes fun cond =>
        (closes_block levels).bind (slides_block levels) fun body =>
        (settles_branches fuel).bind (slides_branches levels fuel) fun _ => settles_pure _
    unfold Parser.branches
    refine settles_accept (fun _ => rfl) further (settles_accept (fun _ => rfl) ?_ (settles_pure _))
    refine .branch (slides_acceptIf fun _ => rfl) further ?_
    exact (closes_block levels).bind (slides_block levels) fun _ => settles_pure _

theorem closes_keywordStatement (w : Option Keyword) :
    Closes (Parser.keywordStatement (Parser.expression levels) (Parser.block levels) w) := by
  have ended {α : Type} (a : α) : Closes (do
      let _ ← Parser.expectSymbol ';'
      return a) := closes_semicolon.bind (slides_expectSymbol _) fun _ => settles_pure _
  have last {α : Type} (f : Block → α) : Closes (do return f (← Parser.block levels)) :=
    (closes_block levels).bind (slides_block levels) fun _ => settles_pure _
  unfold Parser.keywordStatement
  split
  · exact (closes_varDecl levels).bind (slides_varDecl levels) fun _ => settles_pure _
  · exact (closes_varDecl levels).bind (slides_varDecl levels) fun _ => settles_pure _
  · refine slides_next.closes fun _ => (slides_expression levels).closes fun cond => ?_
    refine (closes_block levels).bind (slides_block levels) fun body => ?_
    refine Settles.bind (p := Parser.remaining) ?_ slides_remaining fun fuel => ?_
    · intro s a t _ run
      cases run
      exact .inl rfl
    · exact (settles_branches levels fuel).bind (slides_branches levels fuel) fun _ =>
        settles_pure _
  · exact slides_next.closes fun _ => (slides_expression levels).closes fun cond => last _
  · exact slides_next.closes fun _ => last _
  · refine slides_next.closes fun _ => slides_ident.closes fun v => ?_
    refine (slides_expectWord _).closes fun _ => (slides_expression levels).closes fun start => ?_
    exact (slides_expectWord _).closes fun _ => (slides_expression levels).closes fun stop => last _
  · refine slides_next.closes fun _ => slides_peek.closes fun t => .ite ?_ ?_
    · exact (Slides.pure _).closes fun _ => ended _
    · exact (slides_expression levels).map.closes fun _ => ended _
  · exact slides_next.closes fun _ => ended _
  · exact slides_next.closes fun _ => ended _
  · exact closes_expressionStatement levels

theorem settles_located (t : Token) (make : Node → Stmt) :
    Settles (do return make (← Parser.nodeAt t)) :=
  (settles_nodeAt t).bind (slides_nodeAt t) fun _ => settles_pure _

theorem closes_evaluation (t : Token) : Closes (do
    let make ← Parser.expressionStatement (Parser.expression levels)
    return make (← Parser.nodeAt t)) :=
  (closes_expressionStatement levels).bind (slides_expressionStatement levels) (settles_located t)

/-- What starts with a name is an assignment, or an expression. -/
theorem closes_named (t : Token) : Closes (do
    let make ← match ← Parser.assignment? (Parser.expression levels) with
      | some make => pure make
      | none => Parser.expressionStatement (Parser.expression levels)
    return make (← Parser.nodeAt t)) := by
  intro s a u last run
  obtain ⟨found, s', first, second⟩ := run_bind_ok run
  have before := slides_assignment? levels s
  rw [first] at before
  cases found with
  | some make =>
    have closed := closes_assignment? levels last first
    cases second
    exact closed
  | none => exact (closes_evaluation levels t s' a u (before.last.symm ▸ last) second).of_suffix before.tokens

/-- A statement is read up to its closing token. -/
theorem closes_statement :
    Closes (Parser.statement (Parser.expression levels) (Parser.block levels)) := by
  unfold Parser.statement
  refine slides_peek.closes fun t =>
    .ite ?_ (.ite ?_ (.ite (closes_named levels t) (closes_evaluation levels t)))
  · refine (closes_block levels).bind (slides_block levels) fun body => ?_
    exact (settles_pure _).bind (.pure _) (settles_located t)
  · exact (closes_keywordStatement levels _).bind (slides_keywordStatement levels _)
      (settles_located t)

/-! ### Items -/

theorem closes_outsideName : Closes Parser.outsideName :=
  (slides_expectKind _).closes fun _ =>
    closes_semicolon.bind (slides_expectSymbol _) fun _ => settles_pure _

theorem closes_functionBody : Closes (Parser.functionBody levels) := by
  have outside {α : Type} (f : String → α) : Closes (do return f (← Parser.outsideName)) :=
    closes_outsideName.bind slides_outsideName fun _ => settles_pure _
  unfold Parser.functionBody
  refine slides_peek.closes fun t => .ite ?_ ?_
  · exact (closes_block levels).bind (slides_block levels) fun _ => settles_pure _
  · refine .branch (slides_acceptIf fun _ => rfl) (outside _) ?_
    exact .branch (slides_acceptIf fun _ => rfl) (outside _)
      (slides_peek.closes fun _ => closes_throw _)

theorem closes_function : Closes (Parser.function levels) := by
  have typed (name : Ident) (params : List Param) : Closes (do
      let ret ← if ← Parser.acceptSymbol ':' then some <$> Parser.typeName else pure none
      let body ← Parser.functionBody levels
      return (⟨name, params, ret, body⟩ : Function)) := by
    have ended (ret : Option TypeName) : Closes (do
        let body ← Parser.functionBody levels
        return (⟨name, params, ret, body⟩ : Function)) :=
      (closes_functionBody levels).bind (slides_functionBody levels) fun _ => settles_pure _
    exact .branch (slides_acceptIf fun _ => rfl) (slides_typeName.map.closes ended)
      ((Slides.pure _).closes ended)
  unfold Parser.function
  refine (slides_expectWord _).closes fun _ => slides_ident.closes fun name => ?_
  refine (slides_expectSymbol _).closes fun _ => .branch (slides_acceptIf fun _ => rfl) ?_ ?_
  · exact (Slides.pure _).closes (typed name)
  · exact slides_remaining.closes fun fuel => (slides_paramList fuel).closes (typed name)

/-- An item is read up to its closing token. -/
theorem closes_item : Closes (Parser.item levels) := by
  unfold Parser.item
  refine slides_peek.closes fun t => (slides_nodeAt t).closes fun node => .ite ?_ (.ite ?_ ?_)
  · exact (closes_function levels).bind (slides_function levels) fun _ => settles_pure _
  · refine slides_next.closes fun _ => slides_importName.closes fun name => ?_
    exact closes_semicolon.bind (slides_expectSymbol _) fun _ => settles_pure _
  · exact (closes_varDecl levels).bind (slides_varDecl levels) fun _ => settles_pure _

end

end ScriptLang.Syntax
