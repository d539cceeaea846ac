import ScriptLang.Proofs.Acceptance
import ScriptLang.Proofs.Relocation

/-!
# Parsers in parallel

A parser never asks where a token stands, so it does the same with tokens that stand elsewhere.  Say
that a relation of parser states is `Stable f` if the operations that work on tokens and errors keep
it, the tokens and errors of the second state standing where `f` says.  Then every parser keeps it,
and in the second state gives the relocated result (`Stable.module`).

Between equal states this is about one run: what the operations keep, the whole parser keeps
(`Invariant`).
-/

namespace ScriptLang.Syntax

/-! ### Runs from related states -/

/-- Two results: both values, as `Q` tells, or the parser's own error here and there. -/
inductive Alike {α β : Type} (f : Location → Location) (Q : α → β → Prop) :
    Except ParseError α → Except ParseError β → Prop where
  | ok {a : α} {b : β} (h : Q a b) : Alike f Q (.ok a) (.ok b)
  | error {e : ParseError} (h : e.IsSyntactic) : Alike f Q (.error e) (.error (relocate f e))

/-- From states that `R₀` relates the parsers come to states that `R` relates, with results as `Q`
tells. -/
def MirrorsFrom {α β : Type} (f : Location → Location) (R₀ R : ParserState → ParserState → Prop)
    (Q : α → β → Prop) (p : Parser α) (q : Parser β) : Prop :=
  ∀ s s', R₀ s s' →
    Alike f Q (p.run.run s).1 (q.run.run s').1 ∧ R (p.run.run s).2 (q.run.run s').2

/-- From states that `R` relates the parsers come to such states, with results as `Q` tells. -/
def Mirrors {α β : Type} (f : Location → Location) (R : ParserState → ParserState → Prop)
    (Q : α → β → Prop) (p : Parser α) (q : Parser β) : Prop := MirrorsFrom f R R Q p q

/-- The second value is the first one relocated. -/
def Moved {α : Type} [Placed α] (f : Location → Location) (a b : α) : Prop := b = relocate f a

/-- A function of a node that yields the relocated value for the relocated node. -/
def MovedAt {α : Type} [Placed α] (f : Location → Location) (make make' : Node → α) : Prop :=
  ∀ node, make' (relocate f node) = relocate f (make node)

variable {f : Location → Location} {R₀ R : ParserState → ParserState → Prop}

section Rules

variable {α β γ δ : Type} {Q : α → β → Prop} {Q' : γ → δ → Prop} {p : Parser α} {q : Parser β}

/-- After states of `R₁` have been reached the parsers go on from there. -/
theorem MirrorsFrom.andThen {R₁ : ParserState → ParserState → Prop} {k : α → Parser γ}
    {l : β → Parser δ} (hp : MirrorsFrom f R₀ R₁ Q p q) (between : ∀ s s', R₁ s s' → R s s')
    (hk : ∀ a b, Q a b → MirrorsFrom f R₁ R Q' (k a) (l b)) :
    MirrorsFrom f R₀ R Q' (p >>= k) (q >>= l) := by
  intro s s' hs
  obtain ⟨hresult, hstate⟩ := hp s s' hs
  rw [run_bind, run_bind]
  generalize p.run.run s = r at hresult hstate ⊢
  generalize q.run.run s' = r' at hresult hstate ⊢
  obtain ⟨r, t⟩ := r
  obtain ⟨r', t'⟩ := r'
  cases hresult with
  | ok h => exact hk _ _ h t t' hstate
  | error h => exact ⟨.error h, between _ _ hstate⟩

theorem MirrorsFrom.bind {k : α → Parser γ} {l : β → Parser δ} (hp : MirrorsFrom f R₀ R Q p q)
    (hk : ∀ a b, Q a b → Mirrors f R Q' (k a) (l b)) : MirrorsFrom f R₀ R Q' (p >>= k) (q >>= l) :=
  hp.andThen (fun _ _ hs => hs) hk

theorem Mirrors.bind {k : α → Parser γ} {l : β → Parser δ} (hp : Mirrors f R Q p q)
    (hk : ∀ a b, Q a b → Mirrors f R Q' (k a) (l b)) : Mirrors f R Q' (p >>= k) (q >>= l) :=
  MirrorsFrom.bind hp hk

theorem Mirrors.pure {a : α} {b : β} (h : Q a b) :
    Mirrors f R Q (Pure.pure a : Parser α) (Pure.pure b) := fun _ _ hs => ⟨.ok h, hs⟩

theorem Mirrors.throw {e e' : ParseError} (own : e.IsSyntactic) (h : e' = relocate f e) :
    Mirrors f R Q (MonadExcept.throw e : Parser α) (MonadExcept.throw e') := by
  subst h
  exact fun _ _ hs => ⟨.error own, hs⟩

theorem Mirrors.map {k : α → γ} {l : β → δ} (hp : Mirrors f R Q p q)
    (h : ∀ a b, Q a b → Q' (k a) (l b)) : Mirrors f R Q' (k <$> p) (l <$> q) := by
  rw [map_eq_pure_bind, map_eq_pure_bind]
  exact hp.bind fun a b hab => .pure (h a b hab)

theorem Mirrors.ite {c : Prop} [Decidable c] {p₂ : Parser α} {q₂ : Parser β}
    (hp : Mirrors f R Q p q) (hp₂ : Mirrors f R Q p₂ q₂) :
    Mirrors f R Q (if c then p else p₂) (if c then q else q₂) := by
  split
  · exact hp
  · exact hp₂

/-- What is done after a yes, and what after a no. -/
theorem Mirrors.branch {c d : Parser Bool} {p₂ : Parser α} {q₂ : Parser β}
    (hc : Mirrors f R Eq c d) (hp : Mirrors f R Q p q) (hp₂ : Mirrors f R Q p₂ q₂) :
    Mirrors f R Q (do if ← c then p else p₂) (do if ← d then q else q₂) := by
  refine hc.bind ?_
  rintro b _ rfl
  exact .ite hp hp₂

theorem run_tryCatch (p : Parser α) (handle : ParseError → Parser α) (s : ParserState) :
    (tryCatchThe ParseError p handle).run.run s =
      match p.run.run s with
      | (.ok a, t) => (.ok a, t)
      | (.error e, t) => (handle e).run.run t := by
  simp only [tryCatchThe, MonadExceptOf.tryCatch, ExceptT.tryCatch, ExceptT.mk,
    ExceptT.run, StateT.run, bind, StateT.bind]
  generalize (p s : Id (Except ParseError α × ParserState)) = r
  obtain ⟨r, t⟩ := r
  cases r <;> rfl

theorem Mirrors.tryCatch {handle : ParseError → Parser α} {handle' : ParseError → Parser β}
    (hp : Mirrors f R Q p q)
    (hhandle : ∀ e, e.IsSyntactic → Mirrors f R Q (handle e) (handle' (relocate f e))) :
    Mirrors f R Q (tryCatchThe ParseError p handle) (tryCatchThe ParseError q handle') := by
  intro s s' hs
  obtain ⟨hresult, hstate⟩ := hp s s' hs
  rw [run_tryCatch, run_tryCatch]
  generalize p.run.run s = r at hresult hstate ⊢
  generalize q.run.run s' = r' at hresult hstate ⊢
  obtain ⟨r, t⟩ := r
  obtain ⟨r', t'⟩ := r'
  cases hresult with
  | ok h => exact ⟨.ok h, hstate⟩
  | error own => exact hhandle _ own t t' hstate

end Rules

/-- An item that begins with `token`, behind its node. -/
def Parser.itemAt (levels : Nat) (token : Token) (node : Node) : Parser Item := do
  if token.isWord .func then return ⟨node, .function (← function levels)⟩
  else if token.isWord .import then
    let _ ← next
    let name ← importName
    let _ ← expectSymbol ';'
    return ⟨node, .imported name⟩
  else return ⟨node, .variable (← varDecl (expression levels))⟩

theorem Parser.item_eq (levels : Nat) :
    item levels = peek >>= fun token => nodeAt token >>= fun node => itemAt levels token node :=
  rfl

/-! ### Stable relations -/

/-- The operations on tokens and errors keep the relation. -/
structure Stable (f : Location → Location) (R : ParserState → ParserState → Prop) : Prop where
  peekNth : ∀ n, Mirrors f R (Moved f) (Parser.peekNth n) (Parser.peekNth n)
  next : Mirrors f R (Moved f) Parser.next Parser.next
  remaining : Mirrors f R Eq Parser.remaining Parser.remaining
  freshId : Mirrors f R Eq Parser.freshId Parser.freshId
  limit : Mirrors f R (fun s s' : ParserState => s.limit = s'.limit) get get
  reportFound : Mirrors f R (fun _ _ => True) Parser.reportFound Parser.reportFound
  record : ∀ e : ParseError, e.IsSyntactic → Mirrors f R (fun _ _ => True)
    (modify fun s => { s with errors := s.errors ++ [e] } : Parser Unit)
    (modify fun s => { s with errors := s.errors ++ [relocate f e] } : Parser Unit)

namespace Stable

variable (st : Stable f R)

include st

theorem peek : Mirrors f R (Moved f) Parser.peek Parser.peek := st.peekNth 0

theorem nodeAt (t : Token) :
    Mirrors f R (Moved f) (Parser.nodeAt t) (Parser.nodeAt (relocate f t)) :=
  st.freshId.bind fun _ _ h => .pure (by rw [h]; rfl)

theorem expectIf {test : Token → Bool} (place : ∀ t, test (relocate f t) = test t)
    (what : String) :
    Mirrors f R (Moved f) (Parser.expectIf test what) (Parser.expectIf test what) := by
  refine st.peek.bind ?_
  rintro t _ rfl
  rw [place]
  exact .ite st.next (.throw trivial rfl)

theorem expectSymbol (c : Char) :
    Mirrors f R (Moved f) (Parser.expectSymbol c) (Parser.expectSymbol c) :=
  st.expectIf (fun _ => rfl) _

theorem expectWord (k : Keyword) :
    Mirrors f R (Moved f) (Parser.expectWord k) (Parser.expectWord k) :=
  st.expectIf (fun _ => rfl) _

theorem expectKind (kind : TokenKind) :
    Mirrors f R (Moved f) (Parser.expectKind kind) (Parser.expectKind kind) :=
  st.expectIf (fun _ => rfl) _

theorem acceptIf {test : Token → Bool} (place : ∀ t, test (relocate f t) = test t) :
    Mirrors f R Eq (Parser.acceptIf test) (Parser.acceptIf test) := by
  refine st.peek.bind ?_
  rintro t _ rfl
  rw [place]
  exact .ite (st.next.bind fun _ _ _ => .pure rfl) (.pure rfl)

theorem acceptSymbol (c : Char) :
    Mirrors f R Eq (Parser.acceptSymbol c) (Parser.acceptSymbol c) := st.acceptIf fun _ => rfl

theorem acceptWord (k : Keyword) :
    Mirrors f R Eq (Parser.acceptWord k) (Parser.acceptWord k) := st.acceptIf fun _ => rfl

theorem report (e : ParseError) (own : e.IsSyntactic) :
    Mirrors f R (fun _ _ => True) (Parser.report e) (Parser.report (relocate f e)) :=
  st.reportFound.bind fun _ _ _ => st.record e own

theorem failExpected {α β : Type} {Q : α → β → Prop} (what : String) :
    Mirrors f R Q (Parser.failExpected what) (Parser.failExpected what) := by
  refine st.peek.bind ?_
  rintro t _ rfl
  exact .throw trivial rfl

theorem failTooDeep {α β : Type} {Q : α → β → Prop} :
    Mirrors f R Q Parser.failTooDeep Parser.failTooDeep := by
  refine st.peek.bind ?_
  rintro t _ rfl
  refine st.limit.bind fun s s' h => ?_
  exact .throw trivial (by rw [← h]; rfl)

theorem recover {α : Type} [Placed α] {p q : Parser α} {skip : Parser Unit}
    (hp : Mirrors f R (Moved f) p q) (hskip : Mirrors f R (fun _ _ => True) skip skip) :
    Mirrors f R (Moved f) (Parser.recover p skip) (Parser.recover q skip) := by
  -- the attempt and its handler both return from the whole parser
  refine Mirrors.bind (Q := fun a b : Except (Option α) (Option α) =>
    ∃ found, a = .error found ∧ b = .error (relocate f found)) (.tryCatch ?_ ?_) ?_
  · exact hp.bind fun a b h => .pure ⟨some a, rfl, by rw [h]; rfl⟩
  · exact fun e own => (st.report e own).bind fun _ _ _ => hskip.bind fun _ _ _ =>
      .pure ⟨none, rfl, rfl⟩
  · rintro _ _ ⟨found, rfl, rfl⟩
    exact .pure rfl

/-! ### Names and numbers -/

theorem ident : Mirrors f R (Moved f) Parser.ident Parser.ident :=
  (st.expectKind _).bind fun _ _ h => .pure (by rw [h]; rfl)

theorem typeName : Mirrors f R (Moved f) Parser.typeName Parser.typeName :=
  (st.expectKind _).bind fun _ _ h => .pure (by rw [h]; rfl)

theorem suffix : Mirrors f R (Moved f) Parser.suffix Parser.suffix := by
  refine st.peek.bind ?_
  rintro t _ rfl
  exact .ite (st.next.bind fun _ _ h => .pure (by rw [h]; rfl)) (.pure rfl)

omit st in
theorem invalidLiteral {α β : Type} {Q : α → β → Prop} (t : Token) (reason : String) :
    Mirrors f R Q (Parser.invalidLiteral t reason)
      (Parser.invalidLiteral (relocate f t) reason) := .throw trivial rfl

theorem number (t : Token) :
    Mirrors f R (MovedAt f) (Parser.number t) (Parser.number (relocate f t)) := by
  unfold Parser.number
  refine .ite ?_ ?_
  · rw [Token.relocate_text]
    cases Decimal.readFloat? t.text.toList with
    | some x => exact .pure fun _ => rfl
    | none => exact invalidLiteral t _
  · rw [Token.relocate_text, show Parser.baseOf (relocate f t) = Parser.baseOf t from rfl]
    cases Decimal.readNat? (Parser.baseOf t) t.text.toList with
    | none => exact invalidLiteral t _
    | some n =>
      refine .ite (invalidLiteral t _) (st.suffix.bind ?_)
      rintro ty _ rfl
      exact .pure fun _ => rfl

/-! ### Expressions -/

theorem atom (t : Token) :
    Mirrors f R (Moved f) (Parser.atom t) (Parser.atom (relocate f t)) := by
  have made {make make' : Node → Expr} (h : MovedAt f make make') :
      Mirrors f R (Moved f) (do return make (← Parser.nodeAt t))
        (do return make' (← Parser.nodeAt (relocate f t))) := by
    refine (st.nodeAt t).bind ?_
    rintro node _ rfl
    exact .pure (h node)
  unfold Parser.atom
  rw [Token.relocate_kind]
  split
  · refine st.next.bind ?_
    rintro t' _ rfl
    exact (st.number t').bind fun _ _ => made
  · refine st.next.bind ?_
    rintro t' _ rfl
    exact .ite (.bind (.pure fun _ => rfl) fun _ _ => made)
      ((invalidLiteral t' _).bind fun _ _ => made)
  · refine st.next.bind ?_
    rintro t' _ rfl
    exact .bind (.pure fun _ => rfl) fun _ _ => made
  · refine .ite (st.next.bind fun _ _ _ => .bind (.pure fun _ => rfl) fun _ _ => made)
      (.ite (st.next.bind fun _ _ _ => .bind (.pure fun _ => rfl) fun _ _ => made) ?_)
    exact (st.failExpected _).bind fun _ _ => made

variable {expr operand : Parser Expr} {climb : Expr → Nat → Parser Expr} {body : Parser Block}

theorem bracketed (hexpr : Mirrors f R (Moved f) expr expr) (op : Operator)
    (opening : Token) :
    Mirrors f R (Moved f) (Parser.bracketed expr op opening)
      (Parser.bracketed expr op (relocate f opening)) := by
  refine hexpr.bind fun inner _ hinner => (st.expectSymbol _).bind fun _ _ _ => st.peek.bind ?_
  rintro t _ rfl
  rw [show Operator.find? (relocate f t) .binary = Operator.find? t .binary from rfl]
  split
  · exact .throw trivial rfl
  · exact .pure hinner

theorem argumentList (hexpr : Mirrors f R (Moved f) expr expr) (closing : Char) :
    ∀ fuel, Mirrors f R (Moved f) (Parser.argumentList expr closing fuel)
      (Parser.argumentList expr closing fuel)
  | 0 => st.failExpected _
  | fuel + 1 => by
    unfold Parser.argumentList
    refine hexpr.bind ?_
    rintro e _ rfl
    refine (st.acceptSymbol ',').branch ?_ ((st.expectSymbol _).bind fun _ _ _ => .pure rfl)
    exact (argumentList hexpr closing fuel).bind fun _ _ h => .pure (by rw [h]; rfl)

theorem arguments (hexpr : Mirrors f R (Moved f) expr expr) (closing : Char) :
    Mirrors f R (Moved f) (Parser.arguments expr closing)
      (Parser.arguments expr closing) := by
  refine (st.acceptSymbol closing).branch (.pure rfl) (st.remaining.bind ?_)
  rintro fuel _ rfl
  exact st.argumentList hexpr closing fuel

theorem applyOperator (hexpr : Mirrors f R (Moved f) expr expr)
    (hoperand : Mirrors f R (Moved f) operand operand)
    (hclimb : ∀ e p, Mirrors f R (Moved f) (climb e p) (climb (relocate f e) p)) (op : Operator)
    (t : Token) (lhs : Expr) :
    Mirrors f R (Moved f) (Parser.applyOperator expr operand climb op t lhs)
      (Parser.applyOperator expr operand climb op (relocate f t) (relocate f lhs)) := by
  refine st.freshId.bind ?_
  rintro id _ rfl
  cases op.meaning with
  | call =>
    cases lhs with
    | name node name =>
      refine (st.arguments hexpr _).bind ?_
      rintro args _ rfl
      exact .pure (by rw [Moved, ← Expr.allRelocated_eq]; rfl)
    | _ => exact .throw trivial rfl
  | cast =>
    refine st.typeName.bind ?_
    rintro type _ rfl
    exact .pure rfl
  | ternary =>
    refine hexpr.bind ?_
    rintro yes _ rfl
    refine (st.expectSymbol _).bind fun _ _ _ => hoperand.bind ?_
    rintro rhs _ rfl
    refine (hclimb rhs _).bind ?_
    rintro no _ rfl
    exact .pure rfl
  | binary b =>
    refine hoperand.bind ?_
    rintro rhs _ rfl
    refine st.peek.bind ?_
    rintro next _ rfl
    rw [show Operator.find? (relocate f next) .binary = Operator.find? next .binary from rfl]
    cases Operator.find? next .binary with
    | some following =>
      refine .ite ((hclimb rhs _).bind ?_) (.pure rfl)
      rintro e _ rfl
      exact .pure rfl
    | none => exact .pure rfl
  | unary u => exact .pure rfl
  | group => exact .pure rfl

theorem chain {apply : Operator → Token → Expr → Parser Expr}
    (happly : ∀ op t lhs, Mirrors f R (Moved f) (apply op t lhs)
      (apply op (relocate f t) (relocate f lhs))) (least : Nat) :
    ∀ links lhs, Mirrors f R (Moved f) (Parser.chain apply least links lhs)
      (Parser.chain apply least links (relocate f lhs)) := by
  intro links
  induction links with
  | zero =>
    intro lhs
    unfold Parser.chain
    refine st.peek.bind ?_
    rintro t _ rfl
    rw [show Operator.find? (relocate f t) .binary = Operator.find? t .binary from rfl]
    cases Operator.find? t .binary with
    | none => exact .pure rfl
    | some op => exact .ite (.pure rfl) st.failTooDeep
  | succ links ih =>
    intro lhs
    unfold Parser.chain
    refine st.peek.bind ?_
    rintro t _ rfl
    rw [show Operator.find? (relocate f t) .binary = Operator.find? t .binary from rfl]
    cases Operator.find? t .binary with
    | none => exact .pure rfl
    | some op =>
      refine .ite (.pure rfl) (st.next.bind fun _ _ _ => (happly op t lhs).bind ?_)
      rintro e _ rfl
      exact ih e

/-- The parsers of expressions, with so many levels of nesting left. -/
theorem expressions (levels : Nat) :
    Mirrors f R (Moved f) (Parser.expression levels) (Parser.expression levels) ∧
    Mirrors f R (Moved f) (Parser.operand levels) (Parser.operand levels) ∧
    ∀ lhs least, Mirrors f R (Moved f) (Parser.climb levels lhs least)
      (Parser.climb levels (relocate f lhs) least) := by
  induction levels with
  | zero => exact ⟨st.failTooDeep, st.failTooDeep, fun _ _ => st.failTooDeep⟩
  | succ levels ih =>
    obtain ⟨hexpr, hoperand, hclimb⟩ := ih
    refine ⟨?_, ?_, ?_⟩
    · unfold Parser.expression
      refine hoperand.bind ?_
      rintro lhs _ rfl
      exact hclimb lhs 0
    · unfold Parser.operand
      refine st.peek.bind ?_
      rintro t _ rfl
      rw [show Operator.find? (relocate f t) .unary = Operator.find? t .unary from rfl]
      cases Operator.find? t .unary with
      | none => exact st.atom t
      | some op =>
        refine st.next.bind fun _ _ _ => ?_
        cases op.meaning with
        | group => exact st.bracketed hexpr op t
        | unary u =>
          refine hoperand.bind ?_
          rintro inner _ rfl
          refine (hclimb inner _).bind ?_
          rintro e _ rfl
          refine (st.nodeAt t).bind ?_
          rintro node _ rfl
          exact .pure rfl
        | _ => exact st.failExpected _
    · intro lhs least
      unfold Parser.climb
      exact st.chain (st.applyOperator hexpr hoperand hclimb) least levels lhs

theorem expression (levels : Nat) :
    Mirrors f R (Moved f) (Parser.expression levels) (Parser.expression levels) :=
  (st.expressions levels).1

/-! ### Statements -/

omit st in
/-- A part that may be left out. -/
theorem optionally {α : Type} [Placed α] {c : Parser Bool} {p : Parser α}
    (hc : Mirrors f R Eq c c) (hp : Mirrors f R (Moved f) p p) {β : Type} [Placed β]
    {k l : Option α → Parser β}
    (hk : ∀ a, Mirrors f R (Moved f) (k a) (l (relocate f a))) :
    Mirrors f R (Moved f) (do if ← c then k (← some <$> p) else k (← pure none))
      (do if ← c then l (← some <$> p) else l (← pure none)) := by
  refine hc.branch ?_ (hk none)
  refine Mirrors.bind (Q := Moved f) (hp.map fun a b h => by rw [h]; rfl) ?_
  rintro a _ rfl
  exact hk a

theorem varDecl_from (hexpr : Mirrors f R (Moved f) expr expr)
    (hnext : MirrorsFrom f R₀ R (Moved f) Parser.next Parser.next) :
    MirrorsFrom f R₀ R (Moved f) (Parser.varDecl expr) (Parser.varDecl expr) := by
  refine hnext.bind ?_
  rintro t _ rfl
  refine .ite (.bind (Q := fun _ _ => False) (.throw trivial rfl) fun _ _ h => h.elim) ?_
  refine (st.nodeAt t).bind ?_
  rintro node _ rfl
  refine st.ident.bind ?_
  rintro name _ rfl
  refine optionally (st.acceptSymbol ':') st.typeName fun type => ?_
  refine optionally (st.acceptSymbol '=') hexpr fun init => ?_
  exact (st.expectSymbol ';').bind fun _ _ _ => .pure rfl

theorem varDecl (hexpr : Mirrors f R (Moved f) expr expr) :
    Mirrors f R (Moved f) (Parser.varDecl expr) (Parser.varDecl expr) :=
  st.varDecl_from hexpr st.next

theorem branches (hexpr : Mirrors f R (Moved f) expr expr)
    (hbody : Mirrors f R (Moved f) body body) :
    ∀ fuel, Mirrors f R (Moved f) (Parser.branches expr body fuel) (Parser.branches expr body fuel)
  | 0 => .pure rfl
  | fuel + 1 => by
    have further : Mirrors f R (Moved f)
        (do return Branches.branch (← expr) (← body) (← Parser.branches expr body fuel))
        (do return Branches.branch (← expr) (← body) (← Parser.branches expr body fuel)) := by
      refine hexpr.bind ?_
      rintro cond _ rfl
      refine hbody.bind ?_
      rintro block _ rfl
      refine (branches hexpr hbody fuel).bind ?_
      rintro rest _ rfl
      exact .pure rfl
    refine (st.acceptWord .elif).branch further ((st.acceptWord .else).branch ?_ (.pure rfl))
    refine (st.acceptWord .if).branch further (hbody.bind ?_)
    rintro block _ rfl
    exact .pure rfl

theorem assignment? (hexpr : Mirrors f R (Moved f) expr expr) :
    Mirrors f R (Option.Rel (MovedAt f)) (Parser.assignment? expr) (Parser.assignment? expr) := by
  refine (st.peekNth 1).bind ?_
  rintro t _ rfl
  refine .ite (.pure .none) (st.ident.bind ?_)
  rintro target _ rfl
  refine st.next.bind ?_
  rintro operator _ rfl
  have assigned (op : Option BinaryOp) (value : Expr) : Mirrors f R (Option.Rel (MovedAt f))
      (do
        let _ ← Parser.expectSymbol ';'
        return some fun node => Stmt.assign node target op value)
      (do
        let _ ← Parser.expectSymbol ';'
        return some fun node => Stmt.assign node (relocate f target) op (relocate f value)) :=
    (st.expectSymbol ';').bind fun _ _ _ => .pure (.some fun _ => rfl)
  rw [show Parser.stepOperator? (relocate f t) = Parser.stepOperator? t from rfl]
  cases Parser.stepOperator? t with
  | some op =>
    refine (st.nodeAt operator).bind ?_
    rintro node _ rfl
    refine Mirrors.bind (Q := Moved f) (.pure rfl) ?_
    rintro value _ rfl
    exact assigned _ value
  | none =>
    refine hexpr.bind ?_
    rintro value _ rfl
    exact assigned _ value

theorem expressionStatement (hexpr : Mirrors f R (Moved f) expr expr) :
    Mirrors f R (MovedAt f) (Parser.expressionStatement expr) (Parser.expressionStatement expr) := by
  refine hexpr.bind ?_
  rintro e _ rfl
  exact (st.expectSymbol ';').bind fun _ _ _ => .pure fun _ => rfl

theorem keywordStatement (hexpr : Mirrors f R (Moved f) expr expr)
    (hbody : Mirrors f R (Moved f) body body) (k : Option Keyword) :
    Mirrors f R (MovedAt f) (Parser.keywordStatement expr body k)
      (Parser.keywordStatement expr body k) := by
  have declared : Mirrors f R (MovedAt f)
      (do
        let decl ← Parser.varDecl expr
        return fun node => .var node decl)
      (do
        let decl ← Parser.varDecl expr
        return fun node => Stmt.var node decl) := by
    refine (st.varDecl hexpr).bind ?_
    rintro decl _ rfl
    exact .pure fun _ => rfl
  unfold Parser.keywordStatement
  split
  · exact declared
  · exact declared
  · refine st.next.bind fun _ _ _ => hexpr.bind ?_
    rintro cond _ rfl
    refine hbody.bind ?_
    rintro block _ rfl
    refine st.remaining.bind ?_
    rintro fuel _ rfl
    refine (st.branches hexpr hbody fuel).bind ?_
    rintro rest _ rfl
    exact .pure fun _ => rfl
  · refine st.next.bind fun _ _ _ => hexpr.bind ?_
    rintro cond _ rfl
    refine hbody.bind ?_
    rintro block _ rfl
    exact .pure fun _ => rfl
  · refine st.next.bind fun _ _ _ => hbody.bind ?_
    rintro block _ rfl
    exact .pure fun _ => rfl
  · refine st.next.bind fun _ _ _ => st.ident.bind ?_
    rintro var _ rfl
    refine (st.expectWord .in).bind fun _ _ _ => hexpr.bind ?_
    rintro start _ rfl
    refine (st.expectWord .range).bind fun _ _ _ => hexpr.bind ?_
    rintro stop _ rfl
    refine hbody.bind ?_
    rintro block _ rfl
    exact .pure fun _ => rfl
  · have returned (value : Option Expr) : Mirrors f R (MovedAt f)
        (do
          let _ ← Parser.expectSymbol ';'
          return fun node => .ret node value)
        (do
          let _ ← Parser.expectSymbol ';'
          return fun node => Stmt.ret node (relocate f value)) :=
      (st.expectSymbol ';').bind fun _ _ _ => .pure fun _ => rfl
    refine st.next.bind fun _ _ _ => st.peek.bind ?_
    rintro t _ rfl
    refine .ite (.bind (Q := Moved f) (.pure rfl) ?_) (.bind (Q := Moved f)
      (hexpr.map fun a b h => by rw [h]; rfl) ?_)
    · rintro value _ rfl
      exact returned value
    · rintro value _ rfl
      exact returned value
  · exact st.next.bind fun _ _ _ => (st.expectSymbol ';').bind fun _ _ _ => .pure fun _ => rfl
  · exact st.next.bind fun _ _ _ => (st.expectSymbol ';').bind fun _ _ _ => .pure fun _ => rfl
  · exact st.expressionStatement hexpr

theorem statement (hexpr : Mirrors f R (Moved f) expr expr)
    (hbody : Mirrors f R (Moved f) body body) :
    Mirrors f R (Moved f) (Parser.statement expr body) (Parser.statement expr body) := by
  refine st.peek.bind ?_
  rintro t _ rfl
  have made (make make' : Node → Stmt) (h : MovedAt f make make') :
      Mirrors f R (Moved f) (do return make (← Parser.nodeAt t))
        (do return make' (← Parser.nodeAt (relocate f t))) := by
    refine (st.nodeAt t).bind ?_
    rintro node _ rfl
    exact .pure (h node)
  refine .ite (hbody.bind ?_) (.ite ((st.keywordStatement hexpr hbody _).bind made) (.ite ?_ ?_))
  · rintro block _ rfl
    exact .bind (.pure fun _ => rfl) made
  · refine (st.assignment? hexpr).bind ?_
    rintro _ _ (h | _)
    · exact .bind (.pure h) made
    · exact (st.expressionStatement hexpr).bind made
  · exact (st.expressionStatement hexpr).bind made

theorem skipStatement : ∀ fuel depth, Mirrors f R (fun _ _ => True)
    (Parser.skipStatement fuel depth) (Parser.skipStatement fuel depth)
  | 0, _ => .pure trivial
  | fuel + 1, depth => by
    unfold Parser.skipStatement
    refine st.peek.bind ?_
    rintro t _ rfl
    refine .ite (.pure trivial) (.ite ?_ (st.next.bind fun _ _ _ =>
      .ite (skipStatement fuel _) (.ite (.pure trivial) (skipStatement fuel _))))
    cases depth with
    | zero => exact .pure trivial
    | succ depth => exact st.next.bind fun _ _ _ => skipStatement fuel depth

/-- Skipping as many tokens as are left. -/
theorem skipping {skip : Nat → Parser Unit}
    (h : ∀ fuel, Mirrors f R (fun _ _ => True) (skip fuel) (skip fuel)) :
    Mirrors f R (fun _ _ => True) (do skip (← Parser.remaining)) (do skip (← Parser.remaining)) := by
  refine st.remaining.bind ?_
  rintro fuel _ rfl
  exact h fuel

theorem statements {p : Parser Stmt} (hp : Mirrors f R (Moved f) p p) :
    ∀ fuel, Mirrors f R (Moved f) (Parser.statements p fuel) (Parser.statements p fuel)
  | 0 => .pure rfl
  | fuel + 1 => by
    unfold Parser.statements
    refine st.peek.bind ?_
    rintro t _ rfl
    refine .ite (.pure rfl) ((st.recover hp (st.skipping fun _ => st.skipStatement _ _)).bind ?_)
    rintro found _ rfl
    refine (statements hp fuel).bind ?_
    rintro rest _ rfl
    refine .pure ?_
    cases found <;> rfl

theorem block : ∀ levels, Mirrors f R (Moved f) (Parser.block levels) (Parser.block levels)
  | 0 => st.failTooDeep
  | levels + 1 => by
    unfold Parser.block
    refine (st.expectSymbol '{').bind ?_
    rintro t _ rfl
    refine (st.nodeAt t).bind ?_
    rintro node _ rfl
    refine st.remaining.bind ?_
    rintro fuel _ rfl
    refine (st.statements (st.statement (st.expression levels) (block levels)) fuel).bind ?_
    rintro stmts _ rfl
    refine (st.expectSymbol '}').bind fun _ _ _ => .pure ?_
    rw [Moved, ← Stmt.allRelocated_eq]
    rfl

/-! ### Items -/

theorem paramList : ∀ fuel,
    Mirrors f R (Moved f) (Parser.paramList fuel) (Parser.paramList fuel)
  | 0 => st.failExpected _
  | fuel + 1 => by
    unfold Parser.paramList
    refine st.ident.bind ?_
    rintro name _ rfl
    refine (st.expectSymbol ':').bind fun _ _ _ => st.typeName.bind ?_
    rintro type _ rfl
    refine (st.acceptSymbol ',').branch ((paramList fuel).bind ?_)
      ((st.expectSymbol ')').bind fun _ _ _ => .pure rfl)
    rintro params _ rfl
    exact .pure rfl

theorem outsideName : Mirrors f R Eq Parser.outsideName Parser.outsideName := by
  refine (st.expectKind _).bind ?_
  rintro t _ rfl
  exact (st.expectSymbol ';').bind fun _ _ _ => .pure rfl

theorem functionBody (levels : Nat) :
    Mirrors f R (Moved f) (Parser.functionBody levels) (Parser.functionBody levels) := by
  refine st.peek.bind ?_
  rintro t _ rfl
  refine .ite ((st.block levels).bind ?_) ((st.acceptWord .arrow).branch (st.outsideName.bind ?_)
    ((st.acceptWord .wideArrow).branch (st.outsideName.bind ?_) (st.failExpected _)))
  · rintro block _ rfl
    exact .pure rfl
  · rintro symbol _ rfl
    exact .pure rfl
  · rintro name _ rfl
    exact .pure rfl

theorem function_from (levels : Nat) (hfunc : MirrorsFrom f R₀ R (Moved f)
      (Parser.expectWord .func) (Parser.expectWord .func)) :
    MirrorsFrom f R₀ R (Moved f) (Parser.function levels) (Parser.function levels) := by
  refine hfunc.bind fun _ _ _ => st.ident.bind ?_
  rintro name _ rfl
  have typed (params : List Param) : Mirrors f R (Moved f)
      (do
        let ret ← if ← Parser.acceptSymbol ':' then some <$> Parser.typeName else pure none
        let body ← Parser.functionBody levels
        return ⟨name, params, ret, body⟩)
      (do
        let ret ← if ← Parser.acceptSymbol ':' then some <$> Parser.typeName else pure none
        let body ← Parser.functionBody levels
        return (⟨relocate f name, relocate f params, ret, body⟩ : Function)) := by
    refine optionally (st.acceptSymbol ':') st.typeName fun ret => ?_
    refine (st.functionBody levels).bind ?_
    rintro body _ rfl
    exact .pure rfl
  refine (st.expectSymbol '(').bind fun _ _ _ => (st.acceptSymbol ')').branch ?_ ?_
  · exact .bind (Q := Moved f) (.pure rfl) (by rintro params _ rfl; exact typed params)
  · refine st.remaining.bind ?_
    rintro fuel _ rfl
    refine (st.paramList fuel).bind ?_
    rintro params _ rfl
    exact typed params

theorem importName : Mirrors f R Eq Parser.importName Parser.importName := by
  refine st.peek.bind ?_
  rintro t _ rfl
  refine .ite (st.next.bind ?_) (st.ident.bind ?_)
  · rintro t' _ rfl
    exact .pure rfl
  · rintro name _ rfl
    exact .pure rfl

theorem itemAt_from (levels : Nat) (t : Token) (node : Node)
    (hfunc : t.isWord .func = true → MirrorsFrom f R₀ R (Moved f) (Parser.expectWord .func)
      (Parser.expectWord .func))
    (hnext : MirrorsFrom f R₀ R (Moved f) Parser.next Parser.next) :
    MirrorsFrom f R₀ R (Moved f) (Parser.itemAt levels t node)
      (Parser.itemAt levels (relocate f t) (relocate f node)) := by
  unfold Parser.itemAt
  rw [Token.relocate_isWord, Token.relocate_isWord]
  by_cases func : t.isWord .func = true
  · rw [if_pos func, if_pos func]
    refine (st.function_from levels (hfunc func)).bind ?_
    rintro g _ rfl
    exact .pure rfl
  · rw [if_neg func, if_neg func]
    split
    · refine hnext.bind fun _ _ _ => st.importName.bind ?_
      rintro name _ rfl
      exact (st.expectSymbol ';').bind fun _ _ _ => .pure rfl
    · refine (st.varDecl_from (st.expression levels) hnext).bind ?_
      rintro decl _ rfl
      exact .pure rfl

theorem item (levels : Nat) :
    Mirrors f R (Moved f) (Parser.item levels) (Parser.item levels) := by
  rw [Parser.item_eq]
  refine st.peek.bind ?_
  rintro t _ rfl
  refine (st.nodeAt t).bind ?_
  rintro node _ rfl
  exact st.itemAt_from levels t node (fun _ => st.expectWord .func) st.next

theorem skipItem : ∀ fuel depth, Mirrors f R (fun _ _ => True)
    (Parser.skipItem fuel depth) (Parser.skipItem fuel depth)
  | 0, _ => .pure trivial
  | fuel + 1, depth => by
    unfold Parser.skipItem
    refine st.peek.bind ?_
    rintro t _ rfl
    exact .ite (.pure trivial) (st.next.bind fun _ _ _ =>
      .ite (skipItem fuel _) (.ite (skipItem fuel _) (skipItem fuel _)))

theorem items (levels : Nat) :
    ∀ fuel, Mirrors f R (Moved f) (Parser.items levels fuel) (Parser.items levels fuel)
  | 0 => .pure rfl
  | fuel + 1 => by
    unfold Parser.items
    refine st.reportFound.bind fun _ _ _ => st.peek.bind ?_
    rintro t _ rfl
    have skip := st.skipping fun fuel => st.skipItem fuel 0
    refine .ite (.pure rfl) (.ite ((st.recover (st.item levels) skip).bind ?_) ?_)
    · rintro found _ rfl
      refine (items levels fuel).bind ?_
      rintro rest _ rfl
      refine .pure ?_
      cases found <;> rfl
    · exact (st.report (.atToken _ t) trivial).bind fun _ _ _ => st.next.bind fun _ _ _ =>
        skip.bind fun _ _ _ => items levels fuel

/-- The parser of a whole source keeps a stable relation. -/
theorem module (name name' : String) :
    Mirrors f R (fun m m' => m = ⟨name, m.items⟩ ∧ m' = ⟨name', relocate f m.items⟩)
      (Parser.module name) (Parser.module name') := by
  refine st.limit.bind fun s s' hlimit => ?_
  rw [← hlimit]
  refine st.remaining.bind ?_
  rintro fuel _ rfl
  refine (st.items s.limit fuel).bind ?_
  rintro found _ rfl
  exact st.reportFound.bind fun _ _ _ => .pure ⟨rfl, rfl⟩

end Stable

/-! ### What one run keeps -/

/-- What is kept by the operations on tokens and errors. -/
structure Kept (I : ParserState → Prop) : Prop where
  peekNth : ∀ n s, I s → I { s with reader := (s.reader.peekNth n).2 }
  next : ∀ s, I s → I { s with reader := s.reader.next.2 }
  freshId : ∀ s, I s → I { s with nextId := s.nextId + 1 }
  reportFound : ∀ s, I s →
    I { s with
      reader := s.reader.takeFound.2
      errors := s.errors ++ s.reader.takeFound.1.map .ofLex }
  record : ∀ s e, ParseError.IsSyntactic e → I s → I { s with errors := s.errors ++ [e] }

/-- Whatever the parser does, it keeps `I`. -/
def Preserves {α : Type} (I : ParserState → Prop) (p : Parser α) : Prop :=
  ∀ s, I s → I (p.run.run s).2

variable {α β : Type} {I : ParserState → Prop} {p : Parser α}

theorem Preserves.of_mirrors {Q : α → β → Prop} {q : Parser β}
    (h : Mirrors id (fun s s' => s = s' ∧ I s) Q p q) : Preserves I p :=
  fun s hs => (h s s ⟨rfl, hs⟩).2.2

/-- Equal states of which something kept holds are a stable relation. -/
theorem Kept.stable (kept : Kept I) : Stable id fun s s' => s = s' ∧ I s where
  peekNth n := by
    rintro s _ ⟨rfl, hs⟩
    exact ⟨.ok rfl, rfl, kept.peekNth n s hs⟩
  next := by
    rintro s _ ⟨rfl, hs⟩
    exact ⟨.ok rfl, rfl, kept.next s hs⟩
  remaining := by
    rintro s _ ⟨rfl, hs⟩
    exact ⟨.ok rfl, rfl, hs⟩
  freshId := by
    rintro s _ ⟨rfl, hs⟩
    exact ⟨.ok rfl, rfl, kept.freshId s hs⟩
  limit := by
    rintro s _ ⟨rfl, hs⟩
    exact ⟨.ok rfl, rfl, hs⟩
  reportFound := by
    rintro s _ ⟨rfl, hs⟩
    exact ⟨.ok trivial, rfl, kept.reportFound s hs⟩
  record e own := by
    rintro s _ ⟨rfl, hs⟩
    rw [ParseError.relocate_id]
    exact ⟨.ok trivial, rfl, kept.record s e own hs⟩

end ScriptLang.Syntax
