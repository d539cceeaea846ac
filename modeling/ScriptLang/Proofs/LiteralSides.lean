import ScriptLang.Proofs.Binding
import ScriptLang.Proofs.IntegerTypes

/-!
# Literals on either side of an operand

An integer literal without a type takes the type of the operand beside it.  On the right it is
bound when that type is known, so it is accepted exactly if it fits the type.  On the left it is
first bound by itself, as a literal of the default type, and again when the type of the right
operand is known; so it has to fit the default type as well (`literal_sides`).  This is so for
comparisons, for the two values of a ternary and for the bounds of a counted loop.
-/

namespace ScriptLang

namespace Bound

open Syntax (Node)

attribute [local simp] bindExpr

/-! ### How binding an expression ends -/

/-- Begun in the state `b`, binding ends with the result `r` in the state `b'`. -/
def Ends {α : Type} (x : ExprM α) (b : Binder) (r : Except BindError α) (b' : Binder) : Prop :=
  x.run.run b = (r, b')

section

variable {α β : Type} {b b' b'' : Binder} {x : ExprM α} {f : α → ExprM β}

theorem Ends.pure (a : α) : Ends (Pure.pure a) b (.ok a) b := rfl

theorem Ends.bind {a : α} {r : Except BindError β} (first : Ends x b (.ok a) b')
    (next : Ends (f a) b' r b'') : Ends (x >>= f) b r b'' := by
  rw [Ends, ExceptT.run_bind, StateT.run_bind, first]
  exact next

theorem Ends.bind_error {e : BindError} (first : Ends x b (.error e) b') :
    Ends (x >>= f) b (.error e) b' := by
  rw [Ends, ExceptT.run_bind, StateT.run_bind, first]
  rfl

/-- What is made of a result without failing. -/
theorem Ends.bind_map {γ : Type} {r : Except BindError γ} {made : γ → α} {g : γ → β}
    (first : Ends x b (r.map made) b') (next : ∀ v, r = .ok v → f (made v) = Pure.pure (g v)) :
    Ends (x >>= f) b (r.map g) b' := by
  cases r with
  | ok v => exact first.bind (next v rfl ▸ .pure (g v))
  | error e => exact first.bind_error

end

/-! ### Literals -/

/-- An integer as it is written without a type: a literal, behind a minus sign if it is negative. -/
def bareLiteral (sign digits : Node) (n : Int) : Syntax.Expr :=
  if n < 0 then .unary sign .neg (.integer digits (-n) none) else .integer digits n none

/-- What an integer is bound to where the type `t` is known. -/
def literalOutcome (t : IntType) (n : Int) (place : Location) : Except BindError Expr :=
  if t.fits n then .ok (.ofValue (.ofInt t n) place)
  else .error ⟨.literalOutOfRange n (.int t), place⟩

theorem isUntypedLiteral_bareLiteral (sign digits : Node) (n : Int) :
    isUntypedLiteral (bareLiteral sign digits n) = true := by
  unfold bareLiteral
  split <;> rfl

theorem literalOf_ends (t : IntType) (n : Int) (place : Location) (b : Binder) :
    Ends (literalOf (.int t) n place) b (literalOutcome t n place) b := by
  have same : (Ty.int t).fits n = t.fits n := rfl
  unfold literalOf Value.literal literalOutcome
  rw [same]
  cases t.fits n <;> rfl

section

variable (sign digits : Node) (n : Int) (b : Binder)

theorem bareLiteral_ends_int (t : IntType) :
    Ends (bindExpr (bareLiteral sign digits n) (some (.int t))) b
      (literalOutcome t n digits.token.location) b := by
  have same : bindExpr (bareLiteral sign digits n) (some (.int t))
      = literalOf (.int t) n digits.token.location := by
    unfold bareLiteral
    split <;> simp [bindExpr, bindInteger]
  exact same ▸ literalOf_ends t n _ b

/-- A literal is of the default type where none is expected. -/
theorem bareLiteral_ends_none :
    Ends (bindExpr (bareLiteral sign digits n) none) b
      (literalOutcome .i32 n digits.token.location) b := by
  have same : bindExpr (bareLiteral sign digits n) none
      = literalOf .defaultInt n digits.token.location := by
    unfold bareLiteral
    split <;> simp [bindExpr, bindInteger]
  exact same ▸ literalOf_ends .i32 n _ b

end

/-! ### Expressions of a type of their own -/

/-- Whether nothing in an expression takes its type from the context: no literal without a type
stands where the expected type is handed on. -/
def settled : Syntax.Expr → Bool
  | .integer _ _ suffix => suffix.isSome
  | .unary _ _ operand => settled operand
  | .binary _ op lhs _ => op.isLogical || op.isComparison || settled lhs
  | .ternary _ _ yes _ => settled yes
  | _ => true

/-! ### Pairs of operands -/

/-- A settled expression on the left settles the pair. -/
theorem bindPair_of_bindExpr {lhs : Syntax.Expr}
    (same : ∀ expected, bindExpr lhs expected = bindExpr lhs none) (rhs : Syntax.Expr)
    (expected : Option Ty) : bindPair lhs rhs expected = bindPair lhs rhs none := by
  simp only [bindPair, same expected]

/-- Such an expression is bound alike whatever is expected of it. -/
theorem bindExpr_of_settled : ∀ {e : Syntax.Expr}, settled e = true → ∀ expected,
    bindExpr e expected = bindExpr e none
  | .integer _ _ (some _), _, _ => by simp only [bindExpr, bindInteger]
  | .unary node op e, h, expected => by
    by_cases literal : op = .neg ∧ ∃ digits n suffix, e = .integer digits n suffix
    · obtain ⟨rfl, digits, n, suffix | suffix, rfl⟩ := literal
      · cases h
      · simp only [bindExpr, bindInteger]
    · have other : ∀ digits n suffix, op = .neg → e = .integer digits n suffix → False :=
        fun digits n suffix hop he => literal ⟨hop, digits, n, suffix, he⟩
      have same := bindExpr_of_settled (e := e) h
      rw [bindExpr.eq_7 _ _ _ _ other, bindExpr.eq_7 _ _ _ _ other, same expected]
  | .binary _ op lhs rhs, h, expected => by
    rw [bindExpr_binary, bindExpr_binary]
    by_cases own : op.isLogical = true ∨ op.isComparison = true
    · have same : operandExpected op expected = operandExpected op none := by
        unfold operandExpected
        rcases own with own | own <;> simp [own]
      rw [same]
    · have hlhs : settled lhs = true := by simpa [settled, own] using h
      have same := bindExpr_of_settled hlhs
      rw [bindPair_of_bindExpr same rhs (operandExpected op expected),
        bindPair_of_bindExpr same rhs (operandExpected op none)]
  | .ternary _ _ yes no, h, expected => by
    have same := bindExpr_of_settled (e := yes) h
    rw [bindExpr_ternary, bindExpr_ternary, bindPair_of_bindExpr same no expected]
  | .decimal .., _, _ | .string .., _, _ | .bool .., _, _ | .name .., _, _ | .cast .., _, _
  | .call .., _, _ => by simp only [bindExpr]

/-! ### The literal on the right and on the left -/

theorem ty_of_literalOutcome {t : IntType} {n : Int} {place : Location} {v : Expr}
    (h : literalOutcome t n place = .ok v) : v.ty = .int t := by
  unfold literalOutcome at h
  split at h
  · cases h
    rfl
  · cases h

/-- With a literal on the right, what is made of its value is refused only if the literal is no
value of the other operand's type. -/
def EndsRight {α : Type} (t : IntType) (n : Int) (place : Location) (made : Expr → α)
    (x : ExprM α) (b b' : Binder) : Prop :=
  Ends x b ((literalOutcome t n place).map made) b'

/-- With a literal on the left, which is reached in the state `reached`, it is refused there if it
is no value of the default type. -/
def EndsLeft {α : Type} (t : IntType) (n : Int) (place : Location) (made : Expr → α)
    (x : ExprM α) (b reached b' : Binder) : Prop :=
  if IntType.i32.fits n then Ends x b ((literalOutcome t n place).map made) b'
  else Ends x b (.error ⟨.literalOutOfRange n .defaultInt, place⟩) reached

section

variable {α β : Type} {t : IntType} {n : Int} {place : Location} {x : ExprM α}
  {f : α → ExprM β} {made : Expr → α} {g : Expr → β} {b b' : Binder}

theorem EndsRight.bind_map (first : EndsRight t n place made x b b')
    (next : ∀ v, v.ty = .int t → f (made v) = Pure.pure (g v)) :
    EndsRight t n place g (x >>= f) b b' :=
  Ends.bind_map first fun v outcome => next v (ty_of_literalOutcome outcome)

theorem EndsLeft.bind_map {reached : Binder} (first : EndsLeft t n place made x b reached b')
    (next : ∀ v, v.ty = .int t → f (made v) = Pure.pure (g v)) :
    EndsLeft t n place g (x >>= f) b reached b' := by
  unfold EndsLeft at first ⊢
  split
  · rw [if_pos ‹_›] at first
    exact Ends.bind_map first fun v outcome => next v (ty_of_literalOutcome outcome)
  · rw [if_neg ‹_›] at first
    exact first.bind_error

theorem EndsLeft.after {γ : Type} {y : ExprM γ} {h : γ → ExprM α} {a : γ} {first : Binder}
    (before : Ends y first (.ok a) b) (rest : EndsLeft t n place made (h a) b b b') :
    EndsLeft t n place made (y >>= h) first b b' := by
  unfold EndsLeft at rest ⊢
  split
  · rw [if_pos ‹_›] at rest
    exact before.bind rest
  · rw [if_neg ‹_›] at rest
    exact before.bind rest

end

section

variable {e : Syntax.Expr} {e' : Expr} {t : IntType} {b b' : Binder}

theorem bindPair_endsRight (binds : Ends (bindExpr e none) b (.ok e') b') (ty : e'.ty = .int t)
    (sign digits : Node) (n : Int) :
    EndsRight t n digits.token.location (e', ·) (bindPair e (bareLiteral sign digits n) none) b
      b' := by
  refine binds.bind ?_
  have literal := bareLiteral_ends_int sign digits n b' t
  rw [← ty] at literal
  generalize outcome : literalOutcome t n digits.token.location = r at literal ⊢
  cases r with
  | error fault => exact literal.bind_error
  | ok v =>
    have same : e'.ty = v.ty := ty.trans (ty_of_literalOutcome outcome).symm
    refine literal.bind ?_
    simp only [same, ne_eq, not_true_eq_false, false_and, if_false, pure_bind]
    exact .pure (e', v)

theorem bindPair_endsLeft (steady : settled e = true)
    (binds : Ends (bindExpr e none) b (.ok e') b') (ty : e'.ty = .int t) (sign digits : Node)
    (n : Int) :
    EndsLeft t n digits.token.location (·, e') (bindPair (bareLiteral sign digits n) e none) b b
      b' := by
  have alone := bareLiteral_ends_none sign digits n b
  have typed := bareLiteral_ends_int sign digits n b' t
  unfold EndsLeft
  split
  case isFalse outside =>
    rw [literalOutcome, if_neg outside] at alone
    exact alone.bind_error
  case isTrue within =>
    rw [literalOutcome, if_pos within] at alone
    rw [← bindExpr_of_settled steady (some .defaultInt)] at binds
    refine alone.bind (binds.bind ?_)
    rw [isUntypedLiteral_bareLiteral, ty]
    have default : (Expr.ofValue (.ofInt .i32 n) digits.token.location).ty = .int .i32 := rfl
    by_cases same : t = .i32
    · -- the literal has its type already
      subst same
      simp only [default, literalOutcome, within, ne_eq, not_true_eq_false, false_and, if_false,
        if_true, pure_bind]
      exact .pure (_, e')
    · have other : Ty.int .i32 ≠ .int t := fun h => same (Ty.int.inj h).symm
      rw [default, if_pos ⟨other, rfl⟩]
      have again : Ends (bindExpr (bareLiteral sign digits n) (some (.int t))) b'
          ((literalOutcome t n digits.token.location).map id) b' := by
        rwa [Except.map_id]
      exact again.bind_map fun v outcome => by simp [ty_of_literalOutcome outcome]

end

/-! ### Comparisons, ternaries and bounds -/

theorem operandExpected_of_isComparison {op : BinaryOp} (comparison : op.isComparison = true)
    (expected : Option Ty) : operandExpected op expected = none := by
  cases op <;> first | rfl | cases comparison

theorem operandAllowed_of_isComparison {op : BinaryOp} (comparison : op.isComparison = true)
    (t : IntType) : operandAllowed op (.int t) = true := by
  cases op <;> first | rfl | cases comparison

/-- Bounds of an integer type need no more than the pair. -/
theorem bindBounds_run {start stop : Syntax.Expr} {r : Except BindError Expr}
    {made : Expr → Expr × Expr} {b b' : Binder}
    (ends : Ends (bindPair start stop none) b (r.map made) b')
    (integers : ∀ v, r = .ok v → (made v).1.ty.isInteger = true) :
    (bindBounds start stop).run b = (record (r.map made)).run b' := by
  have attempted : (attempt (bindPair start stop none)).run b = (record (r.map made)).run b' := by
    rw [attempt, StateT.run_bind, ends]
    rfl
  rw [bindBounds, StateT.run_bind, attempted]
  cases r with
  | error fault => rfl
  | ok v =>
    change (if (made v).1.ty.isInteger = true then _ else _ : BindM _).run b' = _
    rw [if_pos (integers v rfl)]
    rfl

/-- An integer literal beside an expression that has a type of its own, an integer type.  On the
right it is bound exactly if it fits the type.  On the left it has to fit the default type too; if
it does, it is bound exactly as on the right, and otherwise it is refused before the other operand
is looked at.  In either case the two values have the one type, and the literal's is the integer. -/
theorem literal_sides {e : Syntax.Expr} {e' : Expr} {t : IntType} {b b' : Binder}
    (steady : settled e = true) (binds : Ends (bindExpr e none) b (.ok e') b') (ty : e'.ty = .int t)
    (sign digits node : Node) (n : Int) :
    let literal := bareLiteral sign digits n
    let place := digits.token.location
    (∀ v, literalOutcome t n place = .ok v →
      ∃ value : Value, v = .literal ⟨.int t, place⟩ value ∧ value.int? = some n) ∧
    (∀ op expected, op.isComparison = true →
      EndsRight t n place (.binary ⟨.bool, node.token.location⟩ op e' ·)
        (bindExpr (.binary node op e literal) expected) b b' ∧
      EndsLeft t n place (.binary ⟨.bool, node.token.location⟩ op · e')
        (bindExpr (.binary node op literal e) expected) b b b') ∧
    (∀ cond c first, Ends (bindExpr cond (some .bool)) first (.ok c) b → c.ty = .bool →
      EndsRight t n place (.ternary ⟨.int t, node.token.location⟩ c e' ·)
        (bindExpr (.ternary node cond e literal) none) first b' ∧
      EndsLeft t n place (.ternary ⟨.int t, node.token.location⟩ c · e')
        (bindExpr (.ternary node cond literal e) none) first b b') ∧
    (bindBounds e literal).run b = (record ((literalOutcome t n place).map (e', ·))).run b' ∧
    (bindBounds literal e).run b =
      if IntType.i32.fits n then (record ((literalOutcome t n place).map (·, e'))).run b'
      else (record (.error ⟨.literalOutOfRange n .defaultInt, place⟩)).run b := by
  intro literal place
  have right := bindPair_endsRight binds ty sign digits n
  have left := bindPair_endsLeft steady binds ty sign digits n
  refine ⟨?value, ?comparison, ?ternary, ?boundsRight, ?boundsLeft⟩
  case value =>
    intro v outcome
    rw [literalOutcome] at outcome
    split at outcome
    case isTrue fits =>
      cases outcome
      exact ⟨_, rfl, Value.int?_ofInt fits⟩
    case isFalse => cases outcome
  case comparison =>
    intro op expected comparison
    have made : ∀ l r : Expr, l.ty = .int t →
        (if operandAllowed op l.ty = true then
          return .binary ⟨resultType op l.ty, node.token.location⟩ op l r
        else fail (.invalidOperand op.symbol l.ty) node.token.location : ExprM Expr)
          = pure (.binary ⟨.bool, node.token.location⟩ op l r) := by
      intro l r hl
      rw [hl, operandAllowed_of_isComparison comparison, resultType, if_pos comparison, if_pos rfl]
    rw [bindExpr_binary, bindExpr_binary, operandExpected_of_isComparison comparison]
    exact ⟨right.bind_map fun v _ => made _ _ ty, left.bind_map fun v hv => made _ _ hv⟩
  case ternary =>
    intro cond c first before bool
    rw [bindExpr_ternary, bindExpr_ternary]
    constructor
    · refine before.bind ?_
      rw [if_neg (not_not_intro bool)]
      exact right.bind_map fun v _ => by rw [ty]
    · refine EndsLeft.after before ?_
      rw [if_neg (not_not_intro bool)]
      exact left.bind_map fun v hv => by rw [hv]
  case boundsRight =>
    exact bindBounds_run right fun v _ => by
      rw [ty]
      rfl
  case boundsLeft =>
    unfold EndsLeft at left
    split
    · rw [if_pos ‹_›] at left
      exact bindBounds_run left fun v outcome => by
        rw [ty_of_literalOutcome outcome]
        rfl
    · rw [if_neg ‹_›] at left
      have refused : Ends _ _ ((Except.error _ : Except BindError Expr).map fun v => (v, e')) _ :=
        left
      exact bindBounds_run refused fun v outcome => by cases outcome

/-- Beside a variable of 64 bits, three thousand million is accepted on the right only. -/
theorem largeLiteral_sides :
    let b : Binder := { scopes := [[("x", ⟨0, false⟩)]], locals := [⟨"x", .int .i64⟩] }
    let node : Node := ⟨0, default⟩
    let x := Expr.variable ⟨.int .i64, default⟩ (.local 0)
    let large := Expr.ofValue (.ofInt .i64 3000000000) default
    Ends (bindExpr (.binary node .eq (.name node "x") (.integer node 3000000000 none)) none) b
        (.ok (.binary ⟨.bool, default⟩ .eq x large)) b ∧
      Ends (bindExpr (.binary node .eq (.integer node 3000000000 none) (.name node "x")) none) b
        (.error ⟨.literalOutOfRange 3000000000 .defaultInt, default⟩) b := by
  intro b node x large
  have binds : Ends (bindExpr (.name node "x") none) b (.ok x) b := by
    simp only [bindExpr]
    rfl
  exact (literal_sides (t := .i64) rfl binds rfl node node node 3000000000).2.1 .eq none rfl

end Bound

end ScriptLang
