import ScriptLang.Proofs.LiteralSides
import ScriptLang.Proofs.ResultTypes

/-!
# The rules of operators, on types and on values

There are two tables of the operators: one over types, by which expressions are bound, and one over
values, by which they are computed.  They agree (`isSome_intBinary` and the lemmas after it): what is
allowed of a type has a result of the declared type on all values of the type, divisions by zero
apart, and what is refused is a mismatch on all of them (`allowed_operations_defined`).
-/

namespace ScriptLang

open Bound (operandAllowed unaryAllowed castable resultType)

namespace Value

/-! ### The two tables of operators on two values -/

theorem isSome_intBinary (op : BinaryOp) (t : IntType) (a b : BitVec t.bits) :
    (intBinary op t a b).isSome = operandAllowed op (.int t) := by
  cases op <;> rfl

theorem isSome_floatBinary (op : BinaryOp) (x y : Float) :
    (floatBinary op x y).isSome = operandAllowed op .float := by
  cases op <;> rfl

theorem isSome_boolBinary (op : BinaryOp) (a b : Bool) :
    (boolBinary op a b).isSome = operandAllowed op .bool := by
  cases op <;> rfl

theorem isSome_stringBinary (op : BinaryOp) (a b : String) :
    (stringBinary op a b).isSome = operandAllowed op .string := by
  cases op <;> rfl

theorem isSome_pointerBinary (op : BinaryOp) (a b : BitVec 64) :
    (pointerBinary op a b).isSome = operandAllowed op .pointer := by
  cases op <;> rfl

theorem operandAllowed_void (op : BinaryOp) : operandAllowed op .void = false := by
  cases op <;> rfl

/-! ### Operators on two values -/

/-- The operation is an integer division or remainder by zero. -/
def DividesByZero (op : BinaryOp) (b : Value) : Prop :=
  (op = .div ∨ op = .rem) ∧ b.int? = some 0

/-- An integer operation fails exactly if it divides by zero. -/
theorem intBinary_spec {op : BinaryOp} {t : IntType} {a b : BitVec t.bits}
    {r : Except ValueError Value} (h : intBinary op t a b = some r) :
    (DividesByZero op (int t b) ∧ r = .error .divisionByZero) ∨
      (¬ DividesByZero op (int t b) ∧ ∃ v, r = .ok v) := by
  have zero : (int t b).int? = some 0 ↔ t.toInt b = 0 := by
    rw [int?, Option.some.injEq]
  unfold DividesByZero
  rw [zero]
  cases op <;> simp only [intBinary, Option.some.injEq, reduceCtorEq] at h <;> subst h
  case div | rem =>
    by_cases hb : t.toInt b = 0
    · exact .inl ⟨⟨by simp, hb⟩, if_pos hb⟩
    · exact .inr ⟨fun divides => hb divides.2, _, if_neg hb⟩
  all_goals exact .inr ⟨by simp, _, rfl⟩

theorem elim_of_isSome {r : Option Value} {e : ValueError} (h : r.isSome = true) :
    ∃ v, r.elim (.error e) Except.ok = .ok v := by
  obtain ⟨v, rfl⟩ := Option.isSome_iff_exists.1 h
  exact ⟨v, rfl⟩

theorem elim_of_not_isSome {r : Option Value} {e : ValueError} (h : r.isSome = false) :
    r.elim (.error e) Except.ok = .error e := by
  rw [Option.isSome_eq_false_iff, Option.isNone_iff_eq_none] at h
  subst h
  rfl

/-- What is allowed of a type has a result on all its values, but for divisions by zero. -/
theorem binary_of_allowed {op : BinaryOp} {a b : Value} (same : a.type = b.type)
    (allowed : operandAllowed op a.type = true) :
    (DividesByZero op b ∧ binary op a b = .error .divisionByZero) ∨
      (¬ DividesByZero op b ∧ ∃ v, binary op a b = .ok v) := by
  have whole : ∀ b : Value, b.int? = none → ¬ DividesByZero op b := by
    rintro b none ⟨-, zero⟩
    rw [none] at zero
    cases zero
  cases a <;> cases b <;> simp only [type, reduceCtorEq, Ty.int.injEq] at same allowed
  case void.void => rw [operandAllowed_void] at allowed; cases allowed
  case bool.bool x y =>
    rw [← isSome_boolBinary op x y] at allowed
    exact .inr ⟨whole _ rfl, elim_of_isSome allowed⟩
  case int.int t x s y =>
    subst same
    rw [← isSome_intBinary op t x y] at allowed
    obtain ⟨r, hr⟩ := Option.isSome_iff_exists.1 allowed
    have computed : binary op (int t x) (int t y) = r := by
      simp only [binary, dif_pos, hr, Option.getD_some]
    rw [computed]
    exact intBinary_spec hr
  case float.float x y =>
    rw [← isSome_floatBinary op x y] at allowed
    exact .inr ⟨whole _ rfl, elim_of_isSome allowed⟩
  case string.string x y =>
    rw [← isSome_stringBinary op x y] at allowed
    exact .inr ⟨whole _ rfl, elim_of_isSome allowed⟩
  case pointer.pointer x y =>
    rw [← isSome_pointerBinary op x y] at allowed
    exact .inr ⟨whole _ rfl, elim_of_isSome allowed⟩

/-- What is refused of a type is a mismatch on all its values. -/
theorem binary_of_refused {op : BinaryOp} {a b : Value} (same : a.type = b.type)
    (refused : operandAllowed op a.type = false) :
    binary op a b = .error (.operandMismatch op.symbol a.type b.type) := by
  cases a <;> cases b <;> simp only [type, reduceCtorEq, Ty.int.injEq] at same refused
  case void.void => rfl
  case bool.bool x y =>
    rw [← isSome_boolBinary op x y] at refused
    exact elim_of_not_isSome refused
  case int.int t x s y =>
    subst same
    rw [← isSome_intBinary op t x y, Option.isSome_eq_false_iff, Option.isNone_iff_eq_none] at refused
    simp only [binary, dif_pos, refused, Option.getD_none]
  case float.float x y =>
    rw [← isSome_floatBinary op x y] at refused
    exact elim_of_not_isSome refused
  case string.string x y =>
    rw [← isSome_stringBinary op x y] at refused
    exact elim_of_not_isSome refused
  case pointer.pointer x y =>
    rw [← isSome_pointerBinary op x y] at refused
    exact elim_of_not_isSome refused

/-! ### Casts and operators on one value -/

theorem cast_of_castable {v : Value} {target : Ty} (h : castable v.type target = true) :
    ∃ w, v.cast target = .ok w := by
  unfold cast
  split
  · exact ⟨v, rfl⟩
  · next differs =>
    cases v <;> cases target <;>
      first | exact absurd rfl differs | exact ⟨_, rfl⟩ | cases h

theorem unary_of_allowed {op : UnaryOp} {v : Value} (h : unaryAllowed op v.type = true) :
    ∃ w, unary op v = .ok w := by
  cases op <;> cases v <;> first | exact ⟨_, rfl⟩ | cases h

end Value

/-! ### What the binder accepts -/

namespace Bound

open Syntax (Node)

section

variable {α β : Type} {x : ExprM α} {f : α → ExprM β} {b b'' : Binder} {r : β}

theorem Ends.exists_of_bind (h : Ends (x >>= f) b (.ok r) b'') :
    ∃ a b', Ends x b (.ok a) b' ∧ Ends (f a) b' (.ok r) b'' := by
  unfold Ends at h
  rw [ExceptT.run_bind, StateT.run_bind] at h
  cases first : x.run.run b with
  | mk outcome b' =>
    rw [first] at h
    cases outcome with
    | ok a => exact ⟨a, b', first, h⟩
    | error e => cases h

end

/-- The binder accepts the operator before some operand of the type. -/
def AcceptsUnary (op : UnaryOp) (ty : Ty) : Prop :=
  ∃ (node : Node) (operand : Syntax.Expr) (expected : Option Ty) (b b' : Binder) (i : Info)
    (e : Expr),
    Ends (bindExpr (.unary node op operand) expected) b (.ok (.unary i op e)) b' ∧ e.ty = ty

theorem literalOf_ne_unary {ty : Ty} {n : Int} {place : Location} {b b' : Binder} {i : Info}
    {op : UnaryOp} {e : Expr} : ¬ Ends (literalOf ty n place) b (.ok (.unary i op e)) b' := by
  intro h
  unfold Ends literalOf at h
  split at h <;> cases h

theorem bindInteger_ne_unary {place : Location} {n : Int} {suffix : Option Syntax.TypeName}
    {expected : Option Ty} {b b' : Binder} {i : Info} {op : UnaryOp} {e : Expr} :
    ¬ Ends (bindInteger place n suffix expected) b (.ok (.unary i op e)) b' := by
  intro h
  unfold bindInteger at h
  split at h
  · obtain ⟨ty, b₁, -, rest⟩ := h.exists_of_bind
    split at rest
    · exact literalOf_ne_unary rest
    · cases rest
  · split at h
    · cases h
    · exact literalOf_ne_unary h
    · exact literalOf_ne_unary h

/-- The operator before an operand that is bound so. -/
def unaryOf (node : Node) (op : UnaryOp) (operand : ExprM Expr) : ExprM Expr := do
  let e ← operand
  if unaryAllowed op e.ty then return .unary ⟨e.ty, node.token.location⟩ op e
  else fail (.invalidOperand op.symbol e.ty) node.token.location

theorem allowed_of_unaryOf (node : Node) {op op' : UnaryOp} {operand : ExprM Expr}
    {b b' : Binder} {i : Info} {e : Expr} (h : Ends (unaryOf node op operand) b (.ok (.unary i op' e)) b') :
    unaryAllowed op e.ty = true := by
  obtain ⟨operand', b₁, -, rest⟩ := h.exists_of_bind
  split at rest
  · next allowed =>
    cases rest
    exact allowed
  · cases rest

theorem allowed_of_acceptsUnary {op : UnaryOp} {ty : Ty} (h : AcceptsUnary op ty) :
    unaryAllowed op ty = true := by
  obtain ⟨node, operand, expected, b, b', i, e, ends, rfl⟩ := h
  cases op with
  | neg =>
    cases operand with
    | integer node' n suffix =>
      -- a minus sign before an integer is part of the literal
      rw [bindExpr] at ends
      exact absurd ends bindInteger_ne_unary
    | _ => exact allowed_of_unaryOf node ends
  | _ => exact allowed_of_unaryOf node ends

/-- The binder goes by the table: a variable of an allowed type is an operand. -/
theorem acceptsUnary_iff {op : UnaryOp} {ty : Ty} :
    AcceptsUnary op ty ↔ unaryAllowed op ty = true := by
  refine ⟨allowed_of_acceptsUnary, fun allowed => ?_⟩
  let b : Binder := { scopes := [[("x", ⟨0, false⟩)]], locals := [⟨"x", ty⟩] }
  let node : Node := ⟨0, default⟩
  let operand : Expr := .variable ⟨ty, node.token.location⟩ (.local 0)
  have binds : Ends (bindExpr (.name node "x") none) b (.ok operand) b := by
    rw [bindExpr]
    rfl
  refine ⟨node, .name node "x", none, b, b, ⟨ty, node.token.location⟩, operand, ?_, rfl⟩
  have applies : Ends (unaryOf node op (bindExpr (.name node "x") none)) b
      (.ok (.unary ⟨ty, node.token.location⟩ op operand)) b := by
    refine binds.bind ?_
    rw [if_pos (show unaryAllowed op operand.ty = true from allowed)]
    exact .pure _
  cases op <;> exact applies

end Bound

/-- The rules over types foretell the operations on values.  An operator that is allowed of a type
has on all values of the type a result of the declared type, unless it divides an integer by zero,
and one that is refused is a mismatch on all of them; every permitted cast of a value gives one of the
type cast to; and an operator that the binder accepts before an operand has a result of the operand's
type. -/
theorem allowed_operations_defined :
    (∀ (op : BinaryOp) (ty : Ty) (a b : Value), operandAllowed op ty = true → a.type = ty →
      b.type = ty →
        (∃ v, Value.binary op a b = .ok v ∧ v.type = if op.isComparison then .bool else ty) ∨
        ((op = .div ∨ op = .rem) ∧ ty.isInteger = true ∧ b.int? = some 0 ∧
          Value.binary op a b = .error .divisionByZero)) ∧
    (∀ (op : BinaryOp) (ty : Ty) (a b : Value), operandAllowed op ty = false → a.type = ty →
      b.type = ty → Value.binary op a b = .error (.operandMismatch op.symbol ty ty)) ∧
    (∀ (source target : Ty) (v : Value), castable source target = true → v.type = source →
      ∃ w, v.cast target = .ok w ∧ w.type = target) ∧
    (∀ (op : UnaryOp) (ty : Ty) (v : Value), Bound.AcceptsUnary op ty → v.type = ty →
      ∃ w, Value.unary op v = .ok w ∧ w.type = ty) := by
  refine ⟨?allowed, ?refused, ?casts, ?unary⟩
  case allowed =>
    rintro op ty a b allowed rfl same
    obtain ⟨⟨divides, zero⟩, fails⟩ | ⟨-, v, computed⟩ := Value.binary_of_allowed same.symm allowed
    · refine .inr ⟨divides, ?_, zero, fails⟩
      rw [← same]
      cases b <;> first | rfl | cases zero
    · exact .inl ⟨v, computed, Value.binary_type computed⟩
  case refused =>
    rintro op ty a b refused rfl same
    rw [Value.binary_of_refused same.symm refused, same]
  case casts =>
    rintro source target v permitted rfl
    obtain ⟨w, converted⟩ := Value.cast_of_castable permitted
    exact ⟨w, converted, Value.cast_type converted⟩
  case unary =>
    rintro op ty v accepted rfl
    obtain ⟨w, computed⟩ := Value.unary_of_allowed (Bound.allowed_of_acceptsUnary accepted)
    exact ⟨w, computed, Value.unary_type computed⟩

/-- The least value of eight bits can be divided, by -1 too but not by zero, negated and cast; it is no
truth value. -/
theorem leastByte_operations_defined :
    let least := Value.ofInt .i8 (-128)
    (∃ v, Value.binary .div least (.ofInt .i8 (-1)) = .ok v ∧ v.type = .int .i8) ∧
      Value.binary .div least (.ofInt .i8 0) = .error .divisionByZero ∧
      Value.binary .and least least = .error (.operandMismatch "&&" (.int .i8) (.int .i8)) ∧
      (∃ w, least.cast .pointer = .ok w ∧ w.type = .pointer) ∧
      ∃ w, Value.unary .neg least = .ok w ∧ w.type = .int .i8 := by
  intro least
  obtain ⟨allowed, refused, casts, unary⟩ := allowed_operations_defined
  refine ⟨?divided, ?byZero, refused .and (.int .i8) _ _ rfl rfl rfl,
    casts (.int .i8) .pointer _ rfl rfl,
    unary .neg (.int .i8) _ (Bound.acceptsUnary_iff.2 rfl) rfl⟩
  case divided =>
    obtain computed | ⟨-, -, zero, -⟩ :=
      allowed .div (.int .i8) least (.ofInt .i8 (-1)) rfl rfl rfl
    · exact computed
    · exact absurd zero (by decide)
  case byZero =>
    obtain ⟨v, computed, -⟩ | ⟨-, -, -, fails⟩ :=
      allowed .div (.int .i8) least (.ofInt .i8 0) rfl rfl rfl
    · cases computed
    · exact fails

end ScriptLang
