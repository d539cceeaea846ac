import ScriptLang.Bound.Binder
import ScriptLang.Native.Bridge

/-!
# Types of results

Every operation that has a value at all gives one of the type that it is declared with: casts give
the type cast to, operators the type of their operands or a truth value, native functions the type
of their signature.
-/

namespace ScriptLang

namespace Value

theorem zero_type (ty : Ty) : (zero ty).type = ty := by
  cases ty <;> rfl

theorem literal_type_ne_void {ty : Ty} {n : Int} {v : Value} (h : literal ty n = .ok v) :
    v.type ≠ .void := by
  unfold literal at h
  split at h
  · cases h
    intro hvoid
    cases hvoid
  · cases h

theorem cast_type {v w : Value} {ty : Ty} (h : v.cast ty = .ok w) : w.type = ty := by
  unfold cast at h
  split at h
  · rename_i same
    cases h
    exact same
  · split at h <;> cases h <;> rfl

theorem cast_self (v : Value) : v.cast v.type = .ok v := by
  unfold cast
  rw [if_pos rfl]

theorem unary_type {op : UnaryOp} {v w : Value} (h : unary op v = .ok w) : w.type = v.type := by
  unfold unary at h
  split at h <;> cases h <;> rfl

/-! ### Operators on two values -/

section

open Bound (resultType)

theorem intBinary_type {op : BinaryOp} {t : IntType} {a b : BitVec t.bits} {v : Value}
    (h : intBinary op t a b = some (.ok v)) : v.type = resultType op (.int t) := by
  cases op <;> simp only [intBinary, Option.some.injEq, reduceCtorEq] at h
  case div | rem =>
    split at h
    · cases h
    · cases h
      rfl
  all_goals
    cases h
    rfl

theorem floatBinary_type {op : BinaryOp} {x y : Float} {v : Value}
    (h : floatBinary op x y = some v) : v.type = resultType op .float := by
  cases op <;> simp [floatBinary, BinaryOp.isComparison] at h <;> subst h <;> rfl

theorem boolBinary_type {op : BinaryOp} {a b : Bool} {v : Value}
    (h : boolBinary op a b = some v) : v.type = resultType op .bool := by
  cases op <;> simp [boolBinary, BinaryOp.isComparison] at h <;> subst h <;> rfl

theorem stringBinary_type {op : BinaryOp} {a b : String} {v : Value}
    (h : stringBinary op a b = some v) : v.type = resultType op .string := by
  cases op <;> simp [stringBinary, BinaryOp.isComparison] at h <;> subst h <;> rfl

theorem pointerBinary_type {op : BinaryOp} {a b : BitVec 64} {v : Value}
    (h : pointerBinary op a b = some v) : v.type = resultType op .pointer := by
  cases op <;> simp [pointerBinary] at h <;> subst h <;> rfl

/-- `&&` and `||` are defined on truth values only, and give one. -/
theorem logical_types {op : BinaryOp} {ty : Ty} (hop : op.isLogical = true)
    (h : Bound.operandAllowed op ty = true) : ty = .bool ∧ resultType op ty = .bool := by
  cases op <;> simp only [BinaryOp.isLogical, Bool.false_eq_true] at hop
  all_goals
    have hty : ty = .bool := by simpa [Bound.operandAllowed] using h
    exact ⟨hty, by rw [hty]; rfl⟩

theorem elim_error_ok_eq_ok {r : Option Value} {e : ValueError} {v : Value}
    (h : r.elim (.error e) Except.ok = .ok v) : r = some v := by
  cases r with
  | none => cases h
  | some w =>
    cases h
    rfl

theorem binary_type {op : BinaryOp} {a b v : Value} (h : binary op a b = .ok v) :
    v.type = resultType op a.type := by
  unfold binary at h
  dsimp only at h
  split at h
  · split at h
    · rename_i t x s y same
      cases hr : intBinary op t x (same ▸ y) with
      | none =>
        rw [hr] at h
        cases h
      | some r =>
        rw [hr, Option.getD_some] at h
        rw [h] at hr
        exact intBinary_type hr
    · cases h
  · exact floatBinary_type (elim_error_ok_eq_ok h)
  · exact boolBinary_type (elim_error_ok_eq_ok h)
  · exact stringBinary_type (elim_error_ok_eq_ok h)
  · exact pointerBinary_type (elim_error_ok_eq_ok h)
  · cases h

end

end Value

/-! ### Native functions -/

namespace Native

/-- Functions that give texts are refused. -/
theorem ret_ne_string_of_checkSignature {name : String} {s : Signature} {u : Unit}
    (h : checkSignature name s = .ok u) : s.ret ≠ .string := by
  intro hret
  simp only [checkSignature, hret, if_true, bind, Except.bind] at h
  repeat' split at h
  all_goals cases h

theorem resultValue_type {ret : Ty} (h : ret ≠ .string) (r : Results) :
    (resultValue ret r).type = ret := by
  cases ret <;> first | rfl | exact absurd rfl h

theorem call_value_type {name : String} {symbol : Symbol} {s : Signature} {args : List Value}
    {c : Call} (hs : s.ret ≠ .string) (h : call name symbol s args = .ok c) :
    c.value.type = s.ret := by
  unfold call callWith at h
  cases hp : prepare name s args with
  | error e =>
    rw [hp] at h
    cases h
  | ok i =>
    rw [hp] at h
    dsimp only at h
    split at h
    · cases h
      exact resultValue_type hs _
    · cases h

theorem callNamed_value_type {b : Bridge} {name : String} {s : Signature} {args : List Value}
    {c : Call} (h : (b.callNamed name s args).1 = .ok c) : c.value.type = s.ret := by
  unfold Bridge.callNamed at h
  split at h
  · cases h
  · rename_i checked
    have hs := ret_ne_string_of_checkSignature checked
    split at h
    · cases h
    · exact call_value_type hs h

end Native

end ScriptLang
