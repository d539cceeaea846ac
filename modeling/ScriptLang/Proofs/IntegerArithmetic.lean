import Mathlib.Algebra.Order.Ring.Int
import Mathlib.Data.Int.Bitwise
import ScriptLang.Proofs.WideArithmetic

/-!
# Integer arithmetic is exact modulo the width

The values of an integer type stand for integers, and an operator on them gives the one value of the
type that is congruent to the integer it should give, modulo the type's width (`Value.Computes`).  So
do casts.  A right shift, a bitwise operator and a comparison give what they give on the integers.
-/

namespace ScriptLang

namespace IntType

variable {t : IntType}

/-- The bits of the integer that a value stands for; those past the width repeat the sign. -/
theorem testBit_toInt (a : BitVec t.bits) (i : Nat) :
    (t.toInt a).testBit i = if i < t.bits then a.getLsbD i else t.signed && a.msb := by
  have natural : Int.testBit (a.toNat : Int) i = a.getLsbD i := BitVec.testBit_toNat a
  have past (h : ¬ i < t.bits) : a.getLsbD i = false := BitVec.getLsbD_of_ge a i (by omega)
  unfold toInt
  cases hs : t.signed
  · rw [if_neg Bool.false_ne_true, natural]
    split
    · rfl
    · next h => rw [past h, Bool.false_and]
  rw [if_pos rfl, Bool.true_and, BitVec.toInt_eq_msb_cond]
  cases hm : a.msb
  · rw [if_neg Bool.false_ne_true, natural]
    split
    · rfl
    · next h => exact past h
  · have less := a.isLt
    have complement : (a.toNat : Int) - (2 ^ t.bits : Nat) = Int.negSucc (~~~a).toNat := by
      rw [BitVec.toNat_not, Int.negSucc_eq]
      omega
    rw [if_pos rfl, complement]
    change (!(~~~a).toNat.testBit i) = _
    rw [BitVec.testBit_toNat, BitVec.getLsbD_not]
    split <;> simp [*]

/-- An operation on the bits of values does the same to the bits of the integers. -/
theorem testBit_toInt_combined {f : Bool → Bool → Bool} {a b c : BitVec t.bits}
    (zeros : f false false = false) (h : ∀ i, c.getLsbD i = f (a.getLsbD i) (b.getLsbD i))
    (i : Nat) : (t.toInt c).testBit i = f ((t.toInt a).testBit i) ((t.toInt b).testBit i) := by
  have signs : c.msb = f a.msb b.msb := by
    rw [BitVec.msb_eq_getLsbD_last, h, ← BitVec.msb_eq_getLsbD_last, ← BitVec.msb_eq_getLsbD_last]
  rw [testBit_toInt, testBit_toInt, testBit_toInt]
  split
  · exact h i
  · cases t.signed
    · exact zeros.symm
    · exact signs

/-- The complement of a value is, modulo the width, the integer before its negative. -/
theorem not_eq_ofInt (a : BitVec t.bits) : ~~~a = t.ofInt (-t.toInt a - 1) := by
  have negative : BitVec.ofInt t.bits (t.toInt a) = a := t.ofInt_toInt a
  rw [ofInt, Int.sub_eq_add_neg, BitVec.ofInt_add, BitVec.ofInt_neg, BitVec.ofInt_neg, negative,
    BitVec.not_eq_neg_add, BitVec.sub_eq_add_neg]
  rfl

end IntType

namespace Value

variable {t : IntType} {a b : BitVec t.bits}

/-- The result is the one value of the type that is congruent to the integer modulo the width. -/
def Computes (r : Except ValueError Value) (t : IntType) (n : Int) : Prop :=
  ∃ bits : BitVec t.bits, r = .ok (int t bits) ∧
    ∀ c : BitVec t.bits, t.toInt c ≡ n [ZMOD 2 ^ t.bits] ↔ c = bits

theorem computes_ofInt (t : IntType) (n : Int) : Computes (.ok (ofInt t n)) t n := by
  refine ⟨t.ofInt n, rfl, fun c => ⟨fun congruent => ?_, ?_⟩⟩
  · rw [← t.ofInt_toInt c]
    exact IntType.ofInt_eq_of_modEq congruent
  · rintro rfl
    exact t.toInt_ofInt_modEq n

theorem binary_int (op : BinaryOp) (t : IntType) (a b : BitVec t.bits) :
    binary op (int t a) (int t b) =
      (intBinary op t a b).getD (.error (.operandMismatch op.symbol (.int t) (.int t))) := by
  simp only [binary, dif_pos, type]

/-! ### What the operators compute -/

/-- The operators and casts on the values `a` and `b` of an integer type, in terms of the integers
that these stand for. -/
structure ExactArithmetic (t : IntType) (a b : BitVec t.bits) : Prop where
  sum : Computes (binary .add (int t a) (int t b)) t (t.toInt a + t.toInt b)
  difference : Computes (binary .sub (int t a) (int t b)) t (t.toInt a - t.toInt b)
  product : Computes (binary .mul (int t a) (int t b)) t (t.toInt a * t.toInt b)
  negative : Computes (unary .neg (int t a)) t (-t.toInt a)
  complement : Computes (unary .bitNot (int t a)) t (-t.toInt a - 1)
  shiftedLeft : Computes (binary .shl (int t a) (int t b)) t
    (t.toInt a * 2 ^ (t.toInt b % t.bits).toNat)
  /-- Division truncates, and the quotient and the remainder make up the dividend. -/
  divided : t.toInt b ≠ 0 → ∃ quotient remainder product,
    binary .div (int t a) (int t b) = .ok quotient ∧
    Computes (.ok quotient) t ((t.toInt a).tdiv (t.toInt b)) ∧
    binary .rem (int t a) (int t b) = .ok remainder ∧
    Computes (.ok remainder) t ((t.toInt a).tmod (t.toInt b)) ∧
    binary .mul quotient (int t b) = .ok product ∧
    binary .add product remainder = .ok (int t a)
  /-- A right shift divides and rounds down, for operands of either sign. -/
  shiftedRight : ∃ c, binary .shr (int t a) (int t b) = .ok (int t c) ∧
    t.toInt c = (t.toInt a).fdiv (2 ^ (t.toInt b % t.bits).toNat)
  conjunction : ∃ c, binary .bitAnd (int t a) (int t b) = .ok (int t c) ∧
    ∀ i, (t.toInt c).testBit i = ((t.toInt a).testBit i && (t.toInt b).testBit i)
  disjunction : ∃ c, binary .bitOr (int t a) (int t b) = .ok (int t c) ∧
    ∀ i, (t.toInt c).testBit i = ((t.toInt a).testBit i || (t.toInt b).testBit i)
  exclusion : ∃ c, binary .bitXor (int t a) (int t b) = .ok (int t c) ∧
    ∀ i, (t.toInt c).testBit i = ((t.toInt a).testBit i ^^ (t.toInt b).testBit i)
  inverted : ∃ c, unary .bitNot (int t a) = .ok (int t c) ∧
    ∀ i < t.bits, (t.toInt c).testBit i = !(t.toInt a).testBit i
  equal : binary .eq (int t a) (int t b) = .ok (bool (t.toInt a = t.toInt b))
  different : binary .ne (int t a) (int t b) = .ok (bool (t.toInt a ≠ t.toInt b))
  less : binary .lt (int t a) (int t b) = .ok (bool (t.toInt a < t.toInt b))
  atMost : binary .le (int t a) (int t b) = .ok (bool (t.toInt a ≤ t.toInt b))
  greater : binary .gt (int t a) (int t b) = .ok (bool (t.toInt a > t.toInt b))
  atLeast : binary .ge (int t a) (int t b) = .ok (bool (t.toInt a ≥ t.toInt b))
  converted : ∀ s, Computes (cast (int t a) (.int s)) s (t.toInt a)

theorem cast_int (s t : IntType) (a : BitVec t.bits) :
    cast (int t a) (.int s) = .ok (ofInt s (t.toInt a)) := by
  unfold cast
  split
  · next same =>
    cases same
    rw [ofInt_toInt]
  · rfl

theorem unary_bitNot (t : IntType) (a : BitVec t.bits) :
    unary .bitNot (int t a) = .ok (ofInt t (-t.toInt a - 1)) := by
  rw [ofInt, ← IntType.not_eq_ofInt]
  rfl

/-- The quotient times the divisor, and the remainder, are the dividend, however they wrap. -/
theorem division_identity (t : IntType) (a b : BitVec t.bits) :
    t.ofInt (t.toInt (t.ofInt (t.toInt (t.ofInt ((t.toInt a).tdiv (t.toInt b))) * t.toInt b)) +
      t.toInt (t.ofInt ((t.toInt a).tmod (t.toInt b)))) = a := by
  set x := t.toInt a with hx
  set y := t.toInt b
  have quotient : t.toInt (t.ofInt (x.tdiv y)) * y ≡ x.tdiv y * y [ZMOD 2 ^ t.bits] :=
    (t.toInt_ofInt_modEq _).mul_right y
  have product := (t.toInt_ofInt_modEq (t.toInt (t.ofInt (x.tdiv y)) * y)).trans quotient
  have whole := product.add (t.toInt_ofInt_modEq (x.tmod y))
  rw [Int.tdiv_mul_add_tmod] at whole
  rw [IntType.ofInt_eq_of_modEq whole, hx, t.ofInt_toInt]

/-- A right shift stays between the operand and zero. -/
theorem fits_shiftedRight (t : IntType) (a : BitVec t.bits) (n : Nat) :
    t.fits (t.toInt a / 2 ^ n) = true := by
  have power : (1 : Int) ≤ 2 ^ n := one_le_pow₀ (by decide)
  have fits := t.fits_toInt a
  have fitsZero : t.fits 0 = true := by rcases t with ⟨_ | _, _ | _ | _ | _⟩ <;> decide
  by_cases sign : 0 ≤ t.toInt a
  · exact IntType.fits_between fitsZero fits (Int.ediv_nonneg sign (by omega))
      (Int.ediv_le_self _ sign)
  · have above : t.toInt a ≤ t.toInt a / 2 ^ n :=
      Int.le_ediv_of_mul_le (by omega) (mul_le_of_one_le_right (by omega) power)
    have below : t.toInt a / 2 ^ n < 0 := Int.ediv_neg_of_neg_of_pos (by omega) (by omega)
    exact IntType.fits_between fits fitsZero above (by omega)

/-- A comparison holds of values if its relation holds of the integers. -/
theorem binary_comparison {op : BinaryOp} {related : Prop} [Decidable related]
    (comparison : op.isComparison = true)
    (h : op.holds (compare (t.toInt a) (t.toInt b)) = true ↔ related) :
    binary op (int t a) (int t b) = .ok (bool related) := by
  have computed : intBinary op t a b =
      some (.ok (bool (op.holds (compare (t.toInt a) (t.toInt b))))) := by
    cases op <;> first | rfl | cases comparison
  rw [binary_int, computed, Option.getD_some, Bool.eq_iff_iff.2 (h.trans decide_eq_true_iff.symm)]

/-- Computing in words of 128 bits never stops, and gives the results of the operators and casts. -/
structure WordsSuffice (t : IntType) (a b : BitVec t.bits) : Prop where
  operate (op : BinaryOp) : ∃ r, Wide.operate? op t (Wide.extend t a) (Wide.extend t b) = some r ∧
    r.getD (.error (.operandMismatch op.symbol (.int t) (.int t))) = binary op (int t a) (int t b)
  negate : ∃ r, Wide.neg? (Wide.extend t a) = some r ∧ .ok (Wide.cut t r) = unary .neg (int t a)
  invert : .ok (Wide.cut t (~~~Wide.extend t a)) = unary .bitNot (int t a)
  convert (s : IntType) : .ok (Wide.cut s (Wide.extend t a)) = cast (int t a) (.int s)
  /-- The integers that are computed all have words, those of products and left shifts apart. -/
  inRange : ∀ n ∈ [t.toInt a + t.toInt b, t.toInt a - t.toInt b, -t.toInt a,
      (t.toInt a).tdiv (t.toInt b), (t.toInt a).tmod (t.toInt b), t.toInt b % t.bits,
      (t.toInt a).fdiv (2 ^ (t.toInt b % t.bits).toNat)], Wide.InRange n

theorem inRange_computed (t : IntType) (a b : BitVec t.bits) (n : Nat) :
    ∀ m ∈ [t.toInt a + t.toInt b, t.toInt a - t.toInt b, -t.toInt a,
      (t.toInt a).tdiv (t.toInt b), (t.toInt a).tmod (t.toInt b), t.toInt b % t.bits,
      (t.toInt a).fdiv (2 ^ n)], Wide.InRange m := by
  have ha := Wide.toInt_bounds a
  have hb := Wide.toInt_bounds b
  have quotient := Int.natAbs_tdiv_le_natAbs (t.toInt a) (t.toInt b)
  have remainder : ((t.toInt a).tmod (t.toInt b)).natAbs ≤ (t.toInt a).natAbs := by
    rw [Int.natAbs_tmod]
    exact Nat.mod_le _ _
  have positive := Wide.bits_pos t
  have small := Wide.bits_le t
  have nonneg : 0 ≤ t.toInt b % t.bits := Int.emod_nonneg _ (by omega)
  have less : t.toInt b % t.bits < t.bits := Int.emod_lt_of_pos _ (by omega)
  have shifted := Wide.toInt_bounds (t.ofInt ((t.toInt a).fdiv (2 ^ n)))
  rw [Int.fdiv_eq_ediv_of_nonneg _ (pow_nonneg (by decide) n),
    IntType.toInt_ofInt (fits_shiftedRight t a n)] at shifted
  rw [Int.fdiv_eq_ediv_of_nonneg _ (pow_nonneg (by decide) n)]
  simp only [List.forall_mem_cons, List.not_mem_nil, false_implies, implies_true, and_true,
    Wide.InRange]
  omega

theorem wordsSuffice (t : IntType) (a b : BitVec t.bits) : WordsSuffice t a b where
  operate op := ⟨_, Wide.operate?_extend op t a b, (binary_int op t a b).symm⟩
  negate := ⟨_, Wide.neg?_extend a, congrArg Except.ok (Wide.cut_ofInt t _)⟩
  invert := congrArg Except.ok (Wide.cut_not_extend t a)
  convert s := by rw [cast_int, Wide.cut_extend]
  inRange := inRange_computed t a b _

theorem exactArithmetic (t : IntType) (a b : BitVec t.bits) : ExactArithmetic t a b where
  sum := by
    rw [binary_int]
    exact computes_ofInt t _
  difference := by
    rw [binary_int]
    exact computes_ofInt t _
  product := by
    rw [binary_int]
    exact computes_ofInt t _
  negative := computes_ofInt t _
  complement := by
    rw [unary_bitNot]
    exact computes_ofInt t _
  shiftedLeft := by
    rw [binary_int]
    exact computes_ofInt t _
  divided nonzero := by
    refine ⟨ofInt t ((t.toInt a).tdiv (t.toInt b)), ofInt t ((t.toInt a).tmod (t.toInt b)), _, ?_,
      computes_ofInt t _, ?_, computes_ofInt t _, binary_int .mul t _ b, ?_⟩
    · simp only [binary_int, intBinary, if_neg nonzero, Option.getD_some]
    · simp only [binary_int, intBinary, if_neg nonzero, Option.getD_some]
    · simp only [ofInt, binary_int, intBinary, Option.getD_some, division_identity]
  shiftedRight := by
    refine ⟨_, binary_int .shr t a b, ?_⟩
    rw [Nat.pow_eq]
    push_cast
    rw [IntType.toInt_ofInt (fits_shiftedRight t a _),
      Int.fdiv_eq_ediv_of_nonneg _ (pow_nonneg (by decide) _), shiftAmount]
  conjunction := ⟨_, binary_int .bitAnd t a b, IntType.testBit_toInt_combined rfl fun _ =>
    BitVec.getLsbD_and⟩
  disjunction := ⟨_, binary_int .bitOr t a b, IntType.testBit_toInt_combined rfl fun _ =>
    BitVec.getLsbD_or⟩
  exclusion := ⟨_, binary_int .bitXor t a b, IntType.testBit_toInt_combined rfl fun _ =>
    BitVec.getLsbD_xor⟩
  inverted := by
    refine ⟨_, rfl, fun i within => ?_⟩
    simp [IntType.testBit_toInt, within]
  equal := binary_comparison rfl (beq_iff_eq.trans compare_eq_iff_eq)
  different := binary_comparison rfl (bne_iff_ne.trans (not_congr compare_eq_iff_eq))
  less := binary_comparison rfl (beq_iff_eq.trans compare_lt_iff_lt)
  atMost := binary_comparison rfl (bne_iff_ne.trans compare_le_iff_le)
  greater := binary_comparison rfl (beq_iff_eq.trans compare_gt_iff_gt)
  atLeast := binary_comparison rfl (bne_iff_ne.trans compare_ge_iff_ge)
  converted s := by
    rw [cast_int]
    exact computes_ofInt s _

/-- Integer arithmetic is exact modulo the width of the type.  Sums, differences, products, negatives,
complements, left shifts, quotients and remainders are the values congruent to the integers that they
should be, right shifts round down, bitwise operators work on two's complement bits, comparisons are
those of the integers, and casts keep the integer modulo the width of the new type.  All this can be
computed in words of 128 bits, where only products and left shifts may drop bits. -/
theorem integer_arithmetic_exact (t : IntType) (a b : BitVec t.bits) :
    ExactArithmetic t a b ∧ WordsSuffice t a b :=
  ⟨exactArithmetic t a b, wordsSuffice t a b⟩

/-- The least of the bytes divided by -1 is itself, and the division is one of those in words. -/
theorem leastByte_arithmetic_exact :
    IntType.i8.toInt (-1) ≠ 0 ∧
      ∃ quotient, binary .div (int .i8 (-128)) (int .i8 (-1)) = .ok quotient ∧
        quotient.int? = some (-128) ∧
        WordsSuffice .i8 (-128) (-1) := by
  have exact := integer_arithmetic_exact .i8 (-128) (-1)
  have nonzero : IntType.i8.toInt (-1) ≠ 0 := by decide
  obtain ⟨quotient, -, -, divided, ⟨bits, same, unique⟩, -⟩ := exact.1.divided nonzero
  cases same
  have least : (-128 : BitVec 8) = bits := (unique (-128)).1 (by decide)
  subst least
  exact ⟨nonzero, _, divided, rfl, exact.2⟩

end Value

end ScriptLang
