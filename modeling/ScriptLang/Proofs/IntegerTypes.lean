import Mathlib.Data.Int.ModEq
import ScriptLang.Value

/-!
# Integers of a type

The values of an integer type stand for the integers from its least to its greatest, each for one
(`IntType.toInt_ofInt`, `Value.ofInt_toInt`).  An integer that is cut to the type's bits becomes the
one value that it is congruent to modulo the type's width (`IntType.toInt_ofInt_modEq`,
`IntType.ofInt_eq_of_modEq`).
-/

namespace ScriptLang

/-- The value of an integer that fits a type is read back as the integer. -/
theorem Value.int?_ofInt {t : IntType} {n : Int} (fits : t.fits n = true) :
    (Value.ofInt t n).int? = some n := by
  have within : t.least ≤ n ∧ n ≤ t.greatest := by simpa [IntType.fits] using fits
  suffices t.toInt (t.ofInt n) = n by simp [ofInt, int?, this]
  rcases t with ⟨_ | _, _ | _ | _ | _⟩ <;>
    simp [IntType.least, IntType.greatest, IntType.bits, Width.bits, IntType.toInt,
      IntType.ofInt, BitVec.toInt_ofInt, BitVec.toNat_ofInt, Int.bmod] at within ⊢ <;>
    omega

theorem IntType.fits_iff {t : IntType} {n : Int} :
    t.fits n = true ↔ t.least ≤ n ∧ n ≤ t.greatest := by
  simp [IntType.fits]

theorem IntType.bounds_of_fits {t : IntType} {n : Int} (h : t.fits n = true) :
    -2 ^ 63 ≤ n ∧ n < 2 ^ 64 := by
  rw [IntType.fits_iff] at h
  rcases t with ⟨_ | _, _ | _ | _ | _⟩ <;>
    simp [IntType.least, IntType.greatest, IntType.bits, Width.bits] at h ⊢ <;> omega

theorem IntType.fits_toInt (t : IntType) (bits : BitVec t.bits) : t.fits (t.toInt bits) = true := by
  rw [IntType.fits_iff, IntType.toInt, IntType.least, IntType.greatest]
  split
  · have lower := BitVec.le_toInt bits
    have upper := BitVec.toInt_lt (x := bits)
    simp only [Nat.pow_eq]
    push_cast
    omega
  · have upper := bits.isLt
    simp only [Nat.pow_eq]
    omega

theorem IntType.ofInt_toInt (t : IntType) (bits : BitVec t.bits) : t.ofInt (t.toInt bits) = bits := by
  rw [IntType.ofInt, IntType.toInt]
  split
  · rw [BitVec.ofInt_toInt]
  · rw [BitVec.ofInt_natCast, BitVec.ofNat_toNat, BitVec.setWidth_eq]

theorem Value.ofInt_toInt (t : IntType) (bits : BitVec t.bits) :
    ofInt t (t.toInt bits) = int t bits := by
  rw [ofInt, IntType.ofInt_toInt]

theorem IntType.toInt_ofInt {t : IntType} {n : Int} (h : t.fits n = true) :
    t.toInt (t.ofInt n) = n := Option.some.inj (Value.int?_ofInt h)

theorem IntType.fits_one (t : IntType) : t.fits 1 = true := by
  rcases t with ⟨_ | _, _ | _ | _ | _⟩ <;> decide

/-- What is between integers of the type is of the type. -/
theorem IntType.fits_between {t : IntType} {a b n : Int} (ha : t.fits a = true)
    (hb : t.fits b = true) (above : a ≤ n) (below : n ≤ b) : t.fits n = true := by
  rw [IntType.fits_iff] at ha hb ⊢
  omega

/-! ### Integers modulo the width -/

/-- Cutting an integer to the type's bits changes it by a multiple of the width. -/
theorem IntType.toInt_ofInt_modEq (t : IntType) (n : Int) :
    t.toInt (t.ofInt n) ≡ n [ZMOD 2 ^ t.bits] := by
  unfold IntType.toInt IntType.ofInt Int.ModEq
  split
  · rw [BitVec.toInt_ofInt]
    exact_mod_cast Int.bmod_emod
  · have nonneg : 0 ≤ n % 2 ^ t.bits := Int.emod_nonneg n (pow_ne_zero _ (by decide))
    rw [BitVec.toNat_ofInt]
    push_cast
    rw [Int.toNat_of_nonneg nonneg, Int.emod_emod_of_dvd n dvd_rfl]

/-- Integers that differ by a multiple of the width are cut to the same bits. -/
theorem IntType.ofInt_eq_of_modEq {t : IntType} {m n : Int} (h : m ≡ n [ZMOD 2 ^ t.bits]) :
    t.ofInt m = t.ofInt n := by
  apply BitVec.eq_of_toNat_eq
  unfold IntType.ofInt
  rw [BitVec.toNat_ofInt, BitVec.toNat_ofInt]
  have same : m % 2 ^ t.bits = n % 2 ^ t.bits := h
  push_cast
  rw [same]

end ScriptLang
