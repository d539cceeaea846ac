import ScriptLang.Decimal.Read
import Mathlib.Data.List.TakeWhile
import Mathlib.Tactic.NormNum
import Mathlib.Tactic.Positivity

/-!
# Reading whole numbers

A whole number is read from its decimal digits, by `readBits?` if it takes few enough bits
(`readBits?_toString`), and by `readFloat?` as a finite double if it takes no more than 64
(`readFloat?_of_toDigits`).
-/

namespace ScriptLang.Decimal

open Float.Model (Format UnpackedFloat)
open Float.Model.UnpackedFloat (unpackExponent unpackExponent_packComponents)

/-! ### Digits -/

theorem digitValue?_of_isDigit {c : Char} (h : c.isDigit = true) :
    digitValue? 10 c = some (c.toNat - '0'.toNat) := by
  have small : c.toNat - '0'.toNat < 10 := by
    have bounds := h
    simp only [Char.isDigit, Bool.and_eq_true, decide_eq_true_eq, ge_iff_le, UInt32.le_iff_toNat_le]
      at bounds
    have least : ('0' : Char).toNat = 48 := rfl
    have value : c.toNat = c.val.toNat := rfl
    have greatest : c.val.toNat ≤ 57 := bounds.2
    omega
  unfold digitValue?
  rw [if_pos h]
  exact (Option.filter_eq_some_iff).2 ⟨rfl, decide_eq_true small⟩

theorem readDigits?_of_digits : ∀ (cs : List Char) (start : Nat), (∀ c ∈ cs, c.isDigit = true) →
    readDigits? 10 start cs = some (Nat.ofDigitChars 10 cs start)
  | [], _, _ => rfl
  | c :: cs, start, digits => by
    have first := digitValue?_of_isDigit (digits c List.mem_cons_self)
    rw [readDigits?, first]
    dsimp only
    rw [readDigits?_of_digits cs _ fun c hc => digits c (List.mem_cons_of_mem _ hc), Nat.mul_comm]
    rfl

theorem toDigits_spec (n : Nat) : Nat.toDigits 10 n ≠ [] ∧
    (∀ c ∈ Nat.toDigits 10 n, c.isDigit = true) ∧ readNat? 10 (Nat.toDigits 10 n) = some n := by
  have digits : ∀ c ∈ Nat.toDigits 10 n, c.isDigit = true := fun c =>
    Nat.isDigit_of_mem_toDigits (by decide) (by decide)
  have nonempty : Nat.toDigits 10 n ≠ [] := by
    rw [Nat.toDigits_eq_if (by decide)]
    split <;> simp
  refine ⟨nonempty, digits, ?_⟩
  unfold readNat?
  rw [if_neg (by rw [List.isEmpty_iff]; exact nonempty), readDigits?_of_digits _ _ digits,
    Nat.ofDigitChars_toDigits (by decide) (by decide)]

/-- A digit is none of the characters that stand around digits. -/
theorem ne_of_isDigit {c d : Char} (h : c.isDigit = true) (hd : d.isDigit = false) : c ≠ d := by
  rintro rfl
  exact absurd (h.symm.trans hd) (by decide)

theorem readBits?_of_unsigned {bits n : Nat} {c : Char} {cs : List Char} (unsigned : c ≠ '+')
    (read : readNat? 10 (c :: cs) = some n) (h : n < Nat.pow 2 bits) :
    readBits? bits (c :: cs) = some n := by
  unfold readBits?
  dsimp only
  split
  · next heq => exact absurd (List.cons.inj heq).1 unsigned
  · rw [read]
    exact (Option.filter_eq_some_iff).2 ⟨rfl, decide_eq_true h⟩

/-- A number of few enough bits is read back. -/
theorem readBits?_toString {bits n : Nat} (h : n < Nat.pow 2 bits) :
    readBits? bits (toString n).toList = some n := by
  obtain ⟨nonempty, digits, read⟩ := toDigits_spec n
  obtain ⟨c, cs, hcs⟩ := List.exists_cons_of_ne_nil nonempty
  rw [Nat.toString_eq_ofList_toDigits, String.toList_ofList]
  rw [hcs] at read digits ⊢
  exact readBits?_of_unsigned (ne_of_isDigit (digits c List.mem_cons_self) rfl) read h

/-! ### Finite floats -/

/-- A float in parts that is neither an infinity nor too great to be put together. -/
def Fits : UnpackedFloat → Prop
  | .zero _ => True
  | .finite _ _ e _ => (e + 1075).toNat + 1 < 2048
  | _ => False

theorem Fits.neg {f : UnpackedFloat} (h : Fits f) : Fits f.neg := by
  cases f <;> exact h

theorem Fits.isFinite {f : UnpackedFloat} (h : Fits f) : f.isFinite = true := by
  cases f with
  | zero _ => rfl
  | finite _ _ _ _ => rfl
  | infinity _ => exact h.elim
  | notANumber => exact h.elim

/-- All bits of the exponent are set in what is not finite. -/
theorem ne_ones {e : BitVec 11} : e ≠ -1#11 ↔ e.toNat + 1 < 2048 := by
  have := e.isLt
  rw [Ne, ← BitVec.toNat_inj]
  simp
  omega

theorem fits_unpack {b : BitVec Format.binary64.numBits} (h : unpackExponent b ≠ -1#_) :
    Fits (UnpackedFloat.unpack Format.binary64 b) := by
  have bound := ne_ones.1 h
  unfold UnpackedFloat.unpack
  dsimp only
  rw [if_neg h]
  by_cases subnormal : unpackExponent b = 0#_
  · rw [if_pos subnormal]
    by_cases zero : UnpackedFloat.unpackMantissa b = 0#_
    · rw [dif_pos zero]
      trivial
    · rw [dif_neg zero]
      show ((unpackExponent b).toNat - (1023 + 52) + 1 + 1075 : Int).toNat + 1 < 2048
      rw [subnormal]
      decide
  · rw [if_neg subnormal]
    show ((unpackExponent b).toNat - (1023 + 52) + 1075 : Int).toNat + 1 < 2048
    omega

theorem unpackExponent_pack {f : UnpackedFloat} (h : Fits f) :
    unpackExponent (UnpackedFloat.pack Format.binary64 f) ≠ -1#_ := by
  cases f with
  | zero s =>
    unfold UnpackedFloat.pack UnpackedFloat.packedZero
    rw [unpackExponent_packComponents]
    decide
  | finite s m e _ =>
    have bound : (e + 1075).toNat + 1 < 2048 := h
    unfold UnpackedFloat.pack
    dsimp only
    simp [Format.exponentBias, add_assoc]
    rw [if_neg (by omega)]
    split
    · simp
      rw [← BitVec.toNat_inj]
      simp
      omega
    · simp
  | infinity _ => exact h.elim
  | notANumber => exact h.elim

theorem isFinite_ofBits {u : UInt64} (h : u.toNat < 2047 * 2 ^ 52) :
    (Float.ofBits u).isFinite = true ∧ (-Float.ofBits u).isFinite = true := by
  have exponent : @unpackExponent Format.binary64 u.toBitVec ≠ -1#_ := by
    apply ne_ones.2
    simp [unpackExponent]
    omega
  have fits := fits_unpack (unpackExponent_pack (fits_unpack exponent))
  exact ⟨fits.isFinite, (fits_unpack (unpackExponent_pack fits.neg)).isFinite⟩

/-! ### Whole numbers -/

namespace Binary64

/-- In the unit that a whole number is rounded to it is less than `2 ^ 54`. -/
theorem inUnits_unitOf (n : Nat) :
    (inUnits n 1 (unitOf n 1)).1 / (inUnits n 1 (unitOf n 1)).2 < 2 ^ 54 := by
  have bound : n < 2 ^ (n.log2 + 1) := Nat.lt_log2_self
  have unit : (n.log2 : Int) - 53 ≤ unitOf n 1 := by
    unfold unitOf
    simp only [show Nat.log2 1 = 0 from rfl]
    split <;> omega
  unfold inUnits
  split
  · next whole =>
    have less : 2 ^ (n.log2 + 1) ≤ 2 ^ (54 + (unitOf n 1).toNat) :=
      Nat.pow_le_pow_right (by decide) (by omega)
    simp only [one_mul]
    apply (Nat.div_lt_iff_lt_mul (Nat.two_pow_pos _)).2
    calc n < 2 ^ (n.log2 + 1) := bound
      _ ≤ 2 ^ (54 + (unitOf n 1).toNat) := less
      _ = 2 ^ 54 * 2 ^ (unitOf n 1).toNat := pow_add _ _ _
  · next part =>
    rw [Nat.div_one]
    calc n * 2 ^ (-unitOf n 1).toNat < 2 ^ (n.log2 + 1) * 2 ^ (-unitOf n 1).toNat :=
          Nat.mul_lt_mul_of_pos_right bound (Nat.two_pow_pos _)
      _ = 2 ^ (n.log2 + 1 + (-unitOf n 1).toNat) := (pow_add _ _ _).symm
      _ ≤ 2 ^ 54 := Nat.pow_le_pow_right (by decide) (by omega)

theorem unitOf_le {n : Nat} (h : n < 2 ^ 64) : unitOf n 1 ≤ 11 := by
  have log : n.log2 < 64 := by
    by_cases zero : n = 0
    · rw [zero]
      decide
    · exact (Nat.log2_lt zero).2 h
  unfold unitOf minExponent
  simp only [show Nat.log2 1 = 0 from rfl]
  split <;> omega

theorem nearest_isFinite {n : Nat} (h : n < 2 ^ 64) :
    (nearest n 1).isFinite = true ∧ (-nearest n 1).isFinite = true := by
  unfold nearest
  split
  · decide
  · have mantissa := inUnits_unitOf n
    have unit := unitOf_le h
    dsimp only
    generalize inUnits n 1 (unitOf n 1) = ab at mantissa ⊢
    have rounded : roundDiv ab.1 ab.2 ≤ 2 ^ 54 := by
      unfold roundDiv
      dsimp only
      split <;> omega
    have less : (unitOf n 1 - minExponent).toNat * Nat.pow 2 52 + roundDiv ab.1 ab.2 <
        2047 * 2 ^ 52 := by
      have steps : (unitOf n 1 - minExponent).toNat ≤ 1085 := by
        unfold minExponent
        omega
      have := Nat.mul_le_mul_right (Nat.pow 2 52) steps
      norm_num at *
      omega
    apply isFinite_ofBits
    simp
    norm_num at *
    omega


end Binary64

/-! ### Floats from digits -/

theorem scaled_zero (n : Nat) : scaled n 0 = Binary64.nearest n 1 := by
  unfold scaled
  split
  · next zero =>
    unfold Binary64.nearest
    rw [if_pos zero]
  · rw [if_neg (by decide), if_neg (by omega), if_pos (Int.le_refl 0)]
    exact congrArg (Binary64.nearest · 1) (Nat.mul_one n)

/-- Digits alone are read as the number that they denote. -/
theorem readMagnitude?_of_toDigits (n : Nat) :
    readMagnitude? (Nat.toDigits 10 n) = some (Binary64.nearest n 1) := by
  obtain ⟨nonempty, digits, read⟩ := toDigits_spec n
  have all : (Nat.toDigits 10 n).takeWhile Char.isDigit = Nat.toDigits 10 n :=
    List.takeWhile_eq_self_iff.2 digits
  have none : (Nat.toDigits 10 n).dropWhile Char.isDigit = [] :=
    List.dropWhile_eq_nil_iff.2 digits
  unfold readMagnitude?
  rw [all, none]
  dsimp only
  rw [List.append_nil, read]
  exact congrArg some (scaled_zero n)

theorem toLower_of_isDigit {c : Char} (h : c.isDigit = true) : c.toLower = c := by
  simp only [Char.isDigit, Bool.and_eq_true, decide_eq_true_eq] at h
  unfold Char.toLower
  rw [dif_neg]
  rintro ⟨upper, -⟩
  exact absurd (UInt32.le_trans upper h.2) (by decide)

/-- What begins with a digit is the name of no float. -/
theorem ofList_map_toLower_ne {c : Char} (h : c.isDigit = true) (cs : List Char) {word : String}
    (hword : word.toList.head?.map Char.isDigit = some false) :
    String.ofList ((c :: cs).map Char.toLower) ≠ word := by
  rintro rfl
  rw [String.toList_ofList, List.map_cons, List.head?_cons, Option.map_some,
    toLower_of_isDigit h, h] at hword
  cases hword

theorem readFloat?_of_toDigits (negative : Bool) (n : Nat) :
    readFloat? ((if negative then ['-'] else []) ++ Nat.toDigits 10 n) =
      some (if negative then -Binary64.nearest n 1 else Binary64.nearest n 1) := by
  have magnitude := readMagnitude?_of_toDigits n
  obtain ⟨nonempty, digits, -⟩ := toDigits_spec n
  obtain ⟨c, cs, hcs⟩ := List.exists_cons_of_ne_nil nonempty
  rw [hcs] at magnitude digits ⊢
  have digit := digits c List.mem_cons_self
  have unnamed : ¬ (String.ofList ((c :: cs).map Char.toLower) = "inf" ∨
      String.ofList ((c :: cs).map Char.toLower) = "infinity") ∧
      String.ofList ((c :: cs).map Char.toLower) ≠ "nan" :=
    ⟨not_or.2 ⟨ofList_map_toLower_ne digit cs (by decide),
      ofList_map_toLower_ne digit cs (by decide)⟩, ofList_map_toLower_ne digit cs (by decide)⟩
  unfold readFloat?
  cases negative with
  | true =>
    simp only [if_true, List.singleton_append]
    rw [if_neg unnamed.1, if_neg unnamed.2, magnitude]
    rfl
  | false =>
    simp only [Bool.false_eq_true, if_false, List.nil_append]
    split
    · next heq => exact absurd (List.cons.inj heq).1 (ne_of_isDigit digit rfl)
    · next heq => exact absurd (List.cons.inj heq).1 (ne_of_isDigit digit rfl)
    · simp only [if_neg unnamed.1, if_neg unnamed.2, magnitude, Option.map_some,
        Bool.false_eq_true, if_false]

theorem readFloat?_isFinite (negative : Bool) {n : Nat} (h : n < 2 ^ 64) :
    ((readFloat? ((if negative then ['-'] else []) ++ Nat.toDigits 10 n)).map Float.isFinite).getD
      false = true := by
  have finite := Binary64.nearest_isFinite h
  rw [readFloat?_of_toDigits]
  cases negative <;> simp [finite]

end ScriptLang.Decimal
