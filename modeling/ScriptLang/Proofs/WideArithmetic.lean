import ScriptLang.Proofs.IntegerTypes

/-!
# Integer arithmetic in words of 128 bits

The integer operators can be computed in words of 128 bits, whatever the operands' type: the operands
are extended to words, the operation is done on these, and the result is cut to the type.  A result
that is no word stops the computation, except that products and left shifts drop the bits that are
too many.  No computation ever stops, and each gives what the operator gives (`operate?_extend`): the
results are words, products apart, and the bits that a product drops are not among those kept.
-/

namespace ScriptLang.Wide

/-- A word of 128 bits, the last of which is the sign. -/
abbrev Word := BitVec 128

/-- The integer is the value of a word. -/
def InRange (n : Int) : Prop := -2 ^ 127 ≤ n ∧ n < 2 ^ 127

instance : DecidablePred InRange := fun _ => instDecidableAnd

/-- The word of an integer, if there is one. -/
def word? (n : Int) : Option Word := if InRange n then some (BitVec.ofInt 128 n) else none

/-! ### Operations on words -/

def add? (x y : Word) : Option Word := word? (x.toInt + y.toInt)

def sub? (x y : Word) : Option Word := word? (x.toInt - y.toInt)

def neg? (x : Word) : Option Word := word? (-x.toInt)

def div? (x y : Word) : Option Word := if y = 0 then none else word? (x.toInt.tdiv y.toInt)

/-- The remainder of a division; it stops where the division does. -/
def rem? (x y : Word) : Option Word := (div? x y).map fun _ => BitVec.ofInt 128 (x.toInt.tmod y.toInt)

/-- The remainder that is not negative; it stops where the division does. -/
def euclid? (x y : Word) : Option Word := (div? x y).map fun _ => BitVec.ofInt 128 (x.toInt % y.toInt)

def shl? (x : Word) (n : Nat) : Option Word := if n < 128 then some (x <<< n) else none

def shr? (x : Word) (n : Nat) : Option Word := if n < 128 then some (x.sshiftRight n) else none

/-! ### Operators of a type -/

/-- An operand as a word. -/
def extend (t : IntType) (bits : BitVec t.bits) : Word :=
  if t.signed then bits.signExtend 128 else bits.setWidth 128

/-- The value of a type in the low bits of a word. -/
def cut (t : IntType) (x : Word) : Value := .int t (x.setWidth t.bits)

/-- The number of places that a shift by `y` moves. -/
def places? (t : IntType) (y : Word) : Option Nat :=
  (euclid? y (BitVec.ofNat 128 t.bits)).map fun r => (r.setWidth 32).toNat

/-- The integer operators on words.  None is a computation that stops; a result of none means, as for
`Value.intBinary`, that the operator is no integer operator. -/
def operate? (op : BinaryOp) (t : IntType) (x y : Word) :
    Option (Option (Except ValueError Value)) :=
  let kept (r : Word) := some (.ok (cut t r))
  match op with
  | .add => (add? x y).map kept
  | .sub => (sub? x y).map kept
  | .mul => some (kept (x * y))
  | .div => if y = 0 then some (some (.error .divisionByZero)) else (div? x y).map kept
  | .rem => if y = 0 then some (some (.error .divisionByZero)) else (rem? x y).map kept
  | .bitAnd => some (kept (x &&& y))
  | .bitOr => some (kept (x ||| y))
  | .bitXor => some (kept (x ^^^ y))
  | .shl => (places? t y).bind fun n => (shl? x n).map kept
  | .shr => (places? t y).bind fun n => (shr? x n).map kept
  | .and => some none
  | .or => some none
  | op => some (some (.ok (.bool (op.holds (compare x.toInt y.toInt)))))

/-! ### Operands and results -/

variable {t : IntType} {a b : BitVec t.bits}

theorem bits_le (t : IntType) : t.bits ≤ 64 := by
  rcases t with ⟨_ | _, _ | _ | _ | _⟩ <;> decide

theorem bits_pos (t : IntType) : 0 < t.bits := by
  rcases t with ⟨_ | _, _ | _ | _ | _⟩ <;> decide

theorem toInt_bounds (a : BitVec t.bits) : -2 ^ 63 ≤ t.toInt a ∧ t.toInt a < 2 ^ 64 :=
  IntType.bounds_of_fits (t.fits_toInt a)

theorem toInt_extend (a : BitVec t.bits) : (extend t a).toInt = t.toInt a := by
  have small := bits_le t
  unfold extend IntType.toInt
  split
  · exact BitVec.toInt_signExtend_of_le (by omega)
  · have less := a.isLt
    have power : 2 ^ t.bits ≤ 2 ^ 64 := Nat.pow_le_pow_right (by decide) small
    rw [BitVec.toInt_eq_toNat_of_lt, BitVec.toNat_setWidth, Nat.mod_eq_of_lt]
    · omega
    · rw [BitVec.toNat_setWidth, Nat.mod_eq_of_lt (by omega)]
      omega

/-- Cutting a word keeps what its integer is modulo the type's width. -/
theorem cut_ofInt (t : IntType) (n : Int) : cut t (BitVec.ofInt 128 n) = Value.ofInt t n := by
  have small := bits_le t
  unfold cut Value.ofInt IntType.ofInt
  congr 1
  apply BitVec.eq_of_toNat_eq
  rw [BitVec.toNat_setWidth, BitVec.toNat_ofInt, BitVec.toNat_ofInt]
  have divides : ((2 ^ t.bits : Nat) : Int) ∣ ((2 ^ 128 : Nat) : Int) :=
    Int.natCast_dvd_natCast.2 (pow_dvd_pow 2 (by omega))
  have nonneg : 0 ≤ n % ((2 ^ 128 : Nat) : Int) := Int.emod_nonneg n (by decide)
  rw [← Int.emod_emod_of_dvd n divides, Int.toNat_emod nonneg (by omega), Int.toNat_natCast]

theorem setWidth_extend (a : BitVec t.bits) : (extend t a).setWidth t.bits = a := by
  have cutAgain := cut_ofInt t (extend t a).toInt
  rw [BitVec.ofInt_toInt, toInt_extend, Value.ofInt_toInt] at cutAgain
  exact eq_of_heq (Value.int.inj cutAgain).2

/-! ### No computation stops -/

theorem word?_eq {n : Int} (h : InRange n) : word? n = some (BitVec.ofInt 128 n) := if_pos h

theorem add?_extend (a b : BitVec t.bits) :
    add? (extend t a) (extend t b) = some (BitVec.ofInt 128 (t.toInt a + t.toInt b)) := by
  have ha := toInt_bounds a
  have hb := toInt_bounds b
  rw [add?, toInt_extend, toInt_extend, word?_eq]
  unfold InRange
  omega

theorem sub?_extend (a b : BitVec t.bits) :
    sub? (extend t a) (extend t b) = some (BitVec.ofInt 128 (t.toInt a - t.toInt b)) := by
  have ha := toInt_bounds a
  have hb := toInt_bounds b
  rw [sub?, toInt_extend, toInt_extend, word?_eq]
  unfold InRange
  omega

theorem neg?_extend (a : BitVec t.bits) :
    neg? (extend t a) = some (BitVec.ofInt 128 (-t.toInt a)) := by
  have ha := toInt_bounds a
  rw [neg?, toInt_extend, word?_eq]
  unfold InRange
  omega

/-- A product wraps. -/
theorem mul_extend (a b : BitVec t.bits) :
    extend t a * extend t b = BitVec.ofInt 128 (t.toInt a * t.toInt b) := by
  rw [BitVec.ofInt_mul, ← toInt_extend, ← toInt_extend, BitVec.ofInt_toInt, BitVec.ofInt_toInt]

theorem eq_zero_iff {x : Word} : x = 0 ↔ x.toInt = 0 := by
  have zero : (0 : Word).toInt = 0 := BitVec.toInt_zero
  rw [← BitVec.toInt_inj, zero]

/-- Dividing a value of a type does not leave the words, as the least word is no such value. -/
theorem div?_extend (a : BitVec t.bits) {y : Word} (h : y.toInt ≠ 0) :
    div? (extend t a) y = some (BitVec.ofInt 128 ((t.toInt a).tdiv y.toInt)) := by
  have ha := toInt_bounds a
  have shrinks := Int.natAbs_tdiv_le_natAbs (t.toInt a) y.toInt
  rw [div?, if_neg (mt eq_zero_iff.1 h), toInt_extend, word?_eq]
  unfold InRange
  omega

theorem rem?_extend (a : BitVec t.bits) {y : Word} (h : y.toInt ≠ 0) :
    rem? (extend t a) y = some (BitVec.ofInt 128 ((t.toInt a).tmod y.toInt)) := by
  rw [rem?, div?_extend a h, Option.map_some, toInt_extend]

theorem toInt_bitCount (t : IntType) : (BitVec.ofNat 128 t.bits).toInt = t.bits := by
  rcases t with ⟨_ | _, _ | _ | _ | _⟩ <;> decide

/-- A shift moves fewer places than the type has bits. -/
theorem shiftAmount_lt (b : BitVec t.bits) : Value.shiftAmount t b < t.bits := by
  have positive := bits_pos t
  have nonneg : 0 ≤ t.toInt b % t.bits := Int.emod_nonneg _ (by omega)
  have less : t.toInt b % t.bits < t.bits := Int.emod_lt_of_pos _ (by omega)
  unfold Value.shiftAmount
  omega

theorem places?_extend (b : BitVec t.bits) :
    places? t (extend t b) = some (Value.shiftAmount t b) := by
  have small := bits_le t
  have positive := bits_pos t
  have less := shiftAmount_lt b
  have nonneg : 0 ≤ t.toInt b % t.bits := Int.emod_nonneg _ (by omega)
  have amount : t.toInt b % t.bits = (Value.shiftAmount t b : Int) :=
    (Int.toNat_of_nonneg nonneg).symm
  have divides : div? (extend t b) (BitVec.ofNat 128 t.bits) ≠ none := by
    rw [div?_extend b (by rw [toInt_bitCount]; omega)]
    exact Option.some_ne_none _
  obtain ⟨quotient, found⟩ := Option.ne_none_iff_exists'.1 divides
  rw [places?, euclid?, found, Option.map_some, Option.map_some, toInt_extend, toInt_bitCount,
    amount, BitVec.ofInt_natCast, BitVec.toNat_setWidth, BitVec.toNat_ofNat,
    Nat.mod_eq_of_lt (by omega), Nat.mod_eq_of_lt (by omega)]

/-- A left shift wraps. -/
theorem shl?_extend (a b : BitVec t.bits) :
    shl? (extend t a) (Value.shiftAmount t b) =
      some (BitVec.ofInt 128 (t.toInt a * Nat.pow 2 (Value.shiftAmount t b))) := by
  have small := bits_le t
  have less := shiftAmount_lt b
  have power : BitVec.twoPow 128 (Value.shiftAmount t b) =
      BitVec.ofInt 128 (Nat.pow 2 (Value.shiftAmount t b)) := by
    apply BitVec.eq_of_toNat_eq
    rw [BitVec.toNat_twoPow, Nat.pow_eq, BitVec.ofInt_natCast, BitVec.toNat_ofNat]
  rw [shl?, if_pos (by omega), BitVec.shiftLeft_eq_mul_twoPow, BitVec.ofInt_mul, ← toInt_extend,
    BitVec.ofInt_toInt, power]

theorem shr?_extend (a b : BitVec t.bits) :
    shr? (extend t a) (Value.shiftAmount t b) =
      some (BitVec.ofInt 128 (t.toInt a / Nat.pow 2 (Value.shiftAmount t b))) := by
  have small := bits_le t
  have less := shiftAmount_lt b
  rw [shr?, if_pos (by omega), ← BitVec.ofInt_toInt (x := (extend t a).sshiftRight _),
    BitVec.toInt_sshiftRight, toInt_extend, Int.shiftRight_eq_div_pow, Nat.pow_eq]

/-! ### Results -/

/-- Computing in words gives what the operator gives, and never stops. -/
theorem operate?_extend (op : BinaryOp) (t : IntType) (a b : BitVec t.bits) :
    operate? op t (extend t a) (extend t b) = some (Value.intBinary op t a b) := by
  have zero : extend t b = 0 ↔ t.toInt b = 0 := by rw [eq_zero_iff, toInt_extend]
  cases op
  case add => simp only [operate?, add?_extend, Option.map_some, cut_ofInt, Value.intBinary]
  case sub => simp only [operate?, sub?_extend, Option.map_some, cut_ofInt, Value.intBinary]
  case mul => simp only [operate?, mul_extend, cut_ofInt, Value.intBinary]
  case div =>
    simp only [operate?, Value.intBinary, zero]
    split
    · rfl
    · next h =>
      rw [← toInt_extend] at h
      rw [div?_extend a h, Option.map_some, cut_ofInt, toInt_extend]
  case rem =>
    simp only [operate?, Value.intBinary, zero]
    split
    · rfl
    · next h =>
      rw [← toInt_extend] at h
      rw [rem?_extend a h, Option.map_some, cut_ofInt, toInt_extend]
  case bitAnd =>
    simp only [operate?, cut, BitVec.setWidth_and, setWidth_extend, Value.intBinary]
  case bitOr =>
    simp only [operate?, cut, BitVec.setWidth_or, setWidth_extend, Value.intBinary]
  case bitXor =>
    simp only [operate?, cut, BitVec.setWidth_xor, setWidth_extend, Value.intBinary]
  case shl =>
    simp only [operate?, places?_extend, Option.bind_some, shl?_extend, Option.map_some, cut_ofInt,
      Value.intBinary]
  case shr =>
    simp only [operate?, places?_extend, Option.bind_some, shr?_extend, Option.map_some, cut_ofInt,
      Value.intBinary]
  case and | or => rfl
  all_goals simp only [operate?, toInt_extend, Value.intBinary]

theorem cut_not_extend (t : IntType) (a : BitVec t.bits) :
    cut t (~~~extend t a) = .int t (~~~a) := by
  have small := bits_le t
  rw [cut, BitVec.setWidth_not (by omega), setWidth_extend]

/-- A cast between integer types cuts the word of the operand. -/
theorem cut_extend (s t : IntType) (a : BitVec t.bits) :
    cut s (extend t a) = Value.ofInt s (t.toInt a) := by
  rw [← toInt_extend, ← cut_ofInt, BitVec.ofInt_toInt]

end ScriptLang.Wide
