import ScriptLang.Proofs.NativeCalls
import ScriptLang.Proofs.WideArithmetic

/-!
# Values in registers

Integers, truth values and pointers travel in registers of 64 bits.  A register that holds an integer
has the integer's own bits at its low end (`setWidth_widened`), and one that is read as an integer type
counts only with as many low bits as the type has (`narrow_int`).  So a value that goes into a register
comes out of it again, also through a call (`registers_keep_values`).
-/

namespace ScriptLang.Native

/-! ### Reading registers -/

theorem setWidth_eq_iff {m n : Nat} {x y : BitVec m} :
    x.setWidth n = y.setWidth n ↔ ∀ i < n, x.getLsbD i = y.getLsbD i := by
  constructor
  · intro same i low
    have bit := congrArg (BitVec.getLsbD · i) same
    simpa [low] using bit
  · intro same
    apply BitVec.eq_of_getLsbD_eq
    intro i low
    simp [low, same i low]

/-- The low bits of a register make an integer. -/
theorem narrow_int (t : IntType) (raw : BitVec 64) :
    narrow (.int t) raw = .int t (raw.setWidth t.bits) := by
  change Value.int t (raw.signExtend t.bits) = _
  rw [BitVec.signExtend_eq_setWidth_of_le raw (Wide.bits_le t)]

/-- The lowest byte of a register makes a truth value. -/
theorem narrow_bool (raw : BitVec 64) : narrow .bool raw = .bool (raw.setWidth 8 != 0) := by
  have low : raw &&& 0xff = (raw.setWidth 8).setWidth 64 := by
    apply BitVec.eq_of_toNat_eq
    rw [BitVec.toNat_and, BitVec.toNat_setWidth_of_le (by decide), BitVec.toNat_setWidth]
    exact Nat.and_two_pow_sub_one_eq_mod raw.toNat 8
  have zero : (raw.setWidth 8).setWidth 64 = 0 ↔ raw.setWidth 8 = 0 := by
    rw [← BitVec.toNat_inj, ← BitVec.toNat_inj, BitVec.toNat_setWidth_of_le (by decide)]
    rfl
  refine congrArg Value.bool (Bool.eq_iff_iff.2 ?_)
  rw [bne_iff_ne, bne_iff_ne, low]
  exact not_congr zero

/-! ### Filling registers -/

/-- An integer in a register: above its own bits there is only its sign. -/
def widened (t : IntType) (bits : BitVec t.bits) : BitVec 64 :=
  if t.signed then bits.signExtend 64 else bits.setWidth 64

/-- The low end of a register that holds an integer is the integer. -/
theorem setWidth_widened (t : IntType) (bits : BitVec t.bits) :
    (widened t bits).setWidth t.bits = bits := by
  unfold widened
  split
  · rw [← BitVec.signExtend_eq_setWidth_of_le _ (Wide.bits_le t), BitVec.signExtend,
      BitVec.toInt_signExtend_of_le (Wide.bits_le t), BitVec.ofInt_toInt]
  · rw [BitVec.setWidth_setWidth_of_le _ (Wide.bits_le t), BitVec.setWidth_eq]

/-- As a number of its own sign, the register that holds an integer is the integer. -/
theorem toInt_widened (t : IntType) (bits : BitVec t.bits) :
    (if t.signed then (widened t bits).toInt else (widened t bits).toNat) = t.toInt bits := by
  unfold widened IntType.toInt
  split
  · exact BitVec.toInt_signExtend_of_le (Wide.bits_le t)
  · rw [BitVec.toNat_setWidth_of_le (Wide.bits_le t)]

/-- The types whose values travel as bits. -/
def HasBits (ty : Ty) : Prop := ty.isInteger = true ∨ ty = .bool ∨ ty = .pointer

theorem narrow_of_widen? {v : Value} (travels : HasBits v.type) :
    ∃ w, widen? v = some w ∧ narrow v.type w = v := by
  cases v with
  | bool b => cases b <;> exact ⟨_, rfl, rfl⟩
  | pointer address => exact ⟨address, rfl, rfl⟩
  | int t bits =>
    refine ⟨widened t bits, widen?_int bits, ?_⟩
    change narrow (.int t) _ = _
    rw [narrow_int, setWidth_widened]
  | void => rcases travels with h | h | h <;> cases h
  | float x => rcases travels with h | h | h <;> cases h
  | string s => rcases travels with h | h | h <;> cases h

/-! ### Calls -/

theorem class_of_hasBits {ty : Ty} (travels : HasBits ty) : PassClass.of? ty = some .word := by
  cases ty with
  | bool | int _ | pointer => rfl
  | void | float | string => rcases travels with h | h | h <;> cases h

theorem checkSignature_of_hasBits (name : String) {ty : Ty} (travels : HasBits ty) :
    checkSignature name ⟨[ty], ty⟩ = .ok () := by
  cases ty with
  | bool | int _ | pointer => rfl
  | void | float | string => rcases travels with h | h | h <;> cases h

/-- An argument that travels as bits is carried by its register. -/
theorem words_of_carries {a : Arguments} {v : Value} {w : BitVec 64} (carries : a.Carries [v])
    (travels : HasBits v.type) (widens : widen? v = some w) : a = .words [.bits w] := by
  generalize args : [v] = vs at carries
  cases carries with
  | @floats xs some =>
    obtain ⟨x, -, rfl⟩ := List.map_eq_singleton_iff.1 args.symm
    rcases travels with h | h | h <;> cases h
  | @words ws _ held =>
    rw [← args] at held
    obtain ⟨word, rest, holds, none, rfl⟩ := List.forall₂_cons_left_iff.1 held
    obtain rfl := List.forall₂_nil_left_iff.1 none
    cases holds with
    | bool b => cases widens; rfl
    | int bits => rw [widen?_int] at widens; cases widens; rfl
    | pointer address => cases widens; rfl
    | string s => cases widens

/-- A function of a library that gives back the first word that it is given. -/
def giveBack : Symbol
  | .words (.bits w :: _) => { word := w }
  | _ => {}

/-- A value goes through a call of a function that gives it back. -/
theorem call_giveBack (name : String) {v : Value} (travels : HasBits v.type) :
    (call name giveBack ⟨[v.type], v.type⟩ [v]).map Call.value = .ok v := by
  obtain ⟨w, widens, narrows⟩ := narrow_of_widen? travels
  have passes : firstRefusal name ⟨[v.type], v.type⟩ [v] = none := by
    refine firstRefusal_eq_none_iff.2 ⟨rfl, checkSignature_of_hasBits name travels, rfl, ?_⟩
    intro text mem
    cases List.mem_singleton.1 mem
    rcases travels with h | h | h <;> cases h
  rcases prepare_spec name ⟨[v.type], v.type⟩ [v] with ⟨e, refused, -⟩ | ⟨-, a, carries, -, made⟩
  · cases passes.symm.trans refused
  · cases words_of_carries carries travels widens
    unfold call callWith
    rw [made]
    change Except.ok (resultValue v.type { word := w }) = _
    rw [resultValue, class_of_hasBits travels]
    exact congrArg Except.ok narrows

/-! ### All of it -/

/-- Registers lose nothing.  A value that travels as bits comes out of its register as it went in, also
through a call of a function that gives its argument back.  The register holds the sign extension of a
signed integer and the zero extension of an unsigned one, which is the integer as a number of that sign;
a truth value is zero extended too, and an address fills it.  What is read from any register depends on
as many low bits as the integer type has, and for a truth value on the lowest byte. -/
theorem registers_keep_values :
    (∀ v, HasBits v.type → (∃ w, widen? v = some w ∧ narrow v.type w = v) ∧
      ∀ name, (call name giveBack ⟨[v.type], v.type⟩ [v]).map Call.value = .ok v) ∧
    (∀ (t : IntType) (bits : BitVec t.bits),
      (t.signed = true → widen? (.int t bits) = some (bits.signExtend 64) ∧
        (bits.signExtend 64).toInt = t.toInt bits) ∧
      (t.signed = false → widen? (.int t bits) = some (bits.setWidth 64) ∧
        ((bits.setWidth 64).toNat : Int) = t.toInt bits)) ∧
    (∀ b, widen? (.bool b) = some ((BitVec.ofBool b).setWidth 64)) ∧
    (∀ address, widen? (.pointer address) = some address) ∧
    (∀ (t : IntType) (raw : BitVec 64), narrow (.int t) raw = .int t (raw.setWidth t.bits)) ∧
    (∀ raw, narrow .bool raw = .bool (raw.setWidth 8 != 0)) ∧
    (∀ raw, narrow .pointer raw = .pointer raw) ∧
    (∀ (t : IntType) (raw raw' : BitVec 64), narrow (.int t) raw = narrow (.int t) raw' ↔
      ∀ i < t.bits, raw.getLsbD i = raw'.getLsbD i) ∧
    (∀ raw raw' : BitVec 64, (∀ i < 8, raw.getLsbD i = raw'.getLsbD i) →
      narrow .bool raw = narrow .bool raw') := by
  refine ⟨fun v travels => ⟨narrow_of_widen? travels, fun name => call_giveBack name travels⟩,
    fun t bits => ⟨fun sign => ?signed, fun sign => ?unsigned⟩, fun b => ?bool, fun _ => rfl,
    narrow_int, narrow_bool, fun _ => rfl, fun t raw raw' => ?integers, fun raw raw' same => ?bytes⟩
  case signed =>
    have wide := widen?_int bits
    have exact := toInt_widened t bits
    rw [widened, if_pos sign, if_pos sign] at exact
    rw [if_pos sign] at wide
    exact ⟨wide, exact⟩
  case unsigned =>
    have wide := widen?_int bits
    have exact := toInt_widened t bits
    have other : ¬ t.signed = true := Bool.eq_false_iff.1 sign
    rw [widened, if_neg other, if_neg other] at exact
    rw [if_neg other] at wide
    exact ⟨wide, exact⟩
  case bool => cases b <;> rfl
  case integers =>
    rw [narrow_int, narrow_int, ← setWidth_eq_iff]
    exact ⟨fun equal => eq_of_heq (Value.int.inj equal).2, fun low => by rw [low]⟩
  case bytes =>
    rw [narrow_bool, narrow_bool, setWidth_eq_iff.2 same]

/-- All eight bits of a byte come back, from a register whose other bits are set as well. -/
theorem byte_keeps_value :
    widen? (.int .i8 (-1)) = some (-1) ∧
      (call "f" giveBack ⟨[.int .i8], .int .i8⟩ [.int .i8 (-1)]).map Call.value = .ok (.int .i8 (-1)) ∧
      narrow (.int .i8) 0x7fff = narrow (.int .i8) (-1) ∧
      narrow .bool 0x100 = narrow .bool 0 := by
  obtain ⟨passes, extended, -, -, -, -, -, integers, bytes⟩ := registers_keep_values
  have travels : HasBits (Value.int .i8 (-1)).type := .inl rfl
  refine ⟨((extended .i8 (-1)).1 rfl).1, (passes _ travels).2 "f", (integers .i8 _ _).2 ?_,
    bytes _ _ ?_⟩
  · decide
  · decide

end ScriptLang.Native
