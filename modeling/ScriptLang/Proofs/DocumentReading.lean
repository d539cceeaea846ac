import ScriptLang.Proofs.DecimalReading
import ScriptLang.Wire.JsonReader

/-!
# Documents are read as they are written

A document without fractions, and with whole numbers of at most 64 bits, is read back from its text
(`ofString?_text`), which has no line break in it (`lineBreak_not_mem_text`).
-/

namespace ScriptLang.Wire

theorem Members.ofList_toList : ∀ ms : Members, ofList ms.toList = ms
  | .nil => rfl
  | .cons key j ms => congrArg (cons key j) ms.ofList_toList

namespace Json

/-! ### Plain documents -/

mutual

/-- Whether a document is one that is written: its numbers are whole and take at most 64 bits. -/
def plain : Json → Bool
  | null => true
  | bool _ => true
  | int n => n.natAbs < 2 ^ 64
  | fraction _ => false
  | string _ => true
  | array js => allPlain js
  | object ms => membersPlain ms
  | unreadable => false

def allPlain : List Json → Bool
  | [] => true
  | j :: js => j.plain && allPlain js

def membersPlain : Members → Bool
  | .nil => true
  | .cons _ j ms => j.plain && membersPlain ms

end

/-! ### Characters -/

/-- The escape of a control character, and the digits that are read back from it. -/
theorem controlEscape_spec : ∀ n : Fin 32,
    controlEscape (Char.ofNat n) = '\\' :: 'u' :: (controlEscape (Char.ofNat n)).drop 2 ∧
    ((controlEscape (Char.ofNat n)).drop 2).length = 4 ∧
    Decimal.readNat? 16 ((controlEscape (Char.ofNat n)).drop 2) = some n ∧
    '\n' ∉ controlEscape (Char.ofNat n) := by
  decide

theorem readUnit_append {u : List Char} (h : u.length = 4) (rest : List Char) :
    readUnit (u ++ rest) = (Decimal.readNat? 16 u).map fun n => (n, rest) := by
  match u, h with
  | [_, _, _, _], _ => rfl

/-- What an escaped character looks like: its escape is no quote and has no line break, and is read
back. -/
theorem escapeChar_spec (c : Char) (rest : List Char) :
    (∃ d ds, escapeChar c = d :: ds ∧ d ≠ '"') ∧ '\n' ∉ escapeChar c ∧
      readChar (escapeChar c ++ rest) = some (some c, rest) := by
  unfold escapeChar
  by_cases quote : c = '"'
  · rw [if_pos quote, quote]
    exact ⟨⟨_, _, rfl, by decide⟩, by decide, rfl⟩
  rw [if_neg quote]
  by_cases backslash : c = '\\'
  · rw [if_pos backslash, backslash]
    exact ⟨⟨_, _, rfl, by decide⟩, by decide, rfl⟩
  rw [if_neg backslash]
  by_cases newline : c = '\n'
  · rw [if_pos newline, newline]
    exact ⟨⟨_, _, rfl, by decide⟩, by decide, rfl⟩
  rw [if_neg newline]
  split
  · next h => exact ⟨⟨_, _, rfl, by decide⟩, by decide, by rw [h]; rfl⟩
  split
  · next h => exact ⟨⟨_, _, rfl, by decide⟩, by decide, by rw [h]; rfl⟩
  split
  · next h => exact ⟨⟨_, _, rfl, by decide⟩, by decide, by rw [h]; rfl⟩
  split
  · next h => exact ⟨⟨_, _, rfl, by decide⟩, by decide, by rw [h]; rfl⟩
  split
  · next control =>
    obtain ⟨shape, length, read, unbroken⟩ := controlEscape_spec ⟨c.toNat, control⟩
    have same : Char.ofNat c.toNat = c := Char.ofNat_toNat c
    dsimp only at shape length read unbroken
    rw [same] at shape length read unbroken
    refine ⟨⟨_, _, shape, by decide⟩, unbroken, ?_⟩
    rw [shape]
    simp only [List.cons_append, readChar]
    rw [readUnit_append length, read]
    have low : isHighSurrogate c.toNat = false ∧ isLowSurrogate c.toNat = false := by
      simp [isHighSurrogate, isLowSurrogate]
      omega
    simp [low, same]
  · next shown =>
    refine ⟨⟨c, [], rfl, quote⟩, by simpa using Ne.symm newline, ?_⟩
    unfold readChar
    rw [List.singleton_append]
    split
    · next heq => exact absurd (List.cons.inj heq).1 backslash
    · next heq => exact absurd (List.cons.inj heq).1 backslash
    · next heq =>
      obtain ⟨rfl, rfl⟩ := List.cons.inj heq
      simp [shown, quote]
    · next heq => exact absurd heq (List.cons_ne_nil c rest)

/-! ### Texts -/

theorem readText_quote (fuel : Nat) (rest : List Char) :
    readText fuel ('"' :: rest) = some (some [], rest) := by
  cases fuel <;> rfl

theorem readText_char {fuel : Nat} {d c : Char} {ds rest : List Char} (h : d ≠ '"')
    (read : readChar (d :: ds) = some (some c, rest)) :
    readText (fuel + 1) (d :: ds) =
      (readText fuel rest).map fun s => (s.1.map (List.cons c), s.2) := by
  rw [readText]
  · rw [read]
    dsimp only
    cases readText fuel rest with
    | none => rfl
    | some s =>
      obtain ⟨s, after⟩ := s
      cases s <;> rfl
  · intro cs same
    exact h (List.cons.inj same).1

/-- A text is read up to the quote behind it. -/
theorem readText_flatMap (rest : List Char) : ∀ (s : List Char) {fuel : Nat}, s.length ≤ fuel →
    readText fuel (s.flatMap escapeChar ++ '"' :: rest) = some (some s, rest)
  | [], fuel, _ => readText_quote fuel rest
  | c :: s, fuel + 1, h => by
    have later := readText_flatMap rest s (Nat.le_of_succ_le_succ h)
    obtain ⟨⟨d, ds, shape, unquoted⟩, -, read⟩ :=
      escapeChar_spec c (s.flatMap escapeChar ++ '"' :: rest)
    rw [List.flatMap_cons, List.append_assoc]
    rw [shape, List.cons_append] at read ⊢
    rw [readText_char unquoted read, later]
    rfl

theorem length_le_flatMap_escapeChar (s : List Char) : s.length ≤ (s.flatMap escapeChar).length := by
  induction s with
  | nil => exact Nat.le_refl 0
  | cons c s ih =>
    obtain ⟨⟨d, ds, shape, -⟩, -, -⟩ := escapeChar_spec c []
    simp only [List.flatMap_cons, List.length_append, shape, List.length_cons]
    omega

theorem length_quoted (s : String) :
    (quoted s).length = (s.toList.flatMap escapeChar).length + 2 := by
  simp [quoted]

/-! ### Numbers -/

/-- The end of a text, or a character that stands behind a value. -/
def Delimited (cs : List Char) : Prop := ∀ c ∈ cs.head?, c = ',' ∨ c = ']' ∨ c = '\x7d'

theorem takeWhile_digits {digits rest : List Char} (h : ∀ c ∈ digits, c.isDigit = true)
    (delimited : Delimited rest) : (digits ++ rest).takeWhile Char.isDigit = digits ∧
      (digits ++ rest).dropWhile Char.isDigit = rest := by
  have ends : rest.takeWhile Char.isDigit = [] ∧ rest.dropWhile Char.isDigit = rest := by
    cases rest with
    | nil => exact ⟨rfl, rfl⟩
    | cons c cs =>
      obtain rfl | rfl | rfl := delimited c rfl <;> exact ⟨rfl, rfl⟩
  rw [List.takeWhile_append_of_pos h, List.dropWhile_append_of_pos h, ends.1, ends.2,
    List.append_nil]
  exact ⟨rfl, rfl⟩

/-- No needless zero stands in front of a number. -/
theorem toDigits_ne_zero {n : Nat} (h : n ≠ 0) :
    ∃ c cs, Nat.toDigits 10 n = c :: cs ∧ c ≠ '0' := by
  induction n using Nat.strong_induction_on with
  | _ n ih =>
    rw [Nat.toDigits_eq_if (by decide)]
    split
    · next small =>
      have digit : ∀ m < 10, m ≠ 0 → Nat.digitChar m ≠ '0' := by decide
      exact ⟨_, [], rfl, digit n small h⟩
    · next large =>
      obtain ⟨c, cs, hcs, nonzero⟩ := ih (n / 10) (by omega) (by omega)
      exact ⟨c, _, by rw [hcs, List.cons_append], nonzero⟩

/-- The digits of a number are read as a whole. -/
theorem readWhole_toDigits (n : Nat) {rest : List Char} (delimited : Delimited rest) :
    readWhole (Nat.toDigits 10 n ++ rest) = some (Nat.toDigits 10 n, rest) := by
  by_cases zero : n = 0
  · rw [zero]
    cases rest with
    | nil => rfl
    | cons c cs => obtain rfl | rfl | rfl := delimited c rfl <;> rfl
  · obtain ⟨-, digits, -⟩ := Decimal.toDigits_spec n
    obtain ⟨taken, dropped⟩ := takeWhile_digits digits delimited
    obtain ⟨c, cs, hcs, nonzero⟩ := toDigits_ne_zero zero
    rw [hcs, List.cons_append] at taken dropped ⊢
    rw [readWhole]
    · rw [taken, dropped]
      rfl
    · intro cs' same
      exact nonzero (List.cons.inj same).1

theorem readMagnitude_toDigits (negative : Bool) {n : Nat} (h : n < 2 ^ 64)
    (sign : negative = true → n ≠ 0) {rest : List Char} (delimited : Delimited rest) :
    readMagnitude negative (Nat.toDigits 10 n ++ rest) =
      some (.int (if negative then -(n : Int) else n), rest) := by
  have finite := Decimal.readFloat?_isFinite negative h
  obtain ⟨-, -, read⟩ := Decimal.toDigits_spec n
  have number : numberOf negative (Nat.toDigits 10 n) [] =
      .int (if negative then -(n : Int) else n) := by
    unfold numberOf
    dsimp only
    rw [List.append_nil, read, finite]
    cases negative with
    | true => simp [sign rfl]
    | false => simp
  have fraction : readFraction rest = some ([], rest) := by
    cases rest with
    | nil => rfl
    | cons c cs => obtain rfl | rfl | rfl := delimited c rfl <;> rfl
  have exponent : readExponent rest = some ([], rest) := by
    cases rest with
    | nil => rfl
    | cons c cs => obtain rfl | rfl | rfl := delimited c rfl <;> rfl
  unfold readMagnitude
  rw [readWhole_toDigits n delimited]
  simp only [bind, Option.bind_some]
  rw [fraction]
  simp only [Option.bind_some]
  rw [exponent]
  simp only [Option.bind_some]
  rw [List.append_nil, number]
  rfl

theorem toList_toString (n : Int) : (toString n).toList =
    (if n < 0 then ['-'] else []) ++ Nat.toDigits 10 n.natAbs := by
  have natural (m : Nat) : (toString m).toList = Nat.toDigits 10 m := by
    rw [Nat.toString_eq_ofList_toDigits, String.toList_ofList]
  cases n with
  | ofNat m => exact natural m
  | negSucc m =>
    show ("-" ++ toString (m + 1)).toList = _
    rw [String.toList_append, natural, if_pos (Int.negSucc_lt_zero m)]
    rfl

theorem readNumber_toString {n : Int} (h : n.natAbs < 2 ^ 64) {rest : List Char}
    (delimited : Delimited rest) :
    readNumber ((toString n).toList ++ rest) = some (.int n, rest) := by
  rw [toList_toString, List.append_assoc]
  by_cases negative : n < 0
  · rw [if_pos negative]
    have read := readMagnitude_toDigits true h (by omega) delimited
    rw [if_pos rfl, show -(n.natAbs : Int) = n by omega] at read
    exact read
  · rw [if_neg negative, List.nil_append]
    have read := readMagnitude_toDigits false h (by simp) delimited
    rw [if_neg Bool.false_ne_true, show (n.natAbs : Int) = n by omega] at read
    obtain ⟨nonempty, digits, -⟩ := Decimal.toDigits_spec n.natAbs
    obtain ⟨c, cs, hcs⟩ := List.exists_cons_of_ne_nil nonempty
    rw [hcs] at digits read ⊢
    rw [List.cons_append] at read ⊢
    rw [readNumber, read]
    intro cs' same
    exact Decimal.ne_of_isDigit (digits c List.mem_cons_self) rfl (List.cons.inj same).1

/-! ### Documents -/

theorem skipSpace_cons {c : Char} (h : isSpace c = false) (cs : List Char) :
    skipSpace (c :: cs) = c :: cs :=
  List.dropWhile_cons_of_neg (by rw [h]; exact Bool.false_ne_true)

/-- Whether a number may begin with a character. -/
def startsNumber (c : Char) : Bool := c == '-' || c.isDigit

theorem ne_of_startsNumber {c d : Char} (h : startsNumber c = true) (hd : startsNumber d = false) :
    c ≠ d := by
  rintro rfl
  exact absurd (h.symm.trans hd) (by decide)

theorem isSpace_of_startsNumber {c : Char} (h : startsNumber c = true) : isSpace c = false := by
  simp only [isSpace, Bool.or_eq_false_iff, beq_eq_false_iff_ne]
  exact ⟨⟨⟨ne_of_startsNumber h (by decide), ne_of_startsNumber h (by decide)⟩,
    ne_of_startsNumber h (by decide)⟩, ne_of_startsNumber h (by decide)⟩

theorem toString_cons (n : Int) :
    ∃ c cs, (toString n).toList = c :: cs ∧ startsNumber c = true := by
  obtain ⟨nonempty, digits, -⟩ := Decimal.toDigits_spec n.natAbs
  obtain ⟨c, cs, hcs⟩ := List.exists_cons_of_ne_nil nonempty
  rw [hcs] at digits
  rw [toList_toString, hcs]
  split
  · exact ⟨'-', c :: cs, rfl, by decide⟩
  · refine ⟨c, cs, rfl, ?_⟩
    simp [startsNumber, digits c List.mem_cons_self]

theorem readValue_number {c : Char} (h : startsNumber c = true) (fuel : Nat) (cs : List Char) :
    readValue (fuel + 1) (c :: cs) = readNumber (c :: cs) := by
  rw [readValue, skipSpace_cons (isSpace_of_startsNumber h)]
  split
  all_goals first
    | rfl
    | next heq => exact absurd (List.cons.inj heq).1 (ne_of_startsNumber h (by decide))

/-- A document is read from its characters in front of what stands behind a value; they begin with
nothing that is skipped or that ends a list. -/
structure Reads (j : Json) : Prop where
  begins : ∃ c cs, j.chars = c :: cs ∧ isSpace c = false ∧ c ≠ ']'
  read : ∀ (fuel : Nat) (rest : List Char), 2 * j.chars.length ≤ fuel → Delimited rest →
    readValue fuel (j.chars ++ rest) = some (j, rest)

theorem Reads.of_behind {j : Json} {c : Char} {cs : List Char} (shape : j.chars = c :: cs)
    (space : isSpace c = false) (bracket : c ≠ ']')
    (read : ∀ {fuel : Nat} {rest : List Char}, 2 * cs.length < fuel → Delimited rest →
      readValue (fuel + 1) (c :: (cs ++ rest)) = some (j, rest)) : j.Reads := by
  refine ⟨⟨c, cs, shape, space, bracket⟩, fun fuel rest enough delimited => ?_⟩
  rw [shape] at enough ⊢
  rw [List.length_cons] at enough
  obtain ⟨fuel, rfl⟩ : ∃ n, fuel = n + 1 := Nat.exists_eq_succ_of_ne_zero (by omega)
  exact read (by omega) delimited

theorem reads_null : null.Reads :=
  .of_behind rfl rfl (by decide) fun _ _ => rfl

theorem reads_bool (b : Bool) : (bool b).Reads := by
  cases b <;> exact .of_behind rfl rfl (by decide) fun _ _ => rfl

/-- A text within quotes is read behind its first one. -/
theorem readText_quoted (s : String) (fuel : Nat) (h : (quoted s).length ≤ fuel + 2)
    (rest : List Char) : readText fuel (s.toList.flatMap escapeChar ++ ['"'] ++ rest) =
      some (some s.toList, rest) := by
  have escaped := length_le_flatMap_escapeChar s.toList
  rw [length_quoted] at h
  rw [List.append_assoc, List.singleton_append]
  exact readText_flatMap rest s.toList (by omega)

theorem reads_string (s : String) : (string s).Reads := by
  have shape : quoted s = '"' :: (s.toList.flatMap escapeChar ++ ['"']) := rfl
  refine .of_behind shape rfl (by decide) fun {fuel rest} enough _ => ?_
  have read := readText_quoted s fuel (by
    rw [shape, List.length_cons]
    omega) rest
  rw [readValue, skipSpace_cons rfl]
  simp only [read, ofText, Option.map_some, String.ofList_toList]

theorem reads_int {n : Int} (h : n.natAbs < 2 ^ 64) : (int n).Reads := by
  obtain ⟨c, cs, hcs, starts⟩ := toString_cons n
  refine .of_behind hcs (isSpace_of_startsNumber starts) (ne_of_startsNumber starts (by decide))
    fun {fuel rest} _ delimited => ?_
  have read := readNumber_toString h delimited
  rw [hcs] at read
  rw [readValue_number starts]
  exact read

theorem elementChars_cons (j j' : Json) (js : List Json) :
    elementChars (j :: j' :: js) = j.chars ++ ',' :: elementChars (j' :: js) := rfl

/-- Elements are read up to the bracket behind them. -/
theorem readElements_elementChars (rest : List Char) : ∀ {js : List Json}, js ≠ [] →
    (∀ j ∈ js, j.Reads) → ∀ fuel : Nat, 2 * (elementChars js).length < fuel →
    readElements fuel (elementChars js ++ ']' :: rest) = some (js, rest)
  | [], some_, _, _, _ => absurd rfl some_
  | [j], _, reads, fuel + 1, enough => by
    have read := (reads j List.mem_cons_self).read fuel (']' :: rest)
      (Nat.le_of_lt_succ enough) (by rintro c ⟨⟩; decide)
    rw [readElements, elementChars, read]
    rfl
  | j :: j' :: js, _, reads, fuel + 1, enough => by
    rw [elementChars_cons] at enough ⊢
    simp only [List.length_append, List.length_cons] at enough
    obtain ⟨first, later⟩ := List.forall_mem_cons.1 reads
    have read := first.read fuel (',' :: (elementChars (j' :: js) ++ ']' :: rest))
      (by omega) (by rintro c ⟨⟩; decide)
    have reads' := readElements_elementChars rest (List.cons_ne_nil j' js) later fuel (by omega)
    rw [List.append_assoc, List.cons_append, readElements, read]
    have next : readContinuation ']' (',' :: (elementChars (j' :: js) ++ ']' :: rest)) =
        some (.next (elementChars (j' :: js) ++ ']' :: rest)) := rfl
    simp only [next, reads', Option.map_some]

/-- What is read behind a member of which the text has been read. -/
def membersBehind (fuel : Nat) (m : Option (List Char) × Json) (cs : List Char) :
    Option (List (Option (List Char) × Json) × List Char) :=
  match readContinuation '\x7d' cs with
  | none => none
  | some (.closed cs) => some ([m], cs)
  | some (.next cs) => (readMembers fuel cs).map fun (ms, cs) => (m :: ms, cs)

/-- One member is read, and then what follows it. -/
theorem readMembers_member (key : String) {j : Json} {fuel : Nat} (after : List Char)
    (reads : j.Reads) (enough : 2 * (quoted key ++ ':' :: j.chars).length ≤ fuel)
    (delimited : Delimited after) :
    readMembers (fuel + 1) (quoted key ++ ':' :: j.chars ++ after) =
      membersBehind fuel (some key.toList, j) after := by
  simp only [List.length_append, List.length_cons] at enough
  have text := readText_quoted key fuel (by omega) (':' :: (j.chars ++ after))
  have value := reads.read fuel after (by omega) delimited
  have shape : quoted key ++ ':' :: j.chars ++ after =
      '"' :: (key.toList.flatMap escapeChar ++ ['"'] ++ ':' :: (j.chars ++ after)) := by
    simp [quoted]
  have colon : skipSpace (':' :: (j.chars ++ after)) = ':' :: (j.chars ++ after) :=
    skipSpace_cons rfl _
  rw [shape, readMembers, skipSpace_cons rfl]
  simp only [text, colon, value]
  rfl

/-- Members are read up to the brace behind them. -/
theorem readMembers_memberChars (rest : List Char) : ∀ ms : Members, ms ≠ .nil →
    (∀ m ∈ ms.toList, m.2.Reads) → ∀ fuel : Nat, 2 * (memberChars ms).length < fuel →
    readMembers fuel (memberChars ms ++ '\x7d' :: rest) =
      some (ms.toList.map fun m => (some m.1.toList, m.2), rest)
  | .nil, some_, _, _, _ => absurd rfl some_
  | .cons key j .nil, _, reads, fuel + 1, enough => by
    have read := readMembers_member key ('\x7d' :: rest) (reads (key, j) List.mem_cons_self)
      (Nat.le_of_lt_succ enough) (by rintro c ⟨⟩; decide)
    rw [memberChars, read]
    rfl
  | .cons key j (.cons key' j' ms), _, reads, fuel + 1, enough => by
    have shape : memberChars (.cons key j (.cons key' j' ms)) =
      quoted key ++ ':' :: j.chars ++ ',' :: memberChars (.cons key' j' ms) := rfl
    rw [shape] at enough ⊢
    rw [List.length_append, List.length_cons] at enough
    obtain ⟨first, later⟩ := List.forall_mem_cons.1 reads
    have reads' := readMembers_memberChars rest (.cons key' j' ms) nofun later fuel (by omega)
    have bound : 2 * (quoted key ++ ':' :: j.chars).length ≤ fuel := by omega
    have read := readMembers_member key (',' :: (memberChars (.cons key' j' ms) ++ '\x7d' :: rest))
      first bound (by rintro c ⟨⟩; decide)
    rw [List.append_assoc, List.cons_append, read]
    have next : readContinuation '\x7d' (',' :: (memberChars (.cons key' j' ms) ++ '\x7d' :: rest)) =
        some (.next (memberChars (.cons key' j' ms) ++ '\x7d' :: rest)) := rfl
    simp only [membersBehind, next, reads', Option.map_some]
    rfl

theorem objectOf_map (ms : Members) :
    objectOf (ms.toList.map fun m => (some m.1.toList, m.2)) = .object ms := by
  have keys (l : List (String × Json)) : (l.map fun m => (some m.1.toList, m.2)).mapM
      (fun m => m.1.map fun key => (String.ofList key, m.2)) = some l := by
    induction l with
    | nil => rfl
    | cons m l ih => simp [List.mapM_cons, ih]
  unfold objectOf
  rw [keys]
  exact congrArg object ms.ofList_toList

theorem reads_array {js : List Json} (reads : ∀ j ∈ js, j.Reads) : (array js).Reads := by
  have shape : (array js).chars = '[' :: (elementChars js ++ [']']) := rfl
  refine .of_behind shape rfl (by decide) fun {fuel rest} enough _ => ?_
  rw [List.length_append, List.length_singleton] at enough
  rw [List.append_assoc, List.singleton_append, readValue, skipSpace_cons rfl]
  cases js with
  | nil => rfl
  | cons j js =>
    have read := readElements_elementChars rest (List.cons_ne_nil j js) reads fuel (by omega)
    obtain ⟨c, cs, hcs, space, bracket⟩ := (reads j List.mem_cons_self).begins
    obtain ⟨cs', begins⟩ : ∃ cs', elementChars (j :: js) = c :: cs' := by
      cases js with
      | nil => exact ⟨cs, hcs⟩
      | cons j' js =>
        rw [elementChars_cons, hcs]
        exact ⟨_, rfl⟩
    rw [begins, List.cons_append] at read ⊢
    simp only [skipSpace_cons space]
    split
    · next heq => exact absurd (List.cons.inj heq).1 bracket
    · rw [read]
      rfl

theorem reads_object {ms : Members} (reads : ∀ m ∈ ms.toList, m.2.Reads) : (object ms).Reads := by
  have shape : (object ms).chars = '\x7b' :: (memberChars ms ++ ['\x7d']) := rfl
  refine .of_behind shape rfl (by decide) fun {fuel rest} enough _ => ?_
  rw [List.length_append, List.length_singleton] at enough
  rw [List.append_assoc, List.singleton_append, readValue, skipSpace_cons rfl]
  cases ms with
  | nil => rfl
  | cons key j ms =>
    have read := readMembers_memberChars rest (.cons key j ms) nofun reads fuel (by omega)
    obtain ⟨cs, begins⟩ : ∃ cs, memberChars (.cons key j ms) = '"' :: cs := by
      cases ms <;> exact ⟨_, rfl⟩
    rw [begins, List.cons_append] at read ⊢
    simp only [skipSpace_cons (show isSpace '"' = false from rfl)]
    split
    · next heq => exact absurd (List.cons.inj heq).1 (by decide)
    · simp only [read, Option.map_some, objectOf_map]

mutual

theorem reads_of_plain : ∀ {j : Json}, j.plain = true → j.Reads
  | .null, _ => reads_null
  | .bool b, _ => reads_bool b
  | .int _, h => reads_int (of_decide_eq_true h)
  | .fraction _, h => absurd h Bool.false_ne_true
  | .string s, _ => reads_string s
  | .array _, h => reads_array (reads_of_allPlain h)
  | .object _, h => reads_object (reads_of_membersPlain h)
  | .unreadable, h => absurd h Bool.false_ne_true

theorem reads_of_allPlain : ∀ {js : List Json}, allPlain js = true → ∀ j ∈ js, j.Reads
  | [], _ => nofun
  | j :: js, h => by
    obtain ⟨first, later⟩ := Bool.and_eq_true_iff.1 h
    exact List.forall_mem_cons.2 ⟨reads_of_plain first, reads_of_allPlain later⟩

theorem reads_of_membersPlain : ∀ {ms : Members}, membersPlain ms = true →
    ∀ m ∈ ms.toList, m.2.Reads
  | .nil, _ => nofun
  | .cons key j ms, h => by
    obtain ⟨first, later⟩ := Bool.and_eq_true_iff.1 h
    exact List.forall_mem_cons.2 ⟨reads_of_plain first, reads_of_membersPlain later⟩

end

/-- A plain document is read back from its text. -/
theorem ofString?_text {j : Json} (h : j.plain = true) : ofString? j.text = some j := by
  have read := (reads_of_plain h).read (2 * j.chars.length + 2) [] (by omega) (by rintro c ⟨⟩)
  unfold ofString? text
  rw [String.toList_ofList]
  rw [List.append_nil] at read
  rw [read]
  rfl

/-! ### Line breaks -/

theorem lineBreak_not_mem_quoted (s : String) : '\n' ∉ quoted s := by
  simp only [quoted, List.cons_append, List.mem_cons, List.mem_append, List.mem_flatMap,
    List.not_mem_nil, or_false]
  rintro (h | ⟨c, -, hc⟩ | h)
  · exact absurd h (by decide)
  · exact (escapeChar_spec c []).2.1 hc
  · exact absurd h (by decide)

mutual

/-- No line is broken inside a plain document. -/
theorem lineBreak_not_mem_chars : ∀ {j : Json}, j.plain = true → '\n' ∉ j.chars
  | .null, _ => by decide
  | .bool true, _ => by decide
  | .bool false, _ => by decide
  | .int n, _ => by
    obtain ⟨-, digits, -⟩ := Decimal.toDigits_spec n.natAbs
    rw [chars, toList_toString, List.mem_append]
    rintro (sign | digit)
    · split at sign <;> simp at sign
    · exact absurd (digits _ digit) (by decide)
  | .fraction _, h => absurd h Bool.false_ne_true
  | .string s, _ => lineBreak_not_mem_quoted s
  | .array js, h => by
    have inside := lineBreak_not_mem_elementChars js h
    simp [chars, inside]
  | .object ms, h => by
    have inside := lineBreak_not_mem_memberChars ms h
    simp [chars, inside]
  | .unreadable, h => absurd h Bool.false_ne_true

theorem lineBreak_not_mem_elementChars : ∀ js : List Json, allPlain js = true →
    '\n' ∉ elementChars js
  | [], _ => List.not_mem_nil
  | [j], h => lineBreak_not_mem_chars (Bool.and_eq_true_iff.1 h).1
  | j :: j' :: js, h => by
    obtain ⟨first, later⟩ := Bool.and_eq_true_iff.1 h
    have here := lineBreak_not_mem_chars first
    have there := lineBreak_not_mem_elementChars (j' :: js) later
    simp [elementChars_cons, here, there]

theorem lineBreak_not_mem_memberChars : ∀ ms : Members, membersPlain ms = true →
    '\n' ∉ memberChars ms
  | .nil, _ => List.not_mem_nil
  | .cons key j .nil, h => by
    have here := lineBreak_not_mem_chars (Bool.and_eq_true_iff.1 h).1
    simp [memberChars, lineBreak_not_mem_quoted, here]
  | .cons key j (.cons key' j' ms), h => by
    obtain ⟨first, later⟩ := Bool.and_eq_true_iff.1 h
    have here := lineBreak_not_mem_chars first
    have there := lineBreak_not_mem_memberChars (.cons key' j' ms) later
    simp [memberChars, lineBreak_not_mem_quoted, here, there]

end

theorem lineBreak_not_mem_text {j : Json} (h : j.plain = true) : '\n' ∉ j.text.toList := by
  unfold text
  rw [String.toList_ofList]
  exact lineBreak_not_mem_chars h

end Json

end ScriptLang.Wire
