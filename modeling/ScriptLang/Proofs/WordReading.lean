import Mathlib.Data.List.Forall2
import Mathlib.Data.List.TakeWhile
import ScriptLang.Proofs.Rendering

/-!
# Reading words

A word is read as the token that it spells, whatever comes behind the blank after it
(`Word.Legal.scan_eq`), and blanks are read as nothing.  So the tokens of a text of words with
blanks between them are the tokens of the words, and nothing is wrong with it (`drain_of_spaced`).
-/

namespace ScriptLang

open Text

/-! ### Classes of characters -/

namespace Text

/-- What holds of the first 128 code points holds of every ASCII character. -/
theorem of_ascii {p : Char → Prop} (h : ∀ n < 128, p (Char.ofNat n)) {c : Char}
    (hc : c.toNat < 128) : p c := by
  have hp := h c.toNat hc
  rwa [Char.ofNat_toNat] at hp

theorem not_inRanges_of_disjoint {rs ss : List (Nat × Nat)}
    (h : ∀ r ∈ rs, ∀ s ∈ ss, r.2 < s.1 ∨ s.2 < r.1) {c : Char} (hc : inRanges rs c = true) :
    inRanges ss c = false := by
  obtain ⟨r, hr, hin⟩ := List.any_eq_true.1 hc
  refine List.any_eq_false.2 fun s hs => ?_
  simp only [Bool.and_eq_true, decide_eq_true_eq] at hin ⊢
  have := h r hr s hs
  omega

theorem isDigit_of_not_ascii {c : Char} (hc : ¬ c.toNat < 128) : c.isDigit = false := by
  rw [← Bool.not_eq_true, Char.isDigit, Bool.and_eq_true, decide_eq_true_eq, decide_eq_true_eq]
  rintro ⟨_, hle⟩
  exact hc (Nat.lt_of_le_of_lt (UInt32.le_iff_toNat_le.1 hle) (by decide))

theorem isHexDigit_of_not_ascii {c : Char} (hc : ¬ c.toNat < 128) : isHexDigit c = false := by
  rw [isHexDigit, isDigit_of_not_ascii hc, Bool.false_or, ← Bool.not_eq_true]
  simp only [Bool.or_eq_true, Bool.and_eq_true, decide_eq_true_eq]
  rintro (⟨_, hle⟩ | ⟨_, hle⟩) <;>
    exact hc (Nat.lt_of_le_of_lt (UInt32.le_iff_toNat_le.1 hle) (by decide))

/-- Blanks are in no word and no number. -/
theorem classes_of_isBlank {c : Char} (h : isBlank c = true) :
    isWordChar c = false ∧ c.isDigit = false ∧ isHexDigit c = false := by
  by_cases hc : c.toNat < 128
  · revert h
    exact of_ascii (p := fun c => isBlank c = true →
      isWordChar c = false ∧ c.isDigit = false ∧ isHexDigit c = false) (by decide) hc
  · rw [isBlank, if_neg hc] at h
    have hletter : inRanges alphabeticRanges c = false :=
      not_inRanges_of_disjoint (by decide +kernel) h
    have hnumeric : inRanges numericRanges c = false :=
      not_inRanges_of_disjoint (by decide +kernel) h
    refine ⟨?_, isDigit_of_not_ascii hc, isHexDigit_of_not_ascii hc⟩
    have hunderscore : (c == '_') = false := by
      rw [beq_eq_false_iff_ne]
      rintro rfl
      exact hc (by decide)
    rw [isWordChar, isLetter, isNumeric, if_neg hc, if_neg hc, hletter, hnumeric, hunderscore]
    rfl

/-- What begins a word begins nothing else. -/
theorem classes_of_isWordStart {c : Char} (h : isWordStart c = true) :
    isBlank c = false ∧ c ≠ '$' ∧ c.isDigit = false ∧ isQuote c = false ∧ c ≠ '/' := by
  by_cases hc : c.toNat < 128
  · revert h
    exact of_ascii (p := fun c => isWordStart c = true →
      isBlank c = false ∧ c ≠ '$' ∧ c.isDigit = false ∧ isQuote c = false ∧ c ≠ '/')
      (by decide) hc
  · have hblank : isBlank c = false := by
      cases hb : isBlank c with
      | false => rfl
      | true =>
        have hword := isWordChar_of_isWordStart h
        rw [(classes_of_isBlank hb).1] at hword
        cases hword
    refine ⟨hblank, ?_, isDigit_of_not_ascii hc, ?_, ?_⟩
    · rintro rfl
      exact hc (by decide)
    · rw [← Bool.not_eq_true, isQuote]
      simp only [Bool.or_eq_true, beq_iff_eq]
      rintro ((rfl | rfl) | rfl) <;> exact hc (by decide)
    · rintro rfl
      exact hc (by decide)

theorem classes_of_isDigit {c : Char} (h : c.isDigit = true) :
    isBlank c = false ∧ c ≠ '$' ∧ c ≠ '/' := by
  by_cases hc : c.toNat < 128
  · revert h
    exact of_ascii (p := fun c => c.isDigit = true → isBlank c = false ∧ c ≠ '$' ∧ c ≠ '/')
      (by decide) hc
  · rw [isDigit_of_not_ascii hc] at h
    cases h

end Text

namespace Lexeme

open Syntax (Word Separated StringPiece)

/-! ### Up to a blank -/

theorem separated_nil : Separated [] := nofun

/-- Characters of a class that blanks are not in are taken up to the blank. -/
theorem takeWhile_of_separated {p : Char → Bool} {cs rest : List Char} (h : ∀ c ∈ cs, p c = true)
    (blank : ∀ c, isBlank c = true → p c = false) (apart : Separated rest) :
    (cs ++ rest).takeWhile p = cs ∧ (cs ++ rest).dropWhile p = rest := by
  rw [List.takeWhile_append_of_pos h, List.dropWhile_append_of_pos h]
  cases rest with
  | nil => exact ⟨List.append_nil cs, rfl⟩
  | cons b rest =>
    have hb : ¬ p b = true := by
      rw [blank b (apart b rfl)]
      exact Bool.false_ne_true
    rw [List.takeWhile_cons_of_neg hb, List.dropWhile_cons_of_neg hb, List.append_nil]
    exact ⟨rfl, rfl⟩

/-- No operator word reaches over a blank. -/
theorem isPrefixOf_of_separated {rest : List Char} (apart : Separated rest) :
    ∀ {w : List Char} (cs : List Char), (∀ c ∈ w, isBlank c = false) →
      w.isPrefixOf (cs ++ rest) = w.isPrefixOf cs
  | [], cs, _ => by rw [List.isPrefixOf_nil_left, List.isPrefixOf_nil_left]
  | a :: w, [], h => by
    cases rest with
    | nil => rfl
    | cons b rest =>
      have hne : (a == b) = false := by
        rw [beq_eq_false_iff_ne]
        rintro rfl
        have hb := apart a rfl
        rw [h a List.mem_cons_self] at hb
        cases hb
      rw [List.nil_append, List.isPrefixOf_cons_cons, hne]
      rfl
  | a :: w, c :: cs, h => by
    rw [List.cons_append, List.isPrefixOf_cons_cons, List.isPrefixOf_cons_cons,
      isPrefixOf_of_separated apart cs fun x hx => h x (List.mem_cons_of_mem a hx)]

theorem longestOperator_of_separated {rest : List Char} (apart : Separated rest) (cs : List Char) :
    ∀ (words : List String) (code : Nat) (found : Option (Nat × List Char)),
      (∀ w ∈ words, ∀ c ∈ w.toList, isBlank c = false) →
        longestOperator (cs ++ rest) code found words = longestOperator cs code found words
  | [], _, _, _ => rfl
  | w :: words, code, found, h => by
    rw [longestOperator, longestOperator,
      isPrefixOf_of_separated apart cs (h w List.mem_cons_self)]
    exact longestOperator_of_separated apart cs words (code + 1) _
      fun w' hw' => h w' (List.mem_cons_of_mem w hw')

/-- Keywords are written without blanks. -/
theorem keywords_without_blanks :
    ∀ w ∈ Profile.language.keywords, ∀ c ∈ w.toList, isBlank c = false := by
  have checked :
      (Profile.language.keywords.all fun w => w.toList.all fun c => !isBlank c) = true := by
    decide
  simp only [List.all_eq_true, Bool.not_eq_true'] at checked
  exact checked

/-! ### One word -/

/-- What begins neither a line nor a comment. -/
theorem scan_eq_scanOther {p : Profile} {c : Char} {cs : List Char} (blank : isBlank c = false)
    (comment : c = '/' → cs.head? ≠ some '/' ∧ cs.head? ≠ some '*') :
    scan p c cs = scanOther p c cs := by
  unfold scan
  split
  · exact absurd blank (by decide)
  · exact absurd blank (by decide)
  · exact absurd rfl (comment rfl).1
  · exact absurd rfl (comment rfl).2
  · rfl

/-- A sign that is no part of a word, a number or a string. -/
def IsSign (c : Char) : Prop :=
  isBlank c = false ∧ c ≠ '$' ∧ c.isDigit = false ∧ isQuote c = false ∧ isWordStart c = false

instance : DecidablePred IsSign := fun _ => instDecidableAnd

theorem scan_of_isSign {c : Char} {cs rest : List Char} (h : IsSign c) (apart : Separated rest)
    (comment : c = '/' → cs.head? ≠ some '/' ∧ cs.head? ≠ some '*') :
    scan .language c (cs ++ rest) = scanOperator .language c cs := by
  obtain ⟨hblank, htrigger, hdigit, hquote, hword⟩ := h
  have behind : c = '/' → (cs ++ rest).head? ≠ some '/' ∧ (cs ++ rest).head? ≠ some '*' := by
    intro hc
    cases cs with
    | cons d ds => exact comment hc
    | nil =>
      rw [List.nil_append]
      constructor <;>
      · intro hhead
        exact absurd (apart _ hhead) (by decide)
  have trigger : ¬ Profile.language.trigger = some c := fun he => htrigger (Option.some.inj he).symm
  rw [scan_eq_scanOther hblank behind, scanOther, hblank, if_neg Bool.false_ne_true,
    if_neg trigger, hdigit, if_neg Bool.false_ne_true, hquote, if_neg Bool.false_ne_true, hword,
    if_neg Bool.false_ne_true, scanOperator, scanOperator, ← List.cons_append,
    longestOperator_of_separated apart (c :: cs) _ 0 none keywords_without_blanks]

theorem scan_symbol {c : Char} (h : c ∈ Word.signs) {rest : List Char} (apart : Separated rest) :
    scan .language c rest = (Word.symbol c).lexeme := by
  have checked : (Word.signs.all fun c => decide (IsSign c ∧
      longestOperator [c] 0 none Profile.language.keywords = none)) = true := by
    decide
  obtain ⟨sign, alone⟩ := of_decide_eq_true (List.all_eq_true.1 checked c h)
  have scanned : scan .language c ([] ++ rest) = scanOperator .language c [] :=
    scan_of_isSign sign apart fun _ => ⟨nofun, nofun⟩
  rw [List.nil_append] at scanned
  rw [scanned, scanOperator, alone]
  rfl

theorem scan_word {c : Char} {cs rest : List Char} (start : isWordStart c = true)
    (inside : ∀ d ∈ cs, isWordChar d = true) (apart : Separated rest) :
    scan .language c (cs ++ rest) =
      match Profile.language.keywordCode? (String.ofList (c :: cs)) with
      | some code => plain .keyword code (c :: cs)
      | none => plain .identifier 0 (c :: cs) := by
  obtain ⟨hblank, htrigger, hdigit, hquote, hslash⟩ := classes_of_isWordStart start
  have trigger : ¬ Profile.language.trigger = some c := fun he => htrigger (Option.some.inj he).symm
  have taken := (takeWhile_of_separated inside (fun c hc => (classes_of_isBlank hc).1) apart).1
  rw [scan_eq_scanOther hblank fun he => absurd he hslash, scanOther, hblank,
    if_neg Bool.false_ne_true, if_neg trigger, hdigit, if_neg Bool.false_ne_true, hquote,
    if_neg Bool.false_ne_true, if_pos start]
  exact congrArg (fun word => match Profile.language.keywordCode? (String.ofList (c :: word)) with
    | some code => plain .keyword code (c :: word)
    | none => plain .identifier 0 (c :: word)) taken

/-- Every keyword is a word, or it is written in signs and no longer operator begins with it. -/
theorem keyword_shape (k : Keyword) : ∃ c cs, k.text.toList = c :: cs ∧
    ((isWordStart c = true ∧ cs.all isWordChar = true ∧
        Profile.language.keywordCode? (String.ofList (c :: cs)) = some k.code) ∨
      (IsSign c ∧ (c = '/' → cs.head? ≠ some '/' ∧ cs.head? ≠ some '*') ∧
        longestOperator (c :: cs) 0 none Profile.language.keywords = some (k.code, c :: cs))) := by
  cases k <;> refine ⟨_, _, rfl, ?_⟩ <;> decide

theorem scan_keyword {k : Keyword} {c : Char} {cs rest : List Char} (h : k.text.toList = c :: cs)
    (apart : Separated rest) :
    scan .language c (cs ++ rest) = (Word.keyword k).lexeme := by
  obtain ⟨c', cs', h', ⟨start, inside, code⟩ | ⟨sign, comment, longest⟩⟩ := keyword_shape k
  all_goals
    rw [h] at h'
    obtain ⟨rfl, rfl⟩ := List.cons.inj h'
    rw [Word.lexeme, h]
  · rw [scan_word start (List.all_eq_true.1 inside) apart, code]
  · rw [scan_of_isSign sign apart comment, scanOperator, longest]

theorem scan_digit {c : Char} {cs : List Char} (h : c.isDigit = true) :
    scan .language c cs = scanNumber c cs := by
  obtain ⟨hblank, htrigger, hslash⟩ := classes_of_isDigit h
  have trigger : ¬ Profile.language.trigger = some c := fun he => htrigger (Option.some.inj he).symm
  rw [scan_eq_scanOther hblank fun he => absurd he hslash, scanOther, hblank,
    if_neg Bool.false_ne_true, if_neg trigger, if_pos h]

/-! ### Numbers -/

theorem scanNumber_eq_scanDecimal {c : Char} {cs : List Char}
    (h : ∀ m ∈ cs.head?, m ≠ 'x' ∧ m ≠ 'X' ∧ m ≠ 'b' ∧ m ≠ 'B') :
    scanNumber c cs = scanDecimal c cs := by
  unfold scanNumber
  split
  · rename_i m rest
    obtain ⟨hx, hX, hb, hB⟩ := h m rfl
    rw [if_neg (not_or_intro hx hX), if_neg (not_or_intro hb hB)]
  · rfl

/-- Neither digits nor blanks nor a point make a mark of a zero before them. -/
theorem unmarked {m : Char} (h : m.isDigit = true ∨ isBlank m = true ∨ m = '.') :
    m ≠ 'x' ∧ m ≠ 'X' ∧ m ≠ 'b' ∧ m ≠ 'B' := by
  refine ⟨?_, ?_, ?_, ?_⟩ <;>
  · rintro rfl
    revert h
    decide

theorem scan_integer {d : Char} {ds rest : List Char} (digits : ∀ x ∈ d :: ds, x.isDigit = true)
    (apart : Separated rest) :
    scan .language d (ds ++ rest) = (Word.number .integer [] (d :: ds)).lexeme := by
  obtain ⟨hd, hds⟩ := List.forall_mem_cons.1 digits
  have unmarked_next : ∀ m ∈ (ds ++ rest).head?, m ≠ 'x' ∧ m ≠ 'X' ∧ m ≠ 'b' ∧ m ≠ 'B' := by
    intro m hm
    cases ds with
    | nil => exact unmarked (.inr (.inl (apart m hm)))
    | cons x xs =>
      rw [List.cons_append, List.head?_cons, Option.mem_some_iff] at hm
      exact unmarked (.inl (hm ▸ hds x List.mem_cons_self))
  obtain ⟨taken, dropped⟩ :=
    takeWhile_of_separated hds (fun c hc => (classes_of_isBlank hc).2.1) apart
  rw [scan_digit hd, scanNumber_eq_scanDecimal unmarked_next, scanDecimal, taken, dropped]
  split
  · exact absurd (apart '.' rfl) (by decide)
  · rw [plain, Word.lexeme, byteLength_nil, Nat.zero_add]

theorem scan_decimal {d f : Char} {ds fs rest : List Char}
    (whole : ∀ x ∈ d :: ds, x.isDigit = true) (fraction : ∀ x ∈ f :: fs, x.isDigit = true)
    (apart : Separated rest) :
    scan .language d (ds ++ '.' :: f :: (fs ++ rest)) =
      (Word.number .decimal [] (d :: ds ++ '.' :: f :: fs)).lexeme := by
  obtain ⟨hd, hds⟩ := List.forall_mem_cons.1 whole
  obtain ⟨hf, hfs⟩ := List.forall_mem_cons.1 fraction
  have unmarked_next : ∀ m ∈ (ds ++ '.' :: f :: (fs ++ rest)).head?,
      m ≠ 'x' ∧ m ≠ 'X' ∧ m ≠ 'b' ∧ m ≠ 'B' := by
    intro m hm
    cases ds with
    | nil => exact unmarked (.inr (.inr (Option.some.inj hm).symm))
    | cons x xs =>
      rw [List.cons_append, List.head?_cons, Option.mem_some_iff] at hm
      exact unmarked (.inl (hm ▸ hds x List.mem_cons_self))
  have point : ¬ Char.isDigit '.' = true := by decide
  have taken := (takeWhile_of_separated hfs (fun c hc => (classes_of_isBlank hc).2.1) apart).1
  rw [scan_digit hd, scanNumber_eq_scanDecimal unmarked_next, scanDecimal,
    List.takeWhile_append_of_pos hds, List.dropWhile_append_of_pos hds,
    List.takeWhile_cons_of_neg point, List.dropWhile_cons_of_neg point, List.append_nil]
  change (if f.isDigit = true then _ else _) = _
  rw [if_pos hf, taken, plain, Word.lexeme, byteLength_nil, Nat.zero_add]

theorem scan_radix {form : Notation} {m d : Char} {ds rest : List Char} {p : Char → Bool}
    (mark : ∀ cs, scanNumber '0' (m :: cs) = scanRadix form ['0', m] (cs.takeWhile p))
    (digits : ∀ x ∈ d :: ds, p x = true) (blank : ∀ c, isBlank c = true → p c = false)
    (apart : Separated rest) :
    scan .language '0' (m :: (d :: ds ++ rest)) = (Word.number form ['0', m] (d :: ds)).lexeme := by
  rw [scan_digit rfl, mark, (takeWhile_of_separated digits blank apart).1]
  rfl

/-! ### Strings -/

/-- Behind pieces of its inside, a string is read as if it began there. -/
theorem scanInside_append {quote : Char} (mark : isQuote quote = true) (rest : List Char) :
    ∀ {pieces : List StringPiece}, (∀ p ∈ pieces, p.Fits quote) →
      scanInside quote (pieces.flatMap StringPiece.spelling ++ rest) =
        (pieces.map StringPiece.meaning ++ (scanInside quote rest).1,
          byteLength (pieces.flatMap StringPiece.spelling) + (scanInside quote rest).2.1,
          (scanInside quote rest).2.2)
  | [], _ => by
    rw [List.flatMap_nil, List.nil_append, List.map_nil, List.nil_append, byteLength_nil,
      Nat.zero_add]
  | .plain c :: ps, h => by
    obtain ⟨⟨hquote, hslash⟩, hps⟩ := List.forall_mem_cons.1 h
    rw [List.flatMap_cons, StringPiece.spelling, List.cons_append, List.nil_append,
      List.cons_append, scanInside.eq_def]
    dsimp only
    rw [if_neg hquote, if_neg hslash, scanInside_append mark rest hps, byteLength_cons,
      Nat.add_assoc]
    rfl
  | .escaped c :: ps, h => by
    have hps := (List.forall_mem_cons.1 h).2
    have hquote : ¬ '\\' = quote := by
      rintro rfl
      cases mark
    rw [List.flatMap_cons, StringPiece.spelling, List.cons_append, List.singleton_append,
      List.cons_append, List.cons_append, scanInside.eq_def]
    dsimp only
    rw [if_neg hquote, if_pos rfl, scanInside_append mark rest hps, byteLength_cons,
      byteLength_cons, Nat.add_assoc, Nat.add_assoc, Nat.add_assoc]
    rfl

theorem scanInside_of_pieces {quote : Char} (mark : isQuote quote = true) (rest : List Char)
    {pieces : List StringPiece} (fits : ∀ p ∈ pieces, p.Fits quote) :
    scanInside quote (pieces.flatMap StringPiece.spelling ++ quote :: rest) =
      (pieces.map StringPiece.meaning,
        byteLength (pieces.flatMap StringPiece.spelling) + quote.utf8Size, true) := by
  have closed : scanInside quote (quote :: rest) = ([], quote.utf8Size, true) := by
    rw [scanInside.eq_def]
    exact if_pos rfl
  rw [scanInside_append mark _ fits, closed, List.append_nil]

theorem classes_of_isQuote {c : Char} (h : isQuote c = true) :
    isBlank c = false ∧ c ≠ '$' ∧ c.isDigit = false ∧ c ≠ '/' := by
  simp only [isQuote, Bool.or_eq_true, beq_iff_eq] at h
  rcases h with (rfl | rfl) | rfl <;> decide

/-- What begins with a quote is a string, unless directives begin with that quote. -/
theorem scan_of_isQuote {p : Profile} {quote : Char} (mark : isQuote quote = true)
    (trigger : p.trigger ≠ some quote) (cs : List Char) : scan p quote cs = scanString quote cs := by
  obtain ⟨hblank, -, hdigit, hslash⟩ := classes_of_isQuote mark
  rw [scan_eq_scanOther hblank fun he => absurd he hslash, scanOther, hblank,
    if_neg Bool.false_ne_true, if_neg trigger, hdigit, if_neg Bool.false_ne_true, if_pos mark]

theorem scan_string {quote : Char} {pieces : List StringPiece} (mark : isQuote quote = true)
    (fits : ∀ p ∈ pieces, p.Fits quote) (rest : List Char) :
    scan .language quote (pieces.flatMap StringPiece.spelling ++ quote :: rest) =
      (Word.string quote pieces).lexeme := by
  have trigger : ¬ Profile.language.trigger = some quote :=
    fun he => (classes_of_isQuote mark).2.1 (Option.some.inj he).symm
  rw [scan_of_isQuote mark trigger, scanString, scanInside_of_pieces mark rest fits, Word.lexeme,
    Word.spelling, List.cons_append, byteLength_cons, byteLength_append, byteLength_cons,
    byteLength_nil, Nat.add_zero]

end Lexeme

namespace Syntax

open Lexeme

/-- A word is read as its lexeme, up to the blank behind it. -/
theorem Word.Legal.scan_eq {w : Word} (h : w.Legal) : ∃ c cs, w.spelling = c :: cs ∧
    ∀ rest, Separated rest → Lexeme.scan .language c (cs ++ rest) = w.lexeme := by
  cases h with
  | symbol sign => exact ⟨_, _, rfl, fun rest apart => scan_symbol sign apart⟩
  | keyword k =>
    obtain ⟨c, cs, hk, _⟩ := keyword_shape k
    exact ⟨c, cs, hk, fun rest apart => scan_keyword hk apart⟩
  | name start inside free =>
    refine ⟨_, _, rfl, fun rest apart => ?_⟩
    rw [scan_word start inside apart, free]
    rfl
  | integer digits => exact ⟨_, _, rfl, fun rest apart => scan_integer digits apart⟩
  | hex mark digits =>
    refine ⟨_, _, rfl, fun rest apart => ?_⟩
    exact scan_radix (fun cs => if_pos mark) digits (fun c hc => (classes_of_isBlank hc).2.2) apart
  | binary mark digits =>
    refine ⟨_, _, rfl, fun rest apart => ?_⟩
    refine scan_radix (p := fun d => d == '0' || d == '1') (fun cs => ?_) (fun x hx => ?_) ?_ apart
    · rcases mark with rfl | rfl <;> rfl
    · rcases digits x hx with rfl | rfl <;> rfl
    · rintro c hc
      cases h : c == '0' || c == '1' with
      | false => rfl
      | true =>
        rw [Bool.or_eq_true, beq_iff_eq, beq_iff_eq] at h
        rcases h with rfl | rfl <;> exact absurd hc (by decide)
  | decimal whole fraction =>
    refine ⟨_, _, rfl, fun rest apart => ?_⟩
    have joined := scan_decimal whole fraction apart
    rwa [← List.cons_append, ← List.cons_append, ← List.append_assoc] at joined
  | string mark fits =>
    refine ⟨_, _, rfl, fun rest apart => ?_⟩
    have joined := scan_string mark fits rest
    rwa [← List.singleton_append, ← List.append_assoc] at joined

/-- A word covers what it is spelled with. -/
theorem Word.lexeme_width (w : Word) : w.lexeme.width = byteLength w.spelling := by
  cases w with
  | number form mark digits => exact (byteLength_append mark digits).symm
  | _ => rfl

/-- Words are no trivia, and nothing is wrong with them. -/
theorem Word.lexeme_kind (w : Word) : w.lexeme.kind.isTrivia = false ∧
    w.lexeme.kind ≠ .endOfFile ∧ w.lexeme.kind ≠ .unknown ∧ w.lexeme.terminated = true := by
  cases w <;> exact ⟨rfl, nofun, nofun, rfl⟩

theorem Word.Legal.spelling_head {w : Word} (h : w.Legal) :
    ∃ c cs, w.spelling = c :: cs ∧ isBlank c = false := by
  obtain ⟨c, cs, hw, hscan⟩ := h.scan_eq
  refine ⟨c, cs, hw, ?_⟩
  cases hb : isBlank c with
  | false => rfl
  | true =>
    have trivia : (Lexeme.scan .language c (cs ++ [])).kind.isTrivia = true := by
      unfold Lexeme.scan
      split
      · rfl
      · rfl
      · exact absurd hb (by decide)
      · exact absurd hb (by decide)
      · rw [scanOther, if_pos hb, scanBlanks]
        split <;> rfl
    rw [hscan [] separated_nil, w.lexeme_kind.1] at trivia
    cases trivia

end Syntax

/-! ### Texts -/

namespace Lexer

open Syntax

/-- The lexer of the language before what is left of a text. -/
def before (f : Frame) : Lexer := { profile := .language, top := f }

/-- The token that a lexeme makes at a place. -/
def tokenAt (start : Location) (l : Lexeme) : Token :=
  ⟨l.kind, l.code, l.text, start, l.width, l.terminated⟩

theorem nextRaw_before {c : Char} {cs : List Char} {l : Lexeme} (start : Location)
    (h : Lexeme.scan .language c cs = l) (hdirective : l.kind ≠ .directive)
    (hunknown : l.kind ≠ .unknown) :
    (before ⟨c :: cs, start⟩).nextRaw =
      (tokenAt start l, before ((Frame.mk (c :: cs) start).advance l.width)) := by
  subst h
  change (before ⟨c :: cs, start⟩).scan = _
  simp only [scan, before, hdirective, hunknown, reduceIte]
  rfl

theorem keeps_default (k : TokenKind) : LexerOptions.keeps {} k = !k.isTrivia := by
  cases k <;> rfl

theorem drain_keep {f f' : Frame} {t : Token} (h : (before f).nextRaw = (t, before f'))
    (hkind : t.kind.isTrivia = false) (hend : t.kind ≠ .endOfFile) :
    (before f).drain.1 = (t, []) :: (before f').drain.1 := by
  rw [drain]
  split
  rename_i token lx hraw
  rw [h] at hraw
  obtain ⟨rfl, rfl⟩ := Prod.mk.inj hraw
  have kept : (before f).options.keeps t.kind = true := by
    change LexerOptions.keeps {} t.kind = true
    rw [keeps_default, hkind]
    rfl
  rw [dif_neg hend, if_pos kept]
  rfl

theorem drain_skip {f f' : Frame} {t : Token} (h : (before f).nextRaw = (t, before f'))
    (hkind : t.kind.isTrivia = true) : (before f).drain.1 = (before f').drain.1 := by
  rw [drain]
  split
  rename_i token lx hraw
  rw [h] at hraw
  obtain ⟨rfl, rfl⟩ := Prod.mk.inj hraw
  have hend : ¬ t.kind = .endOfFile := by
    intro he
    rw [he] at hkind
    cases hkind
  have skipped : ¬ (before f).options.keeps t.kind = true := by
    change ¬ LexerOptions.keeps {} t.kind = true
    rw [keeps_default, hkind]
    exact Bool.false_ne_true
  rw [dif_neg hend, if_neg skipped]

theorem drain_end (start : Location) :
    (before ⟨[], start⟩).drain.1 = [(.endOfFile start, [])] := by
  rw [drain]
  split
  rename_i token lx hraw
  have hraw' : (before ⟨[], start⟩).nextRaw = (.endOfFile start, before ⟨[], start⟩) := rfl
  rw [hraw'] at hraw
  obtain ⟨rfl, rfl⟩ := Prod.mk.inj hraw
  rfl

/-! ### Blanks -/

/-- The text is at its end or goes on with no blank. -/
def Solid (cs : List Char) : Prop := ∀ c ∈ cs.head?, isBlank c = false

theorem takeWhile_of_solid {q : Char → Bool} {rest : List Char}
    (hq : ∀ c, isBlank c = false → q c = false) (solid : Solid rest) :
    ∀ cs : List Char, (cs ++ rest).takeWhile q = cs.takeWhile q
  | [] => by
    cases rest with
    | nil => rfl
    | cons b rest =>
      have hb : ¬ q b = true := by
        rw [hq b (solid b rfl)]
        exact Bool.false_ne_true
      rw [List.nil_append, List.takeWhile_cons_of_neg hb, List.takeWhile_nil]
  | c :: cs => by
    rw [List.cons_append, List.takeWhile_cons, List.takeWhile_cons, takeWhile_of_solid hq solid cs]

/-- What is read of blanks is trivia and covers some of them. -/
theorem scan_blanks {c : Char} {cs rest : List Char} (h : ∀ d ∈ c :: cs, isBlank d = true)
    (solid : Solid rest) : ∃ taken left, c :: cs = taken ++ left ∧ taken ≠ [] ∧
      (Lexeme.scan .language c (cs ++ rest)).width = byteLength taken ∧
      ((Lexeme.scan .language c (cs ++ rest)).kind = .whitespace ∨
        (Lexeme.scan .language c (cs ++ rest)).kind = .endOfLine) := by
  obtain ⟨hc, hcs⟩ := List.forall_mem_cons.1 h
  generalize htext : cs ++ rest = text
  unfold Lexeme.scan
  split
  · exact ⟨['\n'], cs, rfl, nofun, rfl, .inr rfl⟩
  · rename_i text'
    cases cs with
    | nil =>
      rw [List.nil_append] at htext
      rw [htext] at solid
      exact absurd (solid '\n' rfl) (by decide)
    | cons d ds =>
      obtain ⟨rfl, rfl⟩ := List.cons.inj htext
      exact ⟨['\r', '\n'], ds, rfl, nofun, rfl, .inr rfl⟩
  · exact absurd hc (by decide)
  · exact absurd hc (by decide)
  · rw [Lexeme.scanOther, if_pos hc, Lexeme.scanBlanks]
    split
    · exact ⟨[c], cs, rfl, nofun, rfl, .inl rfl⟩
    · subst htext
      refine ⟨c :: cs.takeWhile fun d => isBlank d && d != '\n' && d != '\r',
        cs.dropWhile fun d => isBlank d && d != '\n' && d != '\r', ?_, nofun, ?_, .inl rfl⟩
      · rw [List.cons_append, List.takeWhile_append_dropWhile]
      · rw [Lexeme.plain, takeWhile_of_solid (fun d hd => by rw [hd]; rfl) solid]

/-- A lexeme covers the text that it was read of. -/
theorem advance_of_append {taken left : List Char} {start : Location} :
    (Frame.mk (taken ++ left) start).advance (byteLength taken) =
      ⟨left, Frame.locationAfter start taken⟩ := by
  simp only [Frame.advance, Frame.read, splitBytes_byteLength]

/-- Blanks are read as nothing. -/
theorem drain_of_blanks {rest : List Char} (solid : Solid rest) : ∀ {n : Nat} {blanks : List Char},
    blanks.length ≤ n → (∀ c ∈ blanks, isBlank c = true) → ∀ start, ∃ start',
      (before ⟨blanks ++ rest, start⟩).drain.1 = (before ⟨rest, start'⟩).drain.1
  | _, [], _, _, start => ⟨start, rfl⟩
  | 0, c :: cs, hn, _, _ => absurd hn (Nat.not_succ_le_zero _)
  | n + 1, c :: cs, hn, h, start => by
    obtain ⟨taken, left, hsplit, htaken, hwidth, hkind⟩ := scan_blanks h solid
    have trivia : (Lexeme.scan .language c (cs ++ rest)).kind.isTrivia = true := by
      rcases hkind with hk | hk <;> rw [hk] <;> rfl
    have raw := nextRaw_before start (rfl : Lexeme.scan .language c (cs ++ rest) = _)
      (by rcases hkind with hk | hk <;> rw [hk] <;> nofun)
      (by rcases hkind with hk | hk <;> rw [hk] <;> nofun)
    rw [← List.cons_append, hsplit, List.append_assoc, hwidth, advance_of_append] at raw
    have hlength := congrArg List.length hsplit
    rw [List.length_cons, List.length_append] at hlength
    have hpos := List.length_pos_iff.2 htaken
    have later : ∀ c ∈ left, isBlank c = true := fun c hc =>
      h c (hsplit ▸ List.mem_append_right taken hc)
    rw [List.length_cons] at hn
    obtain ⟨start', hrest⟩ := drain_of_blanks solid (n := n) (by omega) later
      (Frame.locationAfter start taken)
    exact ⟨start', by rw [hsplit, List.append_assoc, drain_skip raw trivia, hrest]⟩

end Lexer

namespace Syntax

/-- The token is the one that a word spells. -/
structure Word.Spells (w : Word) (t : Token) : Prop where
  kind : t.kind = w.lexeme.kind
  code : t.code = w.lexeme.code
  text : t.text = w.lexeme.text
  terminated : t.terminated = true

theorem Word.spells_tokenAt (w : Word) (start : Location) :
    w.Spells (Lexer.tokenAt start w.lexeme) :=
  ⟨rfl, rfl, rfl, w.lexeme_kind.2.2.2⟩

end Syntax

namespace Lexer

open Syntax

/-- A word is read as its token where nothing longer is scanned. -/
theorem drain_of_scan {w : Word} {c : Char} {cs rest : List Char} (spelled : w.spelling = c :: cs)
    (scanned : Lexeme.scan .language c (cs ++ rest) = w.lexeme) (start : Location) :
    (before ⟨w.spelling ++ rest, start⟩).drain.1 =
      (tokenAt start w.lexeme, []) ::
        (before ⟨rest, Frame.locationAfter start w.spelling⟩).drain.1 := by
  obtain ⟨htrivia, hend, hunknown, _⟩ := w.lexeme_kind
  have hdirective : w.lexeme.kind ≠ .directive := by
    intro he
    rw [he] at htrivia
    cases htrivia
  have raw := nextRaw_before start scanned hdirective hunknown
  rw [← List.cons_append, ← spelled, w.lexeme_width, advance_of_append] at raw
  exact drain_keep raw htrivia hend

/-- A word before a blank is read as its token. -/
theorem drain_of_word {w : Word} (legal : w.Legal) {rest : List Char} (apart : Separated rest)
    (start : Location) : (before ⟨w.spelling ++ rest, start⟩).drain.1 =
      (tokenAt start w.lexeme, []) ::
        (before ⟨rest, Frame.locationAfter start w.spelling⟩).drain.1 := by
  obtain ⟨c, cs, hw, hscan⟩ := legal.scan_eq
  exact drain_of_scan hw (hscan rest apart) start

/-- A text of words is read as their tokens and an end of file, without errors. -/
theorem drain_of_spaced {ws : List Word} {text : List Char} (spaced : Spaced ws text)
    (legal : ∀ w ∈ ws, w.Legal) (start : Location) : ∃ ts last,
      (before ⟨text, start⟩).drain.1 = (ts ++ [last]).map (fun t => (t, [])) ∧
        List.Forall₂ Word.Spells ws ts ∧ last.kind = .endOfFile := by
  induction spaced generalizing start with
  | @nil blanks h =>
    have solid : Solid [] := nofun
    obtain ⟨start', hdrain⟩ := drain_of_blanks solid (Nat.le_refl _) h start
    rw [List.append_nil, drain_end] at hdrain
    exact ⟨[], .endOfFile start', hdrain, .nil, rfl⟩
  | @cons blanks rest w ws h apart tail ih =>
    obtain ⟨hw, hws⟩ := List.forall_mem_cons.1 legal
    obtain ⟨c, cs, hspelling, hblank⟩ := hw.spelling_head
    have solid : Solid (w.spelling ++ rest) := by
      intro d hd
      rw [hspelling, List.cons_append, List.head?_cons, Option.mem_some_iff] at hd
      exact hd ▸ hblank
    obtain ⟨start', hdrain⟩ := drain_of_blanks solid (Nat.le_refl _) h start
    obtain ⟨ts, last, hrest, spells, hlast⟩ := ih hws (Frame.locationAfter start' w.spelling)
    refine ⟨tokenAt start' w.lexeme :: ts, last, ?_, .cons (w.spells_tokenAt start') spells, hlast⟩
    rw [hdrain, drain_of_word hw apart, hrest]
    rfl

end Lexer

end ScriptLang
