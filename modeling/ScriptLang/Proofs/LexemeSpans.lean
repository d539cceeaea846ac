import ScriptLang.Proofs.IncludeExpansion

/-!
# Lexemes cover whole characters

A lexeme tells how many bytes it covers, and each scanner counts them in its own way: the escapes of
a string, the mark of a number, a comment without an end.  They all come to the bytes of some
characters that the text begins with (`Lexeme.spans_scan`), and so do the phases of an include
(`includeBlanks_spans`, `includeArgument_spans`).
-/

namespace ScriptLang

open Text

/-- The width is that of some characters at the front of the text. -/
def Spans (width : Nat) (cs : List Char) : Prop := ∃ front, front <+: cs ∧ width = byteLength front

theorem spans_of_initial {front cs : List Char} (h : front <+: cs) : Spans (byteLength front) cs :=
  ⟨front, h, rfl⟩

theorem Spans.cons {width : Nat} {cs : List Char} (h : Spans width cs) (c : Char) :
    Spans (c.utf8Size + width) (c :: cs) := by
  obtain ⟨front, initial, rfl⟩ := h
  exact ⟨c :: front, List.cons_prefix_cons.2 ⟨rfl, initial⟩, (byteLength_cons c front).symm⟩

theorem spans_zero (cs : List Char) : Spans 0 cs := ⟨[], List.nil_prefix, rfl⟩

theorem spans_takeWhile (p : Char → Bool) (cs : List Char) :
    Spans (byteLength (cs.takeWhile p)) cs :=
  spans_of_initial (List.takeWhile_prefix p)

theorem Spans.of_initial {width : Nat} {cs cs' : List Char} (h : Spans width cs)
    (initial : cs <+: cs') : Spans width cs' := by
  obtain ⟨front, inside, rfl⟩ := h
  exact ⟨front, inside.trans initial, rfl⟩

namespace Lexeme

variable {p : Profile}

theorem spans_plain {front cs : List Char} (h : front <+: cs) (kind : TokenKind) (code : Nat) :
    Spans (plain kind code front).width cs :=
  spans_of_initial h

theorem spans_plain_cons {front cs : List Char} (h : front <+: cs) (c : Char) (kind : TokenKind)
    (code : Nat) : Spans (plain kind code (c :: front)).width (c :: cs) :=
  spans_plain (List.cons_prefix_cons.2 ⟨rfl, h⟩) kind code

/-! ### Operators and directives -/

theorem longestOperator_initial {cs : List Char} : ∀ {words : List String} {code k : Nat}
    {found : Option (Nat × List Char)} {w : List Char}, (∀ f ∈ found, f.2 <+: cs) →
      longestOperator cs code found words = some (k, w) → w <+: cs := by
  intro words
  induction words with
  | nil =>
    intro _ k found w initial h
    exact initial (k, w) h
  | cons word words ih =>
    intro code k found w initial h
    refine ih ?_ h
    intro f better
    split at better
    · next longer =>
      obtain rfl := Option.some.inj better
      simp only [Bool.and_eq_true] at longer
      exact List.isPrefixOf_iff_prefix.1 longer.1.2
    · exact initial f better

theorem spans_scanOperator (c : Char) (cs : List Char) :
    Spans (scanOperator p c cs).width (c :: cs) := by
  unfold scanOperator
  split
  · next found => exact spans_plain (longestOperator_initial (by simp) found) _ _
  · exact spans_plain_cons List.nil_prefix c _ _

theorem spans_scanDirective (c : Char) (cs : List Char) :
    Spans (scanDirective p c cs).width (c :: cs) := by
  unfold scanDirective
  dsimp only
  split
  · split
    · exact spans_scanOperator c cs
    · rw [byteLength_cons]
      exact (spans_takeWhile isWordChar cs).cons c
  · exact spans_scanOperator c cs

/-! ### Numbers and strings -/

theorem spans_scanRadix (form : Notation) (c m : Char) {digits rest : List Char}
    (h : digits <+: rest) : Spans (scanRadix form [c, m] digits).width (c :: m :: rest) := by
  unfold scanRadix
  split
  · exact spans_plain_cons (List.cons_prefix_cons.2 ⟨rfl, List.nil_prefix⟩) c _ _
  · dsimp only
    rw [byteLength_cons, byteLength_cons, byteLength_nil, Nat.add_zero, Nat.add_assoc]
    exact ((spans_of_initial h).cons m).cons c

theorem spans_scanDecimal (c : Char) (cs : List Char) :
    Spans (scanDecimal c cs).width (c :: cs) := by
  have whole := List.takeWhile_append_dropWhile (p := Char.isDigit) (l := cs)
  unfold scanDecimal
  dsimp only
  split
  · next d rest point =>
    split
    · -- the digits, the point and the fraction, one behind the other
      have fraction :
          cs.takeWhile Char.isDigit ++ '.' :: d :: rest.takeWhile Char.isDigit <+: cs := by
        refine ⟨rest.dropWhile Char.isDigit, ?_⟩
        rw [List.append_assoc, List.cons_append, List.cons_append, List.takeWhile_append_dropWhile,
          ← point]
        exact whole
      exact spans_plain_cons fraction c _ _
    · exact spans_plain_cons (List.takeWhile_prefix _) c _ _
  · exact spans_plain_cons (List.takeWhile_prefix _) c _ _

theorem spans_scanNumber (c : Char) (cs : List Char) :
    Spans (scanNumber c cs).width (c :: cs) := by
  unfold scanNumber
  split
  · split
    · exact spans_scanRadix _ _ _ (List.takeWhile_prefix _)
    · split
      · exact spans_scanRadix _ _ _ (List.takeWhile_prefix _)
      · exact spans_scanDecimal _ _
  · exact spans_scanDecimal _ _

/-- The inside of a string is counted character by character, an escape as two. -/
theorem spans_scanInside (quote : Char) (cs : List Char) : Spans (scanInside quote cs).2.1 cs := by
  fun_induction scanInside quote cs with
  | case1 => exact spans_zero []
  | case2 cs => exact (spans_zero cs).cons quote
  | case3 => exact (spans_zero []).cons '\\'
  | case4 e cs inside width closed found h ih =>
    rw [found] at ih
    rw [Nat.add_assoc]
    exact (ih.cons e).cons '\\'
  | case5 c cs h h' inside width closed found ih =>
    rw [found] at ih
    exact ih.cons c

/-! ### Comments, blanks and words -/

theorem blockBody_append {cs body : List Char} (h : blockBody cs = some body) :
    body ++ ['*', '/'] <+: cs := by
  fun_induction blockBody cs generalizing body with
  | case1 cs =>
    obtain rfl := Option.some.inj h
    exact ⟨cs, rfl⟩
  | case2 c cs h' ih =>
    obtain ⟨inner, found, rfl⟩ := Option.map_eq_some_iff.1 h
    exact List.cons_prefix_cons.2 ⟨rfl, ih found⟩
  | case3 => cases h

theorem spans_scanBlockComment (cs : List Char) :
    Spans (scanBlockComment cs).width ('/' :: '*' :: cs) := by
  unfold scanBlockComment
  split
  · next body found =>
    have closed := ((spans_of_initial (blockBody_append found)).cons '*').cons '/'
    rw [byteLength_append] at closed
    have width : '/'.utf8Size + ('*'.utf8Size + (byteLength body + byteLength ['*', '/']))
        = byteLength body + 4 := by
      have star : byteLength ['*', '/'] = 2 := rfl
      have slash : '/'.utf8Size = 1 := rfl
      have star' : '*'.utf8Size = 1 := rfl
      omega
    rwa [width] at closed
  · have whole := ((spans_of_initial cs.prefix_rfl).cons '*').cons '/'
    rwa [← Nat.add_assoc] at whole

theorem spans_scanLineComment (cs : List Char) :
    Spans (scanLineComment cs).width ('/' :: '/' :: cs) := by
  have line := ((spans_takeWhile (· != '\n') cs).cons '/').cons '/'
  rwa [← Nat.add_assoc] at line

theorem spans_scanBlanks (c : Char) (cs : List Char) : Spans (scanBlanks c cs).width (c :: cs) := by
  unfold scanBlanks
  split
  · exact spans_plain_cons List.nil_prefix c _ _
  · exact spans_plain_cons (List.takeWhile_prefix _) c _ _

theorem spans_scanWord (c : Char) (cs : List Char) : Spans (scanWord p c cs).width (c :: cs) := by
  unfold scanWord
  dsimp only
  split <;> exact spans_plain_cons (List.takeWhile_prefix _) c _ _

theorem spans_scanOther (c : Char) (cs : List Char) : Spans (scanOther p c cs).width (c :: cs) := by
  unfold scanOther
  repeat' split
  · exact spans_scanBlanks c cs
  · exact spans_scanDirective c cs
  · exact spans_scanNumber c cs
  · exact (spans_scanInside c cs).cons c
  · exact spans_scanWord c cs
  · exact spans_scanOperator c cs

/-- Every lexeme covers whole characters of the text, from its beginning on. -/
theorem spans_scan (p : Profile) (c : Char) (cs : List Char) :
    Spans (scan p c cs).width (c :: cs) := by
  unfold scan
  split
  · exact spans_plain_cons List.nil_prefix '\n' _ _
  · next rest => exact ((spans_zero rest).cons '\n').cons '\r'
  · exact spans_scanLineComment _
  · exact spans_scanBlockComment _
  · exact spans_scanOther c cs

end Lexeme

/-! ### The phases of an include -/

theorem includeBlanks_spans {cs : List Char} {kind : TokenKind} {width : Nat}
    (h : includeBlanks cs = .produce kind width) : Spans width cs := by
  unfold includeBlanks at h
  dsimp only at h
  split at h
  · cases h
  · obtain ⟨-, rfl⟩ := DirectiveStep.produce.inj h
    exact spans_takeWhile _ cs

theorem takeWhile_ne_append {close : Char} : ∀ {cs : List Char}, close ∈ cs →
    cs.takeWhile (· != close) ++ [close] <+: cs
  | c :: cs, closes => by
    by_cases here : c = close
    · rw [List.takeWhile_cons_of_neg (by simp [here]), here]
      exact ⟨cs, rfl⟩
    · rw [List.takeWhile_cons_of_pos (by simp [here])]
      have later : close ∈ cs := (List.mem_cons.1 closes).resolve_left fun same => here same.symm
      exact List.cons_prefix_cons.2 ⟨rfl, takeWhile_ne_append later⟩

/-- A quoted word, with or without its end, behind an opening sign of one byte. -/
theorem spans_quotedWord {sign close : Char} (one : sign.utf8Size = 1) (one' : close.utf8Size = 1)
    (inside : List Char) : Spans (quotedWord close inside).1 (sign :: inside) := by
  unfold quotedWord
  dsimp only
  split
  · next closes =>
    have closed := (spans_of_initial (takeWhile_ne_append closes)).cons sign
    rw [byteLength_append, byteLength_cons, byteLength_nil, one, one'] at closed
    rwa [Nat.add_comm] at closed
  · have rest := (spans_of_initial inside.prefix_rfl).cons sign
    rwa [one, Nat.add_comm] at rest

/-- The word of an include, wrong or not, is on the line. -/
theorem spans_includeWord (cs : List Char) : Spans (includeWord cs).1 cs := by
  have line := cs.takeWhile_prefix (· != '\n')
  unfold includeWord
  split
  · next inside found => exact (spans_quotedWord rfl rfl inside).of_initial (found ▸ line)
  · next inside found => exact (spans_quotedWord rfl rfl inside).of_initial (found ▸ line)
  · exact spans_of_initial line

theorem includeArgument_spans {cs : List Char} :
    (∀ {width name}, includeArgument cs = .request width name → Spans width cs) ∧
      ∀ {width message}, includeArgument cs = .reject width message → Spans width cs := by
  have word := spans_includeWord cs
  rw [includeArgument_eq]
  generalize includeWord cs = found at word
  obtain ⟨width, name | message⟩ := found
  · exact ⟨nofun, fun h => (DirectiveStep.reject.inj h).1 ▸ word⟩
  · exact ⟨fun h => (DirectiveStep.request.inj h).1 ▸ word, nofun⟩

end ScriptLang
