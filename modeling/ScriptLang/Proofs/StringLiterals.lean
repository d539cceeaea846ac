import ScriptLang.Proofs.ReadingTurns
import ScriptLang.Proofs.WordReading

/-!
# Every string can be written

In writing, a backslash and the quote stand behind a backslash, and a control character may be the
letter for it behind one (`Lexeme.pieceOf`).  Between quotes every text is read back from its
writing, and nothing of what follows with it; without the closing quote the string goes on to the
end of the source (`Lexer.string_read_back`).
-/

namespace ScriptLang

open Text

namespace Lexeme

open Syntax (StringPiece)

/-! ### Strings in writing -/

/-- The letter for a control character. -/
def letter? : Char → Option Char
  | '\n' => some 'n'
  | '\t' => some 't'
  | '\r' => some 'r'
  | '\x00' => some '0'
  | _ => none

/-- A character in writing.  One that has a letter may be written by it (`short`) or as it is. -/
def pieceOf (quote : Char) (short : Bool) (c : Char) : StringPiece :=
  if c = '\\' ∨ c = quote then .escaped c
  else match letter? c, short with
    | some l, true => .escaped l
    | _, _ => .plain c

/-- The characters of a text in writing.  For each place, `short` says whether its character is
written by its letter. -/
def piecesOf (quote : Char) (short : Nat → Bool) : List Char → List StringPiece
  | [] => []
  | c :: cs => pieceOf quote (short 0) c :: piecesOf quote (fun i => short (i + 1)) cs

/-- A text in writing, without the quotes around it. -/
def escape (quote : Char) (short : Nat → Bool) (cs : List Char) : List Char :=
  (piecesOf quote short cs).flatMap StringPiece.spelling

variable {quote : Char} {short : Nat → Bool} {cs rest : List Char}

theorem unescape_quote (mark : isQuote quote = true) : unescape quote = quote := by
  simp only [isQuote, Bool.or_eq_true, beq_iff_eq] at mark
  rcases mark with (rfl | rfl) | rfl <;> rfl

theorem unescape_letter {c l : Char} (h : letter? c = some l) : unescape l = c := by
  unfold letter? at h
  split at h <;> cases h <;> rfl

theorem pieceOf_meaning (mark : isQuote quote = true) (short : Bool) (c : Char) :
    (pieceOf quote short c).meaning = c := by
  unfold pieceOf
  split
  · next special =>
    rcases special with rfl | rfl
    · rfl
    · exact unescape_quote mark
  · split
    · next l found => exact unescape_letter found
    · rfl

theorem pieceOf_fits (quote : Char) (short : Bool) (c : Char) :
    (pieceOf quote short c).Fits quote := by
  unfold pieceOf
  split
  · exact trivial
  · next plain =>
    obtain ⟨noBackslash, noQuote⟩ := not_or.1 plain
    split
    · exact trivial
    · exact ⟨noQuote, noBackslash⟩

theorem piecesOf_meaning (mark : isQuote quote = true) (short : Nat → Bool) (cs : List Char) :
    (piecesOf quote short cs).map StringPiece.meaning = cs := by
  induction cs generalizing short with
  | nil => rfl
  | cons c cs ih => rw [piecesOf, List.map_cons, pieceOf_meaning mark, ih]

theorem piecesOf_fits (quote : Char) (short : Nat → Bool) (cs : List Char) :
    ∀ p ∈ piecesOf quote short cs, p.Fits quote := by
  induction cs generalizing short with
  | nil => nofun
  | cons c cs ih => exact List.forall_mem_cons.2 ⟨pieceOf_fits quote _ c, ih _⟩

/-! ### Reading them -/

/-- What has no quote in it is all inside a string, and does not end it. -/
theorem scanInside_of_not_mem (h : quote ∉ cs) : (scanInside quote cs).2 = (byteLength cs, false) := by
  fun_induction scanInside quote cs with
  | case1 => rfl
  | case2 cs => exact absurd List.mem_cons_self h
  | case3 => rfl
  | case4 e cs inside width closed found _ ih =>
    have behind : quote ∉ cs := fun mem =>
      h (List.mem_cons_of_mem _ (List.mem_cons_of_mem _ mem))
    obtain ⟨rfl, rfl⟩ := Prod.mk.inj ((congrArg Prod.snd found).symm.trans (ih behind))
    rw [byteLength_cons, byteLength_cons, Nat.add_assoc]
  | case5 c cs _ _ inside width closed found ih =>
    have behind : quote ∉ cs := fun mem => h (List.mem_cons_of_mem _ mem)
    obtain ⟨rfl, rfl⟩ := Prod.mk.inj ((congrArg Prod.snd found).symm.trans (ih behind))
    rw [byteLength_cons]

/-- Behind a text in writing, a string is read as if it began there. -/
theorem scanString_escape (mark : isQuote quote = true) (short : Nat → Bool) (cs rest : List Char) :
    scanString quote (escape quote short cs ++ rest) =
      { kind := .quotedString, code := quote.toNat
        text := String.ofList (cs ++ (scanInside quote rest).1)
        width := byteLength (quote :: escape quote short cs) + (scanInside quote rest).2.1
        terminated := (scanInside quote rest).2.2 } := by
  rw [scanString, escape, scanInside_append mark rest (piecesOf_fits quote short cs),
    piecesOf_meaning mark, byteLength_cons, Nat.add_assoc]

theorem scanString_closed (mark : isQuote quote = true) (short : Nat → Bool) (cs rest : List Char) :
    scanString quote (escape quote short cs ++ quote :: rest) =
      { kind := .quotedString, code := quote.toNat, text := String.ofList cs
        width := byteLength (quote :: escape quote short cs ++ [quote]) } := by
  have closed : scanInside quote (quote :: rest) = ([], quote.utf8Size, true) := by
    rw [scanInside.eq_def]
    exact if_pos rfl
  rw [scanString_escape mark, closed, List.append_nil, byteLength_append, byteLength_cons quote [],
    byteLength_nil, Nat.add_zero]

theorem scanString_open (mark : isQuote quote = true) (short : Nat → Bool) (cs : List Char)
    (h : quote ∉ rest) : scanString quote (escape quote short cs ++ rest) =
      { kind := .quotedString, code := quote.toNat
        text := String.ofList (cs ++ (scanInside quote rest).1)
        width := byteLength (quote :: escape quote short cs ++ rest), terminated := false } := by
  rw [scanString_escape mark, scanInside_of_not_mem h, byteLength_append]

end Lexeme

namespace Lexer

open Lexeme

variable {lx : Lexer} {quote : Char}

/-- A string where a lexeme is due: its token is made and its text is left behind. -/
theorem nextRaw_of_scanString (front rest : List Char) (mark : isQuote quote = true)
    (trigger : lx.profile.trigger ≠ some quote) (through : lx.directive = none)
    (idle : lx.pending = none) (text : lx.top.rest = quote :: (front ++ rest))
    (covers : (scanString quote (front ++ rest)).width = byteLength (quote :: front)) :
    lx.nextRaw = (lx.top.tokenOf (scanString quote (front ++ rest)),
      { lx with top := ⟨rest, Frame.locationAfter lx.top.location (quote :: front)⟩ }) := by
  have left : lx.top.rest ≠ [] := by simp [text]
  have turned := turn_of_lexeme through idle fun none => absurd none left
  have scanned := scan_of_lexeme text
  have passed : lx.top.advance (byteLength (quote :: front)) =
      ⟨rest, Frame.locationAfter lx.top.location (quote :: front)⟩ := by
    rw [← advance_of_append, List.cons_append, ← text]
  rw [scan_of_isQuote mark trigger, behind, covers, passed] at scanned
  rw [nextRaw_eq_turn, turned, scanned]
  simp [Turn.token?, scanString, Frame.wrongWith]

/-- Between quotes every text is read back from its writing, as one token that ends with the closing
quote, whatever follows.  If the closing quote is left out and none follows, the token is
unterminated and takes all that is left. -/
theorem string_read_back (lx : Lexer) (through : lx.directive = none) (idle : lx.pending = none)
    (quote : Char) (mark : quote ∈ ['\'', '"', '`']) (trigger : lx.profile.trigger ≠ some quote)
    (s : String) (short : Nat → Bool) (rest : List Char) :
    (lx.top.rest = quote :: escape quote short s.toList ++ [quote] ++ rest →
      let literal := quote :: escape quote short s.toList ++ [quote]
      lx.nextRaw =
        (⟨.quotedString, quote.toNat, s, lx.top.location, byteLength literal, true⟩,
          { lx with top := ⟨rest, Frame.locationAfter lx.top.location literal⟩ })) ∧
    (quote ∉ rest → lx.top.rest = quote :: escape quote short s.toList ++ rest →
      ∃ more, (rest = [] → more = "") ∧ lx.nextRaw =
        (⟨.quotedString, quote.toNat, s ++ more, lx.top.location, byteLength lx.top.rest, false⟩,
          { lx with top := ⟨[], Frame.locationAfter lx.top.location lx.top.rest⟩ })) := by
  have mark' : isQuote quote = true := by
    simp only [List.mem_cons, List.not_mem_nil, or_false] at mark
    rcases mark with rfl | rfl | rfl <;> rfl
  refine ⟨fun text => ?_, fun none text => ?_⟩
  · have scanned := scanString_closed mark' short s.toList rest
    rw [List.cons_append] at text
    have raw := nextRaw_of_scanString (escape quote short s.toList ++ [quote]) rest
      mark' trigger through idle text
    rw [List.append_assoc, List.singleton_append, scanned, String.ofList_toList] at raw
    exact raw rfl
  · have scanned := scanString_open mark' short s.toList none
    refine ⟨String.ofList (scanInside quote rest).1, ?_, ?_⟩
    · rintro rfl
      rfl
    · have raw := nextRaw_of_scanString (escape quote short s.toList ++ rest) []
        mark' trigger through idle (by rw [text, List.append_nil]; rfl)
      rw [List.append_nil, scanned, String.ofList_append, String.ofList_toList] at raw
      rw [text]
      exact raw rfl

/-- The same text once with its closing quote and once without. -/
theorem apostrophes_read_back :
    (ofText .language "t" "'it\\'s\\n' \"x").nextRaw.1 =
        ⟨.quotedString, 39, "it's\n", .startOf "t", 9, true⟩ ∧
      ((ofText .language "t" "'it\\'s\\n \"x").nextRaw.1.terminated = false ∧
        (ofText .language "t" "'it\\'s\\n \"x").nextRaw.2.top.rest = []) := by
  have closed := (string_read_back (ofText .language "t" "'it\\'s\\n' \"x") rfl rfl
    '\'' (by decide) (by decide) "it's\n" (fun _ => true) " \"x".toList).1 (by decide)
  obtain ⟨more, -, left⟩ := (string_read_back (ofText .language "t" "'it\\'s\\n \"x")
    rfl rfl '\'' (by decide) (by decide) "it's\n" (fun _ => true) " \"x".toList).2
    (by decide) (by decide)
  refine ⟨?_, ?_, ?_⟩
  · rw [closed]
    rfl
  · rw [left]
  · rw [left]

end Lexer

end ScriptLang
