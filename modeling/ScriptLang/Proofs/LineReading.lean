import ScriptLang.Wire.Codec

/-!
# Lines of text on a connection

A reader that is sent lines of text takes the frame of each line that is not blank, in order, and
nothing else (`readFrames_bytesOf`): a line break stands in no other character's bytes, so no line
reaches into the next.  What is wrong with a line of text is never more than that it is no frame
(`decode_cases`).
-/

namespace ScriptLang.Wire

/-! ### Bytes of texts -/

/-- The bytes of a text. -/
def textBytes (s : String) : Bytes := s.toByteArray.data.toList

/-- The bytes of some lines, each with a line break behind it. -/
def bytesOf (lines : List String) : Bytes := lines.flatMap fun line => textBytes (line ++ "\n")

theorem textOf?_textBytes (s : String) : textOf? (textBytes s) = some s := by
  unfold textOf? textBytes String.fromUTF8?
  rw [Array.toArray_toList, dif_pos s.isValidUTF8]
  rfl

theorem textBytes_append (s t : String) : textBytes (s ++ t) = textBytes s ++ textBytes t := by
  rw [textBytes, String.toByteArray_append, ByteArray.data_append, Array.toList_append]
  rfl

theorem textBytes_lineBreak : textBytes "\n" = [lineBreak] := by decide

theorem textBytes_eq (s : String) : textBytes s = s.toList.flatMap String.utf8EncodeChar := by
  conv => lhs; rw [← String.ofList_toList (s := s)]
  rw [textBytes, String.toByteArray_ofList, List.utf8Encode, List.toList_data_toByteArray]

/-- Only a line break has its byte. -/
theorem lineBreak_mem_utf8EncodeChar {c : Char} (h : lineBreak ∈ String.utf8EncodeChar c) :
    c = '\n' := by
  have code (n : Nat) (hn : lineBreak = UInt8.ofNat n) : n % 256 = 10 := by
    have := congrArg UInt8.toNat hn
    simpa [lineBreak] using this.symm
  unfold String.utf8EncodeChar at h
  dsimp only at h
  split at h
  · have low := code _ (List.mem_singleton.1 h)
    have value : c.val.toNat = 10 := by omega
    exact Char.ext (UInt32.toNat_inj.1 value)
  · exfalso
    split at h
    · simp only [List.mem_cons, List.not_mem_nil, or_false] at h
      rcases h with h | h <;> have := code _ h <;> omega
    · split at h
      · simp only [List.mem_cons, List.not_mem_nil, or_false] at h
        rcases h with h | h | h <;> have := code _ h <;> omega
      · simp only [List.mem_cons, List.not_mem_nil, or_false] at h
        rcases h with h | h | h | h <;> have := code _ h <;> omega

theorem lineBreak_not_mem {s : String} (h : '\n' ∉ s.toList) : lineBreak ∉ textBytes s := by
  rw [textBytes_eq, List.mem_flatMap]
  rintro ⟨c, hc, hmem⟩
  exact h (lineBreak_mem_utf8EncodeChar hmem ▸ hc)

/-! ### One line -/

theorem splitLine_of_not_mem : ∀ {bs : Bytes}, lineBreak ∉ bs → ∀ rest : Bytes,
    splitLine (bs ++ lineBreak :: rest) = (bs ++ [lineBreak], rest)
  | [], _, rest => by
    rw [List.nil_append, splitLine, if_pos rfl]
    rfl
  | b :: bs, h, rest => by
    rw [List.mem_cons, not_or] at h
    rw [List.cons_append, splitLine, if_neg (Ne.symm h.1), splitLine_of_not_mem h.2]
    rfl

/-- The line break behind a line is not blank text, and no part of a frame. -/
theorem isBlankLine_lineBreak (line : String) : isBlankLine (line ++ "\n") = isBlankLine line := by
  unfold isBlankLine
  rw [String.toList_append, List.all_append]
  exact Bool.and_true _

theorem decode_lineBreak (line : String) : decode (line ++ "\n") = decode line := by
  have same : trimLineBreaks (line ++ "\n") = trimLineBreaks line := by
    unfold trimLineBreaks
    rw [String.toList_append, List.reverse_append]
    exact congrArg (fun cs => String.ofList (List.reverse cs)) (List.dropWhile_cons_of_pos rfl)
  rw [decode, same, decode]

/-- A line of text is a frame, or it is none and nothing worse. -/
theorem decode_cases (line : String) :
    (∃ f, decode line = .ok f) ∨ decode line = .error (.malformed notAFrame) := by
  unfold decode
  split
  · exact .inl ⟨_, rfl⟩
  · exact .inr rfl

/-! ### All lines -/

/-- What a reader takes from some lines of text. -/
def arrivalsOf (lines : List String) : List Arrival :=
  (lines.filter fun line => !isBlankLine line).map decode

theorem arrivalsOf_cons (line : String) (lines : List String) : arrivalsOf (line :: lines) =
    if isBlankLine line then arrivalsOf lines else decode line :: arrivalsOf lines := by
  unfold arrivalsOf
  rw [List.filter_cons]
  cases isBlankLine line <;> rfl

/-- Frames are read one after the other, up to the end. -/
theorem readFrames_eq (bs : Bytes) : readFrames bs =
    match readFrame bs with
    | (.ok (some f), rest) => .ok f :: readFrames rest
    | (.ok none, _) => []
    | (.error e, rest) => .error e :: readFrames rest := by
  by_cases h : bs = []
  · subst h
    rw [readFrames, dif_pos rfl, readFrame, readLine, dif_pos rfl]
  · rw [readFrames, dif_neg h]
    obtain ⟨r, rest⟩ := readFrame bs
    rcases r with e | _ | f <;> rfl

/-- The bytes of a line of text are read as the line. -/
theorem readLine_line {line : String} (h : '\n' ∉ line.toList) (rest : Bytes) :
    readLine (textBytes (line ++ "\n") ++ rest) =
      if isBlankLine line then readLine rest else (.ok (some (line ++ "\n")), rest) := by
  have bytes : textBytes (line ++ "\n") ++ rest = textBytes line ++ lineBreak :: rest := by
    rw [textBytes_append, textBytes_lineBreak, List.append_assoc]
    rfl
  have some_bytes : textBytes line ++ lineBreak :: rest ≠ [] := by simp
  have text : textOf? (textBytes line ++ [lineBreak]) = some (line ++ "\n") := by
    rw [← textBytes_lineBreak, ← textBytes_append, textOf?_textBytes]
  rw [bytes, readLine, dif_neg some_bytes, splitLine_of_not_mem (lineBreak_not_mem h)]
  dsimp only
  rw [text]
  dsimp only
  rw [isBlankLine_lineBreak]

/-- A line of text is skipped or read as a frame, whatever follows it. -/
theorem readFrames_line {line : String} (h : '\n' ∉ line.toList) (rest : Bytes) :
    readFrames (textBytes (line ++ "\n") ++ rest) =
      if isBlankLine line then readFrames rest else decode line :: readFrames rest := by
  have first := readLine_line h rest
  cases blank : isBlankLine line with
  | true =>
    rw [blank, if_pos rfl] at first
    have same : readFrame (textBytes (line ++ "\n") ++ rest) = readFrame rest := by
      rw [readFrame, first, readFrame]
    rw [readFrames_eq, same, ← readFrames_eq, if_pos rfl]
  | false =>
    rw [blank, if_neg Bool.false_ne_true] at first
    have same : readFrame (textBytes (line ++ "\n") ++ rest) = ((decode line).map some, rest) := by
      rw [readFrame, first]
      dsimp only
      rw [decode_lineBreak]
    rw [readFrames_eq, same, if_neg Bool.false_ne_true]
    obtain ⟨f, frame⟩ | wrong := decode_cases line
    · rw [frame]
      rfl
    · rw [wrong]
      rfl

theorem readFrames_bytesOf : ∀ {lines : List String}, (∀ line ∈ lines, '\n' ∉ line.toList) →
    readFrames (bytesOf lines) = arrivalsOf lines
  | [], _ => by
    rw [bytesOf, List.flatMap_nil, readFrames, dif_pos rfl]
    rfl
  | line :: lines, h => by
    obtain ⟨hline, hlines⟩ := List.forall_mem_cons.1 h
    rw [bytesOf, List.flatMap_cons, ← bytesOf, readFrames_line hline, readFrames_bytesOf hlines,
      arrivalsOf_cons]

end ScriptLang.Wire
