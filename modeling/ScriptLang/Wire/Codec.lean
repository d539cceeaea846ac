import ScriptLang.Text.CharClass
import ScriptLang.Wire.Frame
import ScriptLang.Wire.JsonReader

/-!
# Frames on lines

A frame is written as one document on a line of its own; line breaks inside texts are escaped, so a
line break always ends a frame.  A reader takes lines off the bytes that a connection delivers, skips
the blank ones, and reads each of the others as a frame; a line that is no frame does not disturb those
after it.
-/

namespace ScriptLang.Wire

/-- The line of a frame. -/
def encode (f : Frame) : String := f.toJson.text ++ "\n"

/-- The line without the line breaks at its end. -/
def trimLineBreaks (line : String) : String :=
  String.ofList (line.toList.reverse.dropWhile fun c => c == '\n' || c == '\r').reverse

/-- What a line that is no frame is reported as. -/
def notAFrame : String := "not a frame"

/-- The frame on a line. -/
def decode (line : String) : Except ProtocolError Frame :=
  match (Json.ofString? (trimLineBreaks line)).bind Frame.ofJson? with
  | some f => .ok f
  | none => .error (.malformed notAFrame)

/-- Whether a line has nothing on it. -/
def isBlankLine (line : String) : Bool := line.toList.all Text.isBlank

/-! ### Lines -/

/-- Bytes that have arrived and have not been read. -/
abbrev Bytes := List UInt8

/-- The byte of a line break. -/
def lineBreak : UInt8 := 10

/-- The first line with its line break, and the bytes after it. -/
def splitLine : Bytes → Bytes × Bytes
  | [] => ([], [])
  | b :: bs =>
    if b = lineBreak then ([b], bs)
    else
      let (line, rest) := splitLine bs
      (b :: line, rest)

theorem splitLine_append (bs : Bytes) : (splitLine bs).1 ++ (splitLine bs).2 = bs := by
  induction bs with
  | nil => rfl
  | cons b bs ih =>
    unfold splitLine
    split
    · rfl
    · simpa using ih

theorem splitLine_length_lt {bs : Bytes} (h : bs ≠ []) : (splitLine bs).2.length < bs.length := by
  cases bs with
  | nil => exact absurd rfl h
  | cons b bs =>
    unfold splitLine
    split
    · simp
    · have := congrArg List.length (splitLine_append bs)
      simp at this ⊢
      omega

/-- The text of some bytes, if they are text. -/
def textOf? (bs : Bytes) : Option String := String.fromUTF8? ⟨bs.toArray⟩

/-- Read the next line that is not blank; `ok none` at the end. -/
def readLine (bs : Bytes) : Except ProtocolError (Option String) × Bytes :=
  if _h : bs = [] then (.ok none, [])
  else
    match textOf? (splitLine bs).1 with
    | none => (.error (.transport "stream did not contain valid UTF-8"), (splitLine bs).2)
    | some line =>
      if isBlankLine line then readLine (splitLine bs).2
      else (.ok (some line), (splitLine bs).2)
termination_by bs.length
decreasing_by exact splitLine_length_lt _h

/-- A read takes something off the bytes, unless there are none. -/
theorem readLine_length_lt (bs : Bytes) (h : bs ≠ []) : (readLine bs).2.length < bs.length := by
  fun_induction readLine bs with
  | case1 => exact absurd rfl h
  | case2 bs hbs _ => exact splitLine_length_lt hbs
  | case3 bs hbs line _ _ ih =>
    have hrest := splitLine_length_lt hbs
    by_cases he : (splitLine bs).2 = []
    · rw [he] at hrest ⊢
      simpa [readLine] using hrest
    · exact Nat.lt_trans (ih he) hrest
  | case4 bs hbs line _ _ => exact splitLine_length_lt hbs

/-- Read the next frame; `ok none` at the end. -/
def readFrame (bs : Bytes) : Except ProtocolError (Option Frame) × Bytes :=
  match readLine bs with
  | (.ok (some line), rest) => ((decode line).map some, rest)
  | (.ok none, rest) => (.ok none, rest)
  | (.error e, rest) => (.error e, rest)

theorem readFrame_length_lt (bs : Bytes) (h : bs ≠ []) : (readFrame bs).2.length < bs.length := by
  have hline := readLine_length_lt bs h
  unfold readFrame
  split <;> simp_all

/-- Read the next frame, of which there must be one. -/
def expectFrame (bs : Bytes) : Except ProtocolError Frame × Bytes :=
  match readFrame bs with
  | (.ok (some f), rest) => (.ok f, rest)
  | (.ok none, rest) => (.error .closed, rest)
  | (.error e, rest) => (.error e, rest)

/-- What a reading gives at each line that is not blank. -/
abbrev Arrival := Except ProtocolError Frame

/-- Read all frames; what cannot be read does not keep the reader from the lines after it. -/
def readFrames (bs : Bytes) : List Arrival :=
  if _h : bs = [] then []
  else
    match (readFrame bs).1 with
    | .ok (some f) => .ok f :: readFrames (readFrame bs).2
    | .ok none => []
    | .error e => .error e :: readFrames (readFrame bs).2
termination_by bs.length
decreasing_by all_goals exact readFrame_length_lt bs _h

end ScriptLang.Wire
