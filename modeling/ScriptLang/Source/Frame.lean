import ScriptLang.Location
import ScriptLang.Text.Bytes

/-!
# Sources being read

A frame is a source of which some part has been read: the characters that are left and the place
where they begin.  Reading `n` bytes moves on to the end of the character in which the `n`-th byte
lies.  A stack of frames has the source being read on top of those that asked for it.
-/

namespace ScriptLang

/-- A source, read up to `location`. -/
structure Frame where
  rest : List Char
  location : Location
deriving Repr

namespace Frame

/-- A source of which nothing has been read. -/
def start (name text : String) : Frame := ⟨text.toList, .startOf name⟩

def name (f : Frame) : String := f.location.file

def isExhausted (f : Frame) : Bool := f.rest.isEmpty

/-- The number of bytes of the whole source. -/
def length (f : Frame) : Nat := f.location.index + Text.byteLength f.rest

/-- The place after some characters. -/
def locationAfter (l : Location) (cs : List Char) : Location := cs.foldl Location.after l

/-- Read `n` bytes: the characters read and the frame after them. -/
def read (f : Frame) (n : Nat) : List Char × Frame :=
  let (front, back) := Text.splitBytes n f.rest
  (front, ⟨back, locationAfter f.location front⟩)

/-- The frame after `n` bytes. -/
def advance (f : Frame) (n : Nat) : Frame := (f.read n).2

theorem advance_rest_length_le (f : Frame) (n : Nat) :
    (f.advance n).rest.length ≤ f.rest.length := by
  simpa [advance, read] using Text.splitBytes_length_le n f.rest

theorem advance_rest_length_lt {f : Frame} {n : Nat} (hn : 0 < n) (h : f.rest ≠ []) :
    (f.advance n).rest.length < f.rest.length := by
  simpa [advance, read] using Text.splitBytes_length_lt hn h

theorem locationAfter_file (l : Location) (cs : List Char) : (locationAfter l cs).file = l.file := by
  induction cs generalizing l with
  | nil => rfl
  | cons c cs ih =>
    have h : (l.after c).file = l.file := by unfold Location.after; split <;> rfl
    simpa [locationAfter, h] using ih (l.after c)

@[simp] theorem advance_name (f : Frame) (n : Nat) : (f.advance n).name = f.name := by
  simp [advance, read, name, locationAfter_file]

end Frame

/-- Sources one inside the other, the innermost first. -/
structure SourceStack where
  frames : List Frame := []

namespace SourceStack

def push (s : SourceStack) (f : Frame) : SourceStack := ⟨f :: s.frames⟩

def pop (s : SourceStack) : Option Frame × SourceStack := (s.frames.head?, ⟨s.frames.tail⟩)

/-- The source being read. -/
def current? (s : SourceStack) : Option Frame := s.frames.head?

/-- The source that reading began with. -/
def root? (s : SourceStack) : Option Frame := s.frames.getLast?

def depth (s : SourceStack) : Nat := s.frames.length

def contains (s : SourceStack) (name : String) : Bool := s.frames.any fun f => f.name == name

/-- Read `n` bytes of the current source. -/
def advance (s : SourceStack) (n : Nat) : SourceStack :=
  match s.frames with
  | [] => s
  | f :: fs => ⟨f.advance n :: fs⟩

end SourceStack

end ScriptLang
