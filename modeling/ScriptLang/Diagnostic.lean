import ScriptLang.Location
import ScriptLang.Text.CharClass
import ScriptLang.Text.Bytes

/-!
# Diagnostics

Every kind of error says what it tells its reader through `Described`.  Before an error leaves the
stage that found it, it is flattened into a `Diagnostic`, which knows only texts and a place.  A
`Report` joins a diagnostic with the source it points into.
-/

namespace ScriptLang

/-- What an error tells its reader. -/
class Described (ε : Type) where
  code : ε → String
  message : ε → String
  location? : ε → Option Location := fun _ => none
  help? : ε → Option String := fun _ => none
  labels : ε → List Label := fun _ => []

/-- An error flattened to texts and a place. -/
structure Diagnostic where
  code : String
  message : String
  location : Option Location := none
  help : Option String := none
deriving DecidableEq, Repr

namespace Diagnostic

/-- Flatten an error that knows its own place. -/
def ofError {ε : Type} [Described ε] (e : ε) : Diagnostic :=
  ⟨Described.code e, Described.message e, Described.location? e, Described.help? e⟩

/-- The written form `[code] message`. -/
def text (d : Diagnostic) : String := "[" ++ d.code ++ "] " ++ d.message

end Diagnostic

/-- A diagnostic with the text of the source it points into. -/
structure Report where
  source : String
  diagnostic : Diagnostic

/-- The stretch a report points at: from the diagnostic's place to the next blank, at least one byte
unless the source ends there.  None if the diagnostic has no place, or one outside the source or
inside a character. -/
def Report.label? (r : Report) : Option Label := do
  let location ← r.diagnostic.location
  let (front, rest) := Text.splitBytes location.index r.source.toList
  if Text.byteLength front ≠ location.index then none
  else
    let width := max (Text.byteLength (rest.takeWhile fun c => !Text.isBlank c)) 1
    some ⟨location.index, min width (Text.byteLength rest), "here"⟩

end ScriptLang
