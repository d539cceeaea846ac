/-!
# Places in a source

A location is a place in one source: a byte offset, and a line and a column that count from one in
characters.  A label marks a stretch of bytes with a remark.
-/

namespace ScriptLang

/-- A place in a source. -/
structure Location where
  file : String
  index : Nat
  line : Nat
  column : Nat
deriving DecidableEq, Repr

/-- A marked stretch of a source, in bytes. -/
structure Label where
  offset : Nat
  width : Nat
  text : String
deriving DecidableEq, Repr

namespace Location

/-- The first place of a source. -/
def startOf (file : String) : Location := ⟨file, 0, 1, 1⟩

/-- The place of what comes from no source. -/
def unknown : Location := startOf "<unknown>"

instance : Inhabited Location := ⟨unknown⟩

/-- The written form `file:line:column`. -/
def text (l : Location) : String :=
  l.file ++ ":" ++ toString l.line ++ ":" ++ toString l.column

/-- The place right after a character that stands at `l`. -/
def after (l : Location) (c : Char) : Location :=
  if c = '\n' then { l with index := l.index + c.utf8Size, line := l.line + 1, column := 1 }
  else { l with index := l.index + c.utf8Size, column := l.column + 1 }

/-- A label of at least one byte that begins here. -/
def label (l : Location) (width : Nat) (text : String) : Label :=
  ⟨l.index, max width 1, text⟩

end Location

end ScriptLang
