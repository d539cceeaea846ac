import ScriptLang.Lexer.Error
import ScriptLang.Lexer.Lexeme
import ScriptLang.Source.Frame
import ScriptLang.Source.Resolver

/-!
# The state of reading and its single step

A lexer reads the source on top of a stack.  `Lexer.nextRaw` makes the next token of any kind: an
active directive goes first, then a requested source is entered, then sources that are used up are
left, and what is left of the top source gives a lexeme.  Only the root gives an end of file.
-/

namespace ScriptLang

/-- Which tokens beside the significant ones are given out, and how deep sources may nest. -/
structure LexerOptions where
  whitespace : Bool := false
  comments : Bool := false
  directives : Bool := false
  maxIncludeDepth : Nat := 64
deriving DecidableEq, Repr

/-- Whether tokens of a kind are given out. -/
def LexerOptions.keeps (o : LexerOptions) : TokenKind → Bool
  | .whitespace | .endOfLine => o.whitespace
  | .comment => o.comments
  | .directive | .directiveArg => o.directives
  | _ => true

/-- A directive under way: its index and the phases to come. -/
structure ActiveDirective where
  index : Nat
  phases : List DirectivePhase

structure Lexer where
  profile : Profile
  resolver : Option Resolver := none
  options : LexerOptions := {}
  /-- The source being read. -/
  top : Frame
  /-- The sources that wait for it, the root last. -/
  below : List Frame := []
  /-- Tokens made but not yet given out. -/
  lookahead : List Token := []
  directive : Option ActiveDirective := none
  /-- The source requested by the directive under way, and where. -/
  pending : Option (String × Location) := none
  errors : List LexError := []
  /-- Remarks about sources that were found but could not be read. -/
  remarks : List String := []

namespace Lexer

/-- A lexer at the start of a text. -/
def ofText (profile : Profile) (name text : String) : Lexer :=
  { profile, top := .start name text }

/-- How many sources are being read. -/
def depth (lx : Lexer) : Nat := lx.below.length + 1

/-- The source that reading began with. -/
def root (lx : Lexer) : Frame := lx.below.getLast?.getD lx.top

/-- The name of the root, also while another source is being read. -/
def sourceName (lx : Lexer) : String := lx.root.name

/-- Whether a source of that name is being read. -/
def isReading (lx : Lexer) (name : String) : Bool := (lx.top :: lx.below).any fun f => f.name == name

def fail (lx : Lexer) (e : LexError) : Lexer := { lx with errors := lx.errors ++ [e] }

/-! ### The parts of a step -/

/-- Let the phases of a directive work until one makes a token or all are through. -/
def runPhases (index : Nat) : List DirectivePhase → Lexer → Option Token × Lexer
  | [], lx => (none, { lx with directive := none })
  | phase :: phases, lx =>
    let start := lx.top.location
    match phase lx.top.rest with
    | .pass => runPhases index phases lx
    | .finish => (none, { lx with directive := none })
    | .produce kind width =>
      if width = 0 then (none, { lx with directive := none })
      else
        let (cs, top) := lx.top.read width
        (some ⟨kind, 0, String.ofList cs, start, width, true⟩,
          { lx with top, directive := some ⟨index, phases⟩ })
    | .request width name =>
      (some ⟨.directiveArg, index, name, start, width, true⟩,
        { lx with
          top := lx.top.advance width
          directive := some ⟨index, phases⟩
          pending := some (name, start) })
    | .reject width message =>
      let lx := { lx with top := lx.top.advance width }.fail (.directive message start width)
      if width = 0 then (none, { lx with directive := none })
      else runPhases index phases lx

/-- Let the directive under way work, if there is one. -/
def runDirective (lx : Lexer) : Option Token × Lexer :=
  match lx.directive with
  | none => (none, lx)
  | some d => runPhases d.index d.phases lx

/-- Put a source on top. -/
def pushSource (lx : Lexer) (name text : String) : Lexer :=
  { lx with top := .start name text, below := lx.top :: lx.below }

/-- Look for a source that the top source asks for. -/
def search (lx : Lexer) (name : String) : Resolution :=
  match lx.resolver with
  | some r => r.find name lx.top.name
  | none => { source := none }

/-- Enter the source `name` that was requested at `location`.  Too deep a nesting is found before a
missing source, and that before a source that is being read already. -/
def enter (lx : Lexer) (name : String) (location : Location) : Lexer :=
  if lx.options.maxIncludeDepth ≤ lx.below.length then
    lx.fail (.includeTooDeep name lx.options.maxIncludeDepth location)
  else
    let found := lx.search name
    let lx := { lx with remarks := lx.remarks ++ found.remarks }
    match found.source with
    | none => lx.fail (.includeNotFound name location)
    | some s =>
      if lx.isReading s.name then lx.fail (.includeCycle name location)
      else lx.pushSource s.name s.text

/-- Enter the requested source, if there is one. -/
def enterPending (lx : Lexer) : Lexer :=
  match lx.pending with
  | none => lx
  | some (name, location) => { lx with pending := none }.enter name location

/-- Leave the sources that are used up, except the root. -/
def leaveExhausted : Frame → List Frame → Frame × List Frame
  | top, [] => (top, [])
  | top, f :: fs => if top.rest.isEmpty then leaveExhausted f fs else (top, f :: fs)

/-- Make a token of the top source's next lexeme. -/
def scan (lx : Lexer) : Token × Lexer :=
  let start := lx.top.location
  match lx.top.rest with
  | [] => (.endOfFile start, lx)
  | c :: cs =>
    let l := Lexeme.scan lx.profile c cs
    let lx := if l.kind = .directive then { lx with directive := some ⟨l.code, l.phases⟩ } else lx
    let lx := if l.kind = .unknown then lx.fail (.invalidToken l.text start l.width) else lx
    (⟨l.kind, l.code, l.text, start, l.width, l.terminated⟩,
      { lx with top := lx.top.advance l.width })

/-- Read from whichever source is not used up. -/
def scanSources (lx : Lexer) : Token × Lexer :=
  let (top, below) := leaveExhausted lx.top lx.below
  { lx with top, below }.scan

/-- Make the next token, of any kind. -/
def nextRaw (lx : Lexer) : Token × Lexer :=
  match lx.runDirective with
  | (some token, lx) => (token, lx)
  | (none, lx) => lx.enterPending.scanSources

end Lexer

end ScriptLang
