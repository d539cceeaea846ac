import Mathlib.Algebra.Ring.Nat
import Mathlib.Data.List.TakeWhile
import ScriptLang.Proofs.Requests

/-!
# Includes are spliced in

What a text is made of is found from the text alone (`Frame.pieces`): significant tokens, faults and
includes of other sources.  An include stands for the expansion of the source that it names
(`splice`), unless that is nested too deep, cannot be found or is being expanded already; then it
stands for one error.  The lexer, which reads one stack of sources, gives out the tokens of the
expansion of the root and the errors in it (`includes_splice`).
-/

namespace ScriptLang

open Text

/-! ### What a text is made of -/

/-- What is found in a text, in its order. -/
inductive Piece where
  /-- A significant token. -/
  | token (t : Token)
  /-- Text that is wrong. -/
  | fault (e : LexError)
  /-- A source asked for by name. -/
  | asked (name : String) (place : Location)

/-- A name that `close` ends, in what is left of a line behind the opening sign: the bytes that it
covers with its signs, and the name.  Without an end it is wrong up to the end of the line. -/
def quotedWord (close : Char) (inside : List Char) : Nat × Except String String :=
  let name := inside.takeWhile (· != close)
  if close ∈ inside then (byteLength name + 2, .ok (String.ofList name))
  else (byteLength inside + 1, .error "unterminated file name in $include")

/-- The word of an include: a name between quotes or between angle brackets, on one line. -/
def includeWord (cs : List Char) : Nat × Except String String :=
  match cs.takeWhile (· != '\n') with
  | '"' :: inside => quotedWord '"' inside
  | '<' :: inside => quotedWord '>' inside
  | line => (byteLength line, .error "expected a quoted file name after $include")

/-- What the word of an include is to the source, and the frame after it. -/
def Frame.includePiece (f : Frame) : Piece × Frame :=
  match includeWord f.rest with
  | (width, .ok name) => (.asked name f.location, f.advance width)
  | (width, .error message) => (.fault (.directive message f.location width), f.advance width)

/-- The frame after the blanks that are on the same line. -/
def Frame.afterBlanks (f : Frame) : Frame :=
  f.advance (byteLength (f.rest.takeWhile fun c => isBlank c && c != '\n'))

theorem Frame.advance_rest_lt_scan {f : Frame} {c : Char} {cs : List Char} (h : f.rest = c :: cs) :
    (f.advance (Lexeme.scan .language c cs).width).rest.length < f.rest.length :=
  Frame.advance_rest_length_lt (Lexeme.scan_width_pos _ c cs) (by simp [h])

theorem Frame.includePiece_rest_le (f : Frame) :
    f.includePiece.2.rest.length ≤ f.rest.length := by
  unfold includePiece
  split <;> exact f.advance_rest_length_le _

/-- The token that a lexeme makes here. -/
def Frame.tokenOf (f : Frame) (l : Lexeme) : Token :=
  ⟨l.kind, l.code, l.text, f.location, l.width, l.terminated⟩

/-- What is wrong with a lexeme here: only what is no lexeme of any kind. -/
def Frame.wrongWith (f : Frame) (l : Lexeme) : List LexError :=
  if l.kind = .unknown then [.invalidToken l.text f.location l.width] else []

/-- The pieces that a text is made of. -/
def Frame.pieces (f : Frame) : List Piece :=
  match _h : f.rest with
  | [] => []
  | c :: cs =>
    let l := Lexeme.scan .language c cs
    let next := f.advance l.width
    if l.kind = .directive then
      let found := next.afterBlanks.includePiece
      found.1 :: found.2.pieces
    else
      (f.wrongWith l).map .fault ++ (if l.kind.isTrivia then [] else [.token (f.tokenOf l)]) ++
        next.pieces
termination_by f.rest.length
decreasing_by
  · exact Nat.lt_of_le_of_lt (Nat.le_trans (includePiece_rest_le _) (advance_rest_length_le _ _))
      (advance_rest_lt_scan _h)
  · exact advance_rest_lt_scan _h

namespace Frame

variable {f : Frame} {c : Char} {cs : List Char}

theorem pieces_nil (h : f.rest = []) : f.pieces = [] := by
  rw [pieces]
  split
  · rfl
  · next rest => cases h.symm.trans rest

theorem pieces_directive (h : f.rest = c :: cs)
    (hkind : (Lexeme.scan .language c cs).kind = .directive) :
    f.pieces = (f.advance (Lexeme.scan .language c cs).width).afterBlanks.includePiece.1 ::
      (f.advance (Lexeme.scan .language c cs).width).afterBlanks.includePiece.2.pieces := by
  rw [pieces]
  split
  · next rest => cases h.symm.trans rest
  · next rest =>
    obtain ⟨rfl, rfl⟩ := List.cons.inj (h.symm.trans rest)
    exact if_pos hkind

theorem pieces_lexeme (h : f.rest = c :: cs)
    (hkind : (Lexeme.scan .language c cs).kind ≠ .directive) :
    f.pieces = (f.wrongWith (Lexeme.scan .language c cs)).map .fault ++
      (if (Lexeme.scan .language c cs).kind.isTrivia then []
        else [.token (f.tokenOf (Lexeme.scan .language c cs))]) ++
      (f.advance (Lexeme.scan .language c cs).width).pieces := by
  rw [pieces]
  split
  · next rest => cases h.symm.trans rest
  · next rest =>
    obtain ⟨rfl, rfl⟩ := List.cons.inj (h.symm.trans rest)
    exact if_neg hkind

end Frame

/-! ### Expansion -/

/-- What is met in the expansion of a source. -/
inductive Event where
  /-- A source whose text begins here. -/
  | entered (s : SourceText)
  | token (t : Token)
  | error (e : LexError)

namespace Event

def source? : Event → Option SourceText
  | .entered s => some s
  | _ => none

def token? : Event → Option Token
  | .token t => some t
  | _ => none

def error? : Event → Option LexError
  | .error e => some e
  | _ => none

/-- What is met where a token is made and errors are found: trivia is not given out. -/
def ofStep (t : Token) (new : List LexError) : List Event :=
  new.map error ++ if t.kind.isTrivia then [] else [.token t]

theorem tokens_ofStep (t : Token) (new : List LexError) :
    (ofStep t new).filterMap token? = if t.kind.isTrivia then [] else [t] := by
  have none : (new.map error).filterMap token? = [] := by
    rw [List.filterMap_map, List.filterMap_eq_nil_iff]
    exact fun _ _ => rfl
  rw [ofStep, List.filterMap_append, none]
  split <;> rfl

theorem errors_ofStep (t : Token) (new : List LexError) :
    (ofStep t new).filterMap error? = new := by
  have all : (new.map error).filterMap error? = new := by
    rw [List.filterMap_map]
    exact List.filterMap_some
  rw [ofStep, List.filterMap_append, all]
  split <;> exact List.append_nil new

end Event

/-- The pieces of a source, of which nothing has been read. -/
def SourceText.pieces (s : SourceText) : List Piece := (Frame.start s.name s.text).pieces

/-- A piece is met as it is, and an include as what it stands for. -/
def Piece.events (asked : String → Location → List Event) : Piece → List Event
  | .token t => [.token t]
  | .fault e => [.error e]
  | .asked name place => asked name place

section

variable (find : (name including : String) → Option SourceText) (limit : Nat)

/-- What stands for an include of `name` at `place`, if `levels` more sources may be entered and
`chain` are the names of those being expanded, the source that includes first. -/
def splice : (levels : Nat) → (including : String) → (outer : List String) → (name : String) →
    (place : Location) → List Event
  | 0, _, _, name, place => [.error (.includeTooDeep name limit place)]
  | levels + 1, including, outer, name, place =>
    match find name including with
    | none => [.error (.includeNotFound name place)]
    | some s =>
      if s.name ∈ including :: outer then [.error (.includeCycle name place)]
      else .entered s :: s.pieces.flatMap (Piece.events (splice levels s.name (including :: outer)))

/-- The expansion of a source that is included by none. -/
def expansion (s : SourceText) : List Event :=
  .entered s :: s.pieces.flatMap (Piece.events (splice find limit limit s.name []))

end

/-! ### The word of an include -/

/-- The characters before a closing one are found on the line exactly if the line has it. -/
theorem mem_line_iff {close : Char} (h : close ≠ '\n') : ∀ cs : List Char,
    close ∈ cs.takeWhile (· != '\n') ↔
      (cs.dropWhile fun c => c != close && c != '\n').head? = some close
  | [] => by simp
  | c :: cs => by
    have ih := mem_line_iff h cs
    by_cases newline : c = '\n'
    · simp [newline, h.symm]
    · by_cases closes : c = close
      · simp [closes, h]
      · simp [newline, closes, Ne.symm closes, ih]

/-- What a phase that finds a word does. -/
def DirectiveStep.ofWord : Nat × Except String String → DirectiveStep
  | (width, .ok name) => .request width name
  | (width, .error message) => .reject width message

theorem includeName_eq {close : Char} (h : close ≠ '\n') (cs : List Char) :
    includeName close cs = .ofWord (quotedWord close (cs.takeWhile (· != '\n'))) := by
  have name : (cs.takeWhile (· != '\n')).takeWhile (· != close)
      = cs.takeWhile fun c => c != close && c != '\n' := by
    rw [List.takeWhile_takeWhile]
    exact congrArg (List.takeWhile · cs) (funext fun c => by simp [bne, beq_eq_decide])
  rw [includeName, quotedWord, name]
  split
  case isTrue closed =>
    rw [if_pos ((mem_line_iff h cs).2 closed)]
    rfl
  case isFalse unclosed =>
    have missing := mt (mem_line_iff h cs).1 unclosed
    have whole : (cs.takeWhile (· != '\n')).takeWhile (· != close) = cs.takeWhile (· != '\n') := by
      rw [List.takeWhile_eq_self_iff]
      intro c hc
      exact bne_iff_ne.2 fun same => missing (same ▸ hc)
    rw [if_neg missing, ← name, whole]
    rfl

/-- The phase of the directive finds the word. -/
theorem includeArgument_eq (cs : List Char) :
    includeArgument cs = .ofWord (includeWord cs) := by
  unfold includeArgument includeWord
  split
  · rw [List.takeWhile_cons_of_pos (by decide)]
    exact includeName_eq (by decide) _
  · rw [List.takeWhile_cons_of_pos (by decide)]
    exact includeName_eq (by decide) _
  · rename_i quote angle
    split
    · next line =>
      obtain ⟨behind, whole⟩ := line ▸ cs.takeWhile_prefix (· != '\n')
      exact absurd whole.symm (quote _)
    · next line =>
      obtain ⟨behind, whole⟩ := line ▸ cs.takeWhile_prefix (· != '\n')
      exact absurd whole.symm (angle _)
    · rfl

/-! ### Frames that are read on -/

namespace Frame

/-- The frame when everything has been read. -/
def ended (f : Frame) : Frame := ⟨[], locationAfter f.location f.rest⟩

@[simp] theorem ended_advance (f : Frame) (n : Nat) : (f.advance n).ended = f.ended := by
  have whole := splitBytes_append n f.rest
  change Frame.mk [] ((splitBytes n f.rest).2.foldl Location.after
    ((splitBytes n f.rest).1.foldl Location.after f.location)) = _
  rw [← List.foldl_append, whole]
  rfl

@[simp] theorem includePiece_name (f : Frame) : f.includePiece.2.name = f.name := by
  unfold includePiece
  split <;> exact advance_name f _

@[simp] theorem ended_includePiece (f : Frame) : f.includePiece.2.ended = f.ended := by
  unfold includePiece
  split <;> exact ended_advance f _

theorem advance_zero (f : Frame) : f.advance 0 = f := by
  change Frame.mk (splitBytes 0 f.rest).2 (locationAfter f.location (splitBytes 0 f.rest).1) = f
  rw [splitBytes]
  rfl

@[simp] theorem afterBlanks_name (f : Frame) : f.afterBlanks.name = f.name := advance_name f _

@[simp] theorem ended_afterBlanks (f : Frame) : f.afterBlanks.ended = f.ended := ended_advance f _

end Frame

/-- No text is read as an end of file. -/
theorem Lexeme.scan_kind_ne_endOfFile {p : Profile} (c : Char) (cs : List Char) :
    (scan p c cs).kind ≠ .endOfFile := by
  have operator (c : Char) (cs : List Char) : (scanOperator p c cs).kind ≠ .endOfFile := by
    unfold scanOperator
    split <;> nofun
  have radix (form : Notation) (mark digits : List Char) :
      (scanRadix form mark digits).kind ≠ .endOfFile := by
    unfold scanRadix
    split <;> nofun
  have decimal (c : Char) (cs : List Char) : (scanDecimal c cs).kind ≠ .endOfFile := by
    unfold scanDecimal
    dsimp only
    repeat' split
    all_goals nofun
  unfold scan scanOther scanBlanks scanDirective scanNumber scanWord scanBlockComment
  dsimp only
  repeat' split
  all_goals first | exact operator _ _ | exact radix _ _ _ | exact decimal _ _ | nofun

/-! ### The lexer inside sources -/

namespace Lexer

/-- Two lexers with the same next step read the same. -/
theorem tokenize_congr {lx lx' : Lexer} (raw : lx.nextRaw = lx'.nextRaw)
    (options : lx.options = lx'.options) : lx.tokenize = lx'.tokenize := by
  suffices lx.drain = lx'.drain by rw [tokenize, tokenize, this]
  generalize step : lx.nextRaw = next at raw
  obtain ⟨t, next⟩ := next
  by_cases hend : t.kind = .endOfFile
  · rw [drain_of_end step hend, drain_of_end raw.symm hend]
  · by_cases kept : lx.options.keeps t.kind = true
    · rw [drain_of_kept step hend kept, drain_of_kept raw.symm hend (options ▸ kept)]
    · rw [drain_of_skipped step hend kept, drain_of_skipped raw.symm hend (options ▸ kept)]

theorem keeps_depth (limit : Nat) (k : TokenKind) :
    LexerOptions.keeps { maxIncludeDepth := limit } k = !k.isTrivia := by
  cases k <;> rfl

theorem tokenize_skip {lx lx' : Lexer} {t : Token} (raw : lx.nextRaw = (t, lx'))
    (hend : t.kind ≠ .endOfFile) (skipped : ¬ lx.options.keeps t.kind = true) :
    lx.tokenize = lx'.tokenize := by
  rw [tokenize, tokenize, drain_of_skipped raw hend skipped]

theorem tokenize_keep {lx lx' : Lexer} {t : Token} (raw : lx.nextRaw = (t, lx'))
    (hend : t.kind ≠ .endOfFile) (kept : lx.options.keeps t.kind = true) :
    lx.tokenize = (t :: (tokenize { lx' with errors := [] }).1,
      lx'.errors ++ (tokenize { lx' with errors := [] }).2) := by
  rw [tokenize, drain_of_kept raw hend kept]
  rfl

section

variable (r : Option Resolver) (limit : Nat)

/-- The lexer of the language between two lexemes. -/
def between (top : Frame) (below : List Frame) (errors : List LexError) (remarks : List String) :
    Lexer :=
  { profile := .language, resolver := r, options := { maxIncludeDepth := limit }
    top, below, errors, remarks }

/-- Whatever has been noted before, what is read from here on is what the events tell. -/
def Reads (top : Frame) (below : List Frame) (es : List Event) : Prop :=
  ∀ errors remarks, (between r limit top below errors remarks).tokenize
    = (es.filterMap Event.token?, errors ++ es.filterMap Event.error?)

/-- As `Reads`, when a source has been requested. -/
def ReadsEntering (top : Frame) (below : List Frame) (name : String) (place : Location)
    (es : List Event) : Prop :=
  ∀ errors remarks, ((between r limit top below errors remarks).enter name place).tokenize
    = (es.filterMap Event.token?, errors ++ es.filterMap Event.error?)

end

variable {r : Option Resolver} {limit : Nat}

theorem reads_end (start : Location) :
    Reads r limit ⟨[], start⟩ [] [.token (.endOfFile start)] := by
  intro errors remarks
  have step : (between r limit ⟨[], start⟩ [] errors remarks).nextRaw
      = (.endOfFile start, between r limit ⟨[], start⟩ [] errors remarks) := rfl
  rw [tokenize, drain_of_end step rfl]
  simp [between, Event.token?, Event.error?]

theorem Reads.leave {g : Frame} {gs : List Frame} {es : List Event} (h : Reads r limit g gs es)
    (start : Location) : Reads r limit ⟨[], start⟩ (g :: gs) es := by
  intro errors remarks
  have raw : (between r limit ⟨[], start⟩ (g :: gs) errors remarks).nextRaw
      = (between r limit g gs errors remarks).nextRaw := rfl
  rw [tokenize_congr raw rfl]
  exact h errors remarks

/-- A source that is not used up is read from. -/
theorem scanSources_of_rest {lx : Lexer} (h : lx.top.rest ≠ []) : lx.scanSources = lx.scan := by
  have stays : leaveExhausted lx.top lx.below = (lx.top, lx.below) := by
    cases lx.below with
    | nil => rfl
    | cons f fs => rw [leaveExhausted, if_neg (by simpa using h)]
  rw [scanSources, stays]

/-- A step that makes a token and finds the errors `new`. -/
theorem Reads.step {f f' : Frame} {below below' : List Frame} {t : Token} {new : List LexError}
    {es : List Event} (hend : t.kind ≠ .endOfFile) (rest : Reads r limit f' below' es)
    (raw : ∀ errors remarks, (between r limit f below errors remarks).nextRaw
      = (t, between r limit f' below' (errors ++ new) remarks)) :
    Reads r limit f below (Event.ofStep t new ++ es) := by
  intro errors remarks
  have kept : (between r limit f below errors remarks).options.keeps t.kind = !t.kind.isTrivia :=
    keeps_depth limit t.kind
  rw [List.filterMap_append, List.filterMap_append, Event.tokens_ofStep, Event.errors_ofStep]
  cases trivia : t.kind.isTrivia with
  | true =>
    rw [trivia] at kept
    rw [tokenize_skip (raw errors remarks) hend (by rw [kept]; decide), rest, List.append_assoc]
    rfl
  | false =>
    rw [trivia] at kept
    rw [tokenize_keep (raw errors remarks) hend kept]
    change (_ :: (tokenize (between r limit f' below' [] remarks)).1,
      _ ++ (tokenize (between r limit f' below' [] remarks)).2) = _
    rw [rest [] remarks, ← List.append_assoc]
    simp [between]

theorem nextRaw_between {f : Frame} (below : List Frame) (errors : List LexError)
    (remarks : List String) (h : f.rest ≠ []) :
    (between r limit f below errors remarks).nextRaw
      = (between r limit f below errors remarks).scan := by
  have rest : (between r limit f below errors remarks).top.rest ≠ [] := h
  exact scanSources_of_rest rest

/-- The next lexeme, if it begins no directive. -/
theorem Reads.lexeme {f : Frame} {c : Char} {cs : List Char} {below : List Frame} {es : List Event}
    (hrest : f.rest = c :: cs) (plain : (Lexeme.scan .language c cs).kind ≠ .directive)
    (rest : Reads r limit (f.advance (Lexeme.scan .language c cs).width) below es) :
    Reads r limit f below (Event.ofStep (f.tokenOf (Lexeme.scan .language c cs))
      (f.wrongWith (Lexeme.scan .language c cs)) ++ es) := by
  refine rest.step (Lexeme.scan_kind_ne_endOfFile c cs) fun errors remarks => ?_
  rw [nextRaw_between below errors remarks (by simp [hrest]), scan]
  have top : (between r limit f below errors remarks).top.rest = c :: cs := hrest
  have profile : (between r limit f below errors remarks).profile = .language := rfl
  rw [top]
  dsimp only
  rw [profile, if_neg plain, Frame.wrongWith]
  split
  · rfl
  · rw [List.append_nil]
    rfl

/-- The phases of a directive of the language, and what is left of an include behind its name. -/
theorem scan_directive {c : Char} {cs : List Char}
    (h : (Lexeme.scan .language c cs).kind = .directive) :
    (Lexeme.scan .language c cs).phases = [includeBlanks, includeArgument] := by
  obtain ⟨d, hmem, hphases⟩ := (Lexeme.ordinary_scan c cs).2 h
  obtain rfl := List.mem_singleton.1 hmem
  exact hphases

theorem nextRaw_of_token {lx lx' : Lexer} {t : Token} (h : lx.runDirective = (some t, lx')) :
    lx.nextRaw = (t, lx') := by
  rw [nextRaw, h]

/-- A lexer whose directive makes no token goes on as one that is through with it. -/
theorem nextRaw_of_runDirective {lx lx' : Lexer} (h : lx.runDirective = (none, lx'))
    (through : lx'.directive = none) : lx.nextRaw = lx'.nextRaw := by
  have stays : lx'.runDirective = (none, lx') := by rw [runDirective, through]
  rw [nextRaw, nextRaw, h, stays]

/-- Outside of directives, and with no source requested, the sources are read. -/
theorem nextRaw_of_idle {lx : Lexer} (through : lx.directive = none) (idle : lx.pending = none) :
    lx.nextRaw = lx.scanSources := by
  have stays : lx.runDirective = (none, lx) := by rw [runDirective, through]
  rw [nextRaw, stays]
  dsimp only
  rw [enterPending, idle]

theorem enter_idle (lx : Lexer) (name : String) (place : Location) :
    (lx.enter name place).directive = lx.directive ∧
      (lx.enter name place).pending = lx.pending := by
  unfold enter
  split
  · exact ⟨rfl, rfl⟩
  · dsimp only
    split
    · exact ⟨rfl, rfl⟩
    · split <;> exact ⟨rfl, rfl⟩

section

variable {f : Frame} {below : List Frame} {errors : List LexError} {remarks : List String}
  {index : Nat}

/-- Inside a directive, with some phases to come. -/
def within (r : Option Resolver) (limit index : Nat) (phases : List DirectivePhase) (f : Frame)
    (below : List Frame) (errors : List LexError) (remarks : List String) : Lexer :=
  { between r limit f below errors remarks with directive := some ⟨index, phases⟩ }

theorem runPhases_pass {phase : DirectivePhase} {phases : List DirectivePhase} {lx : Lexer}
    (h : phase lx.top.rest = .pass) :
    runPhases index (phase :: phases) lx = runPhases index phases lx := by
  rw [runPhases, h]

theorem runPhases_produce {phase : DirectivePhase} {phases : List DirectivePhase} {lx : Lexer}
    {kind : TokenKind} {width : Nat} (h : phase lx.top.rest = .produce kind width)
    (wide : width ≠ 0) :
    runPhases index (phase :: phases) lx =
      (some ⟨kind, 0, String.ofList (lx.top.read width).1, lx.top.location, width, true⟩,
        { lx with top := lx.top.advance width, directive := some ⟨index, phases⟩ }) := by
  rw [runPhases, h]
  dsimp only
  rw [if_neg wide]
  rfl

/-- A fault of the word of an include is noted, and the directive is through. -/
theorem runPhases_reject {lx : Lexer} {width : Nat} {message : String}
    (h : includeArgument lx.top.rest = .reject width message) :
    runPhases index [includeArgument] lx = (none,
      { lx with
        top := lx.top.advance width
        errors := lx.errors ++ [.directive message lx.top.location width]
        directive := none }) := by
  rw [runPhases, h]
  dsimp only
  split <;> rfl

theorem tokenize_reject {width : Nat} {message : String}
    (h : includeArgument f.rest = .reject width message) :
    (within r limit index [includeArgument] f below errors remarks).tokenize
      = (between r limit (f.advance width) below
          (errors ++ [.directive message f.location width]) remarks).tokenize :=
  tokenize_congr (nextRaw_of_runDirective (runPhases_reject h) rfl) rfl

/-- The name of an include is an argument, and the source is requested. -/
theorem runPhases_request {lx : Lexer} {width : Nat} {name : String}
    (h : includeArgument lx.top.rest = .request width name) :
    runPhases index [includeArgument] lx =
      (some ⟨.directiveArg, index, name, lx.top.location, width, true⟩,
        { lx with
          top := lx.top.advance width
          directive := some ⟨index, []⟩
          pending := some (name, lx.top.location) }) := by
  rw [runPhases, h]

/-- The source that an include asks for is entered. -/
theorem tokenize_request {width : Nat} {name : String}
    (h : includeArgument f.rest = .request width name) :
    (within r limit index [includeArgument] f below errors remarks).tokenize
      = ((between r limit (f.advance width) below errors remarks).enter name f.location).tokenize := by
  let asking : Lexer :=
    { within r limit index [] (f.advance width) below errors remarks with
      pending := some (name, f.location) }
  have made : (within r limit index [includeArgument] f below errors remarks).runDirective
      = (some ⟨.directiveArg, index, name, f.location, width, true⟩, asking) :=
    runPhases_request h
  have skipped : ¬ LexerOptions.keeps { maxIncludeDepth := limit } .directiveArg = true := by
    rw [keeps_depth]
    decide
  rw [tokenize_skip (nextRaw_of_token made) nofun skipped]
  obtain ⟨through, idle⟩ :=
    enter_idle (between r limit (f.advance width) below errors remarks) name f.location
  have raw : asking.nextRaw
      = ((between r limit (f.advance width) below errors remarks).enter name
          f.location).scanSources := rfl
  exact tokenize_congr (raw.trans (nextRaw_of_idle through idle).symm)
    (enter_options (between r limit (f.advance width) below errors remarks) name f.location).symm

/-- The blanks behind a directive's name are skipped. -/
theorem tokenize_includeBlanks :
    (within r limit index [includeBlanks, includeArgument] f below errors remarks).tokenize
      = (within r limit index [includeArgument] f.afterBlanks below errors remarks).tokenize := by
  unfold Frame.afterBlanks
  generalize found : f.rest.takeWhile (fun c => isBlank c && c != '\n') = blanks
  cases blanks with
  | nil =>
    have pass : includeBlanks f.rest = .pass := by
      rw [includeBlanks, found]
      rfl
    rw [byteLength_nil, Frame.advance_zero]
    -- the blanks are passed over, and the word makes the same of both lexers
    have same : (within r limit index [includeBlanks, includeArgument] f below errors
        remarks).runDirective
        = (within r limit index [includeArgument] f below errors remarks).runDirective := by
      refine (runPhases_pass pass).trans ?_
      rcases includeArgument_cases f.rest with ⟨width, name, h⟩ | ⟨width, message, h⟩
      · exact (runPhases_request h).trans (runPhases_request h).symm
      · exact (runPhases_reject h).trans (runPhases_reject h).symm
    refine tokenize_congr ?_ rfl
    rw [nextRaw, nextRaw, same]
  | cons b bs =>
    have produce : includeBlanks f.rest = .produce .whitespace (byteLength (b :: bs)) := by
      rw [includeBlanks, found]
      rfl
    have wide : byteLength (b :: bs) ≠ 0 := by
      have := b.utf8Size_pos
      rw [byteLength_cons]
      omega
    have made : (within r limit index [includeBlanks, includeArgument] f below errors
        remarks).runDirective
        = (some ⟨.whitespace, 0, String.ofList (f.read (byteLength (b :: bs))).1, f.location,
            byteLength (b :: bs), true⟩,
          within r limit index [includeArgument] (f.advance (byteLength (b :: bs))) below errors
            remarks) :=
      runPhases_produce produce wide
    have skipped : ¬ LexerOptions.keeps { maxIncludeDepth := limit } .whitespace = true := by
      rw [keeps_depth]
      decide
    exact tokenize_skip (nextRaw_of_token made) nofun skipped

end

/-! ### From the pieces of a source to the end of it -/

/-- A lexeme outside of includes is met as the token that it makes and what is wrong with it. -/
theorem events_of_lexeme (asked : String → Location → List Event) (f : Frame) (l : Lexeme) :
    ((f.wrongWith l).map Piece.fault ++
        if l.kind.isTrivia then [] else [Piece.token (f.tokenOf l)]).flatMap (Piece.events asked)
      = Event.ofStep (f.tokenOf l) (f.wrongWith l) := by
  have faults : ((f.wrongWith l).map Piece.fault).flatMap (Piece.events asked)
      = (f.wrongWith l).map Event.error := by
    rw [List.flatMap_map, List.map_eq_flatMap]
    rfl
  rw [List.flatMap_append, faults, Event.ofStep]
  change _ = _ ++ if l.kind.isTrivia then [] else _
  cases l.kind.isTrivia <;> rfl

/-- Whichever source of that name is on top, what is read when another is requested is what the
request stands for, and then the rest. -/
def Splices (r : Option Resolver) (limit : Nat) (including : String) (below : List Frame)
    (asked : String → Location → List Event) : Prop :=
  ∀ (g : Frame) (name : String) (place : Location) (es : List Event), g.name = including →
    Reads r limit g below es → ReadsEntering r limit g below name place (asked name place ++ es)

section

variable {f : Frame} {below : List Frame} {asked : String → Location → List Event} {es : List Event}

/-- The next lexeme, if it begins an include. -/
theorem Reads.include {c : Char} {cs : List Char} (hrest : f.rest = c :: cs)
    (hkind : (Lexeme.scan .language c cs).kind = .directive)
    (splices : Splices r limit f.name below asked)
    (rest : Reads r limit (f.advance (Lexeme.scan .language c cs).width).afterBlanks.includePiece.2
      below es) :
    Reads r limit f below
      ((f.advance (Lexeme.scan .language c cs).width).afterBlanks.includePiece.1.events asked
        ++ es) := by
  intro errors remarks
  have raw : (between r limit f below errors remarks).nextRaw
      = (f.tokenOf (Lexeme.scan .language c cs),
        within r limit (Lexeme.scan .language c cs).code [includeBlanks, includeArgument]
          (f.advance (Lexeme.scan .language c cs).width) below errors remarks) := by
    have top : (between r limit f below errors remarks).top.rest = c :: cs := hrest
    have profile : (between r limit f below errors remarks).profile = .language := rfl
    have known : (Lexeme.scan .language c cs).kind ≠ .unknown := by rw [hkind]; nofun
    rw [nextRaw_between below errors remarks (by simp [hrest]), scan, top]
    dsimp only
    rw [profile, if_pos hkind, if_neg known, scan_directive hkind]
    rfl
  have hend : (f.tokenOf (Lexeme.scan .language c cs)).kind ≠ .endOfFile :=
    Lexeme.scan_kind_ne_endOfFile c cs
  have skipped : ¬ LexerOptions.keeps { maxIncludeDepth := limit }
      (Lexeme.scan .language c cs).kind = true := by
    rw [keeps_depth, hkind]
    decide
  rw [tokenize_skip raw hend skipped, tokenize_includeBlanks]
  have same : (f.advance (Lexeme.scan .language c cs).width).afterBlanks.name = f.name := by
    rw [Frame.afterBlanks_name, Frame.advance_name]
  generalize (f.advance (Lexeme.scan .language c cs).width).afterBlanks = g at rest same ⊢
  have word := includeArgument_eq g.rest
  unfold Frame.includePiece at rest ⊢
  split at rest
  · next width name found =>
    rw [found] at word
    rw [tokenize_request word]
    exact splices _ name g.location es ((g.advance_name width).trans same) rest errors remarks
  · next width message found =>
    rw [found] at word
    rw [tokenize_reject word, rest, List.append_assoc]
    rfl

/-- All pieces of the source on top are met, and then what comes behind it. -/
theorem Reads.pieces : ∀ {f : Frame}, Splices r limit f.name below asked →
    Reads r limit f.ended below es →
      Reads r limit f below (f.pieces.flatMap (Piece.events asked) ++ es) := by
  intro f
  induction f using Frame.pieces.induct with
  | case1 f hrest =>
    intro _ rest
    have ended : f.ended = f := by
      obtain ⟨cs, place⟩ := f
      subst hrest
      rfl
    rw [Frame.pieces_nil hrest]
    rwa [ended] at rest
  | case2 f c cs hrest l next hkind found ih =>
    intro splices rest
    have same : found.2.name = f.name := by simp [found, next]
    have ended : found.2.ended = f.ended := by simp [found, next]
    rw [Frame.pieces_directive hrest hkind, List.flatMap_cons, List.append_assoc]
    exact .include hrest hkind splices (ih (same ▸ splices) (ended ▸ rest))
  | case3 f c cs hrest l next hkind ih =>
    intro splices rest
    rw [Frame.pieces_lexeme hrest hkind, List.flatMap_append, List.append_assoc,
      events_of_lexeme]
    refine .lexeme hrest hkind (ih ?_ ?_)
    · rwa [Frame.advance_name]
    · rwa [Frame.ended_advance]

end

/-- The source that a resolver, if there is one, finds. -/
def sourceIn (r : Option Resolver) (name including : String) : Option SourceText :=
  r.bind fun r => (r.find name including).source

theorem isReading_between (r : Option Resolver) (limit : Nat) (f : Frame) (below : List Frame)
    (errors : List LexError) (remarks : List String) (name : String) :
    (between r limit f below errors remarks).isReading name = true ↔
      name ∈ f.name :: below.map Frame.name := by
  rw [isReading, List.any_eq_true, ← List.map_cons (f := Frame.name), List.mem_map]
  simp only [beq_iff_eq]
  rfl

/-- What becomes of a request: an error, or a new source on top. -/
theorem enter_between (r : Option Resolver) (limit : Nat) (f : Frame) (below : List Frame)
    (errors : List LexError) (remarks : List String) (name : String) (place : Location) :
    ∃ remarks', (between r limit f below errors remarks).enter name place =
      if limit ≤ below.length then
        between r limit f below (errors ++ [.includeTooDeep name limit place]) remarks'
      else
        match sourceIn r name f.name with
        | none => between r limit f below (errors ++ [.includeNotFound name place]) remarks'
        | some s =>
          if s.name ∈ f.name :: below.map Frame.name then
            between r limit f below (errors ++ [.includeCycle name place]) remarks'
          else between r limit (.start s.name s.text) (f :: below) errors remarks' := by
  by_cases full : limit ≤ below.length
  · refine ⟨remarks, ?_⟩
    rw [if_pos full]
    exact if_pos full
  · refine ⟨remarks ++ ((between r limit f below errors remarks).search name).remarks, ?_⟩
    have found : ((between r limit f below errors remarks).search name).source
        = sourceIn r name f.name := by
      cases r <;> rfl
    rw [if_neg full, enter, ← found]
    refine (if_neg full).trans ?_
    dsimp only
    cases ((between r limit f below errors remarks).search name).source with
    | none => rfl
    | some s =>
      dsimp only
      exact if_congr (isReading_between r limit f below errors _ s.name) rfl rfl

/-- A requested source is read as it is spliced in: the levels left and the stack make up the limit,
and the names on the stack are those being expanded. -/
theorem splices_splice : ∀ (levels : Nat) (including : String) (below : List Frame),
    below.length + levels = limit →
      Splices r limit including below
        (splice (sourceIn r) limit levels including (below.map Frame.name)) := by
  intro levels
  induction levels with
  | zero =>
    intro _ below room g name place es _ rest errors remarks
    obtain ⟨remarks', entered⟩ := enter_between r limit g below errors remarks
      name place
    rw [if_pos (by omega)] at entered
    rw [entered, rest, List.append_assoc]
    rfl
  | succ levels ih =>
    rintro _ below room g name place es rfl rest errors remarks
    obtain ⟨remarks', entered⟩ := enter_between r limit g below errors remarks
      name place
    rw [if_neg (by omega)] at entered
    rw [entered, splice]
    cases sourceIn r name g.name with
    | none =>
      dsimp only
      rw [rest, List.append_assoc]
      rfl
    | some s =>
      dsimp only
      split
      · rw [rest, List.append_assoc]
        rfl
      · -- the source is read to its end, and then the one below goes on
        have inside : Splices r limit s.name (g :: below) _ :=
          ih s.name (g :: below) (by rw [List.length_cons]; omega)
        exact Reads.pieces (f := .start s.name s.text) inside (rest.leave _) errors remarks'

/-- The lexer of the language before a source, under its own options but for the depth of includes. -/
def ofSource (r : Option Resolver) (limit : Nat) (s : SourceText) : Lexer :=
  { ofText .language s.name s.text with
    resolver := r
    options := { maxIncludeDepth := limit } }

theorem tokenize_ofSource (r : Option Resolver) (limit : Nat) (s : SourceText) :
    (ofSource r limit s).tokenize =
      ((expansion (sourceIn r) limit s).filterMap Event.token?
          ++ [.endOfFile (Frame.locationAfter (.startOf s.name) s.text.toList)],
        (expansion (sourceIn r) limit s).filterMap Event.error?) := by
  have whole : Reads r limit (.start s.name s.text) [] _ :=
    Reads.pieces (splices_splice limit s.name [] (by rw [List.length_nil, Nat.zero_add]))
      (reads_end _)
  have read := whole [] []
  rw [List.filterMap_append, List.filterMap_append] at read
  exact read.trans (congrArg _ (List.append_nil _))

end Lexer

/-! ### Counting -/

/-- What an event counts, if a token counts `t`, and an error or a source `e`. -/
def Event.weight (t e : Nat) : Event → Nat
  | .token _ => t
  | .error _ | .entered _ => e

/-- What a piece counts by itself: an include counts as the one thing that stands for it. -/
def Piece.weight (t e : Nat) : Piece → Nat
  | .token _ => t
  | .fault _ | .asked _ _ => e

def SourceText.weight (t e : Nat) (s : SourceText) : Nat := (s.pieces.map (Piece.weight t e)).sum

namespace Event

/-- The sources whose texts are met. -/
def sources (es : List Event) : List SourceText := es.filterMap source?

/-- What some events count. -/
def total (t e : Nat) (es : List Event) : Nat := (es.map (weight t e)).sum

/-- What the sources that are met count by themselves. -/
def ownTotal (t e : Nat) (es : List Event) : Nat := ((sources es).map (SourceText.weight t e)).sum

variable {t e : Nat}

theorem total_append (es es' : List Event) : total t e (es ++ es') = total t e es + total t e es' := by
  rw [total, List.map_append, List.sum_append, total, total]

theorem ownTotal_append (es es' : List Event) :
    ownTotal t e (es ++ es') = ownTotal t e es + ownTotal t e es' := by
  rw [ownTotal, sources, List.filterMap_append, List.map_append, List.sum_append, ownTotal, ownTotal,
    sources, sources]

theorem total_cons (x : Event) (es : List Event) : total t e (x :: es) = x.weight t e + total t e es :=
  rfl

theorem total_tokens (es : List Event) : total 1 0 es = (es.filterMap token?).length := by
  induction es with
  | nil => rfl
  | cons x es ih =>
    rw [total_cons, ih]
    cases x <;> simp [List.filterMap_cons, weight, token?, Nat.add_comm]

theorem total_errors (es : List Event) :
    total 0 1 es = (es.filterMap error?).length + (sources es).length := by
  induction es with
  | nil => rfl
  | cons x es ih =>
    rw [total_cons, ih]
    cases x <;> simp [List.filterMap_cons, weight, error?, sources, source?] <;> omega

end Event

section

variable {t e : Nat}

open Event (total ownTotal)

/-- The pieces of a source count by themselves, and what is included counts for the sources in it. -/
theorem total_pieces {asked : String → Location → List Event}
    (h : ∀ name place, total t e (asked name place) = ownTotal t e (asked name place) + e)
    (ps : List Piece) : total t e (ps.flatMap (Piece.events asked)) =
      (ps.map (Piece.weight t e)).sum + ownTotal t e (ps.flatMap (Piece.events asked)) := by
  induction ps with
  | nil => rfl
  | cons p ps ih =>
    rw [List.flatMap_cons, Event.total_append, ih, Event.ownTotal_append, List.map_cons, List.sum_cons]
    have one : total t e (p.events asked) = p.weight t e + ownTotal t e (p.events asked) := by
      cases p with
      | token t => rfl
      | fault e => rfl
      | asked name place =>
        rw [Piece.events, h, Nat.add_comm]
        rfl
    omega

theorem total_entered {asked : String → Location → List Event}
    (h : ∀ name place, total t e (asked name place) = ownTotal t e (asked name place) + e)
    (s : SourceText) : total t e (.entered s :: s.pieces.flatMap (Piece.events asked)) =
      ownTotal t e (.entered s :: s.pieces.flatMap (Piece.events asked)) + e := by
  have own (es : List Event) : ownTotal t e (.entered s :: es) = s.weight t e + ownTotal t e es := rfl
  rw [Event.total_cons, own, total_pieces h, Event.weight, SourceText.weight]
  omega

variable (find : (name including : String) → Option SourceText) (limit : Nat)

theorem total_splice : ∀ (levels : Nat) (including : String) (outer : List String) (name : String)
    (place : Location), total t e (splice find limit levels including outer name place) =
      ownTotal t e (splice find limit levels including outer name place) + e := by
  intro levels
  induction levels with
  | zero =>
    intro _ _ _ _
    exact (Nat.zero_add e).symm
  | succ levels ih =>
    intro including outer name place
    rw [splice]
    split
    · exact (Nat.zero_add e).symm
    · split
      · exact (Nat.zero_add e).symm
      · exact total_entered (ih _ _) _

/-- Everything that is met comes from the texts that are met, and each of these but the first stands
for an include. -/
theorem total_expansion (s : SourceText) :
    total t e (expansion find limit s) = ownTotal t e (expansion find limit s) + e :=
  total_entered (total_splice find limit limit s.name []) s

end

/-- The only source met in a text that includes nothing is the text. -/
theorem sources_expansion_zero (find : String → String → Option SourceText) (s : SourceText) :
    Event.sources (expansion find 0 s) = [s] := by
  have inside : Event.sources (s.pieces.flatMap (Piece.events (splice find 0 0 s.name []))) = [] := by
    rw [Event.sources, List.filterMap_flatMap, List.flatMap_eq_nil_iff]
    intro p _
    cases p <;> rfl
  exact congrArg (s :: ·) inside

namespace Lexer

/-- What a text by itself is read as: its own tokens and the end, and its own faults with one error
for each include. -/
theorem length_tokenize_alone (s : SourceText) :
    (ofSource none 0 s).tokenize.1.length = s.weight 1 0 + 1 ∧
      (ofSource none 0 s).tokenize.2.length = s.weight 0 1 := by
  have tokens := total_expansion (t := 1) (e := 0) (sourceIn none) 0 s
  have errors := total_expansion (t := 0) (e := 1) (sourceIn none) 0 s
  rw [Event.ownTotal, sources_expansion_zero, Event.total_tokens] at tokens
  rw [Event.ownTotal, sources_expansion_zero, Event.total_errors, sources_expansion_zero] at errors
  rw [tokenize_ofSource, List.length_append, tokens]
  simp only [List.map_cons, List.map_nil, List.sum_cons, List.sum_nil, List.length_cons,
    List.length_nil] at errors ⊢
  omega

/-- The lexer gives out the tokens of the expansion of the root, and then one end of file at the end
of the root; its errors are those of the expansion.  So it gives out as many tokens as the sources that
are met, each read by itself, and every include is met as a source or as one error. -/
theorem includes_splice (r : Option Resolver) (limit : Nat) (s : SourceText) :
    let es := expansion (sourceIn r) limit s
    (ofSource r limit s).tokenize =
        (es.filterMap Event.token? ++
          [.endOfFile (Frame.locationAfter (.startOf s.name) s.text.toList)],
        es.filterMap Event.error?) ∧
      (ofSource r limit s).tokenize.1.length =
        ((Event.sources es).map fun s => (ofSource none 0 s).tokenize.1.length - 1).sum + 1 ∧
      (ofSource r limit s).tokenize.2.length + (Event.sources es).length =
        ((Event.sources es).map fun s => (ofSource none 0 s).tokenize.2.length).sum + 1 := by
  intro es
  have read := tokenize_ofSource r limit s
  have tokens : Event.total 1 0 es = Event.ownTotal 1 0 es + 0 := total_expansion _ limit s
  have errors : Event.total 0 1 es = Event.ownTotal 0 1 es + 1 := total_expansion _ limit s
  rw [Event.total_tokens] at tokens
  rw [Event.total_errors] at errors
  refine ⟨read, ?_, ?_⟩
  · rw [read, List.length_append, tokens, Event.ownTotal]
    simp only [(length_tokenize_alone _).1, Nat.add_sub_cancel]
    rfl
  · rw [read, errors, Event.ownTotal]
    simp only [(length_tokenize_alone _).2]

/-- Sources kept in a table are found under their names, whoever asks. -/
example (table : List (String × String)) (name including : String) :
    sourceIn (some (.ofTable table)) name including =
      (table.lookup name).map fun text => ⟨name, text⟩ := rfl

end Lexer

end ScriptLang
