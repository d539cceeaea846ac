import ScriptLang.Native.Library
import ScriptLang.Proofs.ModuleParsing
import ScriptLang.Proofs.Requests
import ScriptLang.Session.State

/-!
# Sessions on texts

A session on a text parses without a resolver.  So every source that the text asks for is reported as
missing, wherever it could be found, and a session on a text agrees with one on a file of the same
text exactly as far as the text asks for nothing (`Session.text_finds_nothing`).
-/

namespace ScriptLang

namespace Syntax

/-! ### Reading a text -/

/-- The end of file comes last. -/
theorem endsOnce_drain (lx : Lexer) : TokenReader.EndsOnce (lx.drain.1.map Prod.fst) := by
  induction lx using Lexer.drain.induct with
  | case1 lx t lx' h hend =>
    rw [Lexer.drain_of_end h hend]
    exact ⟨fun _ => rfl, trivial⟩
  | case2 lx t lx' h hend kept tokens last hdrain ih =>
    rw [Lexer.drain_of_kept h hend kept]
    exact ⟨fun last => absurd (beq_iff_eq.1 last) hend, ih⟩
  | case3 lx t lx' h hend skipped ih =>
    rw [Lexer.drain_of_skipped h hend skipped]
    exact ih

/-- The lexer before the text of a source. -/
def lexerOf (options : ParseOptions) (name text : String) : Lexer :=
  { Lexer.ofText .language name text with options := options.lexer, resolver := options.resolver }

/-- The parser before the text of a source. -/
def startOf (options : ParseOptions) (name text : String) : ParserState :=
  { reader := .ofLexer (lexerOf options name text), limit := options.maxNesting }

theorem lone_lexerOf {options : ParseOptions} (closed : options.resolver = none)
    (name text : String) : (lexerOf options name text).Lone :=
  ⟨rfl, closed, rfl, .outside⟩

/-! ### Requests -/

/-- The source that could not be found, and where it was asked for. -/
def ParseError.notFound? : ParseError → Option (String × Location)
  | .importNotFound name l => some (name, l)
  | .lex e => e.notFound?
  | _ => none

/-- The sources that the includes of a text ask for, and where. -/
def includesOf (options : ParseOptions) (name text : String) : List (String × Location) :=
  (lexerOf { options with lexer := { options.lexer with directives := true }, resolver := none }
    name text).tokenize.1.flatMap Token.asked

/-- The sources that the imports of a text ask for, and where. -/
def importsOf (options : ParseOptions) (name text : String) : List (String × Location) :=
  (parseText { options with resolver := none } name text).program.modules.flatMap fun m =>
    (ProgramParser.importsOf m).map fun i => (i.name, i.location)

/-- The sources that are looked for in parsing a text: none for includes if these may not nest. -/
def requestsOf (options : ParseOptions) (name text : String) : List (String × Location) :=
  (if options.lexer.maxIncludeDepth = 0 then [] else includesOf options name text) ++
    importsOf options name text

/-! ### Parsing without a resolver -/

variable {options : ParseOptions}

theorem unreported_startOf (options : ParseOptions) (name text : String) :
    (startOf options name text).reader.unreported =
      (lexerOf options name text).drain.1.flatMap Prod.snd := rfl

/-- The first source that is parsed. -/
theorem parseModule_of_run {name text : String} {m : Module} {s' : ParserState}
    (h : (Parser.module name).run.run (startOf options name text) = (.ok m, s')) :
    ProgramParser.parseModule { options } name text =
      ({ options
         modules := [m]
         errors := s'.errors
         remarks := (lexerOf options name text).drain.2.remarks
         nextId := s'.nextId
         seen := [name] }, ProgramParser.importsOf m) := by
  unfold startOf lexerOf at h
  unfold ProgramParser.parseModule
  dsimp only at h ⊢
  rw [h]
  rfl

/-- A text is one module, and none of its imports is found. -/
theorem parseText_closed (closed : options.resolver = none) (name text : String) :
    ∃ m s', (Parser.module name).run.run (startOf options name text) = (.ok m, s') ∧
      parseText options name text =
        ⟨⟨[m]⟩,
          s'.errors ++ (ProgramParser.importsOf m).map fun i => .importNotFound i.name i.location,
          (lexerOf options name text).drain.2.remarks⟩ := by
  have ends : TokenReader.EndsOnce (startOf options name text).reader.toList := endsOnce_drain _
  obtain ⟨m, s', hrun, -⟩ := exists_run_module ends name
  refine ⟨m, s', hrun, ?_⟩
  unfold parseText ProgramParser.parseRoot
  rw [if_neg List.not_mem_nil, parseModule_of_run hrun]
  dsimp only
  unfold ProgramParser.follow
  rw [closed]
  rfl

theorem notFound_ofLex (e : LexError) : (ParseError.ofLex e).notFound? = e.notFound? := by
  cases e <;> rfl

theorem filterMap_notFound_ofLex (es : List LexError) :
    (es.map ParseError.ofLex).filterMap ParseError.notFound? = es.filterMap LexError.notFound? := by
  rw [List.filterMap_map]
  exact List.filterMap_congr fun e _ => notFound_ofLex e

theorem notFound_of_isSyntactic (e : ParseError) (own : e.IsSyntactic) : e.notFound? = none := by
  cases e with
  | importNotFound name l => exact own.elim
  | unreadable path message => exact own.elim
  | lex e => exact own.elim
  | _ => rfl

/-- The includes of a text are found missing in reading it. -/
theorem notFound_lexerOf (closed : options.resolver = none) (name text : String) :
    ((lexerOf options name text).drain.1.flatMap Prod.snd).filterMap LexError.notFound? =
      if options.lexer.maxIncludeDepth = 0 then [] else includesOf options name text := by
  let marked : Lexer := lexerOf { options with
    lexer := { options.lexer with directives := true }, resolver := none } name text
  have lone : marked.Lone := lone_lexerOf rfl name text
  have like : Lexer.Like id (lexerOf options name text) marked :=
    ⟨rfl, rfl, rfl, rfl, rfl, rfl, rfl⟩
  have nothing : (lexerOf options name text).missing = [] := Lexer.lookedFor_nil
  have tokens : includesOf options name text = Lexer.asked marked.drain.1 := List.flatMap_map _ _ _
  rw [Lexer.notFound_drain (lone_lexerOf closed name text) lone like rfl, nothing, tokens]
  rfl

/-- Every source that a text asks for is reported as missing, and no other. -/
theorem notFound_parseText (closed : options.resolver = none) (name text : String) :
    (parseText options name text).errors.filterMap ParseError.notFound? =
      requestsOf options name text := by
  obtain ⟨m, s', hrun, hparse⟩ := parseText_closed closed name text
  have same : { options with resolver := none } = options := by rw [← closed]
  have imported : importsOf options name text =
      (ProgramParser.importsOf m).map fun i => (i.name, i.location) := by
    rw [importsOf, same, hparse]
    exact List.append_nil _
  have reported : s'.errors.filterMap ParseError.notFound? =
      if options.lexer.maxIncludeDepth = 0 then [] else includesOf options name text := by
    have errors := errors_module notFound_of_isSyntactic
      (s := startOf options name text) (endsOnce_drain (lexerOf options name text)) name
    rw [hrun, unreported_startOf, List.filterMap_append, filterMap_notFound_ofLex,
      notFound_lexerOf closed] at errors
    exact errors
  rw [hparse, requestsOf, imported, List.filterMap_append, reported, List.filterMap_map]
  congr 1
  exact congrFun List.filterMap_eq_map _

/-- What parsing a text comes to, if it is read in at most `n` steps. -/
def parseWithin (n : Nat) (options : ParseOptions) (name text : String) : Option ParseOutcome :=
  match Lexer.drainWithin n (lexerOf options name text) with
  | none => none
  | some (tokens, lx) =>
    let last := (tokens.getLast?.map Prod.fst).getD default
    let (result, s) := (Parser.module name).run.run
      { reader := { rest := tokens, last, remarks := lx.remarks }, limit := options.maxNesting }
    match result with
    | .error _ => none
    | .ok m =>
      some ⟨⟨[m]⟩, s.errors ++
        (ProgramParser.importsOf m).map fun i => .importNotFound i.name i.location, lx.remarks⟩

theorem parseText_of_parseWithin (closed : options.resolver = none) {n : Nat} {name text : String}
    {o : ParseOutcome} (h : parseWithin n options name text = some o) :
    parseText options name text = o := by
  obtain ⟨m, s', hrun, hparse⟩ := parseText_closed closed name text
  unfold parseWithin at h
  split at h
  · cases h
  · next tokens lx hdrain =>
    rw [startOf, TokenReader.ofLexer, Lexer.drain_of_drainWithin hdrain] at hrun
    dsimp only at hrun h
    rw [hrun] at h
    cases h
    rw [hparse, Lexer.drain_of_drainWithin hdrain]

/-- What a text is parsed to is found out in a bounded number of steps. -/
theorem parseText_of_any (closed : options.resolver = none) (n : Nat) {name text : String}
    {P : ParseOutcome → Prop} [DecidablePred P]
    (h : ((parseWithin n options name text).any fun o => decide (P o)) = true) :
    P (parseText options name text) := by
  obtain ⟨o, ho, hP⟩ := (Option.any_eq_true _ _).1 h
  rw [parseText_of_parseWithin closed ho]
  exact of_decide_eq_true hP

/-! ### The same text in a file -/

theorem drain_ne_nil (lx : Lexer) : lx.drain.1 ≠ [] := by
  induction lx using Lexer.drain.induct with
  | case1 lx t lx' h hend => rw [Lexer.drain_of_end h hend]; exact List.cons_ne_nil _ _
  | case2 lx t lx' h hend kept tokens last hdrain ih =>
    rw [Lexer.drain_of_kept h hend kept]
    exact List.cons_ne_nil _ _
  | case3 lx t lx' h hend skipped ih => rw [Lexer.drain_of_skipped h hend skipped]; exact ih

/-- A text that asks for nothing is read with any resolver as it is without one. -/
theorem drain_lexerOf (closed : options.resolver = none) {name text : String}
    (found : requestsOf options name text = []) (resolver : Option Resolver) (file : String) :
    (lexerOf { options with resolver } file text).drain.1 =
        relocate (Location.inFile file) (lexerOf options name text).drain.1 ∧
      (lexerOf { options with resolver } file text).drain.2.remarks = [] := by
  have like : Lexer.Like (Location.inFile file) (lexerOf options name text)
      (lexerOf { options with resolver } file text) := ⟨rfl, rfl, rfl, rfl, rfl, rfl, rfl⟩
  refine Lexer.drain_like (along_inFile file) (lone_lexerOf closed name text) like rfl rfl ?_
  rw [notFound_lexerOf closed]
  exact (List.append_eq_nil_iff.1 found).1

theorem remarks_lexerOf (closed : options.resolver = none) {name text : String}
    (found : requestsOf options name text = []) :
    (lexerOf options name text).drain.2.remarks = [] := by
  have same : { options with resolver := none } = options := by rw [← closed]
  have h := (drain_lexerOf closed found none name).2
  rwa [same] at h

/-- The last token read by a reader is where its tokens are. -/
theorem startOf_relocate (closed : options.resolver = none) {name text : String}
    (found : requestsOf options name text = []) (resolver : Option Resolver) (file : String) :
    startOf { options with resolver } file text =
      relocate (Location.inFile file) (startOf options name text) := by
  obtain ⟨hdrain, hremarks⟩ := drain_lexerOf closed found resolver file
  have hlast : ∀ ts : List (Token × List LexError), ts ≠ [] →
      ((relocate (Location.inFile file) ts).getLast?.map Prod.fst).getD default =
        relocate (Location.inFile file) ((ts.getLast?.map Prod.fst).getD default) := by
    intro ts hts
    change (((ts.map _).getLast?.map Prod.fst).getD default : Token) = _
    rw [List.getLast?_map, List.getLast?_eq_some_getLast hts]
    rfl
  unfold startOf TokenReader.ofLexer
  dsimp only
  rw [hdrain, hremarks, hlast _ (drain_ne_nil _), ← remarks_lexerOf closed found]
  rfl

theorem isDirectory_of_readText {fs : FileSystem} {path text : String}
    (h : fs.readText path = .ok text) : fs.isDirectory path = false := by
  unfold FileSystem.readText at h
  unfold FileSystem.isDirectory
  cases hlookup : fs.lookup path with
  | error e => rfl
  | ok found =>
    obtain ⟨place, node⟩ := found
    rw [hlookup] at h
    cases node with
    | directory => exact nomatch h
    | file content => rfl

theorem importsOf_relocate {m : Module} (h : ProgramParser.importsOf m = []) (name : String)
    (f : Location → Location) : ProgramParser.importsOf ⟨name, relocate f m.items⟩ = [] := by
  refine List.filterMap_eq_nil_iff.2 fun i hi => ?_
  obtain ⟨j, hj, rfl⟩ := List.mem_map.1 hi
  have h' := List.filterMap_eq_nil_iff.1 h j hj
  obtain ⟨node, kind⟩ := j
  cases kind with
  | imported name => exact nomatch h'
  | _ => rfl

/-- A file of a text that asks for nothing is parsed like the text. -/
theorem parseTarget_eq {fs : FileSystem} {path name text : String} (closed : options.resolver = none)
    (readable : fs.readText path = .ok text)
    (found : requestsOf options name text = []) :
    parseTarget fs options path = (parseText options name text).inFile (fs.canonical path) := by
  obtain ⟨m, s', hrun, hparse⟩ := parseText_closed closed name text
  have noImports : ProgramParser.importsOf m = [] := by
    have same : { options with resolver := none } = options := by rw [← closed]
    have h := (List.append_eq_nil_iff.1 found).2
    rw [importsOf, same, hparse] at h
    exact List.map_eq_nil_iff.1 ((List.append_nil _).symm.trans h)
  have moved := run_module_relocate (Location.inFile (fs.canonical path)) hrun (fs.canonical path)
  rw [← startOf_relocate closed found (some (.ofFiles fs options.includePaths))] at moved
  have noImports' : ProgramParser.importsOf
      ⟨fs.canonical path, relocate (Location.inFile (fs.canonical path)) m.items⟩ = [] :=
    importsOf_relocate noImports _ _
  have asFile : parseTarget fs options path = (ProgramParser.parseFile fs
      { options := { options with resolver := some (.ofFiles fs options.includePaths) } }
      path).outcome := by
    unfold parseTarget
    rw [isDirectory_of_readText readable, closed]
    rfl
  have nothingToFollow (p : ProgramParser) (h : p.options.resolver ≠ none) : p.follow [] = p := by
    unfold ProgramParser.follow
    split
    · rw [ProgramParser.followWith]
    · next hnone => exact absurd hnone h
  rw [asFile, ProgramParser.parseFile, readable]
  dsimp only
  rw [ProgramParser.parseRoot, if_neg List.not_mem_nil, parseModule_of_run moved, noImports', hparse,
    noImports]
  dsimp only
  rw [nothingToFollow _ (Option.some_ne_none _), ProgramParser.outcome,
    (drain_lexerOf closed found _ _).2, remarks_lexerOf closed found, ParseOutcome.inFile,
    List.map_nil, List.append_nil]
  rfl

end Syntax

namespace Session

/-- The stage of parsing, in a new session on a source, comes to this: it fails with these errors, or
leaves this program. -/
def Parses (s : Session) (source : Source) (outcome : Syntax.ParseOutcome) : Prop :=
  let (answer, s') := (s.load source).2.advance
  if outcome.errors = [] then answer = .ok .parse ∧ s'.parsed = some outcome.program
  else answer = .error (.stageFailed .parse (outcome.errors.map .ofError))

theorem parse_spec {s : Session} {source : Source} (h : s.source = some source) :
    if (s.parseSource source).errors = [] then
      s.parse.1 = .ok () ∧ s.parse.2.parsed = some (s.parseSource source).program
    else s.parse.1 = .error ((s.parseSource source).errors.map .ofError) := by
  unfold parse
  rw [h]
  dsimp only
  cases (s.parseSource source).errors with
  | nil => exact ⟨rfl, rfl⟩
  | cons e es => rfl

/-- The stage of parsing gives what the source is parsed to, announced or not. -/
theorem perform_parse {s : Session} {source : Source} (h : s.source = some source) :
    if (s.parseSource source).errors = [] then
      (s.perform .parse).1 = .ok .parse ∧
        (s.perform .parse).2.parsed = some (s.parseSource source).program
    else (s.perform .parse).1 =
      .error (.stageFailed .parse ((s.parseSource source).errors.map .ofError)) := by
  unfold perform
  dsimp only
  generalize hentered : ({ (if s.announces .parse then
    (s.announce .stageInit .parse).announce .stageStart .parse else s) with
      stage := .parse } : Session) = entered
  have hsource : entered.source = some source := by
    rw [← hentered]
    dsimp only
    split <;> exact h
  have hparse : entered.parseSource source = s.parseSource source := by
    rw [← hentered]
    cases source <;> dsimp only <;> split <;> rfl
  have spec := parse_spec hsource
  rw [hparse] at spec
  rw [show entered.work .parse = entered.parse from rfl]
  generalize entered.parse = r at spec ⊢
  obtain ⟨r, t⟩ := r
  split at spec
  · next hnil =>
    obtain ⟨rfl, hparsed⟩ := spec
    rw [if_pos hnil]
    refine ⟨rfl, ?_⟩
    dsimp only
    split <;> exact hparsed
  · next hne =>
    obtain rfl := spec
    rw [if_neg hne]

theorem parses_ofConfig (config : Config) (files : FileSystem) (bridge : Native.Bridge) (fuel : Nat)
    (source : Source) :
    (ofConfig config files bridge fuel).Parses source
      ((ofConfig config files bridge fuel).parseSource source) := by
  let s : Session := { ofConfig config files bridge fuel with source := some source }
  have h : s.source = some source := rfl
  exact perform_parse h

/-- A session on a text parses it alike whatever files there are.  It reports every source that the
text asks for as missing, and no other; and where the text asks for none, a session on a file of that
text comes to the same as the session on the text, up to the name of the source. -/
theorem text_finds_nothing (config : Config) (files : FileSystem) (bridge : Native.Bridge)
    (fuel : Nat) (name text : String) :
    let outcome := Syntax.parseText config.parseOptions name text
    (ofConfig config files bridge fuel).Parses (.text name text) outcome ∧
      outcome.errors.filterMap Syntax.ParseError.notFound? =
        Syntax.requestsOf config.parseOptions name text ∧
      (Syntax.requestsOf config.parseOptions name text = [] →
        ∀ path, files.readText path = .ok text →
          (ofConfig config files bridge fuel).Parses (.path path)
            (outcome.inFile (files.canonical path))) := by
  refine ⟨parses_ofConfig config files bridge fuel (.text name text),
    Syntax.notFound_parseText rfl name text, fun found path readable => ?_⟩
  rw [← Syntax.parseTarget_eq rfl readable found]
  exact parses_ofConfig config files bridge fuel (.path path)

/-- A program, and a library in a directory of its own. -/
def programAndLibrary : FileSystem where
  entries := [(["main.scribble"], .file "func main() {}".toUTF8),
    (["lib", "a.scribble"], .file "func f() {}".toUTF8)]

/-- Settings under which the library can be found. -/
def findingLibrary : Config := { includePaths := ["lib"] }

/-- The program asks for nothing, so that its text is parsed like its file.  A text that includes and
imports the library misses it twice, although the file is there. -/
theorem programAndLibrary_sessions :
    (ofConfig findingLibrary programAndLibrary .platform 9).Parses (.path "main.scribble")
        ((Syntax.parseText findingLibrary.parseOptions "t" "func main() {}").inFile
          "/main.scribble") ∧
      programAndLibrary.readText "lib/a.scribble" = .ok "func f() {}" ∧
      (Syntax.parseText findingLibrary.parseOptions "t"
        "$include \"a.scribble\"\nimport a;").errors.filterMap Syntax.ParseError.notFound? =
          [("a.scribble", ⟨"t", 9, 1, 10⟩), ("a", ⟨"t", 22, 2, 1⟩)] := by
  have asksForNothing :
      Syntax.requestsOf findingLibrary.parseOptions "t" "func main() {}" = [] := by
    rw [← Syntax.notFound_parseText rfl]
    exact Syntax.parseText_of_any (P := fun o => o.errors.filterMap Syntax.ParseError.notFound? = [])
      rfl 9 (by decide +kernel)
  refine ⟨?_, by decide +kernel, ?_⟩
  · exact (text_finds_nothing findingLibrary programAndLibrary .platform 9 "t"
      "func main() {}").2.2 asksForNothing "main.scribble" (by decide +kernel)
  · exact Syntax.parseText_of_any
      (P := fun o => o.errors.filterMap Syntax.ParseError.notFound? =
        [("a.scribble", ⟨"t", 9, 1, 10⟩), ("a", ⟨"t", 22, 2, 1⟩)]) rfl 9 (by decide +kernel)

end Session

end ScriptLang
