import ScriptLang.Proofs.SourceRequests

/-!
# Who asks for a source

The program that sources are parsed to depends on the answers to some requests alone: those that the
includes of the sources make in reading, and those that the imports of their modules make
(`parseText_resolvedBy`).  A request of the first kind is made for the source that it is written in, and
one of the second kind for the source of the module, so that a file is looked for next to the file that
asks for it unless that one is included and asks for an import (`requests_written`).
-/

namespace ScriptLang

/-- Two resolvers answer the request alike. -/
def SourceRequest.Same (q : SourceRequest) (r r' : Resolver) : Prop :=
  r'.find q.name q.including = r.find q.name q.including

/-! ### Reading with another resolver -/

namespace Lexer

/-- The lexer with another resolver. -/
def resolvedBy (r : Resolver) (lx : Lexer) : Lexer := { lx with resolver := some r }

/-- What is asked of the resolver in reading on. -/
def Asks (lx : Lexer) (q : SourceRequest) : Prop := ∃ n, (lx.after n).request? = some q

variable {lx next : Lexer} {r r' : Resolver} {q : SourceRequest}

theorem Asks.of_turn (h : lx.turn.2.Asks q) : lx.Asks q := by
  obtain ⟨n, asked⟩ := h
  exact ⟨n + 1, asked⟩

theorem Asks.of_raw {t : Token} (raw : lx.nextRaw = (t, next)) (h : next.Asks q) : lx.Asks q := by
  obtain ⟨n, none, step⟩ := exists_turns_of_raw raw
  obtain ⟨m, asked⟩ := h
  refine ⟨n + (m + 1), ?_⟩
  rw [(made_nextRaw none step m).1]
  exact asked

theorem after_resolver (n : Nat) (lx : Lexer) : (lx.after n).resolver = lx.resolver := by
  induction n generalizing lx with
  | zero => rfl
  | succ n ih => exact (ih lx.turn.2).trans lx.turn_setup.2

theorem asks_noting (es : List LexError) : (lx.noting es).Asks q ↔ lx.Asks q := by
  have same (n : Nat) : ((lx.noting es).after n).request? = (lx.after n).request? := by
    rw [after_noting]
    rfl
  exact exists_congr fun n => by rw [same]

/-- A turn sees of the resolver the answer to its request. -/
theorem turn_resolvedBy (search : lx.resolver = some r)
    (same : ∀ q, lx.request? = some q → q.Same r r') :
    (lx.resolvedBy r').turn = (lx.turn.1, lx.turn.2.resolvedBy r') := by
  refine turn_beside [] (fun _ => some r') lx fun p through asked room => ?_
  change r'.find p.1 lx.top.name = _
  rw [Lexer.search, search]
  refine same ⟨p.1, lx.top.name, p.2⟩ ?_
  rw [request?, through, asked]
  exact if_pos room

theorem turns_resolvedBy (search : lx.resolver = some r) (same : ∀ q, lx.Asks q → q.Same r r')
    (n : Nat) : (lx.resolvedBy r').after n = (lx.after n).resolvedBy r' ∧
      (lx.resolvedBy r').made n = lx.made n := by
  induction n generalizing lx with
  | zero => exact ⟨rfl, rfl⟩
  | succ n ih =>
    have first := turn_resolvedBy search fun q asked => same q ⟨0, asked⟩
    obtain ⟨places, tokens⟩ := ih (lx.turn_setup.2.trans search) fun q h => same q h.of_turn
    refine ⟨?_, ?_⟩
    · rw [after, first]
      exact places
    · rw [made_succ, made_succ, first, tokens]

/-- The turns up to the first token make it. -/
theorem nextRaw_of_turns {t : Token} {n : Nat} (none : lx.made n = [])
    (step : (lx.after n).turn = (.made t, next)) : lx.nextRaw = (t, next) := by
  induction n generalizing lx with
  | zero =>
    change lx.turn = _ at step
    rw [nextRaw_eq_turn, step]
    rfl
  | succ n ih =>
    rw [made_succ] at none
    obtain ⟨silent, none⟩ := List.append_eq_nil_iff.1 none
    rw [nextRaw_eq_turn, Option.toList_eq_nil_iff.1 silent]
    exact ih none step

theorem nextRaw_resolvedBy (search : lx.resolver = some r) (same : ∀ q, lx.Asks q → q.Same r r')
    {t : Token} (raw : lx.nextRaw = (t, next)) :
    (lx.resolvedBy r').nextRaw = (t, next.resolvedBy r') ∧ next.resolver = some r := by
  obtain ⟨n, none, step⟩ := exists_turns_of_raw raw
  obtain ⟨place, made⟩ := turns_resolvedBy search same n
  have resolver := (lx.after_resolver n).trans search
  refine ⟨nextRaw_of_turns (n := n) (made.trans none) ?_, ?_⟩
  · rw [place, turn_resolvedBy resolver fun q asked => same q ⟨n, asked⟩, step]
  · have setup := (lx.after n).turn_setup.2
    rw [step] at setup
    exact setup.trans resolver

/-- The tokens of a source depend on the answers to what is asked for in reading it. -/
theorem drain_resolvedBy (search : lx.resolver = some r) (same : ∀ q, lx.Asks q → q.Same r r') :
    (lx.resolvedBy r').drain = (lx.drain.1, lx.drain.2.resolvedBy r') := by
  induction lx using drain.induct with
  | case1 lx t next raw ended =>
    rw [drain_of_end raw ended, drain_of_end (nextRaw_resolvedBy search same raw).1 ended]
    rfl
  | case2 lx t next raw more kept tokens final drained ih =>
    obtain ⟨raw', resolver⟩ := nextRaw_resolvedBy search same raw
    have noted : next = noting next.errors { next with errors := [] } := by
      rw [noting, List.append_nil]
    have rest := ih resolver fun q asked =>
      same q (.of_raw raw (noted ▸ (asks_noting next.errors).2 asked))
    rw [drain_of_kept raw more kept, drain_of_kept raw' more kept]
    change (_ :: (resolvedBy r' { next with errors := [] }).drain.1,
      (resolvedBy r' { next with errors := [] }).drain.2) = _
    rw [rest]
    rfl
  | case3 lx t next raw more skipped ih =>
    obtain ⟨raw', resolver⟩ := nextRaw_resolvedBy search same raw
    rw [drain_of_skipped raw more skipped, drain_of_skipped raw' more skipped]
    exact ih resolver fun q asked => same q (.of_raw raw asked)

end Lexer

namespace Syntax

/-- The options with a resolver. -/
def ParseOptions.resolvedBy (r : Resolver) (options : ParseOptions) : ParseOptions :=
  { options with resolver := some r }

/-- What is asked of the resolver for an import. -/
def PendingImport.request (i : PendingImport) : SourceRequest :=
  ⟨ProgramParser.importFile i.name, i.including, i.location⟩

namespace ProgramParser

/-- What is asked of the resolver for the sources of some modules: in reading them, and for the imports
of the modules. -/
inductive Asked (options : ParseOptions) (ms : List Module) : SourceRequest → Prop where
  | included {s : SourceText} {m : Module} {q : SourceRequest} (mem : m ∈ ms)
      (parsed : ModuleOf options s m) (asked : (lexerOf options s.name s.text).Asks q) :
      Asked options ms q
  | imported {m : Module} {i : PendingImport} (mem : m ∈ ms) (waits : i ∈ importsOf m) :
      Asked options ms i.request

/-- The parser with another resolver. -/
def resolvedBy (r : Resolver) (p : ProgramParser) : ProgramParser :=
  { p with options := p.options.resolvedBy r }

variable {p p' : ProgramParser} {r r' : Resolver} {ms ms' : List Module} {q : SourceRequest}

theorem Asked.mono {options : ParseOptions} (h : Asked options ms q) (more : ms ⊆ ms') :
    Asked options ms' q := by
  cases h with
  | included mem parsed asked => exact .included (more mem) parsed asked
  | imported mem waits => exact .imported (more mem) waits

theorem Grown.subset {lost : List (String × Location)} (h : Grown p p' ms lost) :
    p.modules ⊆ p'.modules := by
  rw [h.modules]
  exact List.subset_append_left _ _

theorem Grown.new {lost : List (String × Location)} (h : Grown p p' ms lost) : ms ⊆ p'.modules := by
  rw [h.modules]
  exact List.subset_append_right _ _

theorem parseModule_resolvedBy (search : p.options.resolver = some r) (name text : String)
    (same : ∀ q, Asked p.options (p.parseModule name text).1.modules q → q.Same r r') :
    (p.resolvedBy r').parseModule name text =
      ((p.parseModule name text).1.resolvedBy r', (p.parseModule name text).2) := by
  obtain ⟨m, parsed, grown, -⟩ := parseModule_grown p name text
  have drained : ((lexerOf p.options name text).resolvedBy r').drain = _ :=
    Lexer.drain_resolvedBy search fun q asked =>
      same q (.included (grown.new (List.mem_singleton_self m)) parsed asked)
  have reader : TokenReader.ofLexer (lexerOf (p.options.resolvedBy r') name text) =
      TokenReader.ofLexer (lexerOf p.options name text) := by
    have lexer : lexerOf (p.options.resolvedBy r') name text =
        (lexerOf p.options name text).resolvedBy r' := rfl
    rw [TokenReader.ofLexer, TokenReader.ofLexer, lexer, drained]
    rfl
  unfold lexerOf at reader
  unfold parseModule
  dsimp only [resolvedBy] at reader ⊢
  rw [reader]
  rfl

theorem resolve_resolvedBy (search : p.options.resolver = some r) {i : PendingImport}
    (here : i.request.Same r r')
    (same : ∀ q, Asked p.options (resolve r p i).1.modules q → q.Same r r') :
    resolve r' (p.resolvedBy r') i = ((resolve r p i).1.resolvedBy r', (resolve r p i).2) := by
  have found : r'.find (importFile i.name) i.including = r.find (importFile i.name) i.including := here
  unfold resolve at same ⊢
  rw [found]
  generalize r.find (importFile i.name) i.including = resolution at same ⊢
  obtain ⟨source, remarks⟩ := resolution
  cases source with
  | none => rfl
  | some s =>
    dsimp only at same ⊢
    change (if s.name ∈ p.seen then _ else _) = _
    split
    · rfl
    · next new =>
      rw [if_neg new] at same
      exact parseModule_resolvedBy (p := { p with remarks := p.remarks ++ remarks }) search s.name
        s.text same

/-! ### Following imports with another resolver -/

theorem subset_followWith (r : Resolver) (p : ProgramParser) (queue : List PendingImport) :
    p.modules ⊆ (followWith r p queue).modules := by
  obtain ⟨after, exhausts⟩ := exists_exhausts r p queue
  rw [exhausts.modules]
  exact List.subset_append_left _ _

/-- When no import is left, this is what the loop comes to. -/
theorem followWith_of_turns {n : Nat} {queue : List PendingImport}
    (h : (turn r)^[n] (p, queue) = (p', [])) : followWith r p queue = p' := by
  induction n generalizing p queue with
  | zero =>
    obtain ⟨rfl, rfl⟩ := Prod.mk.inj h
    rw [followWith]
  | succ n ih =>
    rw [Function.iterate_succ_apply] at h
    cases queue with
    | nil => exact ih h
    | cons i queue =>
      rw [followWith_cons]
      exact ih h

theorem followWith_resolvedBy {n : Nat} {queue : List PendingImport}
    (search : p.options.resolver = some r) (h : (turn r)^[n] (p, queue) = (p', []))
    (here : ∀ i ∈ queue, i.request.Same r r')
    (same : ∀ q, Asked p.options p'.modules q → q.Same r r') :
    followWith r' (p.resolvedBy r') queue = p'.resolvedBy r' := by
  induction n generalizing p queue with
  | zero =>
    obtain ⟨rfl, rfl⟩ := Prod.mk.inj h
    rw [followWith]
  | succ n ih =>
    rw [Function.iterate_succ_apply] at h
    cases queue with
    | nil => exact ih search h here same
    | cons i queue =>
      obtain ⟨ms, grown, imports, -⟩ := resolve_grown search i
      have later : (resolve r p i).1.modules ⊆ p'.modules := by
        have rest : followWith r (resolve r p i).1 (queue ++ (resolve r p i).2) = p' :=
          followWith_of_turns h
        exact rest ▸ subset_followWith r _ _
      rw [followWith_cons, resolve_resolvedBy search (here i List.mem_cons_self)
        fun q asked => same q (asked.mono later)]
      refine ih (grown.options ▸ search) h (fun i' hi' => ?_) (grown.options ▸ same)
      rcases List.mem_append.1 hi' with waits | new
      · exact here i' (List.mem_cons_of_mem i waits)
      · rw [imports] at new
        obtain ⟨m, mem, new⟩ := List.mem_flatMap.1 new
        exact same _ (.imported (later (grown.new mem)) new)

theorem parseRoot_resolvedBy (search : p.options.resolver = some r) (name text : String)
    (same : ∀ q, Asked p.options (p.parseRoot name text).modules q → q.Same r r') :
    (p.resolvedBy r').parseRoot name text = (p.parseRoot name text).resolvedBy r' := by
  unfold parseRoot at same ⊢
  change (if name ∈ p.seen then _ else _) = _
  split
  · rfl
  · next new =>
    obtain ⟨m, -, grown, imports⟩ := parseModule_grown p name text
    rw [if_neg new] at same
    dsimp only [follow] at same ⊢
    rw [grown.options, search] at same ⊢
    have later := subset_followWith r (p.parseModule name text).1 (p.parseModule name text).2
    rw [parseModule_resolvedBy search name text fun q asked => same q (asked.mono later)]
    obtain ⟨after, exhausts⟩ :=
      exists_exhausts r (p.parseModule name text).1 (p.parseModule name text).2
    refine followWith_resolvedBy (grown.options ▸ search) exhausts.turns (fun i waits => ?_)
      (grown.options ▸ same)
    rw [imports] at waits
    exact same _ (.imported (later (grown.new (List.mem_singleton_self m))) waits)

theorem parseFile_resolvedBy (fs : FileSystem) (search : p.options.resolver = some r) (file : String)
    (same : ∀ q, Asked p.options (parseFile fs p file).modules q → q.Same r r') :
    parseFile fs (p.resolvedBy r') file = (parseFile fs p file).resolvedBy r' := by
  unfold parseFile at same ⊢
  split
  · next text read =>
    rw [read] at same
    exact parseRoot_resolvedBy search _ text same
  · rfl

theorem parseFiles_resolvedBy (fs : FileSystem) : ∀ (files : List String) {p : ProgramParser},
    p.options.resolver = some r →
    (∀ q, Asked p.options (files.foldl (parseFile fs) p).modules q → q.Same r r') →
    files.foldl (parseFile fs) (p.resolvedBy r') = (files.foldl (parseFile fs) p).resolvedBy r'
  | [], _, _, _ => rfl
  | file :: files, p, search, same => by
    rw [List.foldl_cons] at same ⊢
    obtain ⟨ms, grown, -⟩ := parseFiles_grown fs [file] p
    obtain ⟨ms', later, -⟩ := parseFiles_grown fs files (parseFile fs p file)
    change Grown p (parseFile fs p file) ms _ at grown
    rw [List.foldl_cons, parseFile_resolvedBy fs search file fun q asked =>
      same q (asked.mono later.subset)]
    exact parseFiles_resolvedBy fs files (grown.options ▸ search) (grown.options ▸ same)

end ProgramParser

open ProgramParser

variable {r r' : Resolver}

/-- What is not asked of a resolver does not count in parsing a text. -/
theorem parseText_resolvedBy {options : ParseOptions} {name text : String}
    (same : ∀ q, Asked (options.resolvedBy r)
      (parseText (options.resolvedBy r) name text).program.modules q → q.Same r r') :
    parseText (options.resolvedBy r') name text = parseText (options.resolvedBy r) name text := by
  have parsed := parseRoot_resolvedBy (p := { options := options.resolvedBy r }) rfl name text same
  exact (congrArg outcome parsed).trans rfl

theorem parseTarget_resolvedBy {fs : FileSystem} {options : ParseOptions} {path : String}
    (same : ∀ q, Asked (options.resolvedBy r)
      (parseTarget fs (options.resolvedBy r) path).program.modules q → q.Same r r') :
    parseTarget fs (options.resolvedBy r') path = parseTarget fs (options.resolvedBy r) path := by
  have parsed :=
    parseFiles_resolvedBy fs (targetFiles fs path) (p := { options := options.resolvedBy r }) rfl same
  exact (congrArg outcome parsed).trans rfl

end Syntax

/-! ### Files beside each other -/

namespace Resolver

theorem isFile_of_readText {fs : FileSystem} {path text : String} (h : fs.readText path = .ok text) :
    fs.isFile path = true := by
  unfold FileSystem.readText at h
  unfold FileSystem.isFile
  cases found : fs.lookup path with
  | error e =>
    rw [found] at h
    cases h
  | ok place =>
    obtain ⟨place, node⟩ := place
    rw [found] at h
    cases node with
    | directory => cases h
    | file content => rfl

/-- The file that is looked for is found beside the source that asks, if it can be read there. -/
theorem find_beside {fs : FileSystem} {directories : List String} {name including dir text : String}
    (beside : Path.parent? including = some dir)
    (read : fs.readText (Path.join dir name) = .ok text) :
    ((ofFiles fs directories).find name including).source =
      some ⟨fs.canonical (Path.join dir name), text⟩ := by
  have first : ∃ more, candidates directories name including = Path.join dir name :: more := by
    unfold candidates
    split
    · next absolute =>
      refine ⟨[], ?_⟩
      rw [Path.join, absolute]
      rfl
    · exact ⟨directories.map fun dir => Path.join dir name, by rw [beside]; rfl⟩
  obtain ⟨more, places⟩ := first
  change (firstReadable fs (candidates directories name including)).source = _
  rw [places, firstReadable, if_pos (isFile_of_readText read), read]

end Resolver

open Syntax Syntax.ProgramParser

/-- Every include asks for a source from the one that it is written in, and every import from the one
that is parsed, which is the one it is written in if and only if that one is not included.  Nothing else
is asked of a resolver; and files are found beside the file that asks. -/
theorem requests_written (options : ParseOptions) (r : Resolver) :
    (∀ s n q, ((Lexer.toRead (some r) options.lexer s).after n).request? = some q →
      q.Written (Journal.ofTurns (some r) options.lexer s n)) ∧
    (∀ s m, ModuleOf (options.resolvedBy r) s m → ∀ i ∈ importsOf m, ∃ n,
      i.Written s (Journal.ofTurns (some r) options.lexer s n)) ∧
    (∀ r' name text, (∀ q, Asked (options.resolvedBy r)
        (parseText (options.resolvedBy r) name text).program.modules q → q.Same r r') →
      parseText (options.resolvedBy r') name text = parseText (options.resolvedBy r) name text) ∧
    (∀ r' fs path, (∀ q, Asked (options.resolvedBy r)
        (parseTarget fs (options.resolvedBy r) path).program.modules q → q.Same r r') →
      parseTarget fs (options.resolvedBy r') path = parseTarget fs (options.resolvedBy r) path) ∧
    ∀ fs directories name including dir text, Path.parent? including = some dir →
      fs.readText (Path.join dir name) = .ok text →
      ((Resolver.ofFiles fs directories).find name including).source =
        some ⟨fs.canonical (Path.join dir name), text⟩ :=
  ⟨fun _ _ _ asked => include_written asked, fun _ _ parsed => import_written parsed,
    fun _ _ _ same => parseText_resolvedBy same, fun _ _ _ same => parseTarget_resolvedBy same,
    fun _ _ _ _ _ _ beside read => Resolver.find_beside beside read⟩

/-! ### An import in an included source -/

/-- A source that includes another one. -/
def includingPart : SourceText := ⟨"main", "$include \"part\"\n"⟩

/-- The other source, with an import. -/
def importingPart : Resolver := .ofTable [("part", "import more;")]

/-- What a source is parsed to, if it is read in at most `n` steps. -/
def Syntax.moduleWithin (n : Nat) (options : ParseOptions) (s : SourceText) : Option Module :=
  match Lexer.drainWithin n (lexerOf options s.name s.text) with
  | none => none
  | some (tokens, lx) =>
    let last := (tokens.getLast?.map Prod.fst).getD default
    match ((Parser.module s.name).run.run
      { reader := { rest := tokens, last, remarks := lx.remarks }, limit := options.maxNesting }).1 with
    | .error _ => none
    | .ok m => some m

theorem Syntax.moduleOf_of_moduleWithin {n : Nat} {options : ParseOptions} {s : SourceText}
    {m : Module} (h : moduleWithin n options s = some m) : ModuleOf options s m := by
  unfold moduleWithin at h
  split at h
  · cases h
  · next tokens lx drained =>
    have start : startOf options s.name s.text =
        { reader := { rest := tokens
                      last := (tokens.getLast?.map Prod.fst).getD default
                      remarks := lx.remarks }
          limit := options.maxNesting } := by
      rw [startOf, TokenReader.ofLexer, Lexer.drain_of_drainWithin drained]
    dsimp only at h
    rw [← start] at h
    split at h
    · cases h
    · next m' run =>
      cases h
      exact ⟨0, _, Prod.ext run rfl⟩

/-- The include asks from the source that it is written in; the import, written in the other one, is
made for the same source. -/
theorem import_misplaced :
    (∃ n, ((Lexer.toRead (some importingPart) {} includingPart).after n).request? =
        some ⟨"part", "main", ⟨"main", 9, 1, 10⟩⟩ ∧
      SourceRequest.Written ⟨"part", "main", ⟨"main", 9, 1, 10⟩⟩
        (Journal.ofTurns (some importingPart) {} includingPart n)) ∧
    ∃ m, ModuleOf (ParseOptions.resolvedBy importingPart {}) includingPart m ∧
      (importsOf m).map PendingImport.request = [⟨"more.scribble", "main", ⟨"part", 0, 1, 1⟩⟩] ∧
      ∀ i ∈ importsOf m, ∃ n,
        i.Written includingPart (Journal.ofTurns (some importingPart) {} includingPart n) := by
  refine ⟨?_, ?_⟩
  · have asked : ((Lexer.toRead (some importingPart) {} includingPart).after 4).request? =
        some ⟨"part", "main", ⟨"main", 9, 1, 10⟩⟩ := by decide +kernel
    exact ⟨4, asked, (requests_written {} importingPart).1 includingPart 4 _ asked⟩
  · have found : (moduleWithin 9 (ParseOptions.resolvedBy importingPart {}) includingPart).map
        (fun m => (importsOf m).map PendingImport.request) =
          some [⟨"more.scribble", "main", ⟨"part", 0, 1, 1⟩⟩] := by decide +kernel
    obtain ⟨m, parsed, imports⟩ := Option.map_eq_some_iff.1 found
    have parsed := moduleOf_of_moduleWithin parsed
    exact ⟨m, parsed, imports, (requests_written {} importingPart).2.1 includingPart m parsed⟩

end ScriptLang
