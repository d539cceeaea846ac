import ScriptLang.Syntax.Parser

/-!
# Parsing whole programs

A program is a root source and every source that it imports, directly or not, each parsed once.
Imports are followed breadth first.  The search ends because each new source has one of the finitely
many names that the resolver can find and that have not been seen (`unseen`).
-/

namespace ScriptLang.Syntax

/-- The extension of source files. -/
def sourceExtension : String := "scribble"

structure ParseOptions where
  /-- Finds included and imported sources. -/
  resolver : Option Resolver := none
  /-- Where files are looked for, if the target is a file and no resolver is given. -/
  includePaths : List String := []
  lexer : LexerOptions := {}
  maxNesting : Nat := 128

/-- What parsing a program gives. -/
structure ParseOutcome where
  program : Program
  errors : List ParseError
  remarks : List String

/-- A program parsed in part. -/
structure ProgramParser where
  options : ParseOptions
  modules : List Module := []
  errors : List ParseError := []
  remarks : List String := []
  nextId : Nat := 0
  /-- The names of the sources parsed. -/
  seen : List String := []

/-- An import to be followed: the name written, the module it is written in, and the place. -/
structure PendingImport where
  name : String
  including : String
  location : Location

namespace ProgramParser

/-- The imports of a module. -/
def importsOf (m : Module) : List PendingImport :=
  m.items.filterMap fun i =>
    match i.kind with
    | .imported name => some ⟨name, m.name, i.node.token.location⟩
    | _ => none

/-- Parse one source; the imports in it are left to be followed. -/
def parseModule (p : ProgramParser) (name text : String) : ProgramParser × List PendingImport :=
  let lx := { Lexer.ofText .language name text with
    options := p.options.lexer, resolver := p.options.resolver }
  let reader := TokenReader.ofLexer lx
  let start : ParserState :=
    { reader, nextId := p.nextId, limit := p.options.maxNesting }
  let (result, s) := (Parser.module name).run.run start
  let m := match result with
    | .ok m => m
    | .error _ => ⟨name, []⟩
  ({ p with
      modules := p.modules ++ [m]
      errors := p.errors ++ s.errors
      remarks := p.remarks ++ reader.remarks
      nextId := s.nextId
      seen := p.seen ++ [name] },
    importsOf m)

/-- The file that an imported name stands for. -/
def importFile (name : String) : String :=
  if (Path.extension? name).isSome then name else name ++ "." ++ sourceExtension

/-- The names that can be found and have not been seen. -/
def unseen (r : Resolver) (seen : List String) : List String :=
  r.names.filter fun n => !seen.contains n

theorem unseen_length_lt {r : Resolver} {seen : List String} {name : String}
    (hmem : name ∈ r.names) (hnew : name ∉ seen) :
    (unseen r (seen ++ [name])).length < (unseen r seen).length := by
  have hsub : unseen r (seen ++ [name]) = (unseen r seen).filter fun n => !(n == name) := by
    unfold unseen
    rw [List.filter_filter]
    refine List.filter_congr fun n _ => ?_
    simp only [List.contains_eq_mem, List.mem_append, List.mem_singleton]
    by_cases h1 : n ∈ seen <;> by_cases h2 : n = name <;> simp [h1, h2]
  rw [hsub]
  refine List.length_filter_lt_length_iff_exists.2 ⟨name, ?_, by simp⟩
  exact List.mem_filter.2 ⟨hmem, by simpa using hnew⟩

/-- Follow imports with a resolver until none is left. -/
def followWith (r : Resolver) (p : ProgramParser) : List PendingImport → ProgramParser
  | [] => p
  | i :: queue =>
    match _hfound : r.find (importFile i.name) i.including with
    | ⟨source, remarks⟩ =>
      let p : ProgramParser := { p with remarks := p.remarks ++ remarks }
      match _hs : source with
      | none =>
        followWith r { p with errors := p.errors ++ [.importNotFound i.name i.location] } queue
      | some s =>
        if _hseen : s.name ∈ p.seen then followWith r p queue
        else
          let parsed := p.parseModule s.name s.text
          followWith r parsed.1 (queue ++ parsed.2)
termination_by queue => ((unseen r p.seen).length, queue.length)
decreasing_by
  · exact Prod.Lex.right _ (by simp)
  · exact Prod.Lex.right _ (by simp)
  · exact Prod.Lex.left _ _ (unseen_length_lt (r.mem_names (by rw [_hfound])) _hseen)

/-- Follow imports; without a resolver none can be found. -/
def follow (p : ProgramParser) (queue : List PendingImport) : ProgramParser :=
  match p.options.resolver with
  | some r => followWith r p queue
  | none =>
    { p with errors := p.errors ++ queue.map fun i => .importNotFound i.name i.location }

/-- Parse a root source and what it imports, unless it has been parsed already. -/
def parseRoot (p : ProgramParser) (name text : String) : ProgramParser :=
  if name ∈ p.seen then p
  else
    let (p, queue) := p.parseModule name text
    p.follow queue

def outcome (p : ProgramParser) : ParseOutcome := ⟨⟨p.modules⟩, p.errors, p.remarks⟩

/-- Parse a file of a file tree as a root. -/
def parseFile (fs : FileSystem) (p : ProgramParser) (path : String) : ProgramParser :=
  match fs.readText path with
  | .ok text => p.parseRoot (fs.canonical path) text
  | .error e => { p with errors := p.errors ++ [.unreadable path e.message] }

end ProgramParser

/-- Parse a text and what it imports. -/
def parseText (options : ParseOptions) (name text : String) : ParseOutcome :=
  (ProgramParser.parseRoot { options } name text).outcome

/-- The source files directly in a directory, in the order of their names. -/
def sourceFiles (fs : FileSystem) (dir : String) : List String :=
  match fs.lookup dir with
  | .ok (place, .directory) =>
    let names := (fs.children place).filter fun n => Path.extension? n == some sourceExtension
    let files := (names.mergeSort fun a b => decide (a ≤ b)).map fun n => Path.join dir n
    files.filter fun f => fs.isFile f
  | _ => []

/-- Parse a file, or all source files directly in a directory, and what they import. -/
def parseTarget (fs : FileSystem) (options : ParseOptions) (path : String) : ParseOutcome :=
  let resolver := options.resolver.getD (.ofFiles fs options.includePaths)
  let files := if fs.isDirectory path then sourceFiles fs path else [path]
  (files.foldl (ProgramParser.parseFile fs)
    { options := { options with resolver := some resolver } }).outcome

end ScriptLang.Syntax
