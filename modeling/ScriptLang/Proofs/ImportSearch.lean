import Mathlib.Logic.Function.Iterate
import Mathlib.Data.List.Perm.Subperm
import ScriptLang.Proofs.Nesting

/-!
# The search for imports

A program consists of its roots and of all that they import, each source parsed once (`imports_searched`).
The sources that the imports of some modules lead to make up the next level of the search, as far as
they are new (`BreadthFirst`).  The queue of the loop that follows imports always holds the rest of one
level and the beginning of the next; so it can be taken a level at a time (`followWith_append`), and it
is empty after as many turns as there are imports in the modules (`exists_exhausts`).
-/

namespace ScriptLang.Syntax

/-- The import that an error is about. -/
def ParseError.importNotFound? : ParseError → Option (String × Location)
  | .importNotFound name l => some (name, l)
  | _ => none

namespace ProgramParser

/-! ### What is to be found -/

/-- The source that an import leads to. -/
def found? (options : ParseOptions) (i : PendingImport) : Option SourceText :=
  options.resolver.bind fun r => (r.find (importFile i.name) i.including).source

/-- The imports that lead to no source, as they are written and where. -/
def missing (options : ParseOptions) (is : List PendingImport) : List (String × Location) :=
  (is.filter fun i => (found? options i).isNone).map fun i => (i.name, i.location)

/-- The sources that the imports of modules lead to. -/
def imported (options : ParseOptions) (ms : List Module) : List SourceText :=
  (ms.flatMap importsOf).filterMap (found? options)

/-- The module is what a source is parsed to, from some identity on. -/
def ModuleOf (options : ParseOptions) (s : SourceText) (m : Module) : Prop :=
  ∃ id s', (Parser.module s.name).run.run { startOf options s.name s.text with nextId := id } =
    (.ok m, s')

/-- The sources whose names have not been seen, each name once. -/
def firsts (seen : List String) : List SourceText → List SourceText
  | [] => []
  | s :: ss => if s.name ∈ seen then firsts seen ss else s :: firsts (seen ++ [s.name]) ss

attribute [local simp] firsts

/-- The modules `after` a level are those of the sources that the level imports and that were not seen,
then those of the sources that these import, and so on. -/
inductive BreadthFirst (options : ParseOptions) : (seen : List String) → (level after : List Module) →
    Prop where
  | done {seen : List String} {level : List Module}
      (nothing : firsts seen (imported options level) = []) : BreadthFirst options seen level []
  | next {seen : List String} {level below after : List Module}
      (parsed : List.Forall₂ (ModuleOf options) (firsts seen (imported options level)) below)
      (rest : BreadthFirst options (seen ++ below.map Module.name) below after) :
      BreadthFirst options seen level (below ++ after)

/-- The modules of roots, each root that was not seen with what is found from it. -/
inductive Search (options : ParseOptions) : (seen : List String) → (roots : List SourceText) →
    (modules : List Module) → Prop where
  | done {seen : List String} : Search options seen [] []
  | again {seen : List String} {s : SourceText} {roots : List SourceText} {modules : List Module}
      (old : s.name ∈ seen) (rest : Search options seen roots modules) :
      Search options seen (s :: roots) modules
  | root {seen : List String} {s : SourceText} {roots : List SourceText} {m : Module}
      {after modules : List Module} (new : s.name ∉ seen) (parsed : ModuleOf options s m)
      (found : BreadthFirst options (seen ++ [m.name]) [m] after)
      (rest : Search options (seen ++ (m :: after).map Module.name) roots modules) :
      Search options seen (s :: roots) (m :: after ++ modules)

/-- The names of the roots and of all that is imported from them by way of the modules of a program. -/
inductive Reached (options : ParseOptions) (roots : List SourceText) (modules : List Module) :
    String → Prop where
  | root {s : SourceText} (mem : s ∈ roots) : Reached options roots modules s.name
  | imported {m : Module} {s : SourceText} (mem : m ∈ modules)
      (reached : Reached options roots modules m.name) (found : s ∈ imported options [m]) :
      Reached options roots modules s.name

/-- A program that was parsed from some roots. -/
structure Searched (options : ParseOptions) (roots : List SourceText) (o : ParseOutcome) : Prop where
  order : Search options [] roots o.program.modules
  nodup : (o.program.modules.map Module.name).Nodup
  names : ∀ name, name ∈ o.program.modules.map Module.name ↔
    Reached options roots o.program.modules name
  notFound : o.errors.filterMap ParseError.importNotFound? =
    missing options (o.program.modules.flatMap importsOf)

variable {options : ParseOptions} {seen : List String} {level after modules : List Module}
  {roots : List SourceText}

/-! ### New sources -/

theorem firsts_append : ∀ (seen : List String) (ss ss' : List SourceText), firsts seen (ss ++ ss') =
    firsts seen ss ++ firsts (seen ++ (firsts seen ss).map SourceText.name) ss'
  | seen, [], ss' => by rw [firsts, List.map_nil, List.append_nil, List.nil_append, List.nil_append]
  | seen, s :: ss, ss' => by
    rw [List.cons_append, firsts, firsts]
    split
    · exact firsts_append seen ss ss'
    · rw [firsts_append (seen ++ [s.name]), List.map_cons, List.append_assoc, List.cons_append]
      rfl

theorem nodup_firsts : ∀ (seen : List String) (ss : List SourceText), seen.Nodup →
    (seen ++ (firsts seen ss).map SourceText.name).Nodup
  | seen, [], h => by rwa [firsts, List.map_nil, List.append_nil]
  | seen, s :: ss, h => by
    rw [firsts]
    split
    · exact nodup_firsts seen ss h
    · next new =>
      have longer : (seen ++ [s.name]).Nodup := List.nodup_append.2
        ⟨h, List.pairwise_singleton _ _, fun a ha b hb => by
          rw [List.mem_singleton.1 hb]
          exact fun same => new (same ▸ ha)⟩
      have rest := nodup_firsts (seen ++ [s.name]) ss longer
      rwa [List.append_assoc] at rest

/-- Every source was seen before or is among the new ones. -/
theorem mem_firsts : ∀ (seen : List String) (ss : List SourceText), ∀ s ∈ ss,
    s.name ∈ seen ++ (firsts seen ss).map SourceText.name
  | seen, s' :: ss, s, hs => by
    rw [firsts]
    split
    · next old =>
      obtain rfl | hs := List.mem_cons.1 hs
      · exact List.mem_append_left _ old
      · exact mem_firsts seen ss s hs
    · rw [List.map_cons, ← List.singleton_append, ← List.append_assoc]
      obtain rfl | hs := List.mem_cons.1 hs
      · exact List.mem_append_left _ (List.mem_append_right _ (List.mem_singleton_self _))
      · exact mem_firsts (seen ++ [s'.name]) ss s hs

theorem firsts_subset : ∀ (seen : List String) (ss : List SourceText), firsts seen ss ⊆ ss
  | _, [] => List.nil_subset _
  | seen, s :: ss => by
    rw [firsts]
    split
    · exact List.subset_cons_of_subset s (firsts_subset seen ss)
    · exact List.cons_subset_cons s (firsts_subset _ ss)

theorem not_mem_seen : ∀ (seen : List String) (ss : List SourceText), ∀ s ∈ firsts seen ss,
    s.name ∉ seen
  | seen, s' :: ss, s, hs => by
    rw [firsts] at hs
    split at hs
    · exact not_mem_seen seen ss s hs
    · next new =>
      obtain rfl | hs := List.mem_cons.1 hs
      · exact new
      · exact fun old => not_mem_seen (seen ++ [s'.name]) ss s hs (List.mem_append_left _ old)

/-! ### What the order of a search says -/

theorem ModuleOf.name_eq {s : SourceText} {m : Module} (h : ModuleOf options s m) :
    m.name = s.name := by
  obtain ⟨id, s', run⟩ := h
  have named : Gives (Parser.module s.name) fun m => m.name = s.name :=
    .behind fun _ => .behind fun _ => .behind fun _ => .behind fun _ => .pure rfl
  exact named _ m s' run

theorem names_of_parsed {ss : List SourceText} {ms : List Module}
    (h : List.Forall₂ (ModuleOf options) ss ms) :
    ms.map Module.name = ss.map SourceText.name := by
  induction h with
  | nil => rfl
  | cons first _ ih => rw [List.map_cons, List.map_cons, first.name_eq, ih]

theorem imported_append (ms ms' : List Module) :
    imported options (ms ++ ms') = imported options ms ++ imported options ms' := by
  rw [imported, List.flatMap_append, List.filterMap_append]
  rfl

theorem missing_append (is is' : List PendingImport) :
    missing options (is ++ is') = missing options is ++ missing options is' := by
  rw [missing, List.filter_append, List.map_append]
  rfl

theorem mem_imported {s : SourceText} {ms : List Module} (h : s ∈ imported options ms) :
    ∃ m ∈ ms, s ∈ imported options [m] := by
  obtain ⟨i, hi, found⟩ := List.mem_filterMap.1 h
  obtain ⟨m, hm, hi⟩ := List.mem_flatMap.1 hi
  refine ⟨m, hm, List.mem_filterMap.2 ⟨i, ?_, found⟩⟩
  exact List.mem_flatMap.2 ⟨m, List.mem_singleton_self m, hi⟩

namespace BreadthFirst

/-- No source is parsed twice. -/
theorem nodup (h : BreadthFirst options seen level after) (before : seen.Nodup) :
    (seen ++ after.map Module.name).Nodup := by
  induction h with
  | done => rwa [List.map_nil, List.append_nil]
  | @next seen level below after parsed rest ih =>
    rw [List.map_append, ← List.append_assoc]
    refine ih ?_
    rw [names_of_parsed parsed]
    exact nodup_firsts seen _ before

/-- Every source that is imported was seen or is parsed. -/
theorem closed (h : BreadthFirst options seen level after) :
    ∀ s ∈ imported options (level ++ after), s.name ∈ seen ++ after.map Module.name := by
  induction h with
  | @done seen level nothing =>
    intro s hs
    rw [List.append_nil] at hs
    have old := mem_firsts seen _ s hs
    rwa [nothing] at old
  | @next seen level below after parsed rest ih =>
    intro s hs
    rw [List.map_append, ← List.append_assoc]
    rw [imported_append, List.mem_append] at hs
    rcases hs with hs | hs
    · refine List.mem_append_left _ ?_
      rw [names_of_parsed parsed]
      exact mem_firsts seen _ s hs
    · exact ih s hs

/-- What is parsed is imported from the level. -/
theorem reached (h : BreadthFirst options seen level after) (mem : ∀ m ∈ level ++ after, m ∈ modules)
    (start : ∀ m ∈ level, Reached options roots modules m.name) :
    ∀ m ∈ after, Reached options roots modules m.name := by
  induction h with
  | done => exact fun _ hm => absurd hm List.not_mem_nil
  | @next seen level below after parsed rest ih =>
    have below_reached : ∀ m ∈ below, Reached options roots modules m.name := by
      intro m hm
      have name : m.name ∈ (firsts seen (imported options level)).map SourceText.name :=
        names_of_parsed parsed ▸ List.mem_map_of_mem hm
      obtain ⟨s, hs, same⟩ := List.mem_map.1 name
      obtain ⟨m', hm', found⟩ := mem_imported (firsts_subset _ _ hs)
      rw [← same]
      exact .imported (mem m' (List.mem_append_left _ hm')) (start m' hm') found
    have mem' : ∀ m ∈ below ++ after, m ∈ modules := fun m hm => mem m (List.mem_append_right _ hm)
    intro m hm
    obtain hm | hm := List.mem_append.1 hm
    · exact below_reached m hm
    · exact ih mem' below_reached m hm

end BreadthFirst

namespace Search

theorem nodup (h : Search options seen roots modules) (before : seen.Nodup) :
    (seen ++ modules.map Module.name).Nodup := by
  induction h with
  | done => rwa [List.map_nil, List.append_nil]
  | again _ _ ih => exact ih before
  | @root seen s roots m after modules new parsed found rest ih =>
    have first : (seen ++ [m.name]).Nodup := List.nodup_append.2
      ⟨before, List.pairwise_singleton _ _, fun a ha b hb => by
        rw [List.mem_singleton.1 hb, parsed.name_eq]
        exact fun same => new (same ▸ ha)⟩
    have all := found.nodup first
    rw [List.append_assoc, List.singleton_append, ← List.map_cons] at all
    rw [List.map_append, ← List.append_assoc]
    exact ih all

/-- Every source that is imported was seen or is parsed, as every root. -/
theorem closed (h : Search options seen roots modules) :
    (∀ s ∈ roots, s.name ∈ seen ++ modules.map Module.name) ∧
      ∀ s ∈ imported options modules, s.name ∈ seen ++ modules.map Module.name := by
  induction h with
  | done => exact ⟨nofun, nofun⟩
  | again old _ ih =>
    refine ⟨List.forall_mem_cons.2 ⟨List.mem_append_left _ old, ih.1⟩, ih.2⟩
  | @root seen s roots m after modules new parsed found rest ih =>
    rw [List.map_append, ← List.append_assoc]
    have first : s.name ∈ seen ++ (m :: after).map Module.name := by
      rw [List.map_cons, parsed.name_eq]
      exact List.mem_append_right _ List.mem_cons_self
    refine ⟨List.forall_mem_cons.2 ⟨List.mem_append_left _ first, ih.1⟩, fun s hs => ?_⟩
    rw [imported_append, List.mem_append] at hs
    rcases hs with hs | hs
    · have here := found.closed s hs
      rw [List.append_assoc, List.singleton_append, ← List.map_cons] at here
      exact List.mem_append_left _ here
    · exact ih.2 s hs

theorem reached {all : List Module} {starts : List SourceText}
    (h : Search options seen roots modules) (mem : ∀ m ∈ modules, m ∈ all)
    (start : ∀ s ∈ roots, s ∈ starts) : ∀ m ∈ modules, Reached options starts all m.name := by
  induction h with
  | done => exact fun _ hm => absurd hm List.not_mem_nil
  | again _ _ ih => exact ih mem fun s hs => start s (List.mem_cons_of_mem _ hs)
  | @root seen s roots m after modules new parsed found rest ih =>
    have first : Reached options starts all m.name := by
      rw [parsed.name_eq]
      exact .root (start s List.mem_cons_self)
    have here : ∀ m' ∈ m :: after, m' ∈ all := fun m' hm' => mem m' (List.mem_append_left _ hm')
    have later := ih (fun m' hm' => mem m' (List.mem_append_right _ hm'))
      fun s hs => start s (List.mem_cons_of_mem _ hs)
    intro m' hm'
    obtain hm' | hm' := List.mem_append.1 hm'
    · obtain rfl | hm' := List.mem_cons.1 hm'
      · exact first
      · exact found.reached here (List.forall_mem_singleton.2 first) m' hm'
    · exact later m' hm'

/-- A search from nothing on finds what can be reached, and that alone. -/
theorem mem_iff (h : Search options [] roots modules) (name : String) :
    name ∈ modules.map Module.name ↔ Reached options roots modules name := by
  refine ⟨fun mem => ?_, fun reached => ?_⟩
  · obtain ⟨m, hm, rfl⟩ := List.mem_map.1 mem
    exact h.reached (fun _ hm => hm) (fun _ hs => hs) m hm
  · obtain ⟨roots, closed⟩ := h.closed
    cases reached with
    | root mem => exact roots _ mem
    | @imported m s mem _ found =>
      refine closed s ?_
      obtain ⟨i, hi, found⟩ := List.mem_filterMap.1 found
      refine List.mem_filterMap.2 ⟨i, List.mem_flatMap.2 ⟨m, mem, ?_⟩, found⟩
      rwa [List.flatMap_singleton] at hi

end Search

/-! ### Parsing more sources -/

/-- The parser `p'` has come of `p` by parsing the modules `ms`; the imports `lost` were not found. -/
structure Grown (p p' : ProgramParser) (ms : List Module) (lost : List (String × Location)) : Prop where
  options : p'.options = p.options
  modules : p'.modules = p.modules ++ ms
  seen : p'.seen = p.seen ++ ms.map Module.name
  lost : p'.errors.filterMap ParseError.importNotFound? =
    p.errors.filterMap ParseError.importNotFound? ++ lost

variable {p p' p'' : ProgramParser} {ms ms' : List Module} {lost lost' : List (String × Location)}

theorem Grown.refl (p : ProgramParser) : Grown p p [] [] :=
  ⟨rfl, (List.append_nil _).symm, (List.append_nil _).symm, (List.append_nil _).symm⟩

theorem Grown.trans (h : Grown p p' ms lost) (h' : Grown p' p'' ms' lost') :
    Grown p p'' (ms ++ ms') (lost ++ lost') where
  options := h'.options.trans h.options
  modules := by rw [h'.modules, h.modules, List.append_assoc]
  seen := by rw [h'.seen, h.seen, List.map_append, List.append_assoc]
  lost := by rw [h'.lost, h.lost, List.append_assoc]

theorem Grown.withRemarks (h : Grown p p' ms lost) (remarks : List String) :
    Grown p { p' with remarks } ms lost := ⟨h.options, h.modules, h.seen, h.lost⟩

/-- A parser of one source reports no import. -/
theorem kept_importNotFound :
    Kept fun s => s.errors.filterMap ParseError.importNotFound? = [] where
  peekNth _ _ h := h
  next _ h := h
  freshId _ h := h
  reportFound s h := by
    change (s.errors ++ s.reader.found.map ParseError.ofLex).filterMap _ = _
    rw [List.filterMap_append, h, List.nil_append, List.filterMap_map]
    exact List.filterMap_eq_nil_iff.2 fun e _ => by cases e <;> rfl
  record s e own h := by
    change (s.errors ++ [e]).filterMap _ = _
    rw [List.filterMap_append, h, List.nil_append]
    cases e with
    | importNotFound | unreadable | lex => exact own.elim
    | _ => rfl

/-- A source is parsed to a module, and its imports are left. -/
theorem parseModule_grown (p : ProgramParser) (name text : String) :
    ∃ m, ModuleOf p.options ⟨name, text⟩ m ∧ Grown p (p.parseModule name text).1 [m] [] ∧
      (p.parseModule name text).2 = importsOf m := by
  have ends : TokenReader.EndsOnce (startOf p.options name text).reader.toList := endsOnce_drain _
  obtain ⟨m, s', run, -⟩ :=
    exists_run_module (s := { startOf p.options name text with nextId := p.nextId }) ends name
  have parsed : ModuleOf p.options ⟨name, text⟩ m := ⟨p.nextId, s', run⟩
  have quiet : s'.errors.filterMap ParseError.importNotFound? = [] := by
    have kept := Preserves.of_mirrors (kept_importNotFound.stable.module name name)
      { startOf p.options name text with nextId := p.nextId } rfl
    rwa [run] at kept
  refine ⟨m, parsed, ?_⟩
  unfold startOf lexerOf at run
  unfold parseModule
  dsimp only at run ⊢
  rw [run]
  refine ⟨⟨rfl, rfl, congrArg (fun n => p.seen ++ [n]) parsed.name_eq.symm, ?_⟩, rfl⟩
  change (p.errors ++ s'.errors).filterMap _ = _
  rw [List.filterMap_append, quiet]

/-! ### The loop -/

/-- What one import leads to, and the imports that come with it. -/
def resolve (r : Resolver) (p : ProgramParser) (i : PendingImport) :
    ProgramParser × List PendingImport :=
  let found := r.find (importFile i.name) i.including
  let p : ProgramParser := { p with remarks := p.remarks ++ found.remarks }
  match found.source with
  | none => ({ p with errors := p.errors ++ [.importNotFound i.name i.location] }, [])
  | some s => if s.name ∈ p.seen then (p, []) else p.parseModule s.name s.text

/-- What imports lead to, and the imports that come with them, which are not followed. -/
def resolveAll (r : Resolver) : ProgramParser → List PendingImport →
    ProgramParser × List PendingImport
  | p, [] => (p, [])
  | p, i :: is =>
    let first := resolve r p i
    let rest := resolveAll r first.1 is
    (rest.1, first.2 ++ rest.2)

/-- One turn of the loop that follows imports. -/
def turn (r : Resolver) : ProgramParser × List PendingImport → ProgramParser × List PendingImport
  | (p, []) => (p, [])
  | (p, i :: queue) => ((resolve r p i).1, queue ++ (resolve r p i).2)

theorem followWith_cons (r : Resolver) (p : ProgramParser) (i : PendingImport)
    (queue : List PendingImport) :
    followWith r p (i :: queue) = followWith r (resolve r p i).1 (queue ++ (resolve r p i).2) := by
  unfold resolve
  rw [followWith]
  dsimp only
  split
  · next lost _ =>
    rw [lost, List.append_nil]
  · next s found _ =>
    rw [found]
    dsimp only
    split
    · rw [List.append_nil]
    · rfl

/-- The queue can be taken a part at a time. -/
theorem followWith_append (r : Resolver) : ∀ (is : List PendingImport) (p : ProgramParser)
    (queue : List PendingImport), followWith r p (is ++ queue) =
      followWith r (resolveAll r p is).1 (queue ++ (resolveAll r p is).2)
  | [], p, queue => by rw [resolveAll, List.nil_append, List.append_nil]
  | i :: is, p, queue => by
    rw [List.cons_append, followWith_cons, List.append_assoc, followWith_append r is, resolveAll,
      List.append_assoc]

section

variable {r : Resolver}

theorem resolve_grown (search : p.options.resolver = some r) (i : PendingImport) :
    ∃ ms, Grown p (resolve r p i).1 ms (missing p.options [i]) ∧
      (resolve r p i).2 = ms.flatMap importsOf ∧
      List.Forall₂ (ModuleOf p.options) (firsts p.seen (found? p.options i).toList) ms := by
  have found : found? p.options i = (r.find (importFile i.name) i.including).source := by
    unfold found?
    rw [search]
    rfl
  unfold resolve missing
  rw [List.filter_cons, found]
  generalize r.find (importFile i.name) i.including = resolution
  obtain ⟨source, remarks⟩ := resolution
  cases source with
  | none =>
    refine ⟨[], ⟨rfl, (List.append_nil _).symm, (List.append_nil _).symm, ?_⟩, rfl, .nil⟩
    exact List.filterMap_append
  | some s =>
    dsimp only
    rw [Option.toList_some, firsts]
    split
    · exact ⟨[], (Grown.refl p).withRemarks _, rfl, .nil⟩
    · obtain ⟨m, parsed, grown, imports⟩ :=
        parseModule_grown { p with remarks := p.remarks ++ remarks } s.name s.text
      refine ⟨[m], ⟨grown.options, grown.modules, grown.seen, grown.lost⟩, ?_, .cons parsed .nil⟩
      rw [imports, List.flatMap_singleton]

theorem resolveAll_grown : ∀ (is : List PendingImport) {p : ProgramParser},
    p.options.resolver = some r →
    ∃ ms, Grown p (resolveAll r p is).1 ms (missing p.options is) ∧
      (resolveAll r p is).2 = ms.flatMap importsOf ∧
      List.Forall₂ (ModuleOf p.options) (firsts p.seen (is.filterMap (found? p.options))) ms
  | [], p, _ => ⟨[], Grown.refl p, rfl, .nil⟩
  | i :: is, p, search => by
    obtain ⟨ms, grown, imports, parsed⟩ := resolve_grown search i
    obtain ⟨ms', grown', imports', parsed'⟩ :=
      resolveAll_grown is (p := (resolve r p i).1) (grown.options ▸ search)
    rw [grown.options] at grown' parsed'
    rw [grown.seen, names_of_parsed parsed] at parsed'
    refine ⟨ms ++ ms', ?_, ?_, ?_⟩
    · rw [← List.singleton_append, missing_append]
      exact grown.trans grown'
    · rw [resolveAll, imports, imports', List.flatMap_append]
    · have sources : (i :: is).filterMap (found? p.options) =
          (found? p.options i).toList ++ is.filterMap (found? p.options) := by
        rw [List.filterMap_cons]
        cases found? p.options i <;> rfl
      rw [sources, firsts_append]
      exact List.rel_append parsed parsed'

/-- With a new source fewer are left. -/
theorem unseen_lt {name : String} (mem : name ∈ r.names) (new : name ∉ seen) (more : List String) :
    (unseen r (seen ++ name :: more)).length < (unseen r seen).length := by
  have fewer : (unseen r (seen ++ [name] ++ more)).length ≤ (unseen r (seen ++ [name])).length := by
    unfold unseen
    rw [← List.countP_eq_length_filter, ← List.countP_eq_length_filter]
    refine List.countP_mono_left fun n _ hn => ?_
    simp only [List.contains_eq_mem, List.mem_append, Bool.not_eq_true', decide_eq_false_iff_not] at hn ⊢
    exact fun old => hn (.inl old)
  rw [List.append_assoc, List.singleton_append] at fewer
  exact Nat.lt_of_le_of_lt fewer (unseen_length_lt mem new)

/-- The loop that follows the imports of a level goes down the levels. -/
theorem followWith_grown {p : ProgramParser} (search : p.options.resolver = some r)
    (level : List Module) :
    ∃ after, Grown p (followWith r p (level.flatMap importsOf)) after
        (missing p.options ((level ++ after).flatMap importsOf)) ∧
      BreadthFirst p.options p.seen level after := by
  obtain ⟨below, grown, imports, parsed⟩ := resolveAll_grown (level.flatMap importsOf) search
  have queue := followWith_append r (level.flatMap importsOf) p []
  rw [List.append_nil, List.nil_append, imports] at queue
  rw [queue]
  cases below with
  | nil =>
    refine ⟨[], ?_, .done (List.forall₂_nil_right_iff.1 parsed)⟩
    rw [List.flatMap_nil, followWith, List.append_nil]
    exact grown
  | cons m below =>
    have fewer : (unseen r (resolveAll r p (level.flatMap importsOf)).1.seen).length <
        (unseen r p.seen).length := by
      obtain ⟨s, ss, first, -, sources⟩ := List.forall₂_cons_right_iff.1 parsed
      have mem : s ∈ firsts p.seen (imported p.options level) := by
        rw [imported, sources]
        exact List.mem_cons_self
      obtain ⟨i, -, found⟩ := List.mem_filterMap.1 (firsts_subset _ _ mem)
      rw [found?, search] at found
      rw [grown.seen, List.map_cons, first.name_eq]
      exact unseen_lt (r.mem_names found) (not_mem_seen _ _ s mem) _
    obtain ⟨after, grown', rest⟩ := followWith_grown (grown.options ▸ search) (m :: below)
    rw [grown.options] at grown' rest
    rw [grown.seen] at rest
    refine ⟨m :: below ++ after, ?_, .next parsed rest⟩
    rw [List.flatMap_append, missing_append]
    exact grown.trans grown'
termination_by (unseen r p.seen).length

end

/-- The loop has parsed the modules `after` when nothing is left in the queue, which is after as many
turns as there are imports in the queue and in these modules. -/
structure Exhausts (r : Resolver) (p : ProgramParser) (queue : List PendingImport) (p' : ProgramParser)
    (after : List Module) : Prop where
  modules : p'.modules = p.modules ++ after
  turns : (turn r)^[queue.length + (after.flatMap importsOf).length] (p, queue) = (p', [])

theorem Exhausts.turn {r : Resolver} {i : PendingImport} {queue more : List PendingImport}
    (first : resolve r p i = (p', more)) (modules : p'.modules = p.modules ++ ms)
    (imports : more = ms.flatMap importsOf) (h : Exhausts r p' (queue ++ more) p'' after) :
    Exhausts r p (i :: queue) p'' (ms ++ after) where
  modules := by rw [h.modules, modules, List.append_assoc]
  turns := by
    have turns : (i :: queue).length + ((ms ++ after).flatMap importsOf).length =
        (queue ++ more).length + (after.flatMap importsOf).length + 1 := by
      rw [List.flatMap_append, ← imports, List.length_append, List.length_append, List.length_cons]
      omega
    have step : ProgramParser.turn r (p, i :: queue) = (p', queue ++ more) := by
      rw [ProgramParser.turn, first]
    rw [turns, Function.iterate_succ_apply, step, h.turns]

/-- An import that leads to nothing new takes a turn. -/
theorem Exhausts.skip {r : Resolver} {i : PendingImport} {queue : List PendingImport}
    (first : resolve r p i = (p', [])) (modules : p'.modules = p.modules)
    (h : Exhausts r p' queue p'' after) : Exhausts r p (i :: queue) p'' after := by
  rw [← List.append_nil queue] at h
  exact Exhausts.turn first (modules.trans (List.append_nil _).symm) rfl h

theorem exists_exhausts (r : Resolver) (p : ProgramParser) (queue : List PendingImport) :
    ∃ after, Exhausts r p queue (followWith r p queue) after := by
  fun_induction followWith r p queue with
  | case1 p => exact ⟨[], (List.append_nil _).symm, rfl⟩
  | case2 p i queue remarks p' found _ ih =>
    obtain ⟨after, h⟩ := ih
    refine ⟨after, Exhausts.skip ?_ ?_ h⟩
    · rw [resolve, found]
    · rfl
  | case3 p i queue remarks p' s found old _ ih =>
    obtain ⟨after, h⟩ := ih
    refine ⟨after, Exhausts.skip ?_ ?_ h⟩
    · rw [resolve, found]
      exact if_pos old
    · rfl
  | case4 p i queue remarks p' s found new parsed _ ih =>
    obtain ⟨after, h⟩ := ih
    obtain ⟨m, -, grown, imports⟩ := parseModule_grown p' s.name s.text
    refine ⟨[m] ++ after, .turn ?_ grown.modules ?_ h⟩
    · rw [resolve, found]
      exact if_neg new
    · rw [List.flatMap_singleton]
      exact imports

/-! ### Roots -/

/-- A root that is new is parsed, and what is found from it. -/
theorem parseRoot_grown (p : ProgramParser) (name text : String) :
    ∃ ms, Grown p (p.parseRoot name text) ms (missing p.options (ms.flatMap importsOf)) ∧
      ∀ roots modules, Search p.options (p.seen ++ ms.map Module.name) roots modules →
        Search p.options p.seen (⟨name, text⟩ :: roots) (ms ++ modules) := by
  unfold parseRoot
  split
  · next old =>
    refine ⟨[], Grown.refl p, fun roots modules rest => .again old ?_⟩
    rwa [List.map_nil, List.append_nil] at rest
  · next new =>
    obtain ⟨m, parsed, grown, imports⟩ := parseModule_grown p name text
    dsimp only
    rw [imports, follow, grown.options]
    cases search : p.options.resolver with
    | some r =>
      obtain ⟨after, grown', found⟩ :=
        followWith_grown (p := (p.parseModule name text).1) (grown.options.symm ▸ search) [m]
      rw [grown.options] at grown' found
      rw [grown.seen] at found
      rw [List.flatMap_singleton] at grown'
      exact ⟨m :: after, grown.trans grown', fun _ _ rest => .root new parsed found rest⟩
    | none =>
      have nothing (i : PendingImport) : found? p.options i = none := by
        rw [found?, search]
        rfl
      refine ⟨[m], ⟨grown.options, grown.modules, grown.seen, ?_⟩, fun _ _ rest =>
        .root new parsed (.done ?_) rest⟩
      · have lost : missing p.options (importsOf m) =
            (importsOf m).map fun i => (i.name, i.location) := by
          rw [missing, List.filter_eq_self.2 fun i _ => by rw [nothing]; rfl]
        have all : ((importsOf m).map fun i => ParseError.importNotFound i.name i.location).filterMap
            ParseError.importNotFound? = (importsOf m).map fun i => (i.name, i.location) := by
          rw [List.filterMap_map, ← List.filterMap_eq_map]
          rfl
        change ((p.parseModule name text).1.errors ++ _).filterMap _ = _
        rw [List.filterMap_append, grown.lost, List.append_nil, List.flatMap_singleton, lost, all]
      · rw [imported, List.filterMap_eq_nil_iff.2 fun i _ => nothing i]
        rfl

/-- The source that a path leads to, if it can be read. -/
def readable? (fs : FileSystem) (path : String) : Option SourceText :=
  (fs.readText path).toOption.map fun text => ⟨fs.canonical path, text⟩

/-- The roots among files are those that can be read. -/
theorem parseFiles_grown (fs : FileSystem) : ∀ (files : List String) (p : ProgramParser),
    ∃ ms, Grown p (files.foldl (parseFile fs) p) ms (missing p.options (ms.flatMap importsOf)) ∧
      Search p.options p.seen (files.filterMap (readable? fs)) ms
  | [], p => ⟨[], Grown.refl p, .done⟩
  | file :: files, p => by
    obtain ⟨ms', grown', search'⟩ := parseFiles_grown fs files (p.parseFile fs file)
    rw [List.foldl_cons, List.filterMap_cons]
    unfold parseFile at grown' search' ⊢
    cases read : fs.readText file with
    | ok text =>
      rw [read] at grown' search'
      dsimp only at grown' search' ⊢
      obtain ⟨ms, grown, search⟩ := parseRoot_grown p (fs.canonical file) text
      rw [grown.options] at grown' search'
      rw [grown.seen] at search'
      have source : readable? fs file = some ⟨fs.canonical file, text⟩ := by
        rw [readable?, read]
        rfl
      rw [source]
      refine ⟨ms ++ ms', ?_, search _ _ search'⟩
      rw [List.flatMap_append, missing_append]
      exact grown.trans grown'
    | error e =>
      rw [read] at grown' search'
      have source : readable? fs file = none := by
        rw [readable?, read]
        rfl
      rw [source]
      refine ⟨ms', ⟨grown'.options, grown'.modules, grown'.seen, ?_⟩, search'⟩
      have lost := grown'.lost
      rw [List.filterMap_append] at lost
      exact lost.trans (congrArg (· ++ _) (List.append_nil _))

theorem searched_of_grown {roots : List SourceText} (grown : Grown { options } p ms
    (missing options (ms.flatMap importsOf))) (search : Search options [] roots ms) :
    Searched options roots p.outcome := by
  have modules : p.outcome.program.modules = ms := grown.modules
  exact
    { order := modules.symm ▸ search
      nodup := modules.symm ▸ search.nodup .nil
      names := modules.symm ▸ search.mem_iff
      notFound := modules.symm ▸ grown.lost }

end ProgramParser

open ProgramParser

/-- The files at a target. -/
def targetFiles (fs : FileSystem) (path : String) : List String :=
  if fs.isDirectory path then sourceFiles fs path else [path]

/-- The options under which a target is parsed. -/
def targetOptions (fs : FileSystem) (options : ParseOptions) : ParseOptions :=
  { options with resolver := some (options.resolver.getD (.ofFiles fs options.includePaths)) }

/-- A program has each of its roots, and what can be reached from them by imports, once, every root with
its imports breadth first behind it, and an error for each of their imports that leads nowhere; and
the loop that follows imports comes to an end. -/
theorem imports_searched (options : ParseOptions) :
    (∀ name text, Searched options [⟨name, text⟩] (parseText options name text)) ∧
    (∀ fs path, Searched (targetOptions fs options) ((targetFiles fs path).filterMap (readable? fs))
      (parseTarget fs options path)) ∧
    ∀ r p queue, ∃ after, Exhausts r p queue (followWith r p queue) after := by
  refine ⟨fun name text => ?_, fun fs path => ?_, exists_exhausts⟩
  · obtain ⟨ms, grown, search⟩ := parseRoot_grown { options } name text
    have found := search [] [] .done
    rw [List.append_nil] at found
    exact searched_of_grown grown found
  · obtain ⟨ms, grown, search⟩ :=
      parseFiles_grown fs (targetFiles fs path) { options := targetOptions fs options }
    exact searched_of_grown grown search

end ScriptLang.Syntax
