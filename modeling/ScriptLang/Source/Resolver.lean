import ScriptLang.FileSystem

/-!
# Finding sources by name

A resolver turns the name written in an include or an import into a source, knowing which source
asks for it.  Sources come from a table of texts or from a file tree.
-/

namespace ScriptLang

/-- A source that was found: the one name it is known under, and its text. -/
structure SourceText where
  name : String
  text : String
deriving DecidableEq, Repr

/-- The outcome of a search, with a remark for every source that was found but could not be read. -/
structure Resolution where
  source : Option SourceText
  remarks : List String := []
deriving Repr

/-- A way to find the source `name` for the source `including`, among finitely many. -/
structure Resolver where
  find : (name including : String) → Resolution
  /-- The names of all sources that can be found. -/
  names : List String
  mem_names : ∀ {name including s}, (find name including).source = some s → s.name ∈ names

namespace Resolver

/-- Sources kept in a table under their exact names. -/
def ofTable (table : List (String × String)) : Resolver where
  find name _ := { source := (table.lookup name).map fun text => ⟨name, text⟩ }
  names := table.map Prod.fst
  mem_names {name _ s} h := by
    simp only [Option.map_eq_some_iff] at h
    obtain ⟨text, hlookup, rfl⟩ := h
    induction table with
    | nil => simp at hlookup
    | cons e table ih =>
      rw [List.lookup_cons] at hlookup
      split at hlookup
      · next heq => simp_all
      · exact List.mem_cons_of_mem _ (ih hlookup)

/-! ### Files -/

/-- The places where a file is looked for: next to the source that asks, then in each of the
directories in order. -/
def candidates (directories : List String) (name including : String) : List String :=
  if Path.isAbsolute name then [name]
  else ((Path.parent? including).toList ++ directories).map fun dir => Path.join dir name

/-- The first of some files that can be read. -/
def firstReadable (fs : FileSystem) : List String → Resolution
  | [] => { source := none }
  | path :: paths =>
    if fs.isFile path then
      match fs.readText path with
      | .ok text => { source := some ⟨fs.canonical path, text⟩ }
      | .error e =>
        let found := firstReadable fs paths
        { found with remarks := ("could not read " ++ path ++ ": " ++ e.message) :: found.remarks }
    else firstReadable fs paths

/-- The one path of every entry of a file tree. -/
def entryPaths (fs : FileSystem) : List String := fs.entries.map fun e => FileSystem.absolute e.1

theorem canonical_mem_of_isFile {fs : FileSystem} {path : String} (h : fs.isFile path = true) :
    fs.canonical path ∈ entryPaths fs := by
  unfold FileSystem.isFile at h
  unfold FileSystem.canonical
  split at h
  · next place content hlookup =>
    simp only [hlookup]
    have hnode : fs.node? place = some (.file content) := by
      unfold FileSystem.lookup at hlookup
      simp only [bind, Except.bind] at hlookup
      split at hlookup
      · simp at hlookup
      · split at hlookup
        · next node hnode =>
          simp only [pure, Except.pure, Except.ok.injEq, Prod.mk.injEq] at hlookup
          rw [← hlookup.1, ← hlookup.2]
          exact hnode
        · simp [throw, throwThe, MonadExceptOf.throw] at hlookup
    unfold FileSystem.node? at hnode
    split at hnode
    · next e hfind =>
      have hmem := List.mem_of_find?_eq_some hfind
      have hplace := List.find?_some hfind
      simp only [beq_iff_eq] at hplace
      exact List.mem_map.2 ⟨_, hmem, by simp [hplace]⟩
    · split at hnode <;> simp at hnode
  · simp at h

theorem firstReadable_mem {fs : FileSystem} {paths : List String} {s : SourceText}
    (h : (firstReadable fs paths).source = some s) : s.name ∈ entryPaths fs := by
  induction paths with
  | nil => simp [firstReadable] at h
  | cons path paths ih =>
    unfold firstReadable at h
    split at h
    · next hfile =>
      split at h
      · obtain rfl := Option.some.inj h
        exact canonical_mem_of_isFile hfile
      · exact ih h
    · exact ih h

/-- Sources in a file tree. -/
def ofFiles (fs : FileSystem) (directories : List String) : Resolver where
  find name including := firstReadable fs (candidates directories name including)
  names := entryPaths fs
  mem_names h := firstReadable_mem h

end Resolver

end ScriptLang
