import Mathlib.Data.List.Nodup
import ScriptLang.Proofs.SymbolSearch

/-!
# The registry of libraries

Whether an attempt to load a library succeeds is up to the loader, which may answer otherwise when it
is asked again.  A bridge only appends libraries, and only under paths that it does not have yet
(`Bridge.obey_grows`).  So whatever it is asked, a handle that it hands out names the same library for
ever; what is loaded is not loaded again, and a load that fails leaves what is remembered alone
(`Bridge.registry_grows`).
-/

namespace ScriptLang.Native

namespace Bridge

variable {L : Type} {b b' b'' : Bridge L}

/-! ### Handles -/

/-- The handle is that of a library of the bridge. -/
def Names (b : Bridge L) (h : LibraryHandle) : Prop := b.paths[h.index]? = some h.path

theorem length_paths (b : Bridge L) : b.paths.length = b.libraries.length :=
  List.length_map LoadedLibrary.path

theorem Names.index_lt {h : LibraryHandle} (named : b.Names h) : h.index < b.libraries.length := by
  obtain ⟨inside, -⟩ := List.getElem?_eq_some_iff.1 named
  rwa [length_paths] at inside

theorem Names.of_appended {h : LibraryHandle} (named : b.Names h) (appended : b.paths <+: b'.paths) :
    b'.Names h := by
  obtain ⟨inside, -⟩ := List.getElem?_eq_some_iff.1 named
  obtain ⟨added, grown⟩ := appended
  rw [Names, ← grown, List.getElem?_append_left inside]
  exact named

theorem handle?_eq_none_iff {path : String} : b.handle? path = none ↔ path ∉ b.paths := by
  rw [handle?, Option.map_eq_none_iff, List.findIdx?_eq_none_iff]
  constructor
  · intro differ mem
    simpa using differ path mem
  · rintro absent path' mem
    rw [beq_eq_false_iff_ne]
    rintro rfl
    exact absent mem

theorem names_of_handle? {path : String} {h : LibraryHandle} (found : b.handle? path = some h) :
    h.path = path ∧ b.Names h := by
  obtain ⟨index, place, rfl⟩ := Option.map_eq_some_iff.1 found
  obtain ⟨inside, here, -⟩ := List.findIdx?_eq_some_iff_getElem.1 place
  exact ⟨rfl, List.getElem?_eq_some_iff.2 ⟨inside, eq_of_beq here⟩⟩

theorem exists_handle? {path : String} (loaded : path ∈ b.paths) :
    ∃ h, b.handle? path = some h := by
  rw [← Option.isSome_iff_exists, Option.isSome_iff_ne_none]
  exact fun none => handle?_eq_none_iff.1 none loaded

/-- Among paths, the first one that is loaded gives the handle. -/
theorem findSome?_handle? (b : Bridge L) (paths : List String) :
    (paths.findSome? b.handle?).map LibraryHandle.path = paths.find? (· ∈ b.paths) := by
  induction paths with
  | nil => rfl
  | cons path paths ih =>
    rw [List.findSome?_cons, List.find?_cons]
    by_cases loaded : path ∈ b.paths
    · obtain ⟨h, found⟩ := exists_handle? loaded
      simp [loaded, found, (names_of_handle? found).1]
    · simpa [loaded, handle?_eq_none_iff.2 loaded] using ih

/-! ### How bridges change -/

/-- What comes of trying paths that are not loaded: a library is appended, or only the loader
changes. -/
inductive Tries (b : Bridge L) : Except NativeError LibraryHandle × Bridge L → Prop
  | adds {path : String} (new : path ∉ b.paths) (image : Image) (loader : L) :
    Tries b (.ok ⟨path, b.libraries.length⟩,
      { b with loader, libraries := b.libraries ++ [{ path, image }] })
  | fails (e : NativeError) (loader : L) : Tries b (.error e, { b with loader })

theorem Tries.of_loader {loader : L} {r : Except NativeError LibraryHandle × Bridge L}
    (h : Tries { b with loader } r) : b.Tries r := by
  cases h with
  | adds new image loader => exact Tries.adds (b := b) new image loader
  | fails e loader => exact Tries.fails (b := b) e loader

/-- A load that fails changes nothing but the loader. -/
theorem Tries.of_error {r : Except NativeError LibraryHandle × Bridge L} (h : b.Tries r)
    {e : NativeError} (failed : r.1 = .error e) : r.2 = { b with loader := r.2.loader } := by
  cases h with
  | adds new image loader => cases failed
  | fails e loader => rfl

/-- Libraries are appended under new paths, and the handles handed out meanwhile name libraries of
the bridge. -/
structure Grows (b : Bridge L) (handles : List LibraryHandle) (b' : Bridge L) : Prop where
  appended : b.paths <+: b'.paths
  distinct : b.paths.Nodup → b'.paths.Nodup
  named : ∀ h ∈ handles, b'.Names h

theorem Grows.of_paths (same : b'.paths = b.paths) : b.Grows [] b' :=
  ⟨same ▸ List.prefix_rfl, same ▸ id, nofun⟩

theorem Grows.trans {handles handles' : List LibraryHandle} (h : b.Grows handles b')
    (h' : b'.Grows handles' b'') : b.Grows (handles ++ handles') b'' where
  appended := h.appended.trans h'.appended
  distinct := h'.distinct ∘ h.distinct
  named handle mem := (List.mem_append.1 mem).elim
    (fun before => (h.named handle before).of_appended h'.appended) (h'.named handle)

theorem Grows.of_known {h : LibraryHandle} (named : b.Names h) : b.Grows [h] b :=
  ⟨List.prefix_rfl, id, List.forall_mem_singleton.2 named⟩

theorem Tries.grows {r : Except NativeError LibraryHandle × Bridge L} (h : b.Tries r) :
    b.Grows r.1.toOption.toList r.2 := by
  cases h with
  | fails e loader => exact .of_paths rfl
  | @adds path new image loader =>
    have added : paths { b with loader, libraries := b.libraries ++ [{ path, image }] } =
        b.paths ++ [path] :=
      List.map_append
    refine ⟨added ▸ List.prefix_append _ _, fun distinct => ?_, List.forall_mem_singleton.2 ?_⟩
    · rw [added, ← List.concat_eq_append]
      exact List.Nodup.concat new distinct
    · rw [Names, added, ← length_paths]
      exact List.getElem?_concat_length

variable [DynamicLoader L]

/-! ### Searches -/

theorem lookupWith_path (loader : L) (l : LoadedLibrary) (name : String) :
    (lookupWith loader l name).2.1.path = l.path := by
  unfold lookupWith
  split
  · rfl
  · split
    · rfl
    · split <;> rfl

theorem lookupAllWith_paths (name : String) : ∀ (loader : L) (ls : List LoadedLibrary),
    (lookupAllWith name loader ls).2.1.map LoadedLibrary.path = ls.map LoadedLibrary.path
  | _, [] => rfl
  | loader, l :: ls => by
    have first := lookupWith_path loader l name
    rw [lookupAllWith]
    dsimp only
    split
    · rw [List.map_cons, List.map_cons, first]
    · rw [List.map_cons, List.map_cons, first]
    · rw [List.map_cons, List.map_cons, first, lookupAllWith_paths name _ ls]

/-- A search loads nothing. -/
theorem paths_resolve (b : Bridge L) (name : String) : (b.resolve name).2.paths = b.paths := by
  have searched := lookupAllWith_paths name b.loader b.libraries.reverse
  rw [paths, resolve, List.map_reverse, searched, List.map_reverse, List.reverse_reverse, paths]

theorem paths_callNamed (b : Bridge L) (name : String) (s : Signature) (args : List Value) :
    (b.callNamed name s args).2.paths = b.paths := by
  have searched := b.paths_resolve name
  unfold callNamed
  split
  · rfl
  · split <;> next found => rwa [found] at searched

/-! ### Loads -/

theorem loadFirst_tries (image : String) : ∀ (paths : List String) (last : Option NativeError)
    {b : Bridge L}, (∀ path ∈ paths, path ∉ b.paths) → b.Tries (b.loadFirst image last paths)
  | [], _, b, _ => .fails _ b.loader
  | path :: paths, _, b, new => by
    obtain ⟨first, others⟩ := List.forall_mem_cons.1 new
    unfold loadFirst
    split
    · next found loader _ => exact .adds first found loader
    · next e loader _ => exact .of_loader (loadFirst_tries image paths _ others)

/-- Either a library is there, or its paths are tried. -/
theorem load_known_or_tries (b : Bridge L) (image : String) :
    (∃ h, b.load image = (.ok h, b) ∧ b.Names h) ∨ b.Tries (b.load image) := by
  unfold load
  dsimp only
  split
  · next h found =>
    obtain ⟨path, -, known⟩ := List.exists_of_findSome?_eq_some found
    exact .inl ⟨h, rfl, (names_of_handle? known).2⟩
  · next none =>
    refine .inr (loadFirst_tries image _ _ fun path mem => ?_)
    exact handle?_eq_none_iff.1 (List.findSome?_eq_none_iff.1 none path mem)

theorem loadProcess_known_or_tries (b : Bridge L) :
    (∃ h, b.loadProcess = (.ok h, b) ∧ b.Names h) ∨ b.Tries b.loadProcess := by
  unfold loadProcess
  split
  · next h known => exact .inl ⟨h, rfl, (names_of_handle? known).2⟩
  · next none =>
    right
    split
    · next image loader _ => exact .adds (handle?_eq_none_iff.1 none) image loader
    · next loader _ => exact .fails _ loader

/-- A library of which a path is loaded is found under the first such path, and nothing changes. -/
theorem load_of_loaded {image path : String}
    (candidate : path ∈ DynamicLoader.candidates b.loader image) (loaded : path ∈ b.paths) :
    ∃ h, b.load image = (.ok h, b) ∧ b.Names h ∧
      (DynamicLoader.candidates b.loader image).find? (· ∈ b.paths) = some h.path := by
  have first := b.findSome?_handle? (DynamicLoader.candidates b.loader image)
  cases found : (DynamicLoader.candidates b.loader image).findSome? b.handle? with
  | none =>
    have absent := handle?_eq_none_iff.1 (List.findSome?_eq_none_iff.1 found path candidate)
    exact absurd loaded absent
  | some h =>
    obtain ⟨path', -, known⟩ := List.exists_of_findSome?_eq_some found
    rw [found] at first
    exact ⟨h, by rw [load, found], (names_of_handle? known).2, first.symm⟩

theorem loadProcess_of_loaded (loaded : processImage ∈ b.paths) :
    ∃ h, b.loadProcess = (.ok h, b) ∧ b.Names h ∧ h.path = processImage := by
  obtain ⟨h, known⟩ := exists_handle? loaded
  obtain ⟨path, named⟩ := names_of_handle? known
  exact ⟨h, by rw [loadProcess, known], named, path⟩

theorem load_of_error {image : String} {e : NativeError} (failed : (b.load image).1 = .error e) :
    (b.load image).2 = { b with loader := (b.load image).2.loader } := by
  rcases b.load_known_or_tries image with ⟨h, known, -⟩ | tried
  · rw [known] at failed
    cases failed
  · exact tried.of_error failed

theorem loadProcess_of_error {e : NativeError} (failed : b.loadProcess.1 = .error e) :
    b.loadProcess.2 = { b with loader := b.loadProcess.2.loader } := by
  rcases b.loadProcess_known_or_tries with ⟨h, known, -⟩ | tried
  · rw [known] at failed
    cases failed
  · exact tried.of_error failed

/-! ### Requests -/

/-- Answer a request: the handle that is handed out, if one is, and the bridge behind it. -/
def obey (b : Bridge L) : Request → Option LibraryHandle × Bridge L
  | .load image => (b.load image).map Except.toOption id
  | .loadProcess => b.loadProcess.map Except.toOption id
  | .resolve name => (none, (b.resolve name).2)
  | .call name s args => (none, (b.callNamed name s args).2)

/-- Answer requests one after the other: all handles that are handed out, and the bridge at last. -/
def obeyAll : List Request → Bridge L → List LibraryHandle × Bridge L
  | [], b => ([], b)
  | r :: requests, b =>
    let (handles, last) := obeyAll requests (b.obey r).2
    ((b.obey r).1.toList ++ handles, last)

theorem obey_grows (b : Bridge L) : ∀ r : Request, b.Grows (b.obey r).1.toList (b.obey r).2
  | .load image => by
    rcases b.load_known_or_tries image with ⟨h, known, named⟩ | tried
    · rw [obey, known]
      exact .of_known named
    · exact tried.grows
  | .loadProcess => by
    rcases b.loadProcess_known_or_tries with ⟨h, known, named⟩ | tried
    · rw [obey, known]
      exact .of_known named
    · exact tried.grows
  | .resolve name => .of_paths (b.paths_resolve name)
  | .call name s args => .of_paths (b.paths_callNamed name s args)

theorem obeyAll_grows (requests : List Request) (b : Bridge L) :
    b.Grows (obeyAll requests b).1 (obeyAll requests b).2 := by
  induction requests generalizing b with
  | nil => exact .of_paths rfl
  | cons r requests ih => exact (b.obey_grows r).trans (ih _)

/-- Whatever a bridge is asked and whichever attempts fail, no path is loaded twice and paths are
only appended, so that every handle handed out names its library for ever after.  A library of which
a path is loaded is found without a word to the loader, even one that counts what it is asked, and a
load that fails leaves the libraries and all that is remembered of them. -/
theorem registry_grows (loader : L) (earlier later : List Request) :
    let handles := (obeyAll earlier { loader }).1
    let b := (obeyAll earlier { loader }).2
    let b' := (obeyAll later b).2
    b.paths.Nodup ∧ b'.paths.Nodup ∧ b.paths <+: b'.paths ∧
      (∀ h ∈ handles, h.index < b'.libraries.length ∧ b'.paths[h.index]? = some h.path) ∧
      (∀ image, ∀ path ∈ DynamicLoader.candidates b.loader image, path ∈ b.paths →
        ∃ h, b.load image = (.ok h, b) ∧ b.paths[h.index]? = some h.path ∧
          (DynamicLoader.candidates b.loader image).find? (· ∈ b.paths) = some h.path) ∧
      (processImage ∈ b.paths →
        ∃ h, b.loadProcess = (.ok h, b) ∧ b.paths[h.index]? = some h.path ∧
          h.path = processImage) ∧
      (∀ image e, (b.load image).1 = .error e →
        (b.load image).2 = { b with loader := (b.load image).2.loader }) ∧
      ∀ e, b.loadProcess.1 = .error e →
        b.loadProcess.2 = { b with loader := b.loadProcess.2.loader } := by
  intro handles b b'
  have before := obeyAll_grows earlier { loader }
  have after := obeyAll_grows later b
  have distinct : b.paths.Nodup := before.distinct .nil
  refine ⟨distinct, after.distinct distinct, after.appended, fun h mem => ?_,
    fun _ _ => load_of_loaded, loadProcess_of_loaded, fun _ _ => load_of_error,
    fun _ => loadProcess_of_error⟩
  have named := (before.named h mem).of_appended after.appended
  exact ⟨named.index_lt, named⟩

/-- A loader that counts attempts, and of which every other one fails. -/
structure Busy where
  attempts : Nat := 0

instance : DynamicLoader Busy where
  load loader path :=
    (if loader.attempts % 2 = 0 then .error (.imageNotFound path "busy") else .ok (imageOf []),
      ⟨loader.attempts + 1⟩)
  process loader := (if loader.attempts % 2 = 0 then none else some (imageOf []),
    ⟨loader.attempts + 1⟩)
  find loader image name := (image name, loader)
  candidates _ := platformNames

/-- The bridge when `m` has been loaded, under its second path. -/
def oneLoaded : Bridge Busy := (obeyAll [.load "m"] { loader := {} }).2

/-- The bridge when the running program's own image has been loaded too, at the second attempt. -/
def bothLoaded : Bridge Busy :=
  (obeyAll [.load "m", .loadProcess, .loadProcess] { loader := {} }).2

/-- What is loaded is there when it is asked for again, what fails leaves the libraries, and `m`
keeps its place. -/
theorem busy_registry_grows :
    (∃ h, oneLoaded.load "m" = (.ok h, oneLoaded)) ∧
      (oneLoaded.load "a.so").2.libraries = oneLoaded.libraries ∧
      oneLoaded.loadProcess.2.libraries = oneLoaded.libraries ∧
      (∃ h, bothLoaded.loadProcess = (.ok h, bothLoaded)) ∧
      (obeyAll [.load "a.so", .load "a.so"] bothLoaded).2.paths =
        ["libm.so", "<process>", "a.so"] ∧
      (obeyAll [.load "a.so", .load "a.so"] bothLoaded).2.paths[0]? = some "libm.so" := by
  obtain ⟨-, -, -, -, there, -, failed, failed'⟩ := registry_grows ({} : Busy) [.load "m"] []
  obtain ⟨-, -, -, named, -, own, -⟩ := registry_grows ({} : Busy)
    [.load "m", .loadProcess, .loadProcess] [.load "a.so", .load "a.so"]
  obtain ⟨h, known, -⟩ := there "m" "libm.so" (by decide) (by decide)
  obtain ⟨h', known', -⟩ := own (by decide)
  refine ⟨⟨h, known⟩, ?_, ?_, ⟨h', known'⟩, by decide, (named ⟨"libm.so", 0⟩ (by decide)).2⟩
  · rw [oneLoaded, failed "a.so" _ rfl]
  · rw [oneLoaded, failed' _ rfl]

end Bridge

end ScriptLang.Native
