import ScriptLang.Native.Library

/-!
# What bridges find

A bridge remembers the names that its libraries were asked for.  What it remembers is what the
libraries say (`Bridge.Made.coherent`), so that nothing but its libraries and their order decides
what a search finds (`Bridge.resolve_congr`): a symbol found once can be kept, and a search made
again finds it again.
-/

namespace ScriptLang.Native

/-! ### What is remembered -/

/-- What a library remembers is what its image says. -/
structure LoadedLibrary.Coherent (l : LoadedLibrary) : Prop where
  exported : ∀ {name s}, l.exported.lookup name = some s → l.image name = .ok s
  missing : ∀ {name}, name ∈ l.missing → ∃ n, l.image name = .error (.symbolNotFound n)

/-- A library without what it remembers. -/
def LoadedLibrary.content (l : LoadedLibrary) : String × Image := (l.path, l.image)

namespace Bridge

/-! ### Loaders that always answer the same -/

/-- Look a name up in one library; whether its image had to be asked. -/
def lookup (l : LoadedLibrary) (name : String) : Found × LoadedLibrary × Bool :=
  match l.exported.lookup name with
  | some s => (.symbol s, l, false)
  | none =>
    if l.missing.contains name then (.absent, l, false)
    else
      match l.image name with
      | .ok s => (.symbol s, { l with exported := (name, s) :: l.exported }, true)
      | .error (.symbolNotFound _) => (.absent, { l with missing := name :: l.missing }, true)
      | .error e => (.failed e, l, true)

/-- Look a name up in libraries one after the other; how many images had to be asked. -/
def lookupAll (name : String) :
    List LoadedLibrary → Except NativeError FunctionHandle × List LoadedLibrary × Nat
  | [] => (.error (.symbolNotFound name), [], 0)
  | l :: ls =>
    let (found, l, asked) := lookup l name
    let count := if asked then 1 else 0
    match found with
    | .symbol s => (.ok ⟨name, l.path, s⟩, l :: ls, count)
    | .failed e => (.error e, l :: ls, count)
    | .absent =>
      let (r, ls, more) := lookupAll name ls
      (r, l :: ls, count + more)

/-- Such a loader need not be kept in mind when a library is asked. -/
theorem lookupWith_eq (loader : Loader) (l : LoadedLibrary) (name : String) :
    lookupWith loader l name =
      ((lookup l name).1, (lookup l name).2.1, (lookup l name).2.2, loader) := by
  unfold lookupWith lookup
  cases l.exported.lookup name with
  | some s => rfl
  | none =>
    have asked : DynamicLoader.find loader l.image name = (l.image name, loader) := rfl
    dsimp only
    rw [asked]
    by_cases missing : l.missing.contains name = true
    · rw [if_pos missing, if_pos missing]
    · rw [if_neg missing, if_neg missing]
      cases l.image name with
      | ok s => rfl
      | error e => cases e <;> rfl

theorem lookupAllWith_eq (loader : Loader) (name : String) : ∀ ls : List LoadedLibrary,
    lookupAllWith name loader ls =
      ((lookupAll name ls).1, (lookupAll name ls).2.1, (lookupAll name ls).2.2, loader)
  | [] => rfl
  | l :: ls => by
    rw [lookupAllWith, lookupAll, lookupWith_eq]
    dsimp only
    cases (lookup l name).1 with
    | symbol s => rfl
    | failed e => rfl
    | absent =>
      dsimp only
      rw [lookupAllWith_eq loader name ls]

theorem resolve_eq (b : Bridge) (name : String) :
    b.resolve name = ((lookupAll name b.libraries.reverse).1,
      { b with
        libraries := (lookupAll name b.libraries.reverse).2.1.reverse
        resolutions := b.resolutions + (lookupAll name b.libraries.reverse).2.2 }) := by
  rw [resolve, lookupAllWith_eq]

theorem resolve_loader (b : Bridge) (name : String) : (b.resolve name).2.loader = b.loader := by
  rw [resolve_eq]

theorem loadFirst_cons (b : Bridge) (image : String) (last : Option NativeError) (path : String)
    (paths : List String) :
    b.loadFirst image last (path :: paths) =
      match b.loader.load path with
      | .ok found => (.ok (b.append path found).1, (b.append path found).2)
      | .error e => b.loadFirst image (some e) paths := by
  have tried : DynamicLoader.load b.loader path = (b.loader.load path, b.loader) := rfl
  rw [loadFirst, tried]
  cases b.loader.load path <;> rfl

theorem loadProcess_eq (b : Bridge) :
    b.loadProcess =
      match b.handle? processImage, b.loader.process with
      | some handle, _ => (.ok handle, b)
      | none, some image => (.ok (b.append processImage image).1, (b.append processImage image).2)
      | none, none =>
        (.error (.imageNotFound processImage "not supported on this platform"), b) := by
  have asked : DynamicLoader.process b.loader = (b.loader.process, b.loader) := rfl
  rw [loadProcess, asked]
  cases b.handle? processImage with
  | some handle => rfl
  | none => cases b.loader.process <;> rfl

/-! ### The answer of one library -/

/-- The answer of an image to a name. -/
def answer (image : Image) (name : String) : Found :=
  match image name with
  | .ok s => .symbol s
  | .error (.symbolNotFound _) => .absent
  | .error e => .failed e

/-- A library answers for its image. -/
theorem lookup_found {l : LoadedLibrary} (h : l.Coherent) (name : String) :
    (lookup l name).1 = answer l.image name := by
  unfold lookup answer
  cases hexported : l.exported.lookup name with
  | some s =>
    rw [h.exported hexported]
  | none =>
    dsimp only
    by_cases hmissing : l.missing.contains name = true
    · obtain ⟨n, hn⟩ := h.missing (List.contains_iff_mem.1 hmissing)
      rw [if_pos hmissing, hn]
    · rw [if_neg hmissing]
      cases himage : l.image name with
      | ok s => rfl
      | error e => cases e <;> rfl

/-- Only what a library remembers changes when it is asked for a name. -/
theorem lookup_content (l : LoadedLibrary) (name : String) :
    (lookup l name).2.1.content = l.content := by
  unfold lookup
  split
  · rfl
  · split
    · rfl
    · split <;> rfl

/-- What a library is asked for, it remembers as its image says it. -/
theorem lookup_coherent {l : LoadedLibrary} (h : l.Coherent) (name : String) :
    (lookup l name).2.1.Coherent := by
  unfold lookup
  split
  · exact h
  · split
    · exact h
    · split
      · rename_i s himage
        refine ⟨fun {n s'} hn => ?_, h.missing⟩
        rw [List.lookup_cons] at hn
        split at hn
        · rename_i same
          rw [eq_of_beq same, ← Option.some.inj hn]
          exact himage
        · exact h.exported hn
      · rename_i n himage
        refine ⟨h.exported, fun {n'} hn' => ?_⟩
        obtain rfl | earlier := List.mem_cons.1 hn'
        · exact ⟨n, himage⟩
        · exact h.missing earlier
      · exact h

/-! ### Libraries in order -/

/-- The first of some images that has a symbol of a name, and the symbol. -/
def search (name : String) : List (String × Image) → Except NativeError FunctionHandle
  | [] => .error (.symbolNotFound name)
  | (path, image) :: rest =>
    match answer image name with
    | .symbol s => .ok ⟨name, path, s⟩
    | .failed e => .error e
    | .absent => search name rest

theorem lookupAll_found (name : String) : ∀ {ls : List LoadedLibrary}, (∀ l ∈ ls, l.Coherent) →
    (lookupAll name ls).1 = search name (ls.map LoadedLibrary.content)
  | [], _ => rfl
  | l :: ls, h => by
    have rest := lookupAll_found name fun l' hl' => h l' (List.mem_cons_of_mem l hl')
    have first := lookup_found (h l List.mem_cons_self) name
    have content := congrArg Prod.fst (lookup_content l name)
    rw [List.map_cons, lookupAll, search, ← rest]
    dsimp only [LoadedLibrary.content] at content ⊢
    rw [← first, ← content]
    cases (lookup l name).1 <;> rfl

theorem lookupAll_content (name : String) : ∀ ls : List LoadedLibrary,
    (lookupAll name ls).2.1.map LoadedLibrary.content = ls.map LoadedLibrary.content
  | [] => rfl
  | l :: ls => by
    have rest := lookupAll_content name ls
    have first := lookup_content l name
    rw [lookupAll]
    dsimp only
    split
    · rw [List.map_cons, List.map_cons, first]
    · rw [List.map_cons, List.map_cons, first]
    · rw [List.map_cons, List.map_cons, first, rest]

theorem lookupAll_coherent (name : String) : ∀ {ls : List LoadedLibrary}, (∀ l ∈ ls, l.Coherent) →
    ∀ l ∈ (lookupAll name ls).2.1, l.Coherent
  | [], h => h
  | l :: ls, h => by
    have later : ∀ l' ∈ ls, l'.Coherent := fun l' hl' => h l' (List.mem_cons_of_mem l hl')
    have first := lookup_coherent (h l List.mem_cons_self) name
    rw [lookupAll]
    dsimp only
    split
    · exact List.forall_mem_cons.2 ⟨first, later⟩
    · exact List.forall_mem_cons.2 ⟨first, later⟩
    · exact List.forall_mem_cons.2 ⟨first, lookupAll_coherent name later⟩

/-! ### Bridges -/

/-- The libraries of a bridge without what they remember, in the order of loading. -/
def contents (b : Bridge) : List (String × Image) := b.libraries.map LoadedLibrary.content

/-- What every library of a bridge remembers is what its image says. -/
def Coherent (b : Bridge) : Prop := ∀ l ∈ b.libraries, l.Coherent

/-- The bridges that come of loading libraries and searching them. -/
inductive Made : Bridge → Prop
  | empty (loader : Loader) : Made { loader }
  | load {b : Bridge} (h : Made b) (image : String) : Made (b.load image).2
  | loadProcess {b : Bridge} (h : Made b) : Made b.loadProcess.2
  | resolve {b : Bridge} (h : Made b) (name : String) : Made (b.resolve name).2

theorem append_coherent {b : Bridge} (h : b.Coherent) (path : String) (image : Image) :
    (b.append path image).2.Coherent :=
  List.forall_mem_append.2 ⟨h, List.forall_mem_singleton.2 ⟨nofun, nofun⟩⟩

theorem loadFirst_coherent {b : Bridge} (h : b.Coherent) (image : String) :
    ∀ (paths : List String) (last : Option NativeError), (b.loadFirst image last paths).2.Coherent
  | [], _ => h
  | path :: paths, _ => by
    rw [loadFirst_cons]
    split
    · exact append_coherent h path _
    · exact loadFirst_coherent h image paths _

theorem load_coherent {b : Bridge} (h : b.Coherent) (image : String) :
    (b.load image).2.Coherent := by
  unfold load
  dsimp only
  split
  · exact h
  · exact loadFirst_coherent h image _ _

theorem loadProcess_coherent {b : Bridge} (h : b.Coherent) : b.loadProcess.2.Coherent := by
  rw [loadProcess_eq]
  split
  · exact h
  · exact append_coherent h _ _
  · exact h

theorem resolve_coherent {b : Bridge} (h : b.Coherent) (name : String) :
    (b.resolve name).2.Coherent := by
  rw [resolve_eq]
  exact fun l hl =>
    lookupAll_coherent name (fun l hl => h l (List.mem_reverse.1 hl)) l (List.mem_reverse.1 hl)

theorem Made.coherent {b : Bridge} (h : b.Made) : b.Coherent := by
  induction h with
  | empty loader => exact nofun
  | load _ image ih => exact load_coherent ih image
  | loadProcess _ ih => exact loadProcess_coherent ih
  | resolve _ name ih => exact resolve_coherent ih name

theorem platform_made : Bridge.platform.Made := .loadProcess (.empty _)

/-- A search leaves the libraries and their order. -/
theorem resolve_contents (b : Bridge) (name : String) :
    (b.resolve name).2.contents = b.contents := by
  have h := lookupAll_content name b.libraries.reverse
  rw [contents, resolve_eq, List.map_reverse, h, List.map_reverse, List.reverse_reverse, contents]

theorem resolve_eq_search {b : Bridge} (h : b.Coherent) (name : String) :
    (b.resolve name).1 = search name b.contents.reverse := by
  have found := lookupAll_found name fun l hl => h l (List.mem_reverse.1 hl)
  rw [List.map_reverse] at found
  rw [resolve_eq]
  exact found

variable {b b' : Bridge}

/-- Only the libraries and their order decide what a search finds. -/
theorem resolve_congr (h : b.Coherent) (h' : b'.Coherent) (same : b'.contents = b.contents)
    (name : String) : (b'.resolve name).1 = (b.resolve name).1 := by
  rw [resolve_eq_search h, resolve_eq_search h', same]

theorem callNamed_congr (h : b.Coherent) (h' : b'.Coherent) (same : b'.contents = b.contents)
    (name : String) (s : Signature) (args : List Value) :
    (b'.callNamed name s args).1 = (b.callNamed name s args).1 := by
  have found := resolve_congr h h' same name
  unfold callNamed
  split
  · rfl
  · cases hr : b.resolve name with
    | mk r b₁ =>
      cases hr' : b'.resolve name with
      | mk r' b₁' =>
        rw [hr, hr'] at found
        dsimp only at found
        subst found
        cases r' <;> rfl

end Bridge

end ScriptLang.Native
