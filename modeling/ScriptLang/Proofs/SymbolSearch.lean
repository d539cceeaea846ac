import Mathlib.Data.List.Nodup
import ScriptLang.Native.Library
import ScriptLang.Proofs.Resolution

/-!
# What bridges remember

A bridge that remembers what its libraries export finds what a search without memory finds: the
symbol of the library loaded last that exports the name.  Its memory spares inquiries: however often
names are looked up, and whatever is loaded in between, no library is asked twice for one name
(`finds_latest`).
-/

namespace ScriptLang.Native

/-- The image has a symbol for a name, or says that it has none. -/
def Definite (image : Image) : Prop :=
  ∀ name e, image name = .error e → ∃ n, e = .symbolNotFound n

/-- All images that can be loaded are definite. -/
structure Loader.Definite (loader : Loader) : Prop where
  loaded : ∀ path image, loader.load path = .ok image → Native.Definite image
  own : ∀ image, loader.process = some image → Native.Definite image

/-! ### One library -/

/-- The library need not be asked for the name any more. -/
def LoadedLibrary.Knows (l : LoadedLibrary) (name : String) : Prop :=
  (l.exported.lookup name).isSome ∨ name ∈ l.missing

namespace Bridge

variable {l : LoadedLibrary} {name : String}

/-- A library is asked for what it does not know. -/
theorem lookup_asks_iff : (lookup l name).2.2 = true ↔ ¬ l.Knows name := by
  unfold lookup LoadedLibrary.Knows
  cases l.exported.lookup name with
  | some s => simp
  | none =>
    by_cases missing : name ∈ l.missing
    · simp [missing]
    · simp only [Option.isSome_none, Bool.false_eq_true, missing, or_self, not_false_eq_true,
        iff_true, List.contains_iff_mem, if_false]
      split <;> rfl

/-- A library forgets nothing. -/
theorem lookup_keeps {other : String} (h : l.Knows other) : (lookup l name).2.1.Knows other := by
  unfold lookup
  split
  · exact h
  · split
    · exact h
    · split
      · refine h.imp (fun known => ?_) id
        rw [List.lookup_cons]
        split
        · rfl
        · exact known
      · exact h.imp id (List.mem_cons_of_mem _)
      · exact h

/-- A library with a definite image knows what it has been asked for. -/
theorem lookup_knows (definite : Definite l.image) : (lookup l name).2.1.Knows name := by
  by_cases known : l.Knows name
  · exact lookup_keeps known
  · unfold lookup
    rw [LoadedLibrary.Knows, not_or, Option.not_isSome_iff_eq_none] at known
    rw [known.1]
    dsimp only
    rw [if_neg (by rw [List.contains_iff_mem]; exact known.2)]
    cases found : l.image name with
    | ok s =>
      left
      simp
    | error e =>
      obtain ⟨n, rfl⟩ := definite name e found
      exact .inr List.mem_cons_self

/-! ### Libraries one after the other -/

/-- Libraries with their places after a name has been looked up in one after the other, and the
places of those that were asked. -/
def inquire (name : String) :
    List (LoadedLibrary × Nat) → List (LoadedLibrary × Nat) × List Nat
  | [] => ([], [])
  | (l, place) :: rest =>
    let (found, l, asks) := lookup l name
    let here := if asks then [place] else []
    match found with
    | .absent =>
      let (rest, more) := inquire name rest
      ((l, place) :: rest, here ++ more)
    | _ => ((l, place) :: rest, here)

variable {ls : List (LoadedLibrary × Nat)}

attribute [local simp] inquire

theorem lookupAll_eq_inquire (name : String) : ∀ ls : List (LoadedLibrary × Nat),
    (lookupAll name (ls.map Prod.fst)).2 =
      ((inquire name ls).1.map Prod.fst, (inquire name ls).2.length)
  | [] => rfl
  | (l, place) :: rest => by
    obtain ⟨libraries, count⟩ := Prod.ext_iff.1 (lookupAll_eq_inquire name rest)
    rw [List.map_cons, lookupAll, inquire]
    dsimp only at libraries count ⊢
    cases (lookup l name).1 with
    | absent =>
      dsimp only
      rw [libraries, count, List.length_append]
      cases (lookup l name).2.2 <;> rfl
    | symbol s => cases (lookup l name).2.2 <;> rfl
    | failed e => cases (lookup l name).2.2 <;> rfl

theorem inquire_places (name : String) : ∀ ls : List (LoadedLibrary × Nat),
    (inquire name ls).1.map Prod.snd = ls.map Prod.snd
  | [] => rfl
  | (l, place) :: rest => by
    rw [inquire]
    dsimp only
    split
    · rw [List.map_cons, List.map_cons, inquire_places name rest]
    · rfl

/-- The libraries are asked in their order, each at most once. -/
theorem inquire_sublist (name : String) : ∀ ls : List (LoadedLibrary × Nat),
    (inquire name ls).2.Sublist (ls.map Prod.snd)
  | [] => .slnil
  | (l, place) :: rest => by
    have here : (if (lookup l name).2.2 then [place] else []).Sublist [place] := by
      split
      · exact .refl _
      · exact List.nil_sublist _
    rw [inquire, List.map_cons]
    dsimp only
    split
    · exact here.append (inquire_sublist name rest)
    · exact here.trans (List.singleton_sublist.2 List.mem_cons_self)

/-- Only libraries that do not know the name are asked. -/
theorem not_knows_of_inquire : ∀ {ls : List (LoadedLibrary × Nat)} {place : Nat},
    place ∈ (inquire name ls).2 → ∃ l, (l, place) ∈ ls ∧ ¬ l.Knows name
  | [], _, h => by cases h
  | (l, here) :: rest, place, h => by
    have first (h : place ∈ if (lookup l name).2.2 then [here] else []) :
        ∃ l', (l', place) ∈ (l, here) :: rest ∧ ¬ l'.Knows name := by
      split at h
      · next asks =>
        rw [List.mem_singleton] at h
        exact ⟨l, h ▸ List.mem_cons_self, lookup_asks_iff.1 asks⟩
      · cases h
    rw [inquire] at h
    dsimp only at h
    split at h
    · obtain h | h := List.mem_append.1 h
      · exact first h
      · obtain ⟨l', mem, unknown⟩ := not_knows_of_inquire h
        exact ⟨l', List.mem_cons_of_mem _ mem, unknown⟩
    · exact first h

/-- The libraries that are asked know the name then. -/
theorem knows_of_inquire : ∀ {ls : List (LoadedLibrary × Nat)} {place : Nat},
    (∀ l ∈ ls, Definite l.1.image) → place ∈ (inquire name ls).2 →
      ∃ l, (l, place) ∈ (inquire name ls).1 ∧ l.Knows name
  | [], _, _, h => by cases h
  | (l, here) :: rest, place, definite, h => by
    have known : (lookup l name).2.1.Knows name :=
      lookup_knows (definite (l, here) List.mem_cons_self)
    have first (h : place ∈ if (lookup l name).2.2 then [here] else []) : place = here := by
      split at h
      · exact List.mem_singleton.1 h
      · cases h
    rw [inquire] at h ⊢
    dsimp only at h ⊢
    split at h
    · obtain h | h := List.mem_append.1 h
      · exact ⟨_, first h ▸ List.mem_cons_self, known⟩
      · obtain ⟨l', mem, known'⟩ :=
          knows_of_inquire (fun l hl => definite l (List.mem_cons_of_mem _ hl)) h
        exact ⟨l', List.mem_cons_of_mem _ mem, known'⟩
    · exact ⟨_, first h ▸ List.mem_cons_self, known⟩

/-- No library forgets anything. -/
theorem inquire_keeps : ∀ {ls : List (LoadedLibrary × Nat)} {l : LoadedLibrary} {place : Nat},
    (l, place) ∈ ls →
      ∃ l', (l', place) ∈ (inquire name ls).1 ∧ ∀ other, l.Knows other → l'.Knows other
  | [], _, _, h => by cases h
  | (l, here) :: rest, l', place, h => by
    rw [inquire]
    dsimp only
    obtain same | h := List.mem_cons.1 h
    · cases same
      split <;> exact ⟨_, List.mem_cons_self, fun _ => lookup_keeps⟩
    · split
      · obtain ⟨l'', mem, keeps⟩ := inquire_keeps h
        exact ⟨l'', List.mem_cons_of_mem _ mem, keeps⟩
      · exact ⟨l', List.mem_cons_of_mem _ h, fun _ => id⟩

/-! ### Bridges -/

/-- The places of the libraries that are asked when a name is looked up. -/
def inquiries (b : Bridge) (name : String) : List Nat := (inquire name b.libraries.zipIdx.reverse).2

/-- The library at a place need not be asked for a name any more. -/
def Knows (b : Bridge) (place : Nat) (name : String) : Prop :=
  ∃ l, b.libraries[place]? = some l ∧ l.Knows name

/-- Every library answers a name with a symbol or says that it has none. -/
def Definite (b : Bridge) : Prop := ∀ l ∈ b.libraries, Native.Definite l.image

variable {b : Bridge}

theorem zipIdx_libraries_resolve (b : Bridge) (name : String) :
    (b.resolve name).2.libraries.zipIdx = (inquire name b.libraries.zipIdx.reverse).1.reverse := by
  have found := lookupAll_eq_inquire name b.libraries.zipIdx.reverse
  rw [List.map_reverse, List.zipIdx_map_fst] at found
  have libraries : (b.resolve name).2.libraries =
      ((inquire name b.libraries.zipIdx.reverse).1.reverse).map Prod.fst := by
    rw [List.map_reverse, resolve_eq]
    exact congrArg List.reverse (congrArg Prod.fst found)
  have places : ((inquire name b.libraries.zipIdx.reverse).1.reverse).map Prod.snd =
      List.range' 0 b.libraries.length := by
    rw [List.map_reverse, inquire_places, List.map_reverse, List.reverse_reverse,
      List.zipIdx_map_snd]
  have length := congrArg List.length places
  rw [List.length_map, List.length_range'] at length
  rw [libraries, List.zipIdx_eq_zip_range', List.length_map, length, ← places]
  exact (List.zip_of_prod rfl rfl).symm

theorem resolutions_resolve (b : Bridge) (name : String) :
    (b.resolve name).2.resolutions = b.resolutions + (b.inquiries name).length := by
  have found := lookupAll_eq_inquire name b.libraries.zipIdx.reverse
  rw [List.map_reverse, List.zipIdx_map_fst] at found
  rw [resolve_eq]
  exact congrArg (b.resolutions + ·) (congrArg Prod.snd found)

theorem inquiries_nodup (b : Bridge) (name : String) : (b.inquiries name).Nodup := by
  refine (inquire_sublist name b.libraries.zipIdx.reverse).nodup ?_
  rw [List.map_reverse, List.nodup_reverse, List.zipIdx_map_snd]
  exact List.nodup_range'

/-- Only libraries that do not know the name are asked. -/
theorem not_knows_of_mem_inquiries {place : Nat} (h : place ∈ b.inquiries name) :
    ¬ b.Knows place name := by
  obtain ⟨l, mem, unknown⟩ := not_knows_of_inquire h
  rw [List.mem_reverse, List.mem_zipIdx_iff_getElem?] at mem
  rintro ⟨l', found, known⟩
  cases mem.symm.trans found
  exact unknown known

/-- The libraries that are asked know the name then. -/
theorem knows_of_mem_inquiries (definite : b.Definite) {place : Nat}
    (h : place ∈ b.inquiries name) : (b.resolve name).2.Knows place name := by
  obtain ⟨l, mem, known⟩ := knows_of_inquire (fun p hp =>
    definite p.1 (List.fst_mem_of_mem_zipIdx (List.mem_reverse.1 hp))) h
  rw [← List.mem_reverse, ← zipIdx_libraries_resolve, List.mem_zipIdx_iff_getElem?] at mem
  exact ⟨l, mem, known⟩

theorem Knows.resolve {place : Nat} {other : String} (h : b.Knows place other) (name : String) :
    (b.resolve name).2.Knows place other := by
  obtain ⟨l, found, known⟩ := h
  have listed : (l, place) ∈ b.libraries.zipIdx.reverse :=
    List.mem_reverse.2 (List.mem_zipIdx_iff_getElem?.2 found)
  obtain ⟨l', mem, keeps⟩ : ∃ l', (l', place) ∈ (inquire name b.libraries.zipIdx.reverse).1 ∧
      ∀ other, l.Knows other → l'.Knows other := inquire_keeps listed
  rw [← List.mem_reverse, ← zipIdx_libraries_resolve, List.mem_zipIdx_iff_getElem?] at mem
  exact ⟨l', mem, keeps other known⟩

/-! ### Searches without memory -/

/-- The symbol that a library exports under a name. -/
def exported? (name : String) (library : String × Image) : Option FunctionHandle :=
  match library.2 name with
  | .ok s => some ⟨name, library.1, s⟩
  | .error _ => none

/-- What a search without memory finds in libraries, given in the order in which they were loaded:
the symbol of the last one that exports the name. -/
def latest (name : String) (libraries : List (String × Image)) :
    Except NativeError FunctionHandle :=
  match libraries.reverse.findSome? (exported? name) with
  | some f => .ok f
  | none => .error (.symbolNotFound name)

theorem search_eq (name : String) : ∀ {ls : List (String × Image)},
    (∀ l ∈ ls, Native.Definite l.2) →
    search name ls = match ls.findSome? (exported? name) with
      | some f => .ok f
      | none => .error (.symbolNotFound name)
  | [], _ => rfl
  | (path, image) :: rest, definite => by
    have ih := search_eq name fun l hl => definite l (List.mem_cons_of_mem _ hl)
    rw [search, List.findSome?_cons, answer, exported?]
    dsimp only
    cases found : image name with
    | ok s => rfl
    | error e =>
      obtain ⟨n, rfl⟩ := definite (path, image) List.mem_cons_self name e found
      exact ih

theorem Definite.mem_contents (h : b.Definite) : ∀ l ∈ b.contents, Native.Definite l.2 := by
  intro l hl
  obtain ⟨l', mem, rfl⟩ := List.mem_map.1 hl
  exact h l' mem

theorem resolve_eq_latest (coherent : b.Coherent) (definite : b.Definite) (name : String) :
    (b.resolve name).1 = latest name b.contents := by
  rw [resolve_eq_search coherent,
    search_eq name fun l hl => definite.mem_contents l (List.mem_reverse.1 hl)]
  rfl

/-! ### Loading -/

/-- Definite libraries have been appended, and nothing else has changed. -/
structure Extends (b b' : Bridge) : Prop where
  loader : b'.loader = b.loader
  resolutions : b'.resolutions = b.resolutions
  libraries : ∃ added, b'.libraries = b.libraries ++ added ∧
    ∀ l ∈ added, Native.Definite l.image

variable {b' : Bridge}

theorem Extends.refl (b : Bridge) : b.Extends b := ⟨rfl, rfl, [], (List.append_nil _).symm, nofun⟩

theorem append_extends (b : Bridge) (path : String) {image : Image} (h : Native.Definite image) :
    b.Extends (b.append path image).2 :=
  ⟨rfl, rfl, [{ path, image }], rfl, List.forall_mem_singleton.2 h⟩

theorem loadFirst_extends (h : b.loader.Definite) (image : String) :
    ∀ (paths : List String) (last : Option NativeError), b.Extends (b.loadFirst image last paths).2
  | [], _ => .refl b
  | path :: paths, _ => by
    rw [loadFirst_cons]
    split
    · next found loaded => exact append_extends b path (h.loaded path found loaded)
    · exact loadFirst_extends h image paths _

theorem load_extends (h : b.loader.Definite) (image : String) : b.Extends (b.load image).2 := by
  unfold load
  dsimp only
  split
  · exact .refl b
  · exact loadFirst_extends h image _ _

theorem loadProcess_extends (h : b.loader.Definite) : b.Extends b.loadProcess.2 := by
  rw [loadProcess_eq]
  split
  · exact .refl b
  · next image _ own => exact append_extends b _ (h.own image own)
  · exact .refl b

theorem Extends.definite (h : b.Extends b') (definite : b.Definite) : b'.Definite := by
  obtain ⟨added, libraries, more⟩ := h.libraries
  intro l hl
  rw [libraries] at hl
  exact (List.mem_append.1 hl).elim (definite l) (more l)

theorem Extends.knows (h : b.Extends b') {place : Nat} {name : String}
    (known : b.Knows place name) :
    b'.Knows place name := by
  obtain ⟨added, libraries, _⟩ := h.libraries
  obtain ⟨l, found, knows⟩ := known
  refine ⟨l, ?_, knows⟩
  rw [libraries, List.getElem?_append_left (List.getElem?_eq_some_iff.1 found).1, found]

/-- Two bridges have loaded the same with the same loader. -/
structure Same (b b' : Bridge) : Prop where
  loader : b.loader = b'.loader
  contents : b.contents = b'.contents

theorem Same.handle? (h : b.Same b') (path : String) : b.handle? path = b'.handle? path := by
  have paths (b : Bridge) : b.paths = b.contents.map Prod.fst := by
    rw [Bridge.contents, List.map_map]
    rfl
  rw [Bridge.handle?, Bridge.handle?, paths, paths, h.contents]

theorem Same.append (h : b.Same b') (path : String) (image : Image) :
    (b.append path image).2.Same (b'.append path image).2 := by
  have appended (b : Bridge) : (b.append path image).2.contents = b.contents ++ [(path, image)] :=
    List.map_append
  refine ⟨h.loader, ?_⟩
  rw [appended, appended, h.contents]

theorem Same.loadFirst (h : b.Same b') (image : String) :
    ∀ (paths : List String) (last : Option NativeError),
      (b.loadFirst image last paths).2.Same (b'.loadFirst image last paths).2
  | [], _ => h
  | path :: paths, _ => by
    rw [loadFirst_cons, loadFirst_cons, h.loader]
    split
    · exact h.append path _
    · exact h.loadFirst image paths _

theorem Same.load (h : b.Same b') (image : String) : (b.load image).2.Same (b'.load image).2 := by
  have handles : b.handle? = b'.handle? := funext h.handle?
  unfold Bridge.load
  rw [h.loader, handles]
  dsimp only
  split
  · exact h
  · exact h.loadFirst image _ _

theorem Same.loadProcess (h : b.Same b') : b.loadProcess.2.Same b'.loadProcess.2 := by
  rw [loadProcess_eq, loadProcess_eq, h.handle?, h.loader]
  split
  · exact h
  · exact h.append _ _
  · exact h

/-- A search loads nothing. -/
theorem Same.resolve (h : b.Same b') (name : String) : (b.resolve name).2.Same b' :=
  ⟨(resolve_loader b name).trans h.loader, (resolve_contents b name).trans h.contents⟩

/-! ### Histories -/

/-- What can be asked of a bridge. -/
inductive Request where
  | load (image : String)
  | loadProcess
  | resolve (name : String)
  | call (name : String) (s : Signature) (args : List Value)

/-- Whether a library is to be loaded. -/
def Request.loads : Request → Bool
  | .load _ | .loadProcess => true
  | .resolve _ | .call _ _ _ => false

/-- A bridge, and which of its libraries were asked for which names, given by their places. -/
structure History where
  bridge : Bridge
  asked : List (Nat × String) := []

namespace History

/-- A name is looked up. -/
def search (h : History) (name : String) : History :=
  ⟨(h.bridge.resolve name).2, h.asked ++ (h.bridge.inquiries name).map (·, name)⟩

/-- A request is answered.  A call looks the name up unless its signature is refused. -/
def obey (h : History) : Request → History
  | .load image => { h with bridge := (h.bridge.load image).2 }
  | .loadProcess => { h with bridge := h.bridge.loadProcess.2 }
  | .resolve name => h.search name
  | .call name s args =>
    { if (checkSignature name s).isOk then h.search name else h with
      bridge := (h.bridge.callNamed name s args).2 }

/-- The history of a new bridge that has answered some requests. -/
def of (loader : Loader) (requests : List Request) : History :=
  requests.foldl obey { bridge := { loader } }

/-- What becomes of a bridge in a call. -/
theorem bridge_call (b : Bridge) (name : String) (s : Signature) (args : List Value) :
    (b.callNamed name s args).2 =
      if (checkSignature name s).isOk then (b.resolve name).2 else b := by
  unfold callNamed
  cases checkSignature name s with
  | error e => rfl
  | ok _ =>
    refine Eq.trans ?_ (if_pos rfl).symm
    dsimp only
    obtain ⟨r, b'⟩ := b.resolve name
    cases r <;> rfl

theorem obey_call (h : History) (name : String) (s : Signature) (args : List Value) :
    h.obey (.call name s args) = if (checkSignature name s).isOk then h.search name else h := by
  rw [obey, bridge_call]
  split <;> rfl

/-- What every history keeps: libraries know what they were asked for, and were asked for it once.
-/
structure Kept (h : History) : Prop where
  made : h.bridge.Made
  loader : h.bridge.loader.Definite
  definite : h.bridge.Definite
  nodup : h.asked.Nodup
  counted : h.bridge.resolutions = h.asked.length
  known : ∀ place name, (place, name) ∈ h.asked → h.bridge.Knows place name

variable {h : History}

theorem Kept.extended (kept : h.Kept) {b : Bridge} (ext : h.bridge.Extends b) (made : b.Made) :
    Kept { h with bridge := b } where
  made := made
  loader := ext.loader ▸ kept.loader
  definite := ext.definite kept.definite
  nodup := kept.nodup
  counted := ext.resolutions.trans kept.counted
  known place name mem := ext.knows (kept.known place name mem)

theorem Kept.search (kept : h.Kept) (name : String) : (h.search name).Kept where
  made := kept.made.resolve name
  loader := by
    rw [History.search, resolve_loader]
    exact kept.loader
  definite l hl := by
    have mem : l.content ∈ (h.bridge.resolve name).2.contents := List.mem_map_of_mem hl
    rw [resolve_contents] at mem
    exact kept.definite.mem_contents _ mem
  nodup := by
    refine List.nodup_append.2 ⟨kept.nodup, ?_, ?_⟩
    · exact (h.bridge.inquiries_nodup name).map fun _ _ same => congrArg Prod.fst same
    · rintro earlier before later mem rfl
      obtain ⟨place, asks, rfl⟩ := List.mem_map.1 mem
      exact not_knows_of_mem_inquiries asks (kept.known place name before)
  counted := by
    rw [History.search, resolutions_resolve, List.length_append, List.length_map, kept.counted]
  known place other mem := by
    obtain before | mem := List.mem_append.1 mem
    · exact (kept.known place other before).resolve name
    · obtain ⟨_, asks, same⟩ := List.mem_map.1 mem
      cases same
      exact knows_of_mem_inquiries kept.definite asks

theorem Kept.obey (kept : h.Kept) : ∀ r : Request, (h.obey r).Kept
  | .load image => kept.extended (load_extends kept.loader image) (kept.made.load image)
  | .loadProcess => kept.extended (loadProcess_extends kept.loader) kept.made.loadProcess
  | .resolve name => kept.search name
  | .call name s args => by
    rw [obey_call]
    split
    · exact kept.search name
    · exact kept

theorem kept_foldl (requests : List Request) : ∀ {h : History}, h.Kept →
    (requests.foldl History.obey h).Kept := by
  induction requests with
  | nil => exact id
  | cons r requests ih => exact fun kept => ih (kept.obey r)

theorem kept_of {loader : Loader} (h : loader.Definite) (requests : List Request) :
    (of loader requests).Kept :=
  kept_foldl requests ⟨.empty loader, h, nofun, .nil, rfl, nofun⟩

theorem same_foldl (requests : List Request) : ∀ {h h' : History}, h.bridge.Same h'.bridge →
    (requests.foldl History.obey h).bridge.Same
      ((requests.filter Request.loads).foldl History.obey h').bridge := by
  induction requests with
  | nil => exact id
  | cons r requests ih =>
    intro h h' same
    cases r with
    | load image => exact ih (same.load image)
    | loadProcess => exact ih same.loadProcess
    | resolve name => exact ih (same.resolve name)
    | call name s args =>
      refine ih ?_
      rw [obey_call]
      split
      · exact same.resolve name
      · exact same

/-- What is looked up has no influence on what is loaded. -/
theorem same_of (loader : Loader) (requests : List Request) :
    (of loader requests).bridge.Same (of loader (requests.filter Request.loads)).bridge :=
  same_foldl requests ⟨rfl, rfl⟩

end History

theorem callNamed_eq (b : Bridge) (name : String) (s : Signature) (args : List Value) :
    (b.callNamed name s args).1 = (checkSignature name s).bind fun _ =>
      (b.resolve name).1.bind fun f => callHandle f s args := by
  unfold callNamed
  cases checkSignature name s with
  | error e => rfl
  | ok _ =>
    obtain ⟨r, b'⟩ := b.resolve name
    cases r <;> rfl

/-- Whatever a bridge has been asked before, it finds the symbol of the library loaded last that
exports the name, or says that none does, and calls what it finds so.  No library has been asked
twice for one name, and so many times was a library asked. -/
theorem finds_latest {loader : Loader} (h : loader.Definite) (requests : List Request) :
    let r := History.of loader requests
    let libraries := (History.of loader (requests.filter Request.loads)).bridge.contents
    (∀ name, (r.bridge.resolve name).1 = latest name libraries) ∧
      (∀ name s args, (r.bridge.callNamed name s args).1 = (checkSignature name s).bind fun _ =>
        (latest name libraries).bind fun f => callHandle f s args) ∧
      r.asked.Nodup ∧ r.bridge.resolutions = r.asked.length := by
  intro r libraries
  have kept := History.kept_of h requests
  have found (name : String) : (r.bridge.resolve name).1 = latest name libraries := by
    rw [resolve_eq_latest kept.made.coherent kept.definite,
      (History.same_of loader requests).contents]
  refine ⟨found, fun name s args => ?_, kept.nodup, kept.counted⟩
  rw [callNamed_eq, found]

/-- Two libraries: `shapes` exports `area` and `edge`, and `fields` exports `area`. -/
def twoLibraries : Loader where
  load path :=
    if path = "shapes" then .ok (imageOf [("area", .ofWord id), ("edge", .ofWord id)])
    else if path = "fields" then .ok (imageOf [("area", .ofWord (· + 1))])
    else .error (.imageNotFound path "there is none")
  process := none
  candidates image := [image]

theorem imageOf_definite (table : List (String × Symbol)) : Native.Definite (imageOf table) := by
  intro name e refused
  unfold imageOf at refused
  split at refused
  · cases refused
  · cases refused
    exact ⟨name, rfl⟩

theorem twoLibraries_definite : twoLibraries.Definite := by
  refine ⟨fun path image loaded => ?_, nofun⟩
  unfold twoLibraries at loaded
  dsimp only at loaded
  split at loaded
  · cases loaded
    exact imageOf_definite _
  · split at loaded
    · cases loaded
      exact imageOf_definite _
    · cases loaded

/-- A name is found in one library, and then in another that has been loaded since. -/
def shadowing : List Request :=
  [.load "shapes", .resolve "area", .load "fields", .resolve "area", .resolve "edge",
   .resolve "edge", .resolve "area"]

/-- The library loaded last shadows the other, which still gives what it alone exports; four
inquiries are enough. -/
theorem shadowing_found :
    twoLibraries.Definite ∧
    ((History.of twoLibraries shadowing).bridge.resolve "area").1.map FunctionHandle.library =
      .ok "fields" ∧
    ((History.of twoLibraries shadowing).bridge.resolve "edge").1.map FunctionHandle.library =
      .ok "shapes" ∧
    (History.of twoLibraries shadowing).asked =
      [(0, "area"), (1, "area"), (1, "edge"), (0, "edge")] ∧
    (History.of twoLibraries shadowing).asked.Nodup ∧
    (History.of twoLibraries shadowing).bridge.resolutions = 4 := by
  obtain ⟨found, -, once, counted⟩ := finds_latest twoLibraries_definite shadowing
  have asked : (History.of twoLibraries shadowing).asked =
      [(0, "area"), (1, "area"), (1, "edge"), (0, "edge")] := by
    decide
  refine ⟨twoLibraries_definite, ?_, ?_, asked, once, counted.trans (congrArg List.length asked)⟩
  · rw [found]
    rfl
  · rw [found]
    rfl

end Bridge

end ScriptLang.Native
