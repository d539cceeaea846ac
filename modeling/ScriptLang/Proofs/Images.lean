import ScriptLang.Machine.Image
import ScriptLang.Proofs.Labels
import ScriptLang.Proofs.Typing

/-!
# What images look up

The two forms of a program answer alike wherever the program's labels are placed once: a jump goes
to the place of its label, a call to the function of its name, a native call to the symbol that the
bridge finds.
-/

namespace ScriptLang.Machine

open Code (Instruction placements)

/-- The image is the program itself, or what linking made of it. -/
inductive IsImage (code : Code.Program) (bridge : Native.Bridge) : Image → Prop
  | interpreted : IsImage code bridge (.interpreted code bridge)
  | linked {natives : Bool} {e : Executable} (h : link code bridge natives = .ok e) :
      IsImage code bridge (.linked e)

variable {code : Code.Program} {bridge : Native.Bridge} {image : Image}

/-! ### Linking -/

theorem link_eq_ok {natives : Bool} {e : Executable} (h : link code bridge natives = .ok e) :
    e.program = code ∧ e.bridge = bridge ∧
      code.entry.bind (functionIndex? code) = some e.entry ∧
      e.functions = code.functions.map (fun f => (linkFunction code bridge natives f).1) ∧
      ∀ f ∈ code.functions, (linkFunction code bridge natives f).2 = [] := by
  unfold link at h
  simp only at h
  split at h
  · cases h
  · rename_i entry hentry
    split at h
    · rename_i none_failed
      cases h
      refine ⟨rfl, rfl, hentry, List.map_map, fun f hf => ?_⟩
      rw [List.isEmpty_iff, List.flatMap_eq_nil_iff] at none_failed
      exact none_failed _ (List.mem_map_of_mem hf)
    · cases h

theorem linkFunction_labels (natives : Bool) (f : Code.Function) :
    (linkFunction code bridge natives f).1.labels = labelPlaces f.code := by
  unfold linkFunction
  dsimp only
  split
  · split
    · split <;> rfl
    · rfl
  · rfl

theorem linkFunction_callees (natives : Bool) (f : Code.Function) :
    (linkFunction code bridge natives f).1.callees = calleePlaces code f.code := by
  unfold linkFunction
  dsimp only
  split
  · split
    · split <;> rfl
    · rfl
  · rfl

/-! ### Jumps -/

theorem findIdx?_of_countP_le_one {α : Type} {p : α → Bool} : ∀ {xs : List α} {k : Nat} {x : α},
    xs[k]? = some x → p x = true → xs.countP p ≤ 1 → xs.findIdx? p = some k
  | [], k, x, hk, hx, hc => by simp at hk
  | y :: ys, 0, x, hk, hx, hc => by
    rw [List.getElem?_cons_zero, Option.some.injEq] at hk
    rw [List.findIdx?_cons, hk, hx]
    rfl
  | y :: ys, k + 1, x, hk, hx, hc => by
    rw [List.getElem?_cons_succ] at hk
    have hpos : 0 < ys.countP p := List.countP_pos_iff.2 ⟨x, List.mem_of_getElem? hk, hx⟩
    rw [List.countP_cons] at hc
    have hy : p y = false := by
      cases h : p y with
      | false => rfl
      | true =>
        rw [if_pos h] at hc
        omega
    rw [List.findIdx?_cons, hy, findIdx?_of_countP_le_one hk hx (by omega)]
    rfl

theorem lookup_of_count_le_one {α β : Type} [DecidableEq α] {ps : List (α × β)} {a : α} {b : β}
    (mem : (a, b) ∈ ps) (once : ps.countP (fun p => p.1 == a) ≤ 1) : ps.lookup a = some b := by
  obtain ⟨before, after, rfl⟩ := List.append_of_mem mem
  rw [List.countP_append, List.countP_cons, if_pos (by simp)] at once
  have none_before : before.countP (fun p => p.1 == a) = 0 := by omega
  rw [List.lookup_eq_some_iff]
  refine ⟨before, after, rfl, fun p hp => ?_⟩
  have hne : ¬ (p.1 == a) = true := List.countP_eq_zero.1 none_before p hp
  rw [bne_iff_ne]
  rintro rfl
  exact hne (beq_self_eq_true _)

/-- The label that an instruction marks. -/
def marked? (i : Instruction) : Option Code.Label :=
  match i.op with
  | .label l => some l
  | _ => none

theorem marks_iff_marked? (i : Instruction) (l : Code.Label) :
    i.op.marks l = true ↔ marked? i = some l := by
  unfold marked?
  cases i.op <;> simp [Code.Op.marks]

theorem labelPlaces_eq (code : List Instruction) :
    labelPlaces code =
      (code.zipIdx.filterMap fun p => (marked? p.1).map fun l => (l, p.2)).reverse := by
  unfold labelPlaces
  congr 2
  funext ⟨⟨op, _⟩, place⟩
  cases op <;> rfl

theorem countP_filterMap_zipIdx {l : Code.Label} : ∀ (code : List Instruction) (n : Nat),
    ((code.zipIdx n).filterMap fun p => (marked? p.1).map fun l => (l, p.2)).countP
      (fun p => p.1 == l) = placements l code
  | [], _ => rfl
  | i :: code, n => by
    rw [List.zipIdx_cons, Code.placements_cons]
    cases hm : marked? i with
    | none =>
      rw [List.filterMap_cons_none (by rw [hm]; rfl), countP_filterMap_zipIdx code (n + 1),
        if_neg (by rw [marks_iff_marked?, hm]; simp)]
      rfl
    | some m =>
      rw [List.filterMap_cons_some (by rw [hm]; rfl), List.countP_cons,
        countP_filterMap_zipIdx code (n + 1)]
      simp only [marks_iff_marked?, hm, Option.some.injEq, beq_iff_eq]

theorem labelPlaces_lookup {code : List Instruction} {k : Nat} {i : Instruction} {l : Code.Label}
    (hk : code[k]? = some i) (hi : marked? i = some l) (once : placements l code ≤ 1) :
    (labelPlaces code).lookup l = some k := by
  rw [labelPlaces_eq]
  refine lookup_of_count_le_one ?_ ?_
  · rw [List.mem_reverse, List.mem_filterMap]
    exact ⟨(i, k), List.mk_mem_zipIdx_iff_getElem?.2 hk, by simp [hi]⟩
  · rw [List.countP_reverse, countP_filterMap_zipIdx]
    exact once

/-- A jump goes to the place of its label. -/
theorem IsImage.labelPlace?_eq (h : IsImage code bridge image) {index : Nat} {f : Code.Function}
    (hf : code.functions[index]? = some f) {l : Code.Label} (once : placements l f.code ≤ 1)
    {k : Nat} {place : Location} (hk : f.code[k]? = some (Code.ins place (.label l))) :
    image.labelPlace? index l = some k := by
  cases h with
  | interpreted =>
    rw [Image.labelPlace?, Image.function?, Image.program, hf]
    exact findIdx?_of_countP_le_one hk (by simp [Code.Op.marks]) once
  | linked hl =>
    obtain ⟨_, _, _, hfs, _⟩ := link_eq_ok hl
    rw [Image.labelPlace?, hfs, List.getElem?_map, hf, Option.map_some, Option.bind_some,
      linkFunction_labels]
    exact labelPlaces_lookup hk rfl once

/-! ### Calls -/

theorem lookup_filterMap_zipIdx {α β : Type} {g : α → Option β} : ∀ (xs : List α) (n k : Nat),
    ((xs.zipIdx n).filterMap fun p => (g p.1).map fun b => (p.2, b)).lookup k =
      if n ≤ k then (xs[k - n]?).bind g else none
  | [], n, k => by simp
  | x :: xs, n, k => by
    rw [List.zipIdx_cons]
    have tail := lookup_filterMap_zipIdx xs (n + 1) k (g := g)
    cases hg : g x with
    | none =>
      rw [List.filterMap_cons_none (by rw [hg]; rfl), tail]
      rcases Nat.lt_trichotomy n k with hlt | rfl | hgt
      · obtain ⟨d, rfl⟩ := Nat.exists_eq_add_of_lt hlt
        rw [if_pos (by omega), if_pos (by omega), show n + d + 1 - (n + 1) = d by omega,
          show n + d + 1 - n = d + 1 by omega, List.getElem?_cons_succ]
      · rw [if_neg (by omega), if_pos (Nat.le_refl n), Nat.sub_self, List.getElem?_cons_zero,
          Option.bind_some, hg]
      · rw [if_neg (by omega), if_neg (by omega)]
    | some b =>
      rw [List.filterMap_cons_some (by rw [hg]; rfl), List.lookup_cons, tail]
      rcases Nat.lt_trichotomy n k with hlt | rfl | hgt
      · obtain ⟨d, rfl⟩ := Nat.exists_eq_add_of_lt hlt
        have hne : (n + d + 1 == n) = false := beq_eq_false_iff_ne.2 (by omega)
        rw [hne, if_pos (by omega), if_pos (by omega), show n + d + 1 - (n + 1) = d by omega,
          show n + d + 1 - n = d + 1 by omega, List.getElem?_cons_succ]
      · rw [beq_self_eq_true, if_pos (Nat.le_refl n), Nat.sub_self, List.getElem?_cons_zero,
          Option.bind_some, hg]
      · have hne : (k == n) = false := beq_eq_false_iff_ne.2 (by omega)
        rw [hne, if_neg (by omega), if_neg (by omega)]

/-- The name of the function that an instruction calls. -/
def called? (i : Instruction) : Option String :=
  match i.op with
  | .call name _ => some name
  | .callNative name _ => some name
  | _ => none

theorem calleePlaces_lookup (p : Code.Program) (code : List Instruction) (k : Nat) :
    (calleePlaces p code).lookup k =
      (code[k]?).bind fun i => (called? i).bind (functionIndex? p) := by
  have h := lookup_filterMap_zipIdx (g := fun i => (called? i).bind (functionIndex? p)) code 0 k
  rw [if_pos (Nat.zero_le k), Nat.sub_zero] at h
  rw [← h, calleePlaces]
  congr 2
  funext ⟨⟨op, _⟩, place⟩
  cases op <;> rfl

/-- A call goes to the function of its name. -/
theorem IsImage.callee?_eq (h : IsImage code bridge image) {index : Nat} {f : Code.Function}
    (hf : code.functions[index]? = some f) {k : Nat} {i : Instruction} (hk : f.code[k]? = some i)
    {name : String} (hi : called? i = some name) :
    image.callee? index k name = functionIndex? code name := by
  cases h with
  | interpreted => rfl
  | linked hl =>
    obtain ⟨_, _, _, hfs, _⟩ := link_eq_ok hl
    rw [Image.callee?, hfs, List.getElem?_map, hf, Option.map_some, Option.bind_some,
      linkFunction_callees, calleePlaces_lookup, hk, Option.bind_some, hi, Option.bind_some]

/-! ### Only what is there is found -/

theorem functionIndex?_name {p : Code.Program} {name : String} {k : Nat}
    (h : functionIndex? p name = some k) : ∃ g, p.functions[k]? = some g ∧ g.name = name := by
  unfold functionIndex? at h
  obtain ⟨hlt, hname, _⟩ := List.findIdx?_eq_some_iff_getElem.1 h
  exact ⟨_, List.getElem?_eq_getElem hlt, eq_of_beq hname⟩

/-- Where a jump goes there is its label. -/
theorem IsImage.label_of_labelPlace? (h : IsImage code bridge image) {index : Nat}
    {f : Code.Function}
    (hf : code.functions[index]? = some f) {l : Code.Label} {k : Nat}
    (found : image.labelPlace? index l = some k) : ∃ i, f.code[k]? = some i ∧ i.op = .label l := by
  have marked : ∃ i, f.code[k]? = some i ∧ marked? i = some l := by
    cases h with
    | interpreted =>
      rw [Image.labelPlace?, Image.function?, Image.program, hf, Option.bind_some] at found
      obtain ⟨hlt, hmarks, _⟩ := List.findIdx?_eq_some_iff_getElem.1 found
      exact ⟨_, List.getElem?_eq_getElem hlt, (marks_iff_marked? _ l).1 hmarks⟩
    | linked hl =>
      obtain ⟨_, _, _, hfs, _⟩ := link_eq_ok hl
      rw [Image.labelPlace?, hfs, List.getElem?_map, hf, Option.map_some, Option.bind_some,
        linkFunction_labels, labelPlaces_eq] at found
      obtain ⟨before, after, hsplit, _⟩ := List.lookup_eq_some_iff.1 found
      have hmem : (l, k) ∈
          (f.code.zipIdx.filterMap fun p => (marked? p.1).map fun l => (l, p.2)) := by
        rw [← List.mem_reverse, hsplit]
        exact List.mem_append_right _ List.mem_cons_self
      obtain ⟨⟨i, place⟩, hi, hpair⟩ := List.mem_filterMap.1 hmem
      obtain ⟨l', hl', same⟩ := Option.map_eq_some_iff.1 hpair
      cases same
      exact ⟨i, List.mk_mem_zipIdx_iff_getElem?.1 hi, hl'⟩
  obtain ⟨i, hi, hl⟩ := marked
  refine ⟨i, hi, ?_⟩
  unfold marked? at hl
  split at hl
  · rename_i hop
    rw [hop, Option.some.inj hl]
  · cases hl

/-! ### Functions -/

theorem IsImage.program_eq (h : IsImage code bridge image) : image.program = code := by
  cases h with
  | interpreted => rfl
  | linked hl => exact (link_eq_ok hl).1

theorem IsImage.function?_eq (h : IsImage code bridge image) (index : Nat) :
    image.function? index = code.functions[index]? := by
  rw [Image.function?, h.program_eq]

theorem IsImage.entry?_eq (h : IsImage code bridge image) :
    image.entry? = code.entry.bind (functionIndex? code) := by
  cases h with
  | interpreted => rfl
  | linked hl => exact (link_eq_ok hl).2.2.1.symm

/-- The function that a call finds has the name that is called. -/
theorem IsImage.name_of_callee? (h : IsImage code bridge image) {index : Nat} {f : Code.Function}
    (hf : code.functions[index]? = some f) {k : Nat} {i : Instruction} (hk : f.code[k]? = some i)
    {name : String} (hi : called? i = some name) {id : Nat}
    (found : image.callee? index k name = some id) :
    ∃ g, image.function? id = some g ∧ g.name = name := by
  rw [h.callee?_eq hf hk hi] at found
  rw [h.function?_eq]
  exact functionIndex?_name found

theorem linkNative_eq_ok {f : Code.Function} {symbol : String} {handle : Native.FunctionHandle}
    (h : linkNative bridge f symbol = .ok handle) (args : List Value) :
    (bridge.callNamed symbol f.signature args).1 =
      Native.Bridge.callHandle handle f.signature args := by
  unfold linkNative at h
  unfold Native.Bridge.callNamed
  cases hc : Native.checkSignature symbol f.signature with
  | error e =>
    rw [hc] at h
    cases h
  | ok u =>
    rw [hc] at h
    simp only [bind, Except.bind] at h
    cases hr : bridge.resolve symbol with
    | mk r b =>
      rw [hr] at h
      cases r with
      | error e => cases h
      | ok found =>
        cases h
        rfl

/-- A native call finds its symbol, whether it was found before or not. -/
theorem IsImage.callNative_eq (h : IsImage code bridge image) {index : Nat} {f : Code.Function}
    (hf : code.functions[index]? = some f) {symbol : String} (hk : f.kind = .native symbol)
    (args : List Value) :
    image.callNative index args =
      ((bridge.callNamed symbol f.signature args).1).map Native.Call.value := by
  have hfun := h.function?_eq index
  cases h with
  | interpreted =>
    rw [Image.callNative, hfun, hf]
    simp only [Image.handle?, hk, Image.bridge]
  | linked hl =>
    obtain ⟨_, hb, _, hfs, hok⟩ := link_eq_ok hl
    have hlinked := hok f (List.mem_of_getElem? hf)
    rw [Image.callNative, hfun, hf]
    simp only [Image.handle?, hfs, List.getElem?_map, hf, Option.map_some, Option.bind_some, hk,
      Image.bridge, hb]
    unfold linkFunction at hlinked ⊢
    simp only [hk] at hlinked ⊢
    split at hlinked
    · rename_i hn
      rw [if_pos hn]
      cases hnat : linkNative bridge f symbol with
      | error e => simp [hnat] at hlinked
      | ok handle =>
        simp only
        rw [linkNative_eq_ok hnat]
    · rename_i hn
      rw [if_neg hn]

/-! ### Loaded programs -/

/-- What the machine needs of the image of a bound program: every function under the number after
its own, behind the function that sets the globals, and every name, label and symbol found. -/
structure Loads (program : Bound.Program) (bridge : Native.Bridge) (image : Image) : Prop where
  function : ∀ {id : Nat} {f : Bound.Function}, program.functions[id]? = some f →
    ∃ g, image.function? (id + 1) = some g ∧ Code.Lowered program f g
  init : ∃ g, image.init? = some 0 ∧ image.function? 0 = some g ∧
    Code.lowerInit program = .ok g
  callee : ∀ {index pc id : Nat} {g : Code.Function} {i : Instruction} {f : Bound.Function},
    image.function? index = some g → g.code[pc]? = some i →
      program.functions[id]? = some f → called? i = some f.name →
        image.callee? index pc f.name = some (id + 1)
  label : ∀ {index pc : Nat} {g : Code.Function} {place : Location} {l : Code.Label},
    image.function? index = some g → g.code[pc]? = some (Code.ins place (.label l)) →
      image.labelPlace? index l = some pc
  native : ∀ {index : Nat} {g : Code.Function} {symbol : String},
    image.function? index = some g → g.kind = .native symbol → ∀ args : List Value,
      image.callNative index args =
        ((bridge.callNamed symbol g.signature args).1).map Native.Call.value
  globals : image.program.globals.map Code.Global.ty = program.globals.map Bound.Global.ty

theorem functionIndex?_of_nodup {p : Code.Program} (h : (p.functions.map Code.Function.name).Nodup)
    {k : Nat} {g : Code.Function} (hk : p.functions[k]? = some g) :
    functionIndex? p g.name = some k := by
  refine findIdx?_of_countP_le_one hk (beq_self_eq_true _) ?_
  have once := List.nodup_iff_count.1 h g.name
  rwa [List.count, List.countP_map] at once

section

variable {program : Bound.Program} {name entry : String}

/-- The functions of a lowered program: the one that sets the globals, and the others in order. -/
theorem lowered_functions (distinct : program.NamesDistinct)
    (h : Code.lower program name entry = .ok code) :
    ∃ init fs, code.functions = init :: fs ∧ Code.lowerInit program = .ok init ∧
      List.Forall₂ (Code.Lowered program) program.functions fs ∧
      (code.functions.map Code.Function.name).Nodup := by
  obtain ⟨init, fs, hinit, hfs, _, hfunctions, _⟩ := Code.lower_eq_ok h
  have lowered : List.Forall₂ (Code.Lowered program) program.functions fs :=
    hfs.imp fun f g => Code.lowerFunction_eq_ok
  have names : fs.map Code.Function.name = program.functions.map Bound.Function.name := by
    rw [← List.forall₂_eq_eq_eq, List.forall₂_map_left_iff, List.forall₂_map_right_iff]
    exact List.Forall₂.flip (lowered.imp fun f g hg => hg.name)
  obtain ⟨_, _, _, _, hname, _⟩ := Code.lowerInit_eq_ok hinit
  have nodup : ((init :: fs).map Code.Function.name).Nodup := by
    rw [List.map_cons, names, hname, List.nodup_cons]
    refine ⟨fun hmem => ?_, distinct.nodup⟩
    obtain ⟨f, hf, hfname⟩ := List.mem_map.1 hmem
    exact distinct.ne_init f hf hfname
  have all : code.functions = init :: fs := by
    rw [hfunctions]
    exact Code.foldl_insertFunction_of_nodup [] nodup
  exact ⟨init, fs, all, hinit, lowered, all ▸ nodup⟩

theorem forall₂_getElem? {α β : Type} {R : α → β → Prop} : ∀ {as : List α} {bs : List β},
    List.Forall₂ R as bs → ∀ {k : Nat} {a : α}, as[k]? = some a → ∃ b, bs[k]? = some b ∧ R a b
  | _, _, .nil, k, a, h => by simp at h
  | _, _, .cons hab _, 0, _, h => by
    rw [List.getElem?_cons_zero, Option.some.injEq] at h
    exact ⟨_, List.getElem?_cons_zero, h ▸ hab⟩
  | _, _, .cons _ rest, k + 1, _, h => by
    rw [List.getElem?_cons_succ] at h
    obtain ⟨b, hb, hr⟩ := forall₂_getElem? rest h
    exact ⟨b, by rw [List.getElem?_cons_succ, hb], hr⟩

theorem forall₂_getElem?_right {α β : Type} {R : α → β → Prop} {as : List α} {bs : List β}
    (h : List.Forall₂ R as bs) {k : Nat} {b : β} (hb : bs[k]? = some b) :
    ∃ a, as[k]? = some a ∧ R a b :=
  forall₂_getElem? (List.Forall₂.flip (h.imp fun _ _ => id)) hb

/-- Every function of a lowered program is made of one of its functions, or it is the one that sets
the globals, and no other has its name. -/
theorem mem_functions_of_lower (h : Code.lower program name entry = .ok code) {g : Code.Function}
    (hg : g ∈ code.functions) :
    (∃ f ∈ program.functions, Code.Lowered program f g) ∨
      (Code.lowerInit program = .ok g ∧ ∀ f ∈ program.functions, f.name ≠ g.name) := by
  obtain ⟨init, fs, hinit, hfs, _, hfunctions, _⟩ := Code.lower_eq_ok h
  have lowered : List.Forall₂ (Code.Lowered program) program.functions fs :=
    hfs.imp fun f g => Code.lowerFunction_eq_ok
  rw [hfunctions, List.foldl_cons] at hg
  rcases Code.mem_foldl_insertFunction fs hg with hg | ⟨hg, others⟩
  · obtain ⟨k, hk⟩ := List.mem_iff_getElem?.1 hg
    obtain ⟨f, hf, made⟩ := forall₂_getElem?_right lowered hk
    exact .inl ⟨f, List.mem_of_getElem? hf, made⟩
  · have first : g = init := List.mem_singleton.1 hg
    rw [first] at others ⊢
    refine .inr ⟨hinit, fun f hf hname => ?_⟩
    obtain ⟨k, hk⟩ := List.mem_iff_getElem?.1 hf
    obtain ⟨g', hg', made⟩ := forall₂_getElem? lowered hk
    exact others g' (List.mem_of_getElem? hg') (hname.symm.trans made.name.symm)

/-- Every function of a lowered program places its labels once. -/
theorem lowered_placements_le_one {init : Code.Function} {fs : List Code.Function}
    (hinit : Code.lowerInit program = .ok init)
    (hfs : List.Forall₂ (Code.Lowered program) program.functions fs) {index : Nat}
    {g : Code.Function} (hg : (init :: fs)[index]? = some g) (l : Nat) :
    placements l g.code ≤ 1 := by
  cases index with
  | zero =>
    rw [List.getElem?_cons_zero, Option.some.injEq] at hg
    rw [← hg]
    exact Code.lowerInit_placements_le_one hinit l
  | succ id =>
    rw [List.getElem?_cons_succ] at hg
    obtain ⟨f, _, hf⟩ := forall₂_getElem?_right hfs hg
    exact hf.placements_le_one l

/-- Every image of a lowered program holds it. -/
theorem loads_of_lower (distinct : program.NamesDistinct)
    (h : Code.lower program name entry = .ok code) (himage : IsImage code bridge image) :
    Loads program bridge image := by
  obtain ⟨init, fs, hfunctions, hinit, hfs, nodup⟩ := lowered_functions distinct h
  obtain ⟨_, _, _, _, hglobals, _, _⟩ := Code.lower_eq_ok h
  obtain ⟨_, _, _, _, hname, _⟩ := Code.lowerInit_eq_ok hinit
  have function_eq : ∀ index, image.function? index = (init :: fs)[index]? := fun index => by
    rw [himage.function?_eq, hfunctions]
  have first : code.functions[0]? = some init := by
    rw [hfunctions]
    rfl
  refine
    { function := fun {id f} hf => ?_
      init := ⟨init, ?_, by rw [function_eq]; rfl, hinit⟩
      callee := fun {index pc id g i f} hg hi hf hcalled => ?_
      label := fun {index pc g place l} hg hi => ?_
      native := fun {index g symbol} hg hk args => ?_
      globals := ?_ }
  · obtain ⟨g, hg, lowered⟩ := forall₂_getElem? hfs hf
    exact ⟨g, by rw [function_eq, List.getElem?_cons_succ, hg], lowered⟩
  · rw [Image.init?, himage.program_eq, ← hname]
    exact functionIndex?_of_nodup nodup first
  · rw [himage.function?_eq] at hg
    obtain ⟨g', hg', lowered⟩ := forall₂_getElem? hfs hf
    rw [himage.callee?_eq hg hi hcalled, ← lowered.name]
    refine functionIndex?_of_nodup nodup ?_
    rw [hfunctions, List.getElem?_cons_succ, hg']
  · rw [himage.function?_eq] at hg
    refine himage.labelPlace?_eq hg ?_ hi
    rw [hfunctions] at hg
    exact lowered_placements_le_one hinit hfs hg l
  · rw [himage.function?_eq] at hg
    exact himage.callNative_eq hg hk args
  · rw [himage.program_eq, hglobals, List.map_map]
    rfl

theorem getElem?_of_function? {id : Nat} {f : Bound.Function}
    (h : program.function? entry = some (id, f)) : program.functions[id]? = some f := by
  unfold Bound.Program.function? at h
  obtain ⟨⟨f', id'⟩, found, same⟩ := Option.map_eq_some_iff.1 h
  cases same
  exact List.mem_zipIdx_iff_getElem?.1 (List.mem_of_find?_eq_some found)

/-- A program begins with the function that it was lowered to begin with. -/
theorem entry?_of_lower (distinct : program.NamesDistinct)
    (h : Code.lower program name entry = .ok code) (himage : IsImage code bridge image) {id : Nat}
    {f : Bound.Function} (hf : program.function? entry = some (id, f)) :
    image.entry? = some (id + 1) := by
  obtain ⟨init, fs, hfunctions, _, hfs, nodup⟩ := lowered_functions distinct h
  obtain ⟨_, _, _, _, _, _, hentry⟩ := Code.lower_eq_ok h
  obtain ⟨g, hg, lowered⟩ := forall₂_getElem? hfs (getElem?_of_function? hf)
  rw [himage.entry?_eq, hentry, hf, Option.map_some, Option.bind_some, ← lowered.name]
  refine functionIndex?_of_nodup nodup ?_
  rw [hfunctions, List.getElem?_cons_succ, hg]

end

end ScriptLang.Machine
