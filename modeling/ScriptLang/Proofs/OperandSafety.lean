import Mathlib.Data.List.Nodup
import ScriptLang.Proofs.Certificates
import ScriptLang.Proofs.Stepping

/-!
# Operands are there when they are taken

In a run of a program that was bound, only a function with a silent operand comes to an instruction
that does not find its operands (`underflow_of_bind`).  The active functions are `Stacked`: whatever
heights the code of one fits, the rest of it fits the operands that it has, or will have once the
function above has returned.  If the program is well typed, and no variable is of type `void`, then
the numbers are exact, and it is just the return of a value from a function without result that
fails.
-/

namespace ScriptLang.Machine

open Code (Answers Certified Counts EndsInReturn Fits Instruction Op Shifts results siteOf)

/-! ### Images of bound programs -/

/-- A bound program with an image of it, and whether numbers of operands are exact. -/
structure Basis where
  program : Bound.Program
  image : Image
  exact : Bool

/-- What is known of the functions of the image. -/
structure Basis.Sourced (σ : Basis) : Prop where
  certified : σ.exact = true → ∀ {index : Nat} {g : Code.Function},
    σ.image.function? index = some g → Certified σ.program σ.exact g
  body : ∀ {index : Nat} {g : Code.Function} {code : List Instruction},
    σ.image.function? index = some g → g.kind = .body code →
      EndsInReturn code ∧ Answers g.signature.ret code
  intrinsic : ∀ {index : Nat} {g : Code.Function} {i : Bound.Intrinsic},
    σ.image.function? index = some g → g.kind = .intrinsic i → g.signature.ret = .void
  ret : ∀ {index : Nat} {g : Code.Function} {f : Bound.Function},
    σ.image.function? index = some g → f ∈ σ.program.functions → f.name = g.name →
      g.signature.ret = f.ret
  label : ∀ {index k : Nat} {g : Code.Function} {l : Code.Label},
    σ.image.function? index = some g → σ.image.labelPlace? index l = some k →
      ∃ i, g.code[k]? = some i ∧ i.op = .label l
  callee : ∀ {index k id : Nat} {g : Code.Function} {i : Instruction} {name : String},
    σ.image.function? index = some g → g.code[k]? = some i → called? i = some name →
      σ.image.callee? index k name = some id → ∃ g', σ.image.function? id = some g' ∧ g'.name = name

section

variable {program : Bound.Program} {code : Code.Program} {bridge : Native.Bridge} {image : Image}
  {name entry : String}

theorem body_of_lowered {f : Bound.Function} {g : Code.Function} {c : List Instruction}
    {exact : Bool} (promises : Code.Promises program exact) (hf : f ∈ program.functions)
    (lowered : Code.Lowered program f g) (hg : g.kind = .body c) :
    EndsInReturn c ∧ Answers g.signature.ret c := by
  have hkind := lowered.kind
  rw [hg] at hkind
  cases hkind with
  | @body stmts _ written hbody =>
    have typed := promises.stmts_typed hf
    have hstmts : f.stmts = stmts := by
      rw [Bound.Function.stmts, written]
    rw [hstmts] at typed
    refine ⟨Code.lowerBody_endsInReturn hbody, ?_⟩
    rw [lowered.signature]
    obtain ⟨b, l, hb, hcode⟩ := Code.lowerBody_eq_ok hbody
    have answers : Answers f.ret b := Code.lowerStmts_answers stmts typed hb
    obtain ⟨rfl, _⟩ | ⟨place, rfl⟩ := hcode
    · exact answers
    · exact answers.append (Code.finalReturn_answers f.ret place)

theorem body_of_lowerInit {g : Code.Function} {c : List Instruction}
    (lowered : Code.lowerInit program = .ok g) (hg : g.kind = .body c) :
    EndsInReturn c ∧ Answers g.signature.ret c := by
  obtain ⟨b, l, place, _, _, hsignature, _, hkind⟩ := Code.lowerInit_eq_ok lowered
  rw [hg] at hkind
  cases hkind
  refine ⟨⟨Code.ins place (.ret false), List.getLast?_concat, rfl⟩, fun _ _ _ => ?_⟩
  rw [hsignature]

theorem sourced_of_lower {exact : Bool} (promises : Code.Promises program exact)
    (names : (program.functions.map Bound.Function.name).Nodup)
    (h : Code.lower program name entry = .ok code) (himage : IsImage code bridge image) :
    Basis.Sourced ⟨program, image, exact⟩ := by
  have made : ∀ {index : Nat} {g : Code.Function}, image.function? index = some g →
      (∃ f ∈ program.functions, Code.Lowered program f g) ∨
        (Code.lowerInit program = .ok g ∧ ∀ f ∈ program.functions, f.name ≠ g.name) := by
    intro index g hg
    rw [himage.function?_eq] at hg
    exact mem_functions_of_lower h (List.mem_of_getElem? hg)
  refine
    { certified := fun hexact {index g} hg => ?_
      body := fun hg hkind => ?_
      intrinsic := fun hg hkind => ?_
      ret := fun hg hf hname => ?_
      label := fun hg found => ?_
      callee := fun hg hi hcalled found => ?_ }
  · obtain ⟨f, hf, lowered⟩ | ⟨lowered, _⟩ := made hg
    · exact lowered.certified hf promises fun h => absurd (hexact.symm.trans h) nofun
    · exact Code.lowerInit_certified lowered promises fun h => absurd (hexact.symm.trans h) nofun
  · obtain ⟨f, hf, lowered⟩ | ⟨lowered, _⟩ := made hg
    · exact body_of_lowered promises hf lowered hkind
    · exact body_of_lowerInit lowered hkind
  · obtain ⟨f, hf, lowered⟩ | ⟨lowered, _⟩ := made hg
    · have hmade := lowered.kind
      rw [hkind] at hmade
      cases hmade with
      | intrinsic given takes =>
        rw [lowered.signature, takes]
        rfl
    · obtain ⟨_, _, _, _, _, _, _, hbody⟩ := Code.lowerInit_eq_ok lowered
      rw [hkind] at hbody
      cases hbody
  · obtain ⟨f', hf', lowered⟩ | ⟨_, others⟩ := made hg
    · have same := List.inj_on_of_nodup_map names hf hf' (hname.trans lowered.name)
      rw [lowered.signature, same]
    · exact absurd hname (others _ hf)
  · exact himage.label_of_labelPlace? ((himage.function?_eq _).symm.trans hg) found
  · exact himage.name_of_callee? ((himage.function?_eq _).symm.trans hg) hi hcalled found

end

/-! ### Active functions -/

namespace Basis

variable (σ : Basis)

/-- What the code of a function can rely on. -/
def site (g : Code.Function) : Code.Site := siteOf σ.program σ.exact g

/-- The function has all of its variables, and whatever heights its code fits, the rest of it fits
the operands that there are once `awaited` more have come. -/
structure Stands (awaited : Nat) (frame : Frame) (g : Code.Function) : Prop where
  function : σ.image.function? frame.function = some g
  slots : g.locals.length ≤ frame.locals.length
  fits : ∀ heights h', Fits (σ.site g) heights 0 g.code h' →
    ∃ h, Fits (σ.site g) heights h (g.code.drop frame.next) h' ∧
      Counts σ.exact (frame.operands.length + awaited) h

/-- All active functions stand.  Each but the innermost awaits the results of the one above it, and
each but the outermost has come to an instruction. -/
inductive Stacked : Nat → List Frame → Prop
  | nil (awaited : Nat) : Stacked awaited []
  | cons {awaited : Nat} {frame : Frame} {frames : List Frame} {g : Code.Function}
      (stands : σ.Stands awaited frame g) (inside : frames = [] ∨ frame.next < g.code.length)
      (below : Stacked (results g.signature.ret) frames) : Stacked awaited (frame :: frames)

/-- A function of this name has no certificate; or numbers are exact, and it is without result. -/
def Blamed (name : String) : Prop :=
  ∃ index g, σ.image.function? index = some g ∧ g.name = name ∧
    (¬ Certified σ.program σ.exact g ∨ (σ.exact = true ∧ g.signature.ret = .void))

/-- The invariant of a run whose innermost function awaits results: all active functions stand, and
the only one that can have failed for want of an operand is to blame for it. -/
structure Sound (awaited : Nat) (m : Machine) : Prop where
  image_eq : m.image = σ.image
  frames : σ.Stacked awaited m.frames
  blamed : ∀ name place, m.error = some (.stackUnderflow name place) → σ.Blamed name
  idle : m.phase = .idle → m.frames = []

/-- The context of an operation that is about to be executed. -/
structure Poised (c : Context) (op : Op) : Prop where
  function : σ.image.function? c.frame.function = some c.function
  instruction : ∃ i, c.function.code[c.index]? = some i ∧ i.op = op
  next : c.frame.next = c.index + 1
  slots : c.function.locals.length ≤ c.frame.locals.length
  fits : ∀ heights h', Fits (σ.site c.function) heights 0 c.function.code h' →
    ∃ h, Fits (σ.site c.function) heights h (c.function.code.drop c.index) h' ∧
      Counts σ.exact c.frame.operands.length h

/-- The active functions after an operation, and what comes next. -/
inductive Leads (c : Context) : List Frame → Flow → Prop
  | next {frame : Frame} (stands : σ.Stands 0 frame c.function)
      (inside : frame.next < c.function.code.length) : Leads c (frame :: c.below) .next
  | enter {frame : Frame} {index : Nat} {f : Code.Function} {args : List Value}
      (stands : σ.Stands (results f.signature.ret) frame c.function)
      (inside : frame.next < c.function.code.length) (called : σ.image.function? index = some f)
      (begins : 0 < f.code.length) : Leads c (frame :: c.below) (.enter index f args)
  | leave {frame : Frame} {result : Option Value}
      (counts : Counts σ.exact result.toList.length (results c.function.signature.ret)) :
      Leads c (frame :: c.below) (.leave result)

end Basis

/-! ### Operations -/

section

variable {σ : Basis} {c : Context} {m : Machine} {op : Op}

theorem length_pos_of_endsInReturn {code : List Instruction} (h : EndsInReturn code) :
    0 < code.length := by
  obtain ⟨i, hi, _⟩ := h
  exact List.length_pos_of_mem (List.mem_of_getLast? hi)

/-- Behind an instruction that is no return there is another one. -/
theorem succ_lt_of_endsInReturn {code : List Instruction} (h : EndsInReturn code) {k : Nat}
    {i : Instruction} (hk : code[k]? = some i) (hi : i.op.isReturn = false) :
    k + 1 < code.length := by
  obtain ⟨last, hlast, isReturn⟩ := h
  obtain ⟨hlt, _⟩ := List.getElem?_eq_some_iff.1 hk
  rw [List.getLast?_eq_getElem?] at hlast
  by_cases hend : k = code.length - 1
  · rw [← hend, hk] at hlast
    cases hlast
    rw [hi] at isReturn
    cases isReturn
  · omega

theorem body_of_getElem? {g : Code.Function} {k : Nat} {i : Instruction} (h : g.code[k]? = some i) :
    g.kind = .body g.code := by
  unfold Code.Function.code at h ⊢
  cases hkind : g.kind with
  | body code => rfl
  | native symbol => rw [hkind] at h; cases h
  | intrinsic f => rw [hkind] at h; cases h

namespace Basis.Poised

theorem next_lt (poised : σ.Poised c op) (sourced : σ.Sourced) (hop : op.isReturn = false) :
    c.frame.next < c.function.code.length := by
  obtain ⟨i, hi, rfl⟩ := poised.instruction
  rw [poised.next]
  exact succ_lt_of_endsInReturn (sourced.body poised.function (body_of_getElem? hi)).1 hi hop

/-- The operation finds the operands that it takes. -/
theorem shifts (poised : σ.Poised c op) {heights : Nat → Nat} {h' : Nat}
    (fits : Fits (σ.site c.function) heights 0 c.function.code h') :
    ∃ h h₁, Counts σ.exact c.frame.operands.length h ∧ Shifts (σ.site c.function) heights op h h₁ ∧
      Fits (σ.site c.function) heights h₁ (c.function.code.drop (c.index + 1)) h' := by
  obtain ⟨i, hi, rfl⟩ := poised.instruction
  obtain ⟨h, rest, hcount⟩ := poised.fits heights h' fits
  obtain ⟨hlt, rfl⟩ := List.getElem?_eq_some_iff.1 hi
  rw [List.drop_eq_getElem_cons hlt] at rest
  obtain ⟨h₁, h₂, hcount', hshift, rest⟩ := rest.uncons
  exact ⟨h₁, h₂, hcount.trans hcount', hshift, rest⟩

/-- The function goes on behind the operation. -/
theorem stands (poised : σ.Poised c op) {awaited : Nat} {locals operands : List Value}
    (slots : c.frame.locals.length ≤ locals.length)
    (moved : ∀ heights h h₁, Shifts (σ.site c.function) heights op h h₁ →
      Counts σ.exact c.frame.operands.length h → Counts σ.exact (operands.length + awaited) h₁) :
    σ.Stands awaited { c.frame with locals, operands } c.function := by
  refine ⟨poised.function, Nat.le_trans poised.slots slots, fun heights h' fits => ?_⟩
  obtain ⟨h, h₁, hcount, hshift, rest⟩ := poised.shifts fits
  refine ⟨h₁, ?_, moved heights h h₁ hshift hcount⟩
  dsimp only
  rw [poised.next]
  exact rest

/-- The function goes on at a label. -/
theorem stands_at (poised : σ.Poised c op) (sourced : σ.Sourced) {l : Code.Label} {next : Nat}
    {operands : List Value} (found : σ.image.labelPlace? c.frame.function l = some next)
    (moved : ∀ heights h h₁, Shifts (σ.site c.function) heights op h h₁ →
      Counts σ.exact c.frame.operands.length h → Counts σ.exact operands.length (heights l)) :
    σ.Stands 0 { c.frame with operands, next } c.function ∧ next < c.function.code.length := by
  obtain ⟨i, hi, hlabel⟩ := sourced.label poised.function found
  obtain ⟨hlt, rfl⟩ := List.getElem?_eq_some_iff.1 hi
  refine ⟨⟨poised.function, poised.slots, fun heights h' fits => ?_⟩, hlt⟩
  obtain ⟨h, h₁, hcount, hshift, _⟩ := poised.shifts fits
  obtain ⟨there, rest⟩ := fits.drop next
  rw [List.drop_eq_getElem_cons hlt] at rest
  obtain ⟨k, k₁, _, hmark, rest⟩ := rest.uncons
  have hmark' := hmark
  rw [hlabel] at hmark'
  obtain ⟨hheight, _⟩ := hmark'
  refine ⟨k, ?_, ?_⟩
  · dsimp only
    rw [List.drop_eq_getElem_cons hlt]
    exact .cons hmark rest
  · rw [← hheight]
    exact moved heights h h₁ hshift hcount

end Basis.Poised

/-- Go on behind the operation. -/
theorem leads_next (poised : σ.Poised c op) (sourced : σ.Sourced) (hop : op.isReturn = false)
    {locals operands : List Value}
    (slots : c.frame.locals.length ≤ locals.length)
    (moved : ∀ heights h h₁, Shifts (σ.site c.function) heights op h h₁ →
      Counts σ.exact c.frame.operands.length h → Counts σ.exact operands.length h₁) :
    σ.Leads c ({ c.frame with locals, operands } :: c.below) .next :=
  .next (poised.stands slots moved) (poised.next_lt sourced hop)

theorem length_le_putAt (values : List Value) (index : Nat) (v : Value) :
    values.length ≤ (putAt values index v).length := by
  unfold putAt
  rw [List.length_set, List.length_append]
  exact Nat.le_add_right _ _

theorem counts_of_pop {operands rest : List Value} {v : Value} {exact : Bool} {h h₁ : Nat}
    (hops : operands = v :: rest) (hshift : h = h₁ + 1) (hcount : Counts exact operands.length h) :
    Counts exact rest.length h₁ := by
  rw [hops, List.length_cons, hshift] at hcount
  exact (Code.counts_add_iff 1).1 hcount

theorem push_leads (poised : σ.Poised c op) (sourced : σ.Sourced) (hop : op.isReturn = false)
    {operands : List Value} {r : Except ValueError Value} {effect : Effect}
    (moved : ∀ heights h h₁, Shifts (σ.site c.function) heights op h h₁ →
      Counts σ.exact c.frame.operands.length h → Counts σ.exact (operands.length + 1) h₁)
    (h : c.push m operands r = .ok effect) :
    σ.Leads c effect.machine.frames effect.flow := by
  cases r with
  | error e => cases h
  | ok v =>
    cases h
    exact leads_next poised sourced hop (Nat.le_refl _) moved

theorem jump_leads (poised : σ.Poised c op) (sourced : σ.Sourced) (himage : m.image = σ.image)
    {l : Code.Label} {operands : List Value} {effect : Effect}
    (moved : ∀ heights h h₁, Shifts (σ.site c.function) heights op h h₁ →
      Counts σ.exact c.frame.operands.length h → Counts σ.exact operands.length (heights l))
    (h : c.jump m operands l = .ok effect) :
    σ.Leads c effect.machine.frames effect.flow := by
  unfold Context.jump at h
  rw [himage] at h
  cases found : σ.image.labelPlace? c.frame.function l with
  | none =>
    rw [found] at h
    cases h
  | some next =>
    rw [found] at h
    cases h
    obtain ⟨stands, inside⟩ := poised.stands_at sourced found moved
    exact .next stands inside

/-! ### Calls -/

/-- A call of a function takes the arguments and gives as many results as the function has. -/
structure Basis.Calls (σ : Basis) (op : Op) (name : String) (argc : Nat) : Prop where
  isReturn : op.isReturn = false
  shifts : ∀ (s : Code.Site) (heights : Nat → Nat) (h h₁ : Nat), s.program = σ.program →
    Shifts s heights op h h₁ →
      ∃ f ∈ σ.program.functions, f.name = name ∧ argc ≤ h ∧ h₁ = h - argc + results f.ret
  called : ∀ i : Instruction, i.op = op → called? i = some name

theorem calls_call (name : String) (argc : Nat) : σ.Calls (.call name argc) name argc := by
  refine ⟨rfl, fun s heights h h₁ hs hshift => hs ▸ hshift, fun i hi => ?_⟩
  rw [called?, hi]

theorem calls_callNative (name : String) (argc : Nat) :
    σ.Calls (.callNative name argc) name argc := by
  refine ⟨rfl, fun s heights h h₁ hs hshift => hs ▸ hshift, fun i hi => ?_⟩
  rw [called?, hi]

section

variable {name : String} {argc : Nat}

theorem call_counts (sourced : σ.Sourced) (calls : σ.Calls op name argc)
    {index : Nat} {g : Code.Function} (hg : σ.image.function? index = some g)
    (hname : g.name = name)
    {heights : Nat → Nat} {h h₁ : Nat} (hshift : Shifts (σ.site c.function) heights op h h₁)
    (hcount : Counts σ.exact c.frame.operands.length h) :
    Counts σ.exact ((c.frame.operands.drop argc).length + results g.signature.ret) h₁ := by
  obtain ⟨f, hf, hfname, _, rfl⟩ := calls.shifts _ heights h h₁ rfl hshift
  rw [sourced.ret hg hf (hfname.trans hname.symm), List.length_drop, Code.counts_add_iff]
  exact hcount.sub argc

theorem results_of_ne_void {ty : Ty} (h : ty ≠ .void) : results ty = 1 := if_neg h

theorem invoke_leads (poised : σ.Poised c op) (sourced : σ.Sourced) (calls : σ.Calls op name argc)
    {index : Nat} {g : Code.Function} (hg : σ.image.function? index = some g)
    (hname : g.name = name)
    {args : List Value} {effect : Effect}
    (h : c.invoke m (c.frame.operands.drop argc) index g args = .ok effect) :
    σ.Leads c effect.machine.frames effect.flow := by
  unfold Context.invoke at h
  cases hkind : g.kind with
  | body code =>
    simp only [hkind] at h
    split at h
    · cases h
    · cases h
      have hcode : g.code = code := by rw [Code.Function.code, hkind]
      refine .enter (poised.stands (Nat.le_refl _) fun heights h h₁ hshift hcount => ?_)
        (poised.next_lt sourced calls.isReturn) hg ?_
      · exact call_counts sourced calls hg hname hshift hcount
      · rw [hcode]
        exact length_pos_of_endsInReturn (sourced.body hg hkind).1
  | intrinsic i =>
    simp only [hkind] at h
    cases h
    refine leads_next poised sourced calls.isReturn (Nat.le_refl _)
      fun heights h h₁ hshift hcount => ?_
    have counts := call_counts sourced calls hg hname hshift hcount
    rwa [sourced.intrinsic hg hkind] at counts
  | native symbol =>
    simp only [hkind] at h
    split at h
    · cases h
    · cases h
      by_cases hret : g.signature.ret = .void
      · rw [if_pos hret]
        refine leads_next poised sourced calls.isReturn (Nat.le_refl _)
          fun heights h h₁ hshift hcount => ?_
        have counts := call_counts sourced calls hg hname hshift hcount
        rwa [hret] at counts
      · rw [if_neg hret]
        refine leads_next poised sourced calls.isReturn (Nat.le_refl _)
          fun heights h h₁ hshift hcount => ?_
        have counts := call_counts sourced calls hg hname hshift hcount
        rwa [results_of_ne_void hret] at counts

theorem call_leads (poised : σ.Poised c op) (sourced : σ.Sourced) (himage : m.image = σ.image)
    (calls : σ.Calls op name argc) {effect : Effect} (h : c.call m name argc = .ok effect) :
    σ.Leads c effect.machine.frames effect.flow := by
  obtain ⟨i, hi, hop⟩ := poised.instruction
  unfold Context.call at h
  rw [himage] at h
  dsimp only at h
  split at h
  · cases h
  · rename_i index g found
    obtain ⟨id, hid, found⟩ := Option.bind_eq_some_iff.1 found
    obtain ⟨g', hg', same⟩ := Option.bind_eq_some_iff.1 found
    cases same
    obtain ⟨g', hg, hname⟩ := sourced.callee poised.function hi (calls.called i hop) hid
    cases hg'.symm.trans hg
    split at h
    · cases h
    · split at h
      · cases h
      · exact invoke_leads poised sourced calls hg hname h

end

/-- A function without result has none to return if numbers are exact: it has no operands. -/
theorem operands_of_ret (poised : σ.Poised c (.ret true)) (sourced : σ.Sourced)
    (hexact : σ.exact = true) (hvoid : c.function.signature.ret = .void) :
    c.frame.operands = [] := by
  obtain ⟨heights, h', fits⟩ := sourced.certified hexact poised.function
  obtain ⟨h, h₁, hcount, hshift, _⟩ := poised.shifts fits
  have hnone : h = 0 := (if_pos ⟨hexact, hvoid⟩).mp hshift
  rw [← List.length_eq_zero_iff, ← hnone]
  exact hcount.2 hexact

/-- A return gives the function below what it awaits. -/
theorem ret_leads {hasValue : Bool} (poised : σ.Poised c (.ret hasValue)) (sourced : σ.Sourced)
    {effect : Effect} (h : c.execute m (.ret hasValue) = .ok effect) :
    σ.Leads c effect.machine.frames effect.flow := by
  unfold Context.execute at h
  dsimp only at h
  cases hasValue with
  | false =>
    cases h
    obtain ⟨i, hi, hop⟩ := poised.instruction
    have answers := (sourced.body poised.function (body_of_getElem? hi)).2
    refine .leave ?_
    rw [answers i (List.mem_of_getElem? hi) hop]
    exact ⟨Nat.le_refl 0, fun _ => rfl⟩
  | true =>
    cases hops : c.frame.operands with
    | nil => rw [hops] at h; cases h
    | cons v rest =>
      rw [hops] at h
      cases h
      refine .leave ?_
      by_cases hvoid : c.function.signature.ret = .void
      · rw [hvoid]
        refine ⟨Nat.zero_le 1, fun hexact => ?_⟩
        rw [operands_of_ret poised sourced hexact hvoid] at hops
        cases hops
      · rw [results_of_ne_void hvoid]
        exact ⟨Nat.le_refl 1, fun _ => rfl⟩

/-- What an operation does keeps the functions standing. -/
theorem execute_leads (poised : σ.Poised c op) (sourced : σ.Sourced) (himage : m.image = σ.image)
    {effect : Effect} (h : c.execute m op = .ok effect) :
    σ.Leads c effect.machine.frames effect.flow := by
  unfold Context.execute at h
  dsimp only at h
  cases op with
  | pushConst _ | pushGlobal _ =>
    cases h
    refine leads_next poised sourced rfl (Nat.le_refl _) fun heights h h₁ hshift hcount => ?_
    obtain rfl : h₁ = h + 1 := hshift
    exact (Code.counts_add_iff 1).2 hcount
  | pushLocal slot =>
    dsimp only at h
    cases hlocal : c.frame.locals[slot]? with
    | none => rw [hlocal] at h; cases h
    | some v =>
      rw [hlocal] at h
      cases h
      refine leads_next poised sourced rfl (Nat.le_refl _) fun heights h h₁ hshift hcount => ?_
      obtain ⟨_, rfl⟩ : slot < _ ∧ h₁ = h + 1 := hshift
      exact (Code.counts_add_iff 1).2 hcount
  | label l =>
    cases h
    refine leads_next poised sourced rfl (Nat.le_refl _) fun heights h h₁ hshift hcount => ?_
    obtain ⟨_, rfl⟩ : heights l = h ∧ h₁ = h := hshift
    exact hcount
  | call name argc => exact call_leads poised sourced himage (calls_call name argc) h
  | callNative name argc => exact call_leads poised sourced himage (calls_callNative name argc) h
  | jump l =>
    refine jump_leads poised sourced himage (fun heights h h₁ hshift hcount => ?_) h
    obtain rfl : heights l = h := hshift
    exact hcount
  | popLocal slot =>
    cases hops : c.frame.operands with
    | nil => rw [hops] at h; cases h
    | cons v rest =>
      rw [hops] at h
      cases h
      exact leads_next poised sourced rfl (length_le_putAt _ _ _)
        fun heights h h₁ hshift hcount => counts_of_pop hops hshift hcount
  | popGlobal _ | pop =>
    cases hops : c.frame.operands with
    | nil => rw [hops] at h; cases h
    | cons v rest =>
      rw [hops] at h
      cases h
      exact leads_next poised sourced rfl (Nat.le_refl _)
        fun heights h h₁ hshift hcount => counts_of_pop hops hshift hcount
  | unary _ | cast _ =>
    cases hops : c.frame.operands with
    | nil => rw [hops] at h; cases h
    | cons v rest =>
      rw [hops] at h
      refine push_leads poised sourced rfl (fun heights h h₁ hshift hcount => ?_) h
      obtain ⟨_, rfl⟩ : 0 < h ∧ h₁ = h := hshift
      rwa [hops] at hcount
  | binary _ =>
    rcases hops : c.frame.operands with _ | ⟨r, _ | ⟨l, rest⟩⟩
    · rw [hops] at h; cases h
    · rw [hops] at h; cases h
    · rw [hops] at h
      refine push_leads poised sourced rfl (fun heights h h₁ hshift hcount => ?_) h
      exact counts_of_pop hops hshift.2 hcount
  | jumpIfFalse l =>
    cases hops : c.frame.operands with
    | nil => rw [hops] at h; cases h
    | cons v rest =>
      rw [hops] at h
      dsimp only at h
      split at h
      · cases h
        exact leads_next poised sourced rfl (Nat.le_refl _)
          fun heights h h₁ hshift hcount => counts_of_pop hops hshift.1 hcount
      · refine jump_leads poised sourced himage (fun heights h h₁ hshift hcount => ?_) h
        rw [hshift.2]
        exact counts_of_pop hops hshift.1 hcount
  | jumpIfTrue l =>
    cases hops : c.frame.operands with
    | nil => rw [hops] at h; cases h
    | cons v rest =>
      rw [hops] at h
      dsimp only at h
      split at h
      · refine jump_leads poised sourced himage (fun heights h h₁ hshift hcount => ?_) h
        rw [hshift.2]
        exact counts_of_pop hops hshift.1 hcount
      · cases h
        exact leads_next poised sourced rfl (Nat.le_refl _)
          fun heights h h₁ hshift hcount => counts_of_pop hops hshift.1 hcount
  | ret hasValue => exact ret_leads poised sourced h

/-! ### Operations that fail -/

theorem push_ne_underflow {operands : List Value} {r : Except ValueError Value} {name : String}
    {place : Location} : c.push m operands r ≠ .error (.stackUnderflow name place) := by
  intro h
  cases r <;> cases h

theorem jump_ne_underflow {operands : List Value} {l : Code.Label} {name : String}
    {place : Location} : c.jump m operands l ≠ .error (.stackUnderflow name place) := by
  intro h
  unfold Context.jump at h
  split at h <;> cases h

theorem invoke_ne_underflow {operands : List Value} {index : Nat} {f : Code.Function}
    {args : List Value} {name : String} {place : Location} :
    c.invoke m operands index f args ≠ .error (.stackUnderflow name place) := by
  intro h
  unfold Context.invoke at h
  dsimp only at h
  split at h
  · split at h <;> cases h
  · cases h
  · split at h <;> cases h

theorem call_underflow {callee name : String} {argc : Nat} {place : Location}
    (h : c.call m callee argc = .error (.stackUnderflow name place)) :
    name = c.function.name ∧ c.frame.operands.length < argc := by
  unfold Context.call at h
  dsimp only at h
  split at h
  · cases h
  · split at h
    · cases h
    · split at h
      · rename_i hlt
        cases h
        exact ⟨rfl, hlt⟩
      · exact absurd h invoke_ne_underflow

/-- Where an operation finds as many operands as code that fits has for it, it can only lack the
value that a function without result returns. -/
theorem execute_underflow {name : String} {place : Location}
    (h : c.execute m op = .error (.stackUnderflow name place)) :
    name = c.function.name ∧ ∀ (s : Code.Site) (heights : Nat → Nat) (k k₁ : Nat),
      s.slots ≤ c.frame.locals.length → Shifts s heights op k k₁ → k ≤ c.frame.operands.length →
        op = .ret true ∧ s.exact = true ∧ s.ret = .void := by
  unfold Context.execute at h
  dsimp only at h
  cases op with
  | pushConst _ | pushGlobal _ | label _ => cases h
  | jump l => exact absurd h jump_ne_underflow
  | pushLocal slot =>
    dsimp only at h
    split at h
    · cases h
    · rename_i hnone
      cases h
      refine ⟨rfl, fun s heights k k₁ slots hshift _ => ?_⟩
      obtain ⟨hslot, _⟩ : slot < s.slots ∧ k₁ = k + 1 := hshift
      exact absurd (Nat.lt_of_lt_of_le hslot slots)
        (Nat.not_lt.2 (List.getElem?_eq_none_iff.1 hnone))
  | call callee argc | callNative callee argc =>
    obtain ⟨hname, hlt⟩ := call_underflow h
    refine ⟨hname, fun s heights k k₁ _ hshift hk => ?_⟩
    obtain ⟨f, _, _, hargc, _⟩ : ∃ f ∈ s.program.functions, f.name = callee ∧ argc ≤ k ∧
      k₁ = k - argc + results f.ret := hshift
    omega
  | popLocal _ | popGlobal _ | pop =>
    cases hops : c.frame.operands with
    | cons v rest => rw [hops] at h; cases h
    | nil =>
      rw [hops] at h
      cases h
      refine ⟨rfl, fun s heights k k₁ _ hshift hk => ?_⟩
      obtain rfl : k = k₁ + 1 := hshift
      cases hk
  | unary _ | cast _ =>
    cases hops : c.frame.operands with
    | cons v rest => rw [hops] at h; exact absurd h push_ne_underflow
    | nil =>
      rw [hops] at h
      cases h
      refine ⟨rfl, fun s heights k k₁ _ hshift hk => ?_⟩
      exact absurd hk (Nat.not_le.2 hshift.1)
  | binary _ =>
    rcases hops : c.frame.operands with _ | ⟨r, _ | ⟨l, rest⟩⟩
    · rw [hops] at h
      cases h
      refine ⟨rfl, fun s heights k k₁ _ hshift hk => ?_⟩
      exact absurd hk (Nat.not_le.2 (Nat.lt_of_succ_lt hshift.1))
    · rw [hops] at h
      cases h
      refine ⟨rfl, fun s heights k k₁ _ hshift hk => ?_⟩
      exact absurd hk (Nat.not_le.2 hshift.1)
    · rw [hops] at h
      exact absurd h push_ne_underflow
  | jumpIfFalse l | jumpIfTrue l =>
    cases hops : c.frame.operands with
    | cons v rest =>
      rw [hops] at h
      dsimp only at h
      split at h <;> first | cases h | exact absurd h jump_ne_underflow
    | nil =>
      rw [hops] at h
      cases h
      refine ⟨rfl, fun s heights k k₁ _ hshift hk => ?_⟩
      obtain ⟨rfl, _⟩ : k = k₁ + 1 ∧ heights l = k₁ := hshift
      cases hk
  | ret hasValue =>
    cases hasValue with
    | false => cases h
    | true =>
      cases hops : c.frame.operands with
      | cons v rest => rw [hops] at h; cases h
      | nil =>
        rw [hops] at h
        cases h
        refine ⟨rfl, fun s heights k k₁ _ hshift hk => ⟨rfl, ?_⟩⟩
        unfold Shifts at hshift
        dsimp only at hshift
        split at hshift
        · assumption
        · exact absurd hk (Nat.not_le.2 hshift)

/-! ### Steps -/

/-- If an operation lacks an operand, then its function is to blame. -/
theorem blamed_of_underflow (poised : σ.Poised c op) {name : String} {place : Location}
    (h : c.execute m op = .error (.stackUnderflow name place)) : σ.Blamed name := by
  obtain ⟨hname, lacks⟩ := execute_underflow h
  refine ⟨c.frame.function, c.function, poised.function, hname.symm, ?_⟩
  by_cases certified : Certified σ.program σ.exact c.function
  · obtain ⟨heights, h', fits⟩ := certified
    obtain ⟨k, k₁, hcount, hshift, _⟩ := poised.shifts fits
    exact .inr (lacks (σ.site c.function) heights k k₁ poised.slots hshift hcount.1).2
  · exact .inl certified

theorem exit_sound {awaited : Nat} (sound : σ.Sound awaited m) (status : ExitStatus) :
    σ.Sound 0 (m.exit status).machine :=
  ⟨sound.image_eq, .nil 0, sound.blamed, nofun⟩

theorem fail_sound {awaited : Nat} (sound : σ.Sound awaited m) {e : RuntimeError}
    (he : ∀ name place, e = .stackUnderflow name place → σ.Blamed name) :
    σ.Sound 0 (m.fail e).machine := by
  refine ⟨sound.image_eq, .nil 0, fun name place h => ?_, nofun⟩
  exact he name place (Option.some.inj h)

theorem length_initialLocals (f : Code.Function) (args : List Value) :
    f.locals.length ≤ (initialLocals f args).length := by
  unfold initialLocals
  rw [List.length_append, List.length_map, List.length_drop]
  omega

theorem enter_sound {index : Nat} {f : Code.Function} (hf : σ.image.function? index = some f)
    (sound : σ.Sound (results f.signature.ret) m) (awake : m.phase ≠ .idle)
    (begins : m.frames = [] ∨ 0 < f.code.length) (args : List Value) :
    σ.Sound 0 (m.enter index f args).machine := by
  refine ⟨sound.image_eq, .cons ⟨hf, length_initialLocals f args, fun heights h' fits => ?_⟩ begins
    sound.frames, sound.blamed, fun h => absurd h awake⟩
  exact ⟨0, fits, Nat.le_refl 0, fun _ => rfl⟩

/-- With no function active, one that no other calls begins. -/
theorem enterRoot_sound {awaited : Nat} (sound : σ.Sound awaited m) (hframes : m.frames = [])
    (awake : m.phase ≠ .idle) (index : Nat) : σ.Sound 0 (m.enterRoot index).machine := by
  unfold enterRoot
  rw [sound.image_eq]
  cases hf : σ.image.function? index with
  | none => exact fail_sound sound nofun
  | some f =>
    dsimp only
    have rooted : σ.Sound (results f.signature.ret) m := by
      refine ⟨sound.image_eq, ?_, sound.blamed, sound.idle⟩
      rw [hframes]
      exact .nil _
    cases f.signature.params with
    | nil => exact enter_sound hf rooted awake (.inl hframes) []
    | cons ty tys => exact fail_sound sound nofun

theorem enterEntry_sound {awaited : Nat} (sound : σ.Sound awaited m) (hframes : m.frames = []) :
    σ.Sound 0 m.enterEntry.machine := by
  have begun : σ.Sound awaited { m with phase := .entry } :=
    ⟨sound.image_eq, sound.frames, sound.blamed, nofun⟩
  unfold enterEntry
  cases m.image.entry? with
  | none => exact fail_sound begun nofun
  | some entry => exact enterRoot_sound begun hframes nofun entry

/-- The function below gets the results that it awaits. -/
theorem returnTo_sound {ret : Ty} (sound : σ.Sound (results ret) m) (awake : m.phase ≠ .idle)
    {result : Option Value}
    (counts : m.frames = [] ∨ Counts σ.exact result.toList.length (results ret)) :
    σ.Sound 0 (m.returnTo result).machine := by
  unfold returnTo
  cases hframes : m.frames with
  | nil =>
    cases m.phase with
    | init => exact enterEntry_sound sound hframes
    | _ => exact exit_sound sound _
  | cons caller below =>
    have frames := sound.frames
    rw [hframes] at frames counts
    obtain hnil | counts := counts
    · cases hnil
    · cases frames with
      | cons stands inside rest =>
        refine ⟨sound.image_eq, .cons ⟨stands.function, stands.slots,
          fun heights h' fits => ?_⟩ inside
          rest, sound.blamed, fun h => absurd h awake⟩
        obtain ⟨h, hrest, hcount⟩ := stands.fits heights h' fits
        refine ⟨h, hrest, Counts.trans ?_ hcount⟩
        rw [List.length_append, Nat.add_zero, Nat.add_comm, Code.counts_add_left_iff]
        exact counts

theorem leave_sound {frame : Frame} {below : List Frame} {ret : Ty}
    (hframes : m.frames = frame :: below)
    (image_eq : m.image = σ.image) (rest : σ.Stacked (results ret) below)
    (blamed : ∀ name place, m.error = some (.stackUnderflow name place) → σ.Blamed name)
    (awake : m.phase ≠ .idle) {result : Option Value}
    (counts : below = [] ∨ Counts σ.exact result.toList.length (results ret)) :
    σ.Sound 0 (m.leave result).machine := by
  unfold leave
  rw [hframes]
  have left : σ.Sound (results ret) { m with frames := below, stepper := m.stepper.leave } :=
    ⟨image_eq, rest, blamed, fun h => absurd h awake⟩
  exact returnTo_sound left awake counts

/-- Whatever comes after an operation is sound. -/
theorem follow_sound {flow : Flow} (leads : σ.Leads c m.frames flow)
    (below : σ.Stacked (results c.function.signature.ret) c.below) (image_eq : m.image = σ.image)
    (blamed : ∀ name place, m.error = some (.stackUnderflow name place) → σ.Blamed name)
    (awake : m.phase ≠ .idle) : σ.Sound 0 (m.follow flow).machine := by
  have idle : m.phase = .idle → m.frames = [] := fun h => absurd h awake
  generalize hframes : m.frames = frames at leads
  cases leads with
  | next stands inside =>
    refine ⟨image_eq, ?_, blamed, idle⟩
    change σ.Stacked 0 m.frames
    rw [hframes]
    exact .cons stands (.inr inside) below
  | enter stands inside called begins =>
    refine enter_sound called ⟨image_eq, ?_, blamed, idle⟩ awake (.inr begins) _
    rw [hframes]
    exact .cons stands (.inr inside) below
  | leave counts => exact leave_sound hframes image_eq below blamed awake (.inr counts)

/-- To execute an instruction is sound. -/
theorem perform_sound {i : Instruction} (sourced : σ.Sourced) (sound : σ.Sound 0 m)
    (awake : m.phase ≠ .idle) (poised : σ.Poised c i.op)
    (below : σ.Stacked (results c.function.signature.ret) c.below) :
    σ.Sound 0 (m.perform c i).machine := by
  unfold perform
  cases hexecute : c.execute m i.op with
  | error e =>
    refine fail_sound sound fun name place he => ?_
    rw [he] at hexecute
    exact blamed_of_underflow poised hexecute
  | ok effect =>
    have keeps := Context.execute_keeps hexecute
    have leads := execute_leads poised sourced sound.image_eq hexecute
    refine follow_sound (m := { effect.machine with executed := effect.machine.executed + 1 }) leads
      below (keeps.image.trans sound.image_eq) (fun name place he => ?_) (keeps.phase ▸ awake)
    exact sound.blamed name place (keeps.error.symm.trans he)

theorem Basis.Sound.withStepper {awaited : Nat} (sound : σ.Sound awaited m) (stepper : Stepper)
    (resuming : Bool) : σ.Sound awaited { m with stepper, resuming } :=
  ⟨sound.image_eq, sound.frames, sound.blamed, sound.idle⟩

theorem checkAndPerform_sound {i : Instruction} (sourced : σ.Sourced) (sound : σ.Sound 0 m)
    (awake : m.phase ≠ .idle) (poised : σ.Poised c i.op)
    (below : σ.Stacked (results c.function.signature.ret) c.below) :
    σ.Sound 0 (m.checkAndPerform c i).machine := by
  unfold checkAndPerform
  dsimp only
  split
  · exact sound.withStepper _ true
  · exact perform_sound sourced (sound.withStepper _ m.resuming) awake poised below

/-- The innermost function is about to execute its next instruction. -/
theorem poised_of_stands {frame : Frame} (below : List Frame) {g : Code.Function} {i : Instruction}
    (stands : σ.Stands 0 frame g) (hi : g.code[frame.next]? = some i) :
    σ.Poised ⟨g, { frame with next := frame.next + 1 }, below, frame.next, i.location⟩ i.op :=
  ⟨stands.function, ⟨i, hi, rfl⟩, rfl, stands.slots, stands.fits⟩

/-- Every step is sound. -/
theorem step_sound (sourced : σ.Sourced) (sound : σ.Sound 0 m) (stop : Bool) :
    σ.Sound 0 (m.step stop).machine := by
  unfold step
  cases hframes : m.frames with
  | nil => exact exit_sound sound _
  | cons frame below =>
    have awake : m.phase ≠ .idle := by
      intro h
      rw [sound.idle h] at hframes
      cases hframes
    have frames := sound.frames
    rw [hframes] at frames
    cases frames with
    | @cons _ _ _ g stands inside rest =>
      dsimp only
      rw [sound.image_eq, stands.function]
      dsimp only
      cases hi : g.code[frame.next]? with
      | none =>
        obtain hbelow | inside := inside
        · exact leave_sound hframes sound.image_eq rest sound.blamed awake (.inl hbelow)
        · rw [List.getElem?_eq_getElem inside] at hi
          cases hi
      | some i =>
        have poised := poised_of_stands below stands hi
        dsimp only
        split
        · rename_i isLabel
          obtain ⟨l, hl⟩ : ∃ l, i.op = .label l := by
            cases hop : i.op with
            | label l => exact ⟨l, rfl⟩
            | _ => rw [hop] at isLabel; cases isLabel
          rw [hl] at poised
          refine ⟨rfl, .cons (poised.stands (Nat.le_refl _) fun heights h h₁ hshift hcount => ?_)
            (.inr (poised.next_lt sourced rfl)) rest, sound.blamed, fun h => absurd h awake⟩
          obtain ⟨_, rfl⟩ : heights l = h ∧ h₁ = h := hshift
          exact hcount
        · split
          · exact exit_sound sound _
          · split
            · exact perform_sound sourced ⟨rfl, .cons stands inside rest, sound.blamed,
                fun h => absurd h awake⟩
                awake poised rest
            · exact checkAndPerform_sound sourced sound awake poised rest

/-! ### Runs -/

theorem start_sound {awaited : Nat} (sound : σ.Sound awaited m) (hidle : m.phase = .idle) :
    σ.Sound 0 m.start.machine := by
  have hframes := sound.idle hidle
  have begun : σ.Sound awaited { m with phase := .init } :=
    ⟨sound.image_eq, sound.frames, sound.blamed, nofun⟩
  unfold start
  dsimp only
  split
  · exact fail_sound sound nofun
  · exact enterRoot_sound begun hframes nofun _
  · exact enterEntry_sound sound hframes

theorem drive_sound (sourced : σ.Sourced) (stop : Bool) : ∀ (fuel : Nat) {m : Machine}
    (sent : Array Emission), σ.Sound 0 m → σ.Sound 0 (drive stop fuel m sent).1 := by
  intro fuel
  induction fuel with
  | zero => intro m sent sound; exact sound
  | succ fuel ih =>
    intro m sent sound
    have stepped := step_sound sourced sound stop
    unfold drive
    dsimp only
    split
    · exact stepped
    · exact ih _ stepped

theorem resume_sound (sourced : σ.Sourced) (sound : σ.Sound 0 m) (mode : Mode) (stop : Bool)
    (fuel : Nat) : σ.Sound 0 (m.resume mode stop fuel).1 := by
  unfold resume
  cases hphase : m.phase with
  | done status => exact sound
  | idle =>
    have started := start_sound sound hphase
    dsimp only
    split
    · exact started
    · exact drive_sound sourced stop fuel _ (started.withStepper _ _)
  | init => exact drive_sound sourced stop fuel _ (sound.withStepper _ _)
  | entry => exact drive_sound sourced stop fuel _ (sound.withStepper _ _)

theorem obey_sound (sourced : σ.Sourced) (sound : σ.Sound 0 m) (command : Command) :
    σ.Sound 0 (m.obey command).machine := by
  cases command with
  | pause => exact sound.withStepper _ m.resuming
  | addBreakpoint line => exact sound.withStepper _ m.resuming
  | removeBreakpoint line => exact sound.withStepper _ m.resuming
  | resume mode stop fuel => exact resume_sound sourced sound mode stop fuel

/-- Every session is sound. -/
theorem obeyAll_sound (sourced : σ.Sourced) : ∀ (script : List Command) {m : Machine},
    σ.Sound 0 m → σ.Sound 0 (m.obeyAll script).machine := by
  intro script
  induction script with
  | nil => intro m sound; exact sound
  | cons command rest ih => intro m sound; exact ih (obey_sound sourced sound command)

theorem limited_sound (max : Nat) : σ.Sound 0 (limited σ.image max) :=
  ⟨rfl, .nil 0, nofun, fun _ => rfl⟩

/-- The instruction that comes next is one of a function that stands. -/
theorem poised_of_pending {i : Instruction} (sound : σ.Sound 0 m) (h : m.pending? = some (c, i)) :
    σ.Poised c i.op := by
  unfold pending? at h
  rw [sound.image_eq] at h
  cases hframes : m.frames with
  | nil => simp [hframes] at h
  | cons frame below =>
    have frames := sound.frames
    rw [hframes] at frames h
    cases frames with
    | @cons _ _ _ g stands inside rest =>
      simp only [List.head?_cons, stands.function, Option.bind_eq_bind, Option.bind_some] at h
      obtain ⟨j, hj, h⟩ := Option.bind_eq_some_iff.1 h
      split at h
      · cases h
      · cases h
        exact poised_of_stands below stands hj

/-- With exact numbers, just the return of a value from a function without result lacks it. -/
theorem execute_eq_underflow_iff (hexact : σ.exact = true) (sourced : σ.Sourced)
    (poised : σ.Poised c op) :
    c.execute m op = .error c.underflow ↔ op = .ret true ∧ c.function.signature.ret = .void := by
  constructor
  · intro h
    obtain ⟨heights, h', fits⟩ := sourced.certified hexact poised.function
    obtain ⟨k, k₁, hcount, hshift, _⟩ := poised.shifts fits
    obtain ⟨hop, _, hvoid⟩ := (execute_underflow h).2 (σ.site c.function) heights k k₁ poised.slots
      hshift hcount.1
    exact ⟨hop, hvoid⟩
  · rintro ⟨rfl, hvoid⟩
    have hops := operands_of_ret poised sourced hexact hvoid
    unfold Context.execute
    dsimp only
    rw [hops]

end

/-! ### Sources -/

section

variable {source : Syntax.Program} {program : Bound.Program} {name entry : String}
  {code : Code.Program} {bridge : Native.Bridge} {image : Image}

theorem unbalanced_of_blamed {function : String} (promises : Code.Promises program false)
    (hlower : Code.lower program name entry = .ok code) (himage : IsImage code bridge image)
    (blamed : Basis.Blamed ⟨program, image, false⟩ function) :
    (∃ f ∈ program.functions, f.name = function ∧ ¬ Bound.stmtsBalanced f.stmts) ∨
      (function = Code.initName ∧ ∃ g ∈ program.globals, ∃ e, g.init = some e ∧ ¬ e.Valued) := by
  obtain ⟨index, g, hg, hname, uncertified | ⟨hexact, _⟩⟩ := blamed
  · rw [himage.function?_eq] at hg
    obtain ⟨f, hf, lowered⟩ | ⟨lowered, _⟩ :=
      mem_functions_of_lower hlower (List.mem_of_getElem? hg)
    · refine .inl ⟨f, hf, lowered.name.symm.trans hname, fun balanced => uncertified ?_⟩
      exact lowered.certified hf promises fun _ => balanced
    · obtain ⟨_, _, _, _, hinit, _⟩ := Code.lowerInit_eq_ok lowered
      refine .inr ⟨hname.symm.trans hinit, ?_⟩
      by_contra valued
      refine uncertified (Code.lowerInit_certified lowered promises fun _ g hg e he => ?_)
      by_contra silent
      exact valued ⟨g, hg, e, he, silent⟩
  · cases hexact

/-- A run of a program that was bound can only end for want of an operand in a function that takes
something silent as an operand, stores or returns it, or where a global is given something silent.
If the program is well typed and no variable is of type `void`, then the instruction that comes next
lacks an operand exactly if it returns a value from a function without result. -/
theorem underflow_of_bind (hbind : Bound.bind source = .ok program)
    (hlower : Code.lower program name entry = .ok code) (himage : IsImage code bridge image)
    (max : Nat) (script : List Command) :
    let m := ((limited image max).obeyAll script).machine
    (∀ function place, m.error = some (.stackUnderflow function place) →
        (∃ f ∈ program.functions, f.name = function ∧ ¬ Bound.stmtsBalanced f.stmts) ∨
          (function = Code.initName ∧ ∃ g ∈ program.globals, ∃ e, g.init = some e ∧ ¬ e.Valued)) ∧
      (program.WellTyped → program.NoVoid → ∀ c i, m.pending? = some (c, i) →
        (c.execute m i.op = .error c.underflow ↔
          i.op = .ret true ∧ c.function.signature.ret = .void)) := by
  intro m
  have typed := Bound.typed_of_bind hbind
  have names := Bound.nodup_names_of_bind hbind
  constructor
  · intro function place herror
    have promises : Code.Promises program false := ⟨typed, nofun⟩
    have sound := obeyAll_sound (sourced_of_lower promises names hlower himage) script
      (limited_sound max)
    exact unbalanced_of_blamed promises hlower himage (sound.blamed function place herror)
  · intro wellTyped noVoid c i hpending
    have promises : Code.Promises program true := ⟨typed, fun _ => ⟨wellTyped, noVoid⟩⟩
    have sourced := sourced_of_lower promises names hlower himage
    have sound := obeyAll_sound sourced script (limited_sound max)
    exact execute_eq_underflow_iff rfl sourced (poised_of_pending sound hpending)

end

/-- `func f() {} func main() { return f(); }`, without places. -/
def returningNothing : Syntax.Program :=
  let node : Syntax.Node := ⟨0, default⟩
  let written (name : String) (body : List Syntax.Stmt) : Syntax.Item :=
    ⟨node, .function ⟨⟨name, default⟩, [], none, .block (.mk node body)⟩⟩
  ⟨[⟨"", [written "f" [], written "main" [.ret node (some (.call node ⟨"f", default⟩ []))]]⟩]⟩

/-- What `returningNothing` is bound to. -/
def returningNothingBound : Bound.Program where
  globals := []
  functions := [⟨"f", [], .void, [], .block [], .unknown⟩,
    ⟨"main", [], .void, [], .block [.ret .unknown (some (.call ⟨.void, .unknown⟩ 0 []))], .unknown⟩]

/-- What `returningNothing` is lowered to. -/
def returningNothingCode : Code.Program where
  name := "nothing"
  globals := []
  functions :=
    [⟨"$init", ⟨[], .void⟩, [], .body [⟨.ret false, .unknown⟩], .unknown⟩,
     ⟨"f", ⟨[], .void⟩, [], .body [⟨.ret false, .unknown⟩], .unknown⟩,
     ⟨"main", ⟨[], .void⟩, [], .body [⟨.call "f" 0, .unknown⟩, ⟨.ret true, .unknown⟩], .unknown⟩]
  entry := some "main"

theorem returningNothing_wellTyped : returningNothingBound.WellTyped where
  globals_typed := nofun
  functions_typed := by
    simp only [returningNothingBound, List.mem_cons, List.not_mem_nil, or_false, forall_eq_or_imp,
      forall_eq]
    refine ⟨⟨⟨_, rfl⟩, trivial⟩, ⟨⟨_, rfl⟩, ?_⟩⟩
    exact ⟨⟨⟨trivial, rfl⟩, rfl⟩, trivial⟩

theorem returningNothing_noVoid : returningNothingBound.NoVoid where
  globals := nofun
  locals := by decide

/-- The program after some steps. -/
def returningNothingAfter (steps : Nat) : Machine :=
  ((limited (.interpreted returningNothingCode Native.Bridge.platform) 10).obeyAll
    [.resume .run false steps]).machine

/-- What has no result is returned: after three steps an operand is lacking, and the fourth ends the
run. -/
theorem returningNothing_underflow :
    (∃ c i, (returningNothingAfter 3).pending? = some (c, i) ∧
        c.execute (returningNothingAfter 3) i.op = .error c.underflow) ∧
      (returningNothingAfter 4).error = some (.stackUnderflow "main" .unknown) ∧
        ∃ f ∈ returningNothingBound.functions, f.name = "main" ∧ ¬ Bound.stmtsBalanced f.stmts := by
  have lacks (steps : Nat) := underflow_of_bind (rfl : Bound.bind returningNothing = .ok _)
    (rfl : Code.lower returningNothingBound "nothing" "main" = .ok returningNothingCode)
    (.interpreted : IsImage _ Native.Bridge.platform _) 10 [.resume .run false steps]
  have hpending : ((returningNothingAfter 3).pending?.map fun p =>
      (p.2.op, p.1.function.signature.ret)) = some (.ret true, .void) := rfl
  have hlast : (returningNothingAfter 4).error = some (.stackUnderflow "main" .unknown) := by
    decide
  refine ⟨?_, hlast, ?_⟩
  · obtain ⟨⟨c, i⟩, hp, hret⟩ := Option.map_eq_some_iff.1 hpending
    have exactly := (lacks 3).2 returningNothing_wellTyped returningNothing_noVoid c i hp
    exact ⟨c, i, hp, exactly.2 (Prod.mk.inj hret)⟩
  · obtain found | ⟨hname, _⟩ := (lacks 4).1 "main" .unknown hlast
    · exact found
    · exact absurd hname (by decide)

end ScriptLang.Machine
