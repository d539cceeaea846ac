import ScriptLang.Proofs.Labels
import ScriptLang.Proofs.BoundStatements

/-!
# How many operands code has

A call without result pushes nothing, and so an expression can be *silent*.  Where no silent
expression is taken as an operand, the code of a statement leaves the operands as it finds them, and
every instruction finds as many as it takes (`Fits`).
-/

namespace ScriptLang.Bound

/-! ### Silent expressions -/

/-- Whether the code of the expression pushes nothing, as that of a call without result. -/
def Expr.silent : Expr → Bool
  | .call i _ _ => i.ty == .void
  | .cast i e => e.ty == i.ty && e.silent
  | .ternary _ _ y n => y.silent || n.silent
  | _ => false

mutual

/-- No operand in the expression is silent. -/
def Expr.Balanced : Expr → Prop
  | .literal _ _ => True
  | .variable _ _ => True
  | .unary _ _ e => e.Balanced ∧ e.silent = false
  | .binary _ _ l r => (l.Balanced ∧ l.silent = false) ∧ r.Balanced ∧ r.silent = false
  | .cast i e => e.Balanced ∧ (e.ty ≠ i.ty → e.silent = false)
  | .ternary _ c y n => (c.Balanced ∧ c.silent = false) ∧ y.Balanced ∧ n.Balanced
  | .call _ _ args => argsBalanced args

def argsBalanced : List Expr → Prop
  | [] => True
  | e :: es => (e.Balanced ∧ e.silent = false) ∧ argsBalanced es

end

/-- The expression can be an operand. -/
def Expr.Valued (e : Expr) : Prop := e.Balanced ∧ e.silent = false

/-- How many values the code of the expression pushes. -/
def Expr.pushed (e : Expr) : Nat := if e.silent then 0 else 1

theorem Expr.pushed_of_silent {e : Expr} (h : e.silent = true) : e.pushed = 0 := by
  rw [Expr.pushed, if_pos h]

theorem Expr.pushed_of_not_silent {e : Expr} (h : e.silent = false) : e.pushed = 1 := by
  rw [Expr.pushed, h]
  rfl

/-- Only an expression of type `void` is silent. -/
theorem Expr.WellTyped.ty_of_silent {Γ : Env} : ∀ {e : Expr}, e.WellTyped Γ → e.silent = true →
    e.ty = .void
  | .call i _ _, _, h => eq_of_beq h
  | .cast i e, typed, h => by
    rw [Expr.silent, Bool.and_eq_true] at h
    exact (eq_of_beq h.1).symm.trans (typed.1.ty_of_silent h.2)
  | .ternary i c y n, typed, h => by
    obtain ⟨_, hy, hn, _, hsame, hty⟩ := typed
    rw [Expr.silent, Bool.or_eq_true] at h
    rcases h with h | h
    · exact hty.trans (hy.ty_of_silent h)
    · exact hty.trans (hsame.trans (hn.ty_of_silent h))

theorem Expr.WellTyped.not_silent {Γ : Env} {e : Expr} (typed : e.WellTyped Γ) (h : e.ty ≠ .void) :
    e.silent = false := by
  cases hs : e.silent with
  | false => rfl
  | true => exact absurd (typed.ty_of_silent hs) h

/-- No variable and no parameter is of type `void`. -/
structure Env.NoVoid (Γ : Env) : Prop where
  locals : ∀ ty ∈ Γ.locals, ty ≠ .void
  globals : ∀ ty ∈ Γ.globals, ty ≠ .void
  params : ∀ sig ∈ Γ.signatures, ∀ ty ∈ sig.params, ty ≠ .void

/-- No variable of the program, and so no parameter, is of type `void`. -/
structure Program.NoVoid (p : Program) : Prop where
  globals : ∀ g ∈ p.globals, g.ty ≠ .void
  locals : ∀ f ∈ p.functions, ∀ ty ∈ f.localTypes, ty ≠ .void

theorem castable_void {ty : Ty} (h : castable ty .void = true) : ty = .void := by
  cases ty <;> first | rfl | simp [castable, Ty.isNumeric, Ty.isInteger, Ty.intType?,
    Ty.isFloat] at h

theorem castable_of_void {ty : Ty} (h : castable .void ty = true) : ty = .void := by
  cases ty <;> first | rfl | simp [castable, Ty.isNumeric, Ty.isInteger, Ty.intType?,
    Ty.isFloat] at h

theorem unaryAllowed_void (op : UnaryOp) : unaryAllowed op .void = false := by
  cases op <;> rfl

theorem operandAllowed_void (op : BinaryOp) : operandAllowed op .void = false := by
  cases op <;> rfl

theorem Env.NoVoid.ne_void {Γ : Env} (hΓ : Γ.NoVoid) {b : Binding} {ty : Ty}
    (h : Γ.type? b = some ty) : ty ≠ .void := by
  cases b with
  | «local» slot => exact hΓ.locals ty (List.mem_of_getElem? h)
  | «global» id => exact hΓ.globals ty (List.mem_of_getElem? h)

/-- Without variables of type `void`, every expression of this type is silent. -/
theorem Expr.WellTyped.silent_of_ty {Γ : Env} (hΓ : Γ.NoVoid) : ∀ {e : Expr}, e.WellTyped Γ →
    e.ty = .void → e.silent = true
  | .literal i v, typed, h => absurd h typed.2
  | .variable i b, typed, h => absurd h (hΓ.ne_void typed)
  | .unary i op e, typed, h => by
    obtain ⟨_, allowed, hty⟩ := typed
    rw [← hty, show i.ty = .void from h, unaryAllowed_void] at allowed
    cases allowed
  | .binary i op l r, typed, h => by
    obtain ⟨_, _, _, allowed, hty⟩ := typed
    rw [show i.ty = .void from h] at hty
    unfold resultType at hty
    by_cases hop : op.isComparison = true
    · rw [if_pos hop] at hty
      cases hty
    · rw [if_neg hop] at hty
      rw [← hty, operandAllowed_void] at allowed
      cases allowed
  | .cast i e, typed, h => by
    obtain ⟨he, hcast⟩ := typed
    have hi : i.ty = .void := h
    rw [hi] at hcast
    have hty := castable_void hcast
    rw [Expr.silent, hty, hi, he.silent_of_ty hΓ hty]
    rfl
  | .ternary i c y n, typed, h => by
    obtain ⟨_, hy, _, _, _, hty⟩ := typed
    rw [Expr.silent, hy.silent_of_ty hΓ (hty.symm.trans h)]
    rfl
  | .call i f args, _, h => beq_iff_eq.2 h

mutual

/-- Without variables of type `void`, what is well typed is balanced. -/
theorem Expr.WellTyped.balanced {Γ : Env} (hΓ : Γ.NoVoid) : ∀ {e : Expr}, e.WellTyped Γ → e.Balanced
  | .literal _ _, _ => trivial
  | .variable _ _, _ => trivial
  | .unary i op e, typed => by
    obtain ⟨he, allowed, _⟩ := typed
    refine ⟨he.balanced hΓ, he.not_silent fun hty => ?_⟩
    rw [hty, unaryAllowed_void] at allowed
    cases allowed
  | .binary i op l r, typed => by
    obtain ⟨hl, hr, same, allowed, _⟩ := typed
    have hne : l.ty ≠ .void := by
      intro hty
      rw [hty, operandAllowed_void] at allowed
      cases allowed
    exact ⟨⟨hl.balanced hΓ, hl.not_silent hne⟩, hr.balanced hΓ, hr.not_silent (same ▸ hne)⟩
  | .cast i e, typed => by
    obtain ⟨he, hcast⟩ := typed
    refine ⟨he.balanced hΓ, fun hne => he.not_silent fun hty => ?_⟩
    rw [hty] at hcast hne
    exact hne (castable_of_void hcast).symm
  | .ternary i c y n, typed => by
    obtain ⟨hc, hy, hn, isBool, _, _⟩ := typed
    refine ⟨⟨hc.balanced hΓ, hc.not_silent fun hty => ?_⟩, hy.balanced hΓ, hn.balanced hΓ⟩
    rw [isBool] at hty
    cases hty
  | .call i id args, typed => by
    refine argsWellTyped_balanced hΓ typed.1 fun e he => ?_
    exact hΓ.params _ (List.mem_of_getElem? typed.2) e.ty (List.mem_map_of_mem he)

theorem argsWellTyped_balanced {Γ : Env} (hΓ : Γ.NoVoid) : ∀ {es : List Expr}, argsWellTyped Γ es →
    (∀ e ∈ es, e.ty ≠ .void) → argsBalanced es
  | [], _, _ => trivial
  | e :: _, typed, hne =>
    ⟨⟨typed.1.balanced hΓ, typed.1.not_silent (hne e List.mem_cons_self)⟩,
      argsWellTyped_balanced hΓ typed.2 fun e' he' => hne e' (List.mem_cons_of_mem e he')⟩

end

mutual

/-- No operand in the statement is silent, and nothing silent is stored or returned. -/
def Stmt.Balanced : Stmt → Prop
  | .block _ body => stmtsBalanced body
  | .assign _ _ e => e.Valued
  | .expr _ e => e.Balanced
  | .cond _ branches => branches.Balanced
  | .while _ c body => c.Valued ∧ stmtsBalanced body
  | .loop _ body => stmtsBalanced body
  | .for _ _ _ a z body => a.Valued ∧ z.Valued ∧ stmtsBalanced body
  | .ret _ none => True
  | .ret _ (some e) => e.Valued
  | .break _ => True
  | .continue _ => True

def Branches.Balanced : Branches → Prop
  | .none => True
  | .otherwise body => stmtsBalanced body
  | .branch c body rest => c.Valued ∧ stmtsBalanced body ∧ rest.Balanced

def stmtsBalanced : List Stmt → Prop
  | [] => True
  | s :: ss => s.Balanced ∧ stmtsBalanced ss

end

end ScriptLang.Bound

namespace ScriptLang.Code

open ScriptLang.Bound (Binding Branches Env Expr Stmt)

/-! ### Operands along code -/

/-- How many values a call of a function with this result pushes. -/
def results (ret : Ty) : Nat := if ret = .void then 0 else 1

/-- The function that code belongs to: what it can call, what it returns, and how many variables it
has.  Numbers of operands are `exact`, or there may be more. -/
structure Site where
  program : Bound.Program
  ret : Ty
  slots : Nat
  exact : Bool

variable (s : Site) (heights : Nat → Nat)

/-- From `h` operands on, the operation leads to `h'` operands, or to any number if the run does not
go on behind it.  At labels there are as many as `heights` says.  With exact numbers, a value that a
function without result returns is one that is missing. -/
def Shifts (op : Op) (h h' : Nat) : Prop :=
  match op with
  | .pushConst _ | .pushGlobal _ => h' = h + 1
  | .pushLocal slot => slot < s.slots ∧ h' = h + 1
  | .popLocal _ | .popGlobal _ | .pop => h = h' + 1
  | .unary _ | .cast _ => 0 < h ∧ h' = h
  | .binary _ => 1 < h ∧ h = h' + 1
  | .call name argc | .callNative name argc =>
    ∃ f ∈ s.program.functions, f.name = name ∧ argc ≤ h ∧ h' = h - argc + results f.ret
  | .ret true => if s.exact = true ∧ s.ret = .void then h = 0 else 0 < h
  | .ret false => s.ret = .void
  | .jump l => heights l = h
  | .jumpIfFalse l | .jumpIfTrue l => h = h' + 1 ∧ heights l = h'
  | .label l => heights l = h ∧ h' = h

/-- From `h` operands on, code leads to `h'` operands at its end.  Unless numbers are exact,
operands may be left over. -/
inductive Fits : Nat → List Instruction → Nat → Prop where
  | nil (h : Nat) : Fits h [] h
  | cons {i : Instruction} {code : List Instruction} {h h₁ h' : Nat}
      (first : Shifts s heights i.op h h₁) (rest : Fits h₁ code h') : Fits h (i :: code) h'
  | weaken {code : List Instruction} {h h₁ h' : Nat} (loose : s.exact = false) (hle : h₁ ≤ h)
      (rest : Fits h₁ code h') : Fits h code h'

variable {s heights}

theorem Fits.append {a b : List Instruction} {h h₁ h' : Nat} (ha : Fits s heights h a h₁)
    (hb : Fits s heights h₁ b h') : Fits s heights h (a ++ b) h' := by
  induction ha with
  | nil h => exact hb
  | cons first rest ih => exact .cons first (ih hb)
  | weaken loose hle rest ih => exact .weaken loose hle (ih hb)

/-- There are at least `h` operands, or just as many if numbers are exact. -/
def Counts (exact : Bool) (n h : Nat) : Prop := h ≤ n ∧ (exact = true → n = h)

theorem Counts.trans {exact : Bool} {n h h₁ : Nat} (hn : Counts exact n h)
    (hh : Counts exact h h₁) :
    Counts exact n h₁ :=
  ⟨Nat.le_trans hh.1 hn.1, fun he => (hn.2 he).trans (hh.2 he)⟩

theorem counts_add_iff {exact : Bool} {n h : Nat} (k : Nat) :
    Counts exact (n + k) (h + k) ↔ Counts exact n h := by
  unfold Counts
  simp

theorem counts_add_left_iff {exact : Bool} {n h : Nat} (k : Nat) :
    Counts exact (k + n) (k + h) ↔ Counts exact n h := by
  rw [Nat.add_comm k, Nat.add_comm k, counts_add_iff]

theorem Counts.sub {exact : Bool} {n h : Nat} (hn : Counts exact n h) (k : Nat) :
    Counts exact (n - k) (h - k) :=
  ⟨Nat.sub_le_sub_right hn.1 k, fun he => congrArg (· - k) (hn.2 he)⟩

/-- The first instruction of code that fits `h` operands finds as many as it takes. -/
theorem Fits.uncons {i : Instruction} {code : List Instruction} {h h' : Nat}
    (fits : Fits s heights h (i :: code) h') :
    ∃ h₁ h₂, Counts s.exact h h₁ ∧ Shifts s heights i.op h₁ h₂ ∧ Fits s heights h₂ code h' := by
  generalize hall : i :: code = all at fits
  induction fits with
  | nil h => cases hall
  | @cons _ _ h h₁ h' first rest ih =>
    cases hall
    exact ⟨h, h₁, ⟨Nat.le_refl h, fun _ => rfl⟩, first, rest⟩
  | weaken loose hle rest ih =>
    obtain ⟨h₁, h₂, hcount, first, rest⟩ := ih hall
    refine ⟨h₁, h₂, Counts.trans ⟨hle, fun he => ?_⟩ hcount, first, rest⟩
    rw [loose] at he
    cases he

/-- From every place on, the rest of the code fits some number of operands. -/
theorem Fits.drop {code : List Instruction} {h h' : Nat} (fits : Fits s heights h code h') :
    ∀ pc, ∃ h₁, Fits s heights h₁ (code.drop pc) h' := by
  induction fits with
  | nil h =>
    intro pc
    rw [List.drop_nil]
    exact ⟨h, .nil h⟩
  | cons first rest ih =>
    intro pc
    cases pc with
    | zero => exact ⟨_, .cons first rest⟩
    | succ pc => exact ih pc
  | weaken loose hle rest ih => exact ih

/-! ### Code with labels of its own -/

/-- Code with the labels from `l` up to `l'` fits, for some heights of its own labels, wherever the
heights of other labels are as `outer` says. -/
structure Fitting (s : Site) (outer : (Nat → Nat) → Prop) (l l' h : Nat) (code : List Instruction)
    (h' : Nat) : Prop where
  le : l ≤ l'
  fits : ∃ own : Nat → Nat, ∀ heights : Nat → Nat, (∀ k, l ≤ k → k < l' → heights k = own k) →
    outer heights → Fits s heights h code h'

section

variable {outer : (Nat → Nat) → Prop} {l m l' h h₁ h' : Nat} {a b code : List Instruction}

theorem Fitting.nil (l h : Nat) : Fitting s outer l l h [] h :=
  ⟨Nat.le_refl l, fun _ => 0, fun _ _ _ => .nil h⟩

theorem Fitting.cons {place : Location} {op : Op}
    (first : ∀ heights, outer heights → Shifts s heights op h h₁)
    (rest : Fitting s outer l l' h₁ code h') :
    Fitting s outer l l' h (ins place op :: code) h' := by
  obtain ⟨hle, own, fits⟩ := rest
  exact ⟨hle, own, fun heights agrees ho => .cons (first heights ho) (fits heights agrees ho)⟩

/-- What follows a jump begins with any number of operands. -/
theorem Fitting.jump {place : Location} {k : Label} (next : Nat)
    (target : ∀ heights, outer heights → heights k = h)
    (rest : Fitting s outer l l' next code h') :
    Fitting s outer l l' h (ins place (.jump k) :: code) h' :=
  .cons target rest

theorem Fitting.jumpIfFalse {place : Location} {k : Label}
    (target : ∀ heights, outer heights → heights k = h)
    (rest : Fitting s outer l l' h code h') :
    Fitting s outer l l' (h + 1) (ins place (.jumpIfFalse k) :: code) h' :=
  .cons (fun heights ho => ⟨rfl, target heights ho⟩) rest

theorem Fitting.label {place : Location} {k : Label}
    (here : ∀ heights, outer heights → heights k = h)
    (rest : Fitting s outer l l' h code h') :
    Fitting s outer l l' h (ins place (.label k) :: code) h' :=
  .cons (fun heights ho => ⟨here heights ho, rfl⟩) rest

theorem Fitting.append (ha : Fitting s outer l m h a h₁) (hb : Fitting s outer m l' h₁ b h') :
    Fitting s outer l l' h (a ++ b) h' := by
  obtain ⟨hlm, first, hfirst⟩ := ha
  obtain ⟨hml, second, hsecond⟩ := hb
  refine ⟨Nat.le_trans hlm hml, fun k => if k < m then first k else second k,
    fun heights agrees ho => ?_⟩
  have inFirst : ∀ k, l ≤ k → k < m → heights k = first k := by
    intro k hl hm
    exact (agrees k hl (Nat.lt_of_lt_of_le hm hml)).trans (if_pos hm)
  have inSecond : ∀ k, m ≤ k → k < l' → heights k = second k := by
    intro k hm hl
    exact (agrees k (Nat.le_trans hlm hm) hl).trans (if_neg (Nat.not_lt.2 hm))
  exact (hfirst heights inFirst ho).append (hsecond heights inSecond ho)

/-- Fewer operands may be counted at the end than there are, unless numbers are exact. -/
theorem Fitting.settle (hle : h' ≤ h₁) (hexact : s.exact = true → h' = h₁)
    (ha : Fitting s outer l l' h code h₁) : Fitting s outer l l' h code h' := by
  cases he : s.exact with
  | true =>
    rw [hexact he]
    exact ha
  | false =>
    obtain ⟨hll, own, fits⟩ := ha
    refine ⟨hll, own, fun heights agrees ho => ?_⟩
    have settled := (fits heights agrees ho).append (.weaken he hle (.nil h'))
    rwa [List.append_nil] at settled

/-- Take a label of one's own, and say how many operands there are at it. -/
theorem Fitting.fresh (n : Nat)
    (rest : Fitting s (fun heights => outer heights ∧ heights l = n) (l + 1) l' h code h') :
    Fitting s outer l l' h code h' := by
  obtain ⟨hle, own, fits⟩ := rest
  refine ⟨Nat.le_of_succ_le hle, fun k => if k = l then n else own k, fun heights agrees ho => ?_⟩
  have others : ∀ k, l + 1 ≤ k → k < l' → heights k = own k := by
    intro k hk hk'
    exact (agrees k (Nat.le_of_succ_le hk) hk').trans (if_neg (Nat.ne_of_gt hk))
  have here : heights l = n := by
    exact (agrees l (Nat.le_refl l) hle).trans (if_pos rfl)
  exact fits heights others ⟨ho, here⟩

end

/-! ### Expressions -/

/-- The site has what the environment says. -/
structure Site.Covers (s : Site) (Γ : Env) : Prop where
  signatures : Γ.signatures = s.program.functions.map Bound.Function.signature
  slots : Γ.locals.length ≤ s.slots
  noVoid : s.exact = true → Γ.NoVoid

section

variable {Γ : Env} {outer : (Nat → Nat) → Prop} {l l' h : Nat} {code : List Instruction}

theorem shifts_pushVariable {heights : Nat → Nat} (covers : s.Covers Γ) {b : Binding} {ty : Ty}
    (hb : Γ.type? b = some ty) : Shifts s heights (pushVariable b) h (h + 1) := by
  cases b with
  | «local» slot =>
    obtain ⟨hlt, _⟩ := List.getElem?_eq_some_iff.1 hb
    exact ⟨Nat.lt_of_lt_of_le hlt covers.slots, rfl⟩
  | «global» id => exact rfl

theorem shifts_popVariable {heights : Nat → Nat} (b : Binding) :
    Shifts s heights (popVariable b) (h + 1) h := by
  cases b <;> exact rfl

theorem shifts_callOp {heights : Nat → Nat} {f : Bound.Function} (hf : f ∈ s.program.functions)
    (argc : Nat) : Shifts s heights (callOp f argc) (h + argc) (h + results f.ret) := by
  unfold callOp
  have hshift : h + results f.ret = h + argc - argc + results f.ret := by
    rw [Nat.add_sub_cancel]
  cases f.body <;> exact ⟨f, hf, rfl, Nat.le_add_left argc h, hshift⟩

theorem shortCircuitCode_fitting {place : Location} {decisive : Bool} {m : Nat}
    {a b : List Instruction}
    (ha : ∀ outer, Fitting s outer (l + 2) m h a (h + 1))
    (hb : ∀ outer, Fitting s outer m l' h b (h + 1)) :
    Fitting s outer l l' h (shortCircuitCode place decisive l a b) (h + 1) := by
  unfold shortCircuitCode
  apply Fitting.fresh h
  apply Fitting.fresh (h + 1)
  have decide : Fitting s (fun heights => (outer heights ∧ heights l = h) ∧ heights (l + 1) = h + 1)
      m l' (h + 1) (ins place (if decisive then .jumpIfTrue l else .jumpIfFalse l) :: b)
        (h + 1) := by
    refine .cons (fun heights ho => ?_) (hb _)
    cases decisive
    · exact ⟨rfl, ho.1.2⟩
    · exact ⟨rfl, ho.1.2⟩
  refine ((ha _).append decide).append ?_
  refine .jump h (fun heights ho => ho.2) ?_
  refine .label (fun heights ho => ho.1.2) ?_
  refine .cons (fun heights ho => rfl) ?_
  exact .label (fun heights ho => ho.2) (.nil _ _)

/-- A choice pushes no more than either arm, and just as much if numbers are exact. -/
theorem ternary_pushed {i : Bound.Info} {c y n : Expr} (covers : s.Covers Γ)
    (typed : (Expr.ternary i c y n).WellTyped Γ) :
    ((Expr.ternary i c y n).pushed ≤ y.pushed ∧
        (s.exact = true → (Expr.ternary i c y n).pushed = y.pushed)) ∧
      (Expr.ternary i c y n).pushed ≤ n.pushed ∧
        (s.exact = true → (Expr.ternary i c y n).pushed = n.pushed) := by
  obtain ⟨_, hy, hn, _, same, _⟩ := typed
  have agree : s.exact = true → y.silent = n.silent := by
    intro exact
    have noVoid := covers.noVoid exact
    cases hys : y.silent with
    | true => exact (hn.silent_of_ty noVoid (same.symm.trans (hy.ty_of_silent hys))).symm
    | false =>
      cases hns : n.silent with
      | false => rfl
      | true =>
        rw [hy.silent_of_ty noVoid (same.trans (hn.ty_of_silent hns))] at hys
        cases hys
  unfold Expr.pushed
  rw [Expr.silent]
  cases hys : y.silent with
  | true =>
    refine ⟨⟨Nat.le_refl _, fun _ => rfl⟩, Nat.zero_le _, fun exact => ?_⟩
    rw [← agree exact, hys]
    rfl
  | false =>
    rw [Bool.false_or]
    refine ⟨⟨?_, fun exact => ?_⟩, Nat.le_refl _, fun _ => rfl⟩
    · by_cases hns : n.silent = true
      · rw [if_pos hns]
        exact Nat.zero_le _
      · rw [if_neg hns]
        exact Nat.le_refl _
    · rw [← agree exact, hys]

theorem results_eq_pushed {i : Bound.Info} {id : Nat} {args : List Expr} :
    (Expr.call i id args).pushed = results i.ty := by
  unfold Expr.pushed results
  rw [Expr.silent]
  by_cases h : i.ty = .void
  · rw [if_pos h, if_pos (beq_iff_eq.2 h)]
  · rw [if_neg h, if_neg (mt beq_iff_eq.1 h)]

/-- The code of the expression pushes one value, wherever it stands. -/
def Site.Pushes (s : Site) (e : Expr) : Prop :=
  ∀ (outer : (Nat → Nat) → Prop) (h : Nat) {l l' : Nat} {code : List Instruction},
    (lowerExpr (some s.program) e).run l = .ok (code, l') → Fitting s outer l l' h code (h + 1)

theorem binary_fitting {i : Bound.Info} {op : BinaryOp} {a b : Expr} (ha : s.Pushes a)
    (hb : s.Pushes b)
    (hrun : (lowerExpr (some s.program) (.binary i op a b)).run l = .ok (code, l')) :
    Fitting s outer l l' h code (h + 1) := by
  cases hop : op.isLogical with
  | true =>
    obtain ⟨ca, m, cb, hca, hcb, rfl⟩ := lowerExpr_logical_run_eq hop hrun
    exact shortCircuitCode_fitting (fun _ => ha _ _ hca) fun _ => hb _ _ hcb
  | false =>
    obtain ⟨ca, m, cb, hca, hcb, rfl⟩ := lowerExpr_binary_run_eq hop hrun
    refine ((ha _ _ hca).append (hb _ _ hcb)).append (.cons (fun heights _ => ?_) (.nil _ _))
    exact ⟨Nat.succ_lt_succ (Nat.succ_pos h), rfl⟩

mutual

/-- Balanced code pushes what the expression is worth, and finds its operands. -/
theorem lowerExpr_fitting (covers : s.Covers Γ) : ∀ (e : Expr) (outer : (Nat → Nat) → Prop)
    (h : Nat) {l l' : Nat} {code : List Instruction}, e.WellTyped Γ → e.Balanced →
    (lowerExpr (some s.program) e).run l = .ok (code, l') →
    Fitting s outer l l' h code (h + e.pushed)
  | .literal i v, outer, h, l, l', code, typed, balanced, hrun => by
    obtain ⟨rfl, rfl⟩ := lowerExpr_literal_run_eq hrun
    exact .cons (fun heights _ => rfl) (.nil _ _)
  | .variable i b, outer, h, l, l', code, typed, balanced, hrun => by
    obtain ⟨rfl, rfl⟩ := lowerExpr_variable_run_eq hrun
    exact .cons (fun heights _ => shifts_pushVariable covers typed) (.nil _ _)
  | .unary i op e, outer, h, l, l', code, typed, balanced, hrun => by
    obtain ⟨c, hc, rfl⟩ := lowerExpr_unary_run_eq hrun
    have he := lowerExpr_fitting covers e outer h typed.1 balanced.1 hc
    rw [Expr.pushed_of_not_silent balanced.2] at he
    exact he.append (.cons (fun heights _ => ⟨Nat.succ_pos h, rfl⟩) (.nil _ _))
  | .binary i op a b, outer, h, l, l', code, typed, balanced, hrun => by
    obtain ⟨⟨balancedA, valuedA⟩, balancedB, valuedB⟩ := balanced
    refine binary_fitting (fun outer h _ _ _ ha => ?_) (fun outer h _ _ _ hb => ?_) hrun
    · have hfit := lowerExpr_fitting covers a outer h typed.1 balancedA ha
      rwa [Expr.pushed_of_not_silent valuedA] at hfit
    · have hfit := lowerExpr_fitting covers b outer h typed.2.1 balancedB hb
      rwa [Expr.pushed_of_not_silent valuedB] at hfit
  | .cast i e, outer, h, l, l', code, typed, balanced, hrun => by
    obtain ⟨c, hc, rfl⟩ := lowerExpr_cast_run_eq hrun
    have he := lowerExpr_fitting covers e outer h typed.1 balanced.1 hc
    by_cases same : e.ty = i.ty
    · have hpushed : (Expr.cast i e).pushed = e.pushed := by
        unfold Expr.pushed
        rw [Expr.silent, beq_iff_eq.2 same, Bool.true_and]
      rw [if_pos same, hpushed]
      exact he
    · have hpushed : (Expr.cast i e).pushed = 1 := by
        unfold Expr.pushed
        rw [Expr.silent, beq_eq_false_iff_ne.2 same]
        rfl
      rw [Expr.pushed_of_not_silent (balanced.2 same)] at he
      rw [if_neg same, hpushed]
      exact he.append (.cons (fun heights _ => ⟨Nat.succ_pos h, rfl⟩) (.nil _ _))
  | .ternary i c y n, outer, h, l, l', code, typed, balanced, hrun => by
    obtain ⟨cc, m, cy, m', cn, hc, hy, hn, rfl⟩ := lowerExpr_ternary_run_eq hrun
    obtain ⟨⟨leY, eqY⟩, leN, eqN⟩ := ternary_pushed covers typed
    obtain ⟨⟨balancedC, valuedC⟩, balancedY, balancedN⟩ := balanced
    apply Fitting.fresh h
    apply Fitting.fresh (h + (Expr.ternary i c y n).pushed)
    have hfitC (outer) := lowerExpr_fitting covers c outer h typed.1 balancedC hc
    have hfitY (outer) := (lowerExpr_fitting covers y outer h typed.2.1 balancedY hy).settle
      (Nat.add_le_add_left leY h) fun exact => by rw [eqY exact]
    have hfitN (outer) := (lowerExpr_fitting covers n outer h typed.2.2.1 balancedN hn).settle
      (Nat.add_le_add_left leN h) fun exact => by rw [eqN exact]
    rw [Expr.pushed_of_not_silent valuedC] at hfitC
    apply Fitting.append
    · apply Fitting.append
      · exact (hfitC _).append (.jumpIfFalse (fun heights ho => ho.1.2) (hfitY _))
      · exact .jump h (fun heights ho => ho.2) (.label (fun heights ho => ho.1.2) (hfitN _))
    · exact .label (fun heights ho => ho.2) (.nil _ _)
  | .call i id args, outer, h, l, l', code, typed, balanced, hrun => by
    obtain ⟨f, c, hf, hc, rfl⟩ := lowerExpr_call_run_eq hrun
    have hargs := lowerArgs_fitting covers args outer h typed.1 balanced hc
    have hret : f.ret = i.ty := by
      have hsig := typed.2
      rw [covers.signatures, List.getElem?_map, hf] at hsig
      exact congrArg Signature.ret (Option.some.inj hsig)
    rw [results_eq_pushed, ← hret]
    exact hargs.append (.cons (fun heights _ => shifts_callOp (List.mem_of_getElem? hf) _)
      (.nil _ _))

theorem lowerArgs_fitting (covers : s.Covers Γ) : ∀ (es : List Expr) (outer : (Nat → Nat) → Prop)
    (h : Nat) {l l' : Nat} {code : List Instruction}, Bound.argsWellTyped Γ es →
    Bound.argsBalanced es →
    (lowerArgs (some s.program) es).run l = .ok (code, l') →
    Fitting s outer l l' h code (h + es.length)
  | [], outer, h, l, l', code, typed, balanced, hrun => by
    obtain ⟨rfl, rfl⟩ := lowerArgs_nil_run_eq hrun
    exact .nil _ _
  | e :: es, outer, h, l, l', code, typed, balanced, hrun => by
    obtain ⟨c, m, cs, hc, hcs, rfl⟩ := lowerArgs_cons_run_eq hrun
    have he := lowerExpr_fitting covers e outer h typed.1 balanced.1.1 hc
    have hes := lowerArgs_fitting covers es outer (h + 1) typed.2 balanced.2 hcs
    rw [Expr.pushed_of_not_silent balanced.1.2] at he
    rw [Nat.add_assoc, Nat.add_comm 1] at hes
    exact he.append hes

end

end

/-! ### Statements -/

section

variable {Γ : Env} {stores : Binding → Expr → Prop}

theorem pushes_of_valued (covers : s.Covers Γ) {e : Expr} (typed : e.WellTyped Γ)
    (valued : e.Valued) :
    s.Pushes e := by
  intro outer h l l' code hrun
  have hfit := lowerExpr_fitting covers e outer h typed valued.1 hrun
  rwa [Expr.pushed_of_not_silent valued.2] at hfit

/-- Where numbers are exact, an expression that is not of type `void` can be an operand. -/
theorem valued_of_typed (covers : s.Covers Γ) {e : Expr} (typed : e.WellTyped Γ)
    (hty : s.exact = true → e.ty ≠ .void) (loose : s.exact = false → e.Valued) : e.Valued := by
  cases exact : s.exact with
  | false => exact loose exact
  | true => exact ⟨typed.balanced (covers.noVoid exact), typed.not_silent (hty exact)⟩

theorem ne_void_of_bool {e : Expr} (h : e.ty = .bool) : e.ty ≠ .void := by
  rw [h]
  exact nofun

/-- What may be assigned: what binding lets pass, and with exact numbers only what fits. -/
def Site.Assigns (s : Site) (Γ : Env) (stores : Binding → Expr → Prop) : Prop :=
  ∀ target e, stores target e → Bound.BinderStores Γ target e ∧
    (s.exact = true → Bound.Stores Γ target e)

theorem stored_pushes (covers : s.Covers Γ) (assigns : s.Assigns Γ stores) {target : Binding}
    {e : Expr}
    (stored : stores target e) (loose : s.exact = false → e.Valued) : s.Pushes e := by
  obtain ⟨bound, exactly⟩ := assigns target e stored
  cases exact : s.exact with
  | true =>
    obtain ⟨typed, hty⟩ := exactly exact
    have noVoid := covers.noVoid exact
    exact pushes_of_valued covers typed ⟨typed.balanced noVoid,
      typed.not_silent (noVoid.ne_void hty)⟩
  | false =>
    have valued := loose exact
    obtain ⟨typed, _⟩ | ⟨i, op, v, operand, rfl, hty, _, _, typed⟩ := bound
    · exact pushes_of_valued covers typed valued
    · intro outer h l l' code hrun
      have target : (Expr.variable v target).WellTyped Γ := hty
      exact binary_fitting (pushes_of_valued covers target ⟨trivial, rfl⟩)
        (pushes_of_valued covers typed valued.1.2) hrun

/-- The innermost loop is left and repeated without operands. -/
def Loops (outer : (Nat → Nat) → Prop) (loop : Option LoopLabels) : Prop :=
  ∀ labels, loop = some labels → ∀ heights, outer heights →
    heights labels.continueTo = 0 ∧ heights labels.breakTo = 0

/-- What is before the body of a counted loop: the first value, the limit and the test. -/
theorem forTest_fitting (covers : s.Covers Γ) {outer : (Nat → Nat) → Prop} {place : Location}
    {l m l' top done var limit : Nat} {ty ty' : Ty} {a z : List Instruction}
    (hvar : Γ.type? (.local var) = some ty) (hlimit : Γ.type? (.local limit) = some ty')
    (htop : ∀ heights, outer heights → heights top = 0)
    (hdone : ∀ heights, outer heights → heights done = 0)
    (ha : Fitting s outer l m 0 a 1) (hz : Fitting s outer m l' 0 z 1) :
    Fitting s outer l l' 0
      (a ++ ins place (.popLocal var) :: z ++
        [ins place (.popLocal limit), ins place (.label top), ins place (.pushLocal var),
          ins place (.pushLocal limit), ins place (.binary .lt),
            ins place (.jumpIfFalse done)]) 0 := by
  have stop : Fitting s outer m l' 1 (ins place (.popLocal var) :: z) 1 :=
    .cons (fun heights _ => rfl) hz
  refine (ha.append stop).append (.cons (fun heights _ => rfl) (.label htop ?_))
  refine .cons (fun heights _ => shifts_pushVariable covers hvar) ?_
  refine .cons (fun heights _ => shifts_pushVariable covers hlimit) ?_
  refine .cons (fun heights _ => ⟨Nat.one_lt_two, rfl⟩) ?_
  exact .jumpIfFalse hdone (.nil _ 0)

/-- What is behind the body of a counted loop. -/
theorem forStep_fitting (covers : s.Covers Γ) {outer : (Nat → Nat) → Prop} {place : Location}
    {l step top done var : Nat} {ty : Ty} {one : Value}
    (hvar : Γ.type? (.local var) = some ty)
    (hstep : ∀ heights, outer heights → heights step = 0)
    (htop : ∀ heights, outer heights → heights top = 0)
    (hdone : ∀ heights, outer heights → heights done = 0) :
    Fitting s outer l l 0
      [ins place (.label step), ins place (.pushLocal var), ins place (.pushConst one),
        ins place (.binary .add), ins place (.popLocal var), ins place (.jump top),
        ins place (.label done)] 0 := by
  refine .label hstep (.cons (fun heights _ => shifts_pushVariable covers hvar) ?_)
  refine .cons (fun heights _ => rfl) (.cons (fun heights _ => ⟨Nat.one_lt_two, rfl⟩) ?_)
  exact .cons (fun heights _ => rfl) (.jump 0 htop (.label hdone (.nil _ 0)))

mutual

/-- A statement takes no operands and leaves none. -/
theorem lowerStmt_fitting (covers : s.Covers Γ) (assigns : s.Assigns Γ stores) :
    ∀ (st : Stmt) (outer : (Nat → Nat) → Prop) {inLoop : Bool} {loop : Option LoopLabels}
    {l l' : Nat}
      {code : List Instruction}, st.Typed stores Γ s.ret inLoop → (s.exact = false → st.Balanced) →
      Loops outer loop → (lowerStmt s.program loop st).run l = .ok (code, l') →
      Fitting s outer l l' 0 code 0
  | .block _ body, outer, inLoop, loop, l, l', code, typed, loose, loops, hrun =>
    lowerStmts_fitting covers assigns body outer typed loose loops hrun
  | .assign _ target e, outer, inLoop, loop, l, l', code, typed, loose, loops, hrun => by
    obtain ⟨c, hc, rfl⟩ := lowerStmt_assign_run_eq hrun
    have he := stored_pushes covers assigns typed loose outer 0 hc
    exact he.append (.cons (fun heights _ => shifts_popVariable target) (.nil _ _))
  | .expr _ e, outer, inLoop, loop, l, l', code, typed, loose, loops, hrun => by
    obtain ⟨c, hc, rfl⟩ := lowerStmt_expr_run_eq hrun
    have balanced : e.Balanced := by
      cases exact : s.exact with
      | false => exact loose exact
      | true => exact Expr.WellTyped.balanced (covers.noVoid exact) typed
    have he := lowerExpr_fitting covers e outer 0 typed balanced hc
    by_cases hty : e.ty = .void
    · rw [if_pos hty]
      refine he.settle (Nat.zero_le _) fun exact => ?_
      rw [Expr.pushed_of_silent (Expr.WellTyped.silent_of_ty (covers.noVoid exact) typed hty)]
    · rw [if_neg hty]
      rw [Expr.pushed_of_not_silent (typed.not_silent hty)] at he
      exact he.append (.cons (fun heights _ => rfl) (.nil _ _))
  | .cond _ branches, outer, inLoop, loop, l, l', code, typed, loose, loops, hrun => by
    obtain ⟨c, hc, rfl⟩ := lowerStmt_cond_run_eq hrun
    apply Fitting.fresh 0
    have hbranches := lowerBranches_fitting covers assigns branches
      (fun heights => outer heights ∧ heights l = 0) typed loose
      (fun labels hl heights ho => loops labels hl heights ho.1) (fun heights ho => ho.2) hc
    exact hbranches.append (.label (fun heights ho => ho.2) (.nil _ _))
  | .while _ c body, outer, inLoop, loop, l, l', code, typed, loose, loops, hrun => by
    obtain ⟨cc, m, cb, hc, hb, rfl⟩ := lowerStmt_while_run_eq hrun
    obtain ⟨typedC, isBool, typedB⟩ := typed
    have valued := valued_of_typed covers typedC (fun _ => ne_void_of_bool isBool)
      fun exact => (loose exact).1
    apply Fitting.fresh 0
    apply Fitting.fresh 0
    have hbody := lowerStmts_fitting covers assigns body
      (fun heights => (outer heights ∧ heights l = 0) ∧ heights (l + 1) = 0) typedB
      (fun exact => (loose exact).2)
        (fun labels hl heights ho => by cases hl; exact ⟨ho.1.2, ho.2⟩) hb
    apply Fitting.append
    · apply Fitting.append
      · exact .label (fun heights ho => ho.1.2) (pushes_of_valued covers typedC valued _ 0 hc)
      · exact .jumpIfFalse (fun heights ho => ho.2) hbody
    · exact .jump 0 (fun heights ho => ho.1.2) (.label (fun heights ho => ho.2) (.nil _ _))
  | .loop _ body, outer, inLoop, loop, l, l', code, typed, loose, loops, hrun => by
    obtain ⟨cb, hb, rfl⟩ := lowerStmt_loop_run_eq hrun
    apply Fitting.fresh 0
    apply Fitting.fresh 0
    have hbody := lowerStmts_fitting covers assigns body
      (fun heights => (outer heights ∧ heights l = 0) ∧ heights (l + 1) = 0) typed loose
      (fun labels hl heights ho => by cases hl; exact ⟨ho.1.2, ho.2⟩) hb
    apply (Fitting.label (fun heights ho => ho.1.2) hbody).append
    exact .jump 0 (fun heights ho => ho.1.2) (.label (fun heights ho => ho.2) (.nil _ _))
  | .for _ var limit a z body, outer, inLoop, loop, l, l', code, typed, loose, loops, hrun => by
    obtain ⟨ca, m, cz, m', cb, ha, hz, hb, rfl⟩ := lowerStmt_for_run_eq hrun
    obtain ⟨typedA, typedZ, same, integer, hvar, hlimit, typedB⟩ := typed
    have notVoid : a.ty ≠ .void := by
      intro hty
      rw [hty] at integer
      cases integer
    have valuedA := valued_of_typed covers typedA (fun _ => notVoid) fun exact => (loose exact).1
    have valuedZ := valued_of_typed covers typedZ (fun _ => same ▸ notVoid)
      fun exact => (loose exact).2.1
    apply Fitting.fresh 0
    apply Fitting.fresh 0
    apply Fitting.fresh 0
    have hbody := lowerStmts_fitting covers assigns body
      (fun heights => ((outer heights ∧ heights l = 0) ∧ heights (l + 1) = 0) ∧ heights (l + 2) = 0)
      typedB (fun exact => (loose exact).2.2)
      (fun labels hl heights ho => by cases hl; exact ⟨ho.1.2, ho.2⟩) hb
    apply Fitting.append
    · apply Fitting.append
      · exact forTest_fitting covers hvar hlimit (fun heights ho => ho.1.1.2)
          (fun heights ho => ho.2)
          (pushes_of_valued covers typedA valuedA _ 0 ha)
            (pushes_of_valued covers typedZ valuedZ _ 0 hz)
      · exact hbody
    · exact forStep_fitting covers hvar (fun heights ho => ho.1.2) (fun heights ho => ho.1.1.2)
        fun heights ho => ho.2
  | .ret _ none, outer, inLoop, loop, l, l', code, typed, loose, loops, hrun => by
    obtain ⟨rfl, rfl⟩ := lowerStmt_ret_none_run_eq hrun
    exact .cons (fun heights _ => typed) (.nil _ 0)
  | .ret _ (some e), outer, inLoop, loop, l, l', code, typed, loose, loops, hrun => by
    obtain ⟨c, hc, rfl⟩ := lowerStmt_ret_some_run_eq hrun
    obtain ⟨typedE, hret⟩ := typed
    by_cases hexact : s.exact = true ∧ s.ret = .void
    · have noVoid := covers.noVoid hexact.1
      have he := lowerExpr_fitting covers e outer 0 typedE (typedE.balanced noVoid) hc
      have silent := typedE.silent_of_ty noVoid (hret.trans hexact.2)
      refine he.append (.cons (fun heights _ => ?_) (.nil _ 0))
      rw [Expr.pushed_of_silent silent]
      unfold Shifts
      exact (if_pos hexact).mpr rfl
    · have valued := valued_of_typed covers typedE
        (fun exact hty => hexact ⟨exact, hret.symm.trans hty⟩) loose
      have he := pushes_of_valued covers typedE valued outer 0 hc
      refine he.append (.cons (fun heights _ => ?_) (.nil _ 0))
      unfold Shifts
      exact (if_neg hexact).mpr Nat.one_pos
  | .break _, outer, inLoop, loop, l, l', code, typed, loose, loops, hrun => by
    rw [lowerStmt] at hrun
    obtain ⟨rfl, labels, hl, rfl⟩ := loopTarget_run_eq hrun
    exact .jump 0 (fun heights ho => (loops labels hl heights ho).2) (.nil _ 0)
  | .continue _, outer, inLoop, loop, l, l', code, typed, loose, loops, hrun => by
    rw [lowerStmt] at hrun
    obtain ⟨rfl, labels, hl, rfl⟩ := loopTarget_run_eq hrun
    exact .jump 0 (fun heights ho => (loops labels hl heights ho).1) (.nil _ 0)

theorem lowerBranches_fitting (covers : s.Covers Γ) (assigns : s.Assigns Γ stores) :
    ∀ (bs : Branches) (outer : (Nat → Nat) → Prop) {inLoop : Bool} {loop : Option LoopLabels}
      {place : Location} {done l l' : Nat} {code : List Instruction},
      bs.Typed stores Γ s.ret inLoop → (s.exact = false → bs.Balanced) → Loops outer loop →
      (∀ heights, outer heights → heights done = 0) →
      (lowerBranches s.program loop place done bs).run l = .ok (code, l') →
      Fitting s outer l l' 0 code 0
  | .none, outer, inLoop, loop, place, done, l, l', code, typed, loose, loops, hdone, hrun => by
    obtain ⟨rfl, rfl⟩ := lowerBranches_none_run_eq hrun
    exact .nil _ 0
  | .otherwise body, outer, inLoop, loop, place, done, l, l', code, typed, loose, loops,
    hdone, hrun =>
    lowerStmts_fitting covers assigns body outer typed loose loops hrun
  | .branch c body rest, outer, inLoop, loop, place, done, l, l', code, typed, loose, loops, hdone,
      hrun => by
    obtain ⟨cc, m, cb, m', cr, hc, hb, hr, rfl⟩ := lowerBranches_branch_run_eq hrun
    obtain ⟨typedC, isBool, typedB, typedR⟩ := typed
    have valued := valued_of_typed covers typedC (fun _ => ne_void_of_bool isBool)
      fun exact => (loose exact).1
    apply Fitting.fresh 0
    have inner : Loops (fun heights => outer heights ∧ heights l = 0) loop :=
      fun labels hl heights ho => loops labels hl heights ho.1
    have hbody := lowerStmts_fitting covers assigns body _ typedB (fun exact => (loose exact).2.1)
      inner hb
    have hrest := lowerBranches_fitting covers assigns rest _ typedR
      (fun exact => (loose exact).2.2)
      inner (fun heights ho => hdone heights ho.1) hr
    apply Fitting.append
    · apply (pushes_of_valued covers typedC valued _ 0 hc).append
      exact .jumpIfFalse (fun heights ho => ho.2) hbody
    · exact .jump 0 (fun heights ho => hdone heights ho.1) (.label (fun heights ho => ho.2) hrest)

theorem lowerStmts_fitting (covers : s.Covers Γ) (assigns : s.Assigns Γ stores) :
    ∀ (ss : List Stmt) (outer : (Nat → Nat) → Prop) {inLoop : Bool} {loop : Option LoopLabels}
      {l l' : Nat} {code : List Instruction}, Bound.stmtsTyped stores Γ s.ret inLoop ss →
      (s.exact = false → Bound.stmtsBalanced ss) → Loops outer loop →
      (lowerStmts s.program loop ss).run l = .ok (code, l') → Fitting s outer l l' 0 code 0
  | [], outer, inLoop, loop, l, l', code, typed, loose, loops, hrun => by
    obtain ⟨rfl, rfl⟩ := lowerStmts_nil_run_eq hrun
    exact .nil _ 0
  | st :: ss, outer, inLoop, loop, l, l', code, typed, loose, loops, hrun => by
    obtain ⟨c, m, cs, hc, hcs, rfl⟩ := lowerStmts_cons_run_eq hrun
    have first := lowerStmt_fitting covers assigns st outer typed.1 (fun exact => (loose exact).1)
      loops hc
    have rest := lowerStmts_fitting covers assigns ss outer typed.2 (fun exact => (loose exact).2)
      loops hcs
    exact first.append rest

end

end

end ScriptLang.Code
