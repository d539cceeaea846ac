import Mathlib.Logic.Relation
import ScriptLang.Proofs.ResolvedPrograms
import ScriptLang.Proofs.ScopeAgreement

/-!
# Which errors are reported

A body is bound part by part, each part in the scope of its statement (`Inside`).  What is wrong
with a part that is bound by itself in that scope is reported for the program, whatever else is
wrong with it (`errors_reported`).  Two kinds of parts are never bound: the branches behind a
condition that fails, and the body of a counted loop whose bounds fail.
-/

namespace ScriptLang.Bound

open Syntax (Ident)

/-! ### Parts of a body -/

/-- What is bound in one go. -/
inductive Part where
  | statements (ss : List Syntax.Stmt)
  | statement (s : Syntax.Stmt)
  | block (body : Syntax.Block)
  | branches (bs : Syntax.Branches)
  | condition (e : Syntax.Expr)
  | bounds (start stop : Syntax.Expr)

/-- Bind the part and report what is wrong with it. -/
def Part.bind : Part → BindM Unit
  | .statements ss => discard (bindStmts ss)
  | .statement s => discard (bindStmt s)
  | .block body => discard (bindBlock body)
  | .branches bs => discard (bindBranches bs)
  | .condition e => discard (attempt (bindCondition e))
  | .bounds start stop => discard (bindBounds start stop)

/-- What is wrong with the part by itself, where the names in scope are those of the state. -/
def Part.errors (part : Part) (b : Binder) : List BindError :=
  (part.bind.run { b with errors := [] }).2.errors

/-- The scope of the body of a counted loop. -/
def Binder.counting (b : Binder) (var : String) (ty : Ty) : Binder :=
  let entered := ((declareLocal "$limit" ty true).run { b with scopes := [] :: b.scopes }).2
  { ((declareLocal var ty false).run entered).2 with loopDepth := b.loopDepth + 1 }

/-- The second part is bound in the course of binding the first, and what its names mean is given
with it.  Nothing counts of what else is in the statement, but for a condition that decides whether
the next one is bound, and for bounds that decide whether the body is. -/
inductive Inside : Part × Binder → Part × Binder → Prop where
  | first {s ss b} : Inside (.statements (s :: ss), b) (.statement s, b)
  | next {s ss b} : Inside (.statements (s :: ss), b) (.statements ss, ((bindStmt s).run b).2)
  | stmts {node ss b} :
    Inside (.block (.mk node ss), b) (.statements ss, { b with scopes := [] :: b.scopes })
  | inner {node body b} : Inside (.statement (.block node body), b) (.block body, b)
  | choice {node bs b} : Inside (.statement (.cond node bs), b) (.branches bs, b)
  | condition {cond body rest b} :
    Inside (.branches (.branch cond body rest), b) (.condition cond, b)
  | taken {cond body rest b} : Inside (.branches (.branch cond body rest), b) (.block body, b)
  | others {cond body rest b c} (binds : ((bindCondition cond).run.run b).1 = .ok c) :
    Inside (.branches (.branch cond body rest), b) (.branches rest, b)
  | otherwise {body b} : Inside (.branches (.otherwise body), b) (.block body, b)
  | whileCondition {node cond body b} :
    Inside (.statement (.while node cond body), b) (.condition cond, b)
  | whileBody {node cond body b} : Inside (.statement (.while node cond body), b)
      (.block body, { b with loopDepth := b.loopDepth + 1 })
  | loopBody {node body b} : Inside (.statement (.loop node body), b)
      (.block body, { b with loopDepth := b.loopDepth + 1 })
  | forBounds {node var start stop body b} :
    Inside (.statement (.for node var start stop body), b) (.bounds start stop, b)
  | forBody {node var start stop body b a z}
      (binds : ((bindBounds start stop).run b).1 = some (a, z)) :
    Inside (.statement (.for node var start stop body), b) (.block body, b.counting var.name a.ty)

/-! ### Errors of parts are errors of the whole -/

theorem Part.bind_alike (part : Part) : Alike 1 (fun _ _ => True) part.bind part.bind := by
  cases part with
  | statements ss => exact (bindStmts_alike ss).bind fun _ _ _ => .pure trivial
  | statement s => exact (bindStmt_alike s).bind fun _ _ _ => .pure trivial
  | block body => exact (bindBlock_alike body).inside.bind fun _ _ _ => .pure trivial
  | branches bs => exact (bindBranches_alike bs).inside.bind fun _ _ _ => .pure trivial
  | condition e => exact (bindCondition_alike e).attempt.inside.bind fun _ _ _ => .pure trivial
  | bounds start stop => exact (bindBounds_alike start stop).inside.bind fun _ _ _ => .pure trivial

theorem exists_of_forall₂ {α β : Type} {R : α → β → Prop} {as : List α} {bs : List β}
    (h : List.Forall₂ R as bs) {a : α} (inside : a ∈ as) : ∃ b ∈ bs, R a b := by
  induction h with
  | nil => cases inside
  | @cons a' b' as bs related _ ih =>
    rcases List.mem_cons.1 inside with rfl | inside
    · exact ⟨b', List.mem_cons_self, related⟩
    · obtain ⟨b, there, related⟩ := ih inside
      exact ⟨b, List.mem_cons_of_mem _ there, related⟩

/-- What is wrong with a part by itself is reported where it is bound in its context. -/
theorem Part.reported {part : Part} {b b' : Binder} (agrees : Agrees b b') :
    ∀ e ∈ part.errors b, ∃ e' ∈ (part.bind.run b').2.errors, e.Same e' := by
  have alone := agrees.errors [] b'.errors
  obtain ⟨es, es', own, inContext, same⟩ := (part.bind_alike _ _ alone).errors
  intro e wrong
  rw [Part.errors, own] at wrong
  obtain ⟨e', there, sameError⟩ := exists_of_forall₂ same wrong
  exact ⟨e', inContext ▸ List.mem_append_right _ there, sameError⟩

/-- What an expression or a block leaves behind agrees with what was there before. -/
theorem Alike.behind {α : Type} {R : α → α → Prop} {x : BindM α} (h : Alike 0 R x x)
    {b b' : Binder} (agrees : Agrees b b') : Agrees b (x.run b').2 :=
  agrees.trans (h b b' agrees).stays

theorem Agrees.counting {b b' : Binder} (h : Agrees b b') (var : String) (ty : Ty) :
    Agrees (b.counting var ty) (b'.counting var ty) :=
  have limit := (declareLocal_alike "$limit" ty true _ _ h.enter).agrees
  (declareLocal_alike var ty false _ _ limit).agrees.inLoops (congrArg (· + 1) h.loopDepth)

/-- The failure, if it is one. -/
def failure {α : Type} : Except BindError α → List BindError
  | .ok _ => []
  | .error e => [e]

theorem record_errors {α : Type} (r : Except BindError α) (b : Binder) :
    ((record r).run b).2.errors = b.errors ++ failure r := by
  cases r with
  | ok a => exact (List.append_nil _).symm
  | error e => rfl

section

variable (cond : Syntax.Expr) (body : Syntax.Block) (b : Binder)

/-- The errors of a condition are found first and reported last. -/
theorem condition_errors : ((Part.condition cond).bind.run b).2.errors
    = ((bindCondition cond).run.run b).2.errors ++ failure ((bindCondition cond).run.run b).1 :=
  record_errors _ _

theorem while_errors (node : Syntax.Node) :
    ((inLoop (bindBlock body)).run ((bindCondition cond).run.run b).2).2.errors
        ++ failure ((bindCondition cond).run.run b).1
      ⊆ ((bindStmt (.while node cond body)).run b).2.errors := by
  rw [bindStmt, ← record_errors]
  exact List.Subset.refl _

theorem branch_errors (rest : Syntax.Branches) :
    ((bindBlock body).run ((bindCondition cond).run.run b).2).2.errors
        ++ failure ((bindCondition cond).run.run b).1
      ⊆ ((bindBranches (.branch cond body rest)).run b).2.errors := by
  rw [bindBranches, StateT.run_bind]
  cases (bindCondition cond).run.run b with
  | mk r b₁ =>
    cases r with
    | error e => exact List.Subset.refl _
    | ok c => exact List.append_nil _ ▸ (bindBranches_succeeds rest _).1.subset

/-- The other branches are bound if the condition is. -/
theorem others_errors (rest : Syntax.Branches) {c : Expr}
    (binds : ((bindCondition cond).run.run b).1 = .ok c) :
    ((bindBranches (.branch cond body rest)).run b).2.errors
      = ((bindBranches rest).run
          ((bindBlock body).run ((bindCondition cond).run.run b).2).2).2.errors := by
  rw [bindBranches, StateT.run_bind]
  cases run : (bindCondition cond).run.run b with
  | mk r b₁ =>
    rw [run] at binds
    subst binds
    rfl

end

/-- The body of a counted loop is bound if its bounds are. -/
theorem for_errors (node : Syntax.Node) (var : Ident) {start stop : Syntax.Expr}
    (body : Syntax.Block) {a z : Expr} {b b₁ : Binder}
    (run : (bindBounds start stop).run b = (some (a, z), b₁)) :
    ((bindStmt (.for node var start stop body)).run b).2.errors
      = ((bindBlock body).run (b₁.counting var.name a.ty)).2.errors := by
  rw [bindStmt, StateT.run_bind, run]
  rfl

theorem bounds_errors (node : Syntax.Node) (var : Ident) (start stop : Syntax.Expr)
    (body : Syntax.Block) (b : Binder) : ((bindBounds start stop).run b).2.errors
      ⊆ ((bindStmt (.for node var start stop body)).run b).2.errors := by
  cases run : (bindBounds start stop).run b with
  | mk r b₁ =>
    cases r with
    | none =>
      rw [bindStmt, StateT.run_bind, run]
      exact List.Subset.refl _
    | some p =>
      rw [for_errors node var body run]
      exact (bindBlock_succeeds body (b₁.counting var.name p.1.ty)).1.subset

theorem Inside.step {P Q : Part} {b c b' : Binder} (inside : Inside (P, b) (Q, c))
    (agrees : Agrees b b') :
    ∃ c', Agrees c c' ∧ (Q.bind.run c').2.errors ⊆ (P.bind.run b').2.errors := by
  cases inside with
  | @first s ss =>
    refine ⟨b', agrees, ?_⟩
    rw [Part.bind, Part.bind, bindStmts]
    exact (bindStmts_succeeds ss _).1.subset
  | @next s ss =>
    refine ⟨_, (bindStmt_alike s _ _ agrees).agrees, ?_⟩
    rw [Part.bind, Part.bind, bindStmts]
    exact List.Subset.refl _
  | @stmts node ss =>
    refine ⟨_, agrees.enter, ?_⟩
    rw [Part.bind, Part.bind, bindBlock]
    exact List.Subset.refl _
  | @inner node body =>
    refine ⟨_, agrees, ?_⟩
    rw [Part.bind, Part.bind, bindStmt]
    exact List.Subset.refl _
  | @choice node bs =>
    refine ⟨_, agrees, ?_⟩
    rw [Part.bind, Part.bind, bindStmt]
    exact List.Subset.refl _
  | @condition cond body rest =>
    refine ⟨_, agrees, ?_⟩
    have before := (bindBlock_succeeds body ((bindCondition cond).run.run b').2).1.subset
    rw [condition_errors]
    have ⟨inBlock, inCondition⟩ := List.append_subset.1 (branch_errors cond body b' rest)
    exact List.append_subset.2 ⟨List.Subset.trans before inBlock, inCondition⟩
  | @taken cond body rest =>
    refine ⟨_, Alike.behind (bindCondition_alike cond) agrees, ?_⟩
    exact List.Subset.trans (List.subset_append_left _ _) (branch_errors cond body b' rest)
  | @others cond body rest _ c binds =>
    have first := Alike.behind (bindCondition_alike cond) agrees
    refine ⟨_, (bindBlock_alike body).behind first, ?_⟩
    obtain ⟨c', binds'⟩ : ∃ c', ((bindCondition cond).run.run b').1 = .ok c' := by
      have same := (bindCondition_alike cond _ _ agrees).result
      rw [binds] at same
      cases h : ((bindCondition cond).run.run b').1 with
      | ok c' => exact ⟨c', rfl⟩
      | error e => rw [h] at same; cases same
    exact (others_errors cond body b' rest binds').symm ▸ List.Subset.refl _
  | @otherwise body =>
    refine ⟨_, agrees, ?_⟩
    rw [Part.bind, Part.bind, bindBranches]
    exact List.Subset.refl _
  | @whileCondition node cond body =>
    refine ⟨_, agrees, ?_⟩
    have before := (bindBlock_succeeds body
      { ((bindCondition cond).run.run b').2 with
        loopDepth := ((bindCondition cond).run.run b').2.loopDepth + 1 }).1.subset
    rw [condition_errors]
    have ⟨inBody, inCondition⟩ := List.append_subset.1 (while_errors cond body b' node)
    exact List.append_subset.2 ⟨List.Subset.trans before inBody, inCondition⟩
  | @whileBody node cond body =>
    have first := Alike.behind (bindCondition_alike cond) agrees
    refine ⟨_, first.inLoops (congrArg (· + 1) first.loopDepth), ?_⟩
    exact List.Subset.trans (List.subset_append_left _ _) (while_errors cond body b' node)
  | @loopBody node body =>
    refine ⟨_, agrees.inLoops (congrArg (· + 1) agrees.loopDepth), ?_⟩
    rw [Part.bind, Part.bind, bindStmt]
    exact List.Subset.refl _
  | @forBounds node var start stop body =>
    exact ⟨_, agrees, bounds_errors node var start stop body b'⟩
  | @forBody node var start stop body _ a z binds =>
    have first := (bindBounds_alike start stop).behind agrees
    have same := (bindBounds_alike start stop _ _ agrees).result
    rw [binds] at same
    cases run : (bindBounds start stop).run b' with
    | mk r b₁ =>
      rw [run] at same first
      cases same with
      | @some _ p same =>
        have ty : p.1.ty = a.ty := same.1.ty
        refine ⟨_, first.counting var.name a.ty, ?_⟩
        exact ty ▸ (for_errors node var body run).symm ▸ List.Subset.refl _

/-- What is bound in the course of binding a part, and so on, is bound in its context too. -/
theorem reported_of_inside {part : Part} {start : Part × Binder} {b : Binder}
    (inside : Relation.ReflTransGen Inside start (part, b)) {b' : Binder}
    (agrees : Agrees start.2 b') :
    ∀ e ∈ part.errors b, ∃ e' ∈ (start.1.bind.run b').2.errors, e.Same e' := by
  induction inside using Relation.ReflTransGen.head_induction_on generalizing b' with
  | refl => exact Part.reported agrees
  | head first _ ih =>
    obtain ⟨c', agrees', errors⟩ := first.step agrees
    intro e wrong
    obtain ⟨e', there, same⟩ := ih agrees' e wrong
    exact ⟨e', errors there, same⟩

/-! ### Bodies of functions -/

/-- The body that is to be bound for an item. -/
def block? (i : Syntax.Item) : Option Syntax.Block :=
  match i.kind with
  | .function ⟨_, _, _, .block body⟩ => some body
  | _ => none

/-- The body to be bound with the number of its function; there is none if the name of the function
is taken. -/
def bodyOf? (entry : Syntax.Item × Option Nat) : Option (Nat × Syntax.Block) :=
  entry.2.bind fun id => (block? entry.1).map (id, ·)

/-- The numbers of the functions of a program and what is known when the first body is bound. -/
def declarations (p : Syntax.Program) : List (Option Nat) × Binder :=
  (do
    let ids ← declareFunctions p.items
    bindGlobals p.items
    return ids : BindM (List (Option Nat))).run {}

/-- The bodies that are bound, each with the number of its function. -/
def bodies (p : Syntax.Program) : List (Nat × Syntax.Block) :=
  (p.items.zip (declarations p).1).filterMap bodyOf?

/-- What is known where the body of a function begins. -/
def Binder.entering (b : Binder) (f : Function) : Binder :=
  { b with locals := f.locals, ret := f.ret, loopDepth := 0, scopes := [paramScope f.locals] }

theorem bindBodies_eq : ∀ items : List (Syntax.Item × Option Nat),
    bindBodies items = (items.filterMap bodyOf?).forM fun body => bindBody body.1 body.2
  | [] => rfl
  | (i, id) :: items => by
    have rest := bindBodies_eq items
    obtain ⟨node, kind⟩ := i
    cases kind with
    | function f =>
      obtain ⟨name, params, ret, body⟩ := f
      cases id with
      | none => cases body <;> exact rest
      | some id =>
        cases body with
        | block body => exact congrArg (bindBody id body >>= fun _ => ·) rest
        | native _ | intrinsic _ => exact rest
    | _ => cases id <;> exact rest

/-- The errors that are reported in the end. -/
def finalErrors (p : Syntax.Program) : List BindError :=
  (((bodies p).forM fun body => bindBody body.1 body.2).run (declarations p).2).2.errors

theorem bind_of_error {p : Syntax.Program} {e : BindError} (wrong : e ∈ finalErrors p) :
    bind p = .error (finalErrors p) := by
  unfold bind
  extract_lets items work
  have last : (work.run {}).2.errors = finalErrors p := by
    unfold finalErrors bodies
    rw [← bindBodies_eq]
    rfl
  have some : ¬ (finalErrors p).isEmpty := fun none => by
    rw [List.isEmpty_iff.1 none] at wrong
    cases wrong
  split
  next _ b run =>
  rw [run] at last
  rw [show b.errors = finalErrors p from last, if_neg some]

/-! ### Functions that are declared -/

/-- A body that is to be bound is still empty. -/
def Unbound (body : Syntax.FunctionBody) (declared : Body) : Prop :=
  ∀ block, body = .block block → declared = .block []

theorem declaredBody_unbound (body : Syntax.FunctionBody) (place : Location) :
    Reports (declaredBody body place) (Unbound body) := by
  cases body with
  | block body => exact .pure fun _ _ => rfl
  | native symbol => exact .pure fun _ same => nomatch same
  | intrinsic name =>
    unfold declaredBody
    dsimp only
    split
    · exact .pure fun _ same => nomatch same
    · exact (report_reports _ _).bind fun _ _ => .pure fun _ same => nomatch same

/-- The step adds a function with the next number, and nothing else but errors. -/
def Declares (body : Syntax.FunctionBody) (x : BindM (Option Nat)) : Prop :=
  ∀ b, ∃ errors f, Unbound body f.body ∧
    x.run b = (some b.functions.length, { b with errors, functions := b.functions ++ [f] })

theorem Reports.declares_bind {α : Type} {P : α → Prop} {x : BindM α}
    {f : α → BindM (Option Nat)} {body : Syntax.FunctionBody} (hx : Reports x P)
    (hf : ∀ a, P a → Declares body (f a)) : Declares body (x >>= f) := by
  intro b
  obtain ⟨a, errors, run, ha⟩ := hx b
  obtain ⟨errors', f', unbound, run'⟩ := hf a ha { b with errors }
  refine ⟨errors', f', unbound, ?_⟩
  rw [StateT.run_bind, run]
  exact run'

/-- A function is declared with the next number, or its name is taken. -/
theorem declareFunction_run (f : Syntax.Function) (b : Binder) :
    (∃ errors, (declareFunction f).run b = (none, { b with errors })) ∨
      ∃ errors f', Unbound f.body f'.body ∧ (declareFunction f).run b
        = (some b.functions.length, { b with errors, functions := b.functions ++ [f'] }) := by
  unfold declareFunction
  simp only [StateT.run_bind, StateT.run_get, pure_bind]
  split
  · exact .inl ⟨_, rfl⟩
  · refine .inr (Reports.declares_bind (mapM_reports
      (fun p : Syntax.Param => declaredType_reports p.type) f.params) (fun params _ => ?_) b)
    have declared (ret : Ty) (locals : List LocalSlot) : Declares f.body (do
        let body ← declaredBody f.body f.name.token.location
        modifyGet fun b => (some b.functions.length, { b with functions := b.functions ++
          [⟨f.name.name, params, ret, locals, body, f.name.token.location⟩] })) :=
      (declaredBody_unbound f.body _).declares_bind fun body unbound b =>
        ⟨b.errors, _, unbound, rfl⟩
    split
    · exact (declaredType_reports _).declares_bind fun ret _ => declared ret _
    · exact declared .void _

/-- Declare what an item declares, if it is a function. -/
def declareItem (i : Syntax.Item) : BindM (Option Nat) :=
  match i.kind with
  | .function f => declareFunction f
  | _ => return none

theorem declareItem_run (i : Syntax.Item) (b : Binder) :
    (∃ errors, (declareItem i).run b = (none, { b with errors })) ∨
      ∃ errors f', (∀ body, block? i = some body → f'.body = .block []) ∧
        (declareItem i).run b
          = (some b.functions.length, { b with errors, functions := b.functions ++ [f'] }) := by
  obtain ⟨node, kind⟩ := i
  cases kind with
  | function f =>
    refine (declareFunction_run f b).imp_right ?_
    rintro ⟨errors, f', unbound, run⟩
    refine ⟨errors, f', fun body isBody => ?_, run⟩
    obtain ⟨name, params, ret, body'⟩ := f
    cases body' with
    | block block => exact unbound block rfl
    | native _ | intrinsic _ => cases isBody
  | _ => exact .inl ⟨b.errors, rfl⟩

theorem declareFunctions_cons (i : Syntax.Item) (items : List Syntax.Item) (b : Binder) :
    (declareFunctions (i :: items)).run b
      = (((declareItem i).run b).1 :: ((declareFunctions items).run ((declareItem i).run b).2).1,
        ((declareFunctions items).run ((declareItem i).run b).2).2) := by
  unfold declareFunctions
  rw [List.mapM_cons]
  rfl

/-- The numbers of functions that are declared from `n` on: each of another one, and none is bound
yet. -/
structure Numbers (n : Nat) (functions : List Function) (bodies : List (Nat × Syntax.Block)) :
    Prop where
  distinct : (bodies.map Prod.fst).Nodup
  later : ∀ body ∈ bodies, n ≤ body.1
  unbound : ∀ body ∈ bodies, ∃ f, functions[body.1]? = some f ∧ f.body = .block []

theorem declareFunctions_run : ∀ (items : List Syntax.Item) (b : Binder),
    b.functions <+: ((declareFunctions items).run b).2.functions ∧
    Numbers b.functions.length ((declareFunctions items).run b).2.functions
      ((items.zip ((declareFunctions items).run b).1).filterMap bodyOf?)
  | [], b =>
    ⟨List.prefix_rfl, .nil, fun _ inside => (nomatch inside), fun _ inside => (nomatch inside)⟩
  | i :: items, b => by
    rw [declareFunctions_cons, List.zip_cons_cons]
    obtain ⟨errors, run⟩ | ⟨errors, f, unbound, run⟩ := declareItem_run i b
    · rw [run]
      exact declareFunctions_run items { b with errors }
    · rw [run]
      obtain ⟨grown, numbers⟩ :=
        declareFunctions_run items { b with errors, functions := b.functions ++ [f] }
      have longer : (b.functions ++ [f]).length = b.functions.length + 1 := List.length_append
      have later := longer ▸ numbers.later
      refine ⟨(List.prefix_append _ _).trans grown, ?_⟩
      cases block : block? i with
      | none =>
        rw [List.filterMap_cons_none (by rw [bodyOf?, block]; rfl)]
        exact ⟨numbers.distinct, fun body inside => Nat.le_of_succ_le (later body inside),
          numbers.unbound⟩
      | some body =>
        rw [List.filterMap_cons_some (by rw [bodyOf?, block]; rfl)]
        refine ⟨?_, ?_, ?_⟩
        · refine List.nodup_cons.2 ⟨fun inside => ?_, numbers.distinct⟩
          obtain ⟨other, there, same⟩ := List.mem_map.1 inside
          exact absurd (same ▸ later other there) (Nat.not_succ_le_self _)
        · rintro other (_ | ⟨_, inside⟩)
          · exact Nat.le_refl _
          · exact Nat.le_of_succ_le (later other inside)
        · rintro other (_ | ⟨_, inside⟩)
          · refine ⟨f, ?_, unbound body block⟩
            exact getElem?_of_prefix grown (by simp)
          · exact numbers.unbound other inside

theorem bindGlobals_keeps_functions (fs : List Function) (items : List Syntax.Item) :
    Keeps (fun b => b.Sound ∧ fs <+: b.functions) (bindGlobals items) := by
  refine .forM (fun i => ?_) items
  split
  · next decl _ =>
    intro b ⟨sound, before⟩
    refine ⟨bindGlobal_keeps decl b sound, ?_⟩
    unfold bindGlobal
    simp only [StateT.run_bind, StateT.run_get, pure_bind]
    split
    · exact before
    · obtain ⟨r, b', run, ⟨⟨added, functions, -⟩, -⟩, -⟩ := bindDeclaration_yields decl sound.valid
      have grown : fs <+: b'.functions := functions ▸ before.trans (List.prefix_append _ _)
      rw [StateT.run_bind, run]
      cases r <;> exact grown
  · exact .pure _

/-- Before the first body is bound, all is in order. -/
theorem declarations_sound (p : Syntax.Program) :
    (declarations p).2.Sound ∧ Numbers 0 (declarations p).2.functions (bodies p) := by
  obtain ⟨-, numbers⟩ := declareFunctions_run p.items {}
  have sound := declareFunctions_keeps p.items {} sound_empty
  obtain ⟨sound, grown⟩ := bindGlobals_keeps_functions _ p.items _ ⟨sound, List.prefix_rfl⟩
  refine ⟨sound, numbers.distinct, numbers.later, fun body inside => ?_⟩
  obtain ⟨f, here, unbound⟩ := numbers.unbound body inside
  exact ⟨f, getElem?_of_prefix grown here, unbound⟩

/-! ### Body after body -/

/-- The calls that can be made depend on the names of functions and what calls have to know. -/
theorem function?_callable (b : Binder) (name : String) :
    (b.function? name).map (·.2.callable)
      = (b.functions.map fun f => (f.name, f.callable)).lookup name := by
  unfold Binder.function?
  generalize 0 = start
  induction b.functions generalizing start with
  | nil => rfl
  | cons f fs ih =>
    rw [List.zipIdx_cons, List.find?_cons, List.map_cons, List.lookup_cons, Bool.beq_comm]
    cases name == f.name with
    | true => rfl
    | false => exact ih (start + 1)

theorem callable?_eq (b : Binder) (name : String) : b.callable? name
    = ((b.functions.map fun f => (f.name, f.callable)).lookup name).or
      ((Intrinsic.ofName? name).map fun _ => ([.string], .void, true)) := by
  rw [← function?_callable, Binder.callable?]
  cases b.function? name <;> rfl

/-- States with the same globals and the same functions, as far as calls are concerned, agree where
a body begins. -/
theorem agrees_entering {b b' : Binder} (globals : b'.globals = b.globals)
    (callable : ∀ name, b'.callable? name = b.callable? name)
    (known : ∀ name, (b.function? name).isSome → (b'.function? name).isSome)
    (names : (b.functions.map Function.name).Nodup)
    (names' : (b'.functions.map Function.name).Nodup) (f : Function) :
    Agrees (b.entering f) (b'.entering f) := by
  have slots (scope) (inside : scope ∈ [paramScope f.locals]) (entry) (declared : entry ∈ scope) :
      entry.2.slot < f.locals.length :=
    slot_lt_of_mem_paramScope (List.mem_singleton.1 inside ▸ declared)
  exact ⟨rfl, globals, callable, known, rfl, rfl, ⟨slots, names⟩, ⟨slots, names'⟩⟩

/-- What binding a body does. -/
theorem bindBody_run {b : Binder} {id : Nat} {g : Function} (here : b.functions[id]? = some g)
    (block : Syntax.Block) {stmts : List Stmt} {done : Binder}
    (run : (bindStmts block.stmts).run (b.entering g) = (stmts, done)) :
    (bindBody id block).run b = ((), { done with
      functions := done.functions.set id { g with locals := done.locals, body := .block stmts }
      scopes := []
      locals := [] }) := by
  unfold bindBody
  simp only [StateT.run_bind, StateT.run_get, pure_bind, here]
  rw [StateT.run_modify, pure_bind]
  exact congrArg (fun c : List Stmt × Binder => ((), ({ c.2 with
    functions := c.2.functions.set id { g with locals := c.2.locals, body := .block c.1 }
    scopes := []
    locals := [] } : Binder))) run

/-- A function whose body has been bound is called as before. -/
theorem function_set {b : Binder} {id : Nat} {g g' : Function} (here : b.functions[id]? = some g)
    (name : g'.name = g.name) (callable : g'.callable = g.callable) (other : String) :
    let b' := { b with functions := b.functions.set id g' }
    b'.callable? other = b.callable? other ∧
      (b'.function? other).isSome = (b.function? other).isSome := by
  have same : (b.functions.set id g').map (fun f => (f.name, f.callable))
      = b.functions.map fun f => (f.name, f.callable) :=
    map_set_of_eq _ here (Prod.ext name callable)
  constructor
  · rw [callable?_eq, callable?_eq, same]
  · rw [← Option.isSome_map (f := (·.2.callable)), function?_callable, same, ← function?_callable,
      Option.isSome_map]

/-- A body changes nothing for the bodies behind it. -/
theorem bindBody_entering {b : Binder} (names : (b.functions.map Function.name).Nodup) {id : Nat}
    {g : Function} (here : b.functions[id]? = some g) (unbound : g.body = .block [])
    (block : Syntax.Block) :
    (∀ f, Agrees (b.entering f) (((bindBody id block).run b).2.entering f)) ∧
    ∀ k f, k ≠ id → b.functions[k]? = some f →
      ((bindBody id block).run b).2.functions[k]? = some f := by
  have entered := agrees_entering rfl (fun _ => rfl) (fun _ found => found) names names g
  have stays := (bindStmts_alike block.stmts _ _ entered).stays
  obtain ⟨stmts, done, run, grows, valid, -⟩ :=
    bindStmts_yields block.stmts (List.cons_ne_nil _ _) entered.valid
  obtain ⟨added, functions, -⟩ := grows.functions
  have grown : b.functions <+: done.functions := functions ▸ List.prefix_append _ _
  have there := getElem?_of_prefix grown here
  rw [run] at stays
  rw [bindBody_run here block run]
  let bound : Function := { g with locals := done.locals, body := .block stmts }
  have name : bound.name = g.name := rfl
  have callable : bound.callable = g.callable := by
    simp [bound, Function.callable, unbound, Body.isIntrinsic]
  have same := function_set there name callable
  have left (f : Function) : Agrees (b.entering f) (done.entering f) :=
    agrees_entering (b := b) stays.globals stays.callable stays.known names valid.names f
  refine ⟨fun f => (left f).trans ?_, fun k f other before => ?_⟩
  · let after : Binder := { done with functions := done.functions.set id bound }
    have names' : (after.functions.map Function.name).Nodup := by
      rw [map_set_of_eq Function.name there name]
      exact valid.names
    have globals : after.globals = done.globals := rfl
    exact agrees_entering globals (fun name => (same name).1)
      (fun name found => (same name).2.trans found) valid.names names' f
  · have kept := getElem?_of_prefix grown before
    exact (List.getElem?_set_ne (Ne.symm other)).trans kept

theorem bindBody_accumulates (id : Nat) (block : Syntax.Block) (b : Binder) :
    b.errors ⊆ ((bindBody id block).run b).2.errors := by
  cases here : b.functions[id]? with
  | none =>
    unfold bindBody
    simp only [StateT.run_bind, StateT.run_get, pure_bind, here]
    exact List.Subset.refl _
  | some g =>
    rw [bindBody_run here block rfl]
    exact (bindStmts_succeeds block.stmts (b.entering g)).1.subset

theorem bodies_accumulate : ∀ (bodies : List (Nat × Syntax.Block)) (b : Binder),
    b.errors ⊆ ((bodies.forM fun body => bindBody body.1 body.2).run b).2.errors
  | [], _ => List.Subset.refl _
  | first :: rest, b =>
    List.Subset.trans (bindBody_accumulates first.1 first.2 b) (bodies_accumulate rest _)

/-- Each body is bound where the same names mean the same as before the first. -/
theorem bodies_bound {d : Binder} : ∀ {bodies : List (Nat × Syntax.Block)} {b : Binder},
    (∀ f, Agrees (d.entering f) (b.entering f)) → (b.functions.map Function.name).Nodup →
    Numbers 0 b.functions bodies → ∀ body ∈ bodies, ∃ f b', b.functions[body.1]? = some f ∧
      Agrees (d.entering f) b' ∧ ((bindStmts body.2.stmts).run b').2.errors
        ⊆ ((bodies.forM fun body => bindBody body.1 body.2).run b).2.errors
  | [], _, _, _, _ => fun _ inside => nomatch inside
  | first :: rest, b, agrees, names, numbers => by
    obtain ⟨g, here, unbound⟩ := numbers.unbound first List.mem_cons_self
    obtain ⟨after, others⟩ := bindBody_entering names here unbound first.2
    have distinct := List.nodup_cons.1 numbers.distinct
    have apart (body : Nat × Syntax.Block) (inside : body ∈ rest) : body.1 ≠ first.1 := fun same =>
      distinct.1 (same ▸ List.mem_map_of_mem inside)
    rintro body (_ | ⟨_, inside⟩)
    · refine ⟨g, b.entering g, here, agrees g, ?_⟩
      have own : ((bindBody first.1 first.2).run b).2.errors
          = ((bindStmts first.2.stmts).run (b.entering g)).2.errors := by
        rw [bindBody_run here first.2 rfl]
        rfl
      rw [← own]
      exact bodies_accumulate rest _
    · have numbers' : Numbers 0 ((bindBody first.1 first.2).run b).2.functions rest := by
        refine ⟨distinct.2, fun _ _ => Nat.zero_le _, fun body inside => ?_⟩
        obtain ⟨f, there, unbound⟩ := numbers.unbound body (List.mem_cons_of_mem _ inside)
        exact ⟨f, others _ f (apart body inside) there, unbound⟩
      obtain ⟨f, b', there, agrees', errors⟩ := bodies_bound (fun f => (agrees f).trans (after f))
        (after g).valid'.names numbers' body inside
      obtain ⟨f', here', -⟩ := numbers.unbound body (List.mem_cons_of_mem _ inside)
      have here := others _ f' (apart body inside) here'
      have same : f' = f := Option.some.inj (here.symm.trans there)
      exact ⟨f, b', same ▸ here', agrees', errors⟩

/-! ### Programs -/

/-- In every function whose name is not taken, what is wrong with a part of the body that is bound
by itself, in its scope, is reported, whatever else is wrong.  Behind a condition that fails nothing
in its conditional is looked at, and behind bounds that fail the body of the loop is not. -/
theorem errors_reported (p : Syntax.Program) :
    (∀ {id block f part b}, (id, block) ∈ bodies p → (declarations p).2.functions[id]? = some f →
      Relation.ReflTransGen Inside (.statements block.stmts, (declarations p).2.entering f)
        (part, b) →
      ∀ e ∈ part.errors b, ∃ errors, bind p = .error errors ∧ ∃ e' ∈ errors, e.Same e') ∧
    (∀ {cond e b}, ((bindCondition cond).run.run b).1 = .error e → ∀ body rest rest',
      (bindBranches (.branch cond body rest)).run b
        = (bindBranches (.branch cond body rest')).run b) ∧
    ∀ {start stop b}, ((bindBounds start stop).run b).1 = none → ∀ node var body body',
      (bindStmt (.for node var start stop body)).run b
        = (bindStmt (.for node var start stop body')).run b := by
  refine ⟨fun {id block f part b} declared here inside e wrong => ?bound,
    fun {cond e b} fails body rest rest' => ?hidden,
    fun {start stop b} fail node var body body' => ?never⟩
  case bound =>
    obtain ⟨sound, numbers⟩ := declarations_sound p
    have agrees := agrees_entering (b := (declarations p).2) rfl (fun _ => rfl)
      (fun _ found => found) sound.names sound.names
    obtain ⟨f', b', here', agrees', errors⟩ := bodies_bound agrees sound.names numbers _ declared
    obtain rfl : f' = f := Option.some.inj (here'.symm.trans here)
    obtain ⟨e', there, same⟩ := reported_of_inside inside agrees' e wrong
    have final : e' ∈ finalErrors p := errors there
    exact ⟨finalErrors p, bind_of_error final, e', final, same⟩
  case hidden =>
    rw [bindBranches, bindBranches, StateT.run_bind, StateT.run_bind]
    cases run : (bindCondition cond).run.run b with
    | mk r b₁ =>
      rw [run] at fails
      subst fails
      rfl
  case never =>
    rw [bindStmt, bindStmt, StateT.run_bind, StateT.run_bind]
    cases run : (bindBounds start stop).run b with
    | mk r b₁ =>
      rw [run] at fail
      subst fail
      rfl

/-! ### Errors that are not looked for -/

/-- `{ break; }`, without places. -/
def breaking : Syntax.Block := .mk ⟨0, default⟩ [.break ⟨0, default⟩]

/-- `{ if 1 { break; } elif 2 { break; } }`, without places. -/
def misjudging : Syntax.Block :=
  let number (n : Int) : Syntax.Expr := .integer ⟨0, default⟩ n none
  .mk ⟨0, default⟩ [.cond ⟨0, default⟩
    (.branch (number 1) breaking (.branch (number 2) breaking .none))]

/-- A program of one function without parameters and without a result. -/
def onlyMain (body : Syntax.Block) : Syntax.Program :=
  ⟨[⟨"", [⟨⟨0, default⟩, .function ⟨⟨"main", default⟩, [], none, .block body⟩⟩]⟩]⟩

/-- Both errors in the first branch are reported; of the two in the second neither is. -/
theorem misjudging_errors :
    (∃ errors, bind (onlyMain misjudging) = .error errors ∧
      ∃ e ∈ errors, BindError.Same ⟨.outsideLoop "break", .unknown⟩ e) ∧
    bind (onlyMain misjudging) = .error
      [⟨.outsideLoop "break", .unknown⟩, ⟨.typeMismatch .bool (.int .i32), .unknown⟩] := by
  let main : Function := ⟨"main", [], .void, [], .block [], .unknown⟩
  have declared : (0, misjudging) ∈ bodies (onlyMain misjudging) := List.mem_singleton_self _
  have here : (declarations (onlyMain misjudging)).2.functions[0]? = some main := rfl
  have inside : Relation.ReflTransGen Inside
      (.statements misjudging.stmts, (declarations (onlyMain misjudging)).2.entering main)
      (.block breaking, (declarations (onlyMain misjudging)).2.entering main) :=
    .head .first (.head .choice (.head .taken .refl))
  exact ⟨(errors_reported _).1 declared here inside _ (List.mem_singleton_self _), rfl⟩

end ScriptLang.Bound
