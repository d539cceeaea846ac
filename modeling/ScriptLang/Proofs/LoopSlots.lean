import ScriptLang.Proofs.ResolvedPrograms
import ScriptLang.Proofs.ScopeAgreement

/-!
# The slots of counted loops

A counted loop has two slots of its own, one for its variable and one for its limit.  They are new
when the loop is bound, so no loop in its body counts with them; and the limit is declared as a
constant, so nothing in the body is assigned to it (`separate_of_bind`).  What carries this through
the binding of statements is which slots can be assigned at all (`Binder.Assignable`).
-/

namespace ScriptLang.Bound

open Syntax (Ident)

/-! ### Counted loops -/

/-- A statement that counts. -/
structure CountedLoop where
  location : Location
  var : Nat
  limit : Nat
  start : Expr
  stop : Expr
  body : List Stmt

/-- The statement that the loop is. -/
def CountedLoop.stmt (l : CountedLoop) : Stmt := .for l.location l.var l.limit l.start l.stop l.body

mutual

/-- The counted loops in the statement, each before those in its body. -/
def Stmt.loops : Stmt → List CountedLoop
  | .block _ body => stmtsLoops body
  | .assign _ _ _ => []
  | .expr _ _ => []
  | .cond _ branches => branches.loops
  | .while _ _ body => stmtsLoops body
  | .loop _ body => stmtsLoops body
  | .for place var limit start stop body =>
    ⟨place, var, limit, start, stop, body⟩ :: stmtsLoops body
  | .ret _ _ => []
  | .break _ => []
  | .continue _ => []

def Branches.loops : Branches → List CountedLoop
  | .none => []
  | .otherwise body => stmtsLoops body
  | .branch _ body rest => stmtsLoops body ++ rest.loops

def stmtsLoops : List Stmt → List CountedLoop
  | [] => []
  | s :: ss => s.loops ++ stmtsLoops ss

end

/-- The limit has a slot that nothing in the body stores to, and the loops in the body count with
other slots. -/
structure CountedLoop.Separate (l : CountedLoop) : Prop where
  limit_ne_var : l.limit ≠ l.var
  limit_kept : ∀ e, (.local l.limit, e) ∉ stmtsStored l.body
  others : ∀ m ∈ stmtsLoops l.body, ∀ slot ∈ [m.var, m.limit], slot ≠ l.var ∧ slot ≠ l.limit

/-- Both bounds are of one integer type. -/
def CountedLoop.CountsIn (l : CountedLoop) (T : IntType) : Prop :=
  l.start.ty = .int T ∧ l.stop.ty = .int T

section

variable {stores : Binding → Expr → Prop} {Γ : Env} {ret : Ty}

theorem exists_int_of_isInteger {ty : Ty} (h : ty.isInteger = true) : ∃ T, ty = .int T := by
  cases ty <;> first | exact ⟨_, rfl⟩ | cases h

mutual

theorem Stmt.Typed.countsIn_of_mem : ∀ {s : Stmt} {inLoop : Bool}, s.Typed stores Γ ret inLoop →
    ∀ l ∈ s.loops, ∃ T, l.CountsIn T
  | .block _ _, _, h, l, hl => stmtsTyped_countsIn_of_mem h l hl
  | .cond _ _, _, h, l, hl => Branches.Typed.countsIn_of_mem h l hl
  | .while _ _ _, _, h, l, hl => stmtsTyped_countsIn_of_mem h.2.2 l hl
  | .loop _ _, _, h, l, hl => stmtsTyped_countsIn_of_mem h l hl
  | .for _ _ _ _ _ _, _, h, l, hl => by
    obtain ⟨_, _, same, integer, _, _, body⟩ := h
    rcases List.mem_cons.1 hl with rfl | hl
    · obtain ⟨T, hT⟩ := exists_int_of_isInteger integer
      exact ⟨T, hT, same ▸ hT⟩
    · exact stmtsTyped_countsIn_of_mem body l hl

theorem Branches.Typed.countsIn_of_mem : ∀ {bs : Branches} {inLoop : Bool},
    bs.Typed stores Γ ret inLoop → ∀ l ∈ bs.loops, ∃ T, l.CountsIn T
  | .otherwise _, _, h, l, hl => stmtsTyped_countsIn_of_mem h l hl
  | .branch _ _ _, _, h, l, hl =>
    (List.mem_append.1 hl).elim (stmtsTyped_countsIn_of_mem h.2.2.1 l)
      (h.2.2.2.countsIn_of_mem l)

theorem stmtsTyped_countsIn_of_mem : ∀ {ss : List Stmt} {inLoop : Bool},
    stmtsTyped stores Γ ret inLoop ss → ∀ l ∈ stmtsLoops ss, ∃ T, l.CountsIn T
  | _ :: _, _, h, l, hl =>
    (List.mem_append.1 hl).elim (h.1.countsIn_of_mem l) (stmtsTyped_countsIn_of_mem h.2 l)

end

end

/-! ### Slots that can be assigned -/

namespace Binder

/-- A declaration that can be seen lets the slot be assigned. -/
def Assignable (b : Binder) (slot : Nat) : Prop :=
  ∃ name, (name, ⟨slot, false⟩) ∈ b.scopes.flatten

/-- A function is being bound, and the slots that can be seen in it have been given out. -/
structure Inside (b : Binder) : Prop where
  scopes : b.scopes ≠ []
  slots : ∀ entry ∈ b.scopes.flatten, entry.2.slot < b.locals.length

/-- What is bound on the way from one state to another stores only to slots that could be assigned
before or are new; its loops are separate and count with new slots. -/
structure Takes (b : Binder) (stored : List (Binding × Expr)) (loops : List CountedLoop)
    (b' : Binder) : Prop where
  inside : b'.Inside
  outer : b'.scopes.tail = b.scopes.tail
  grows : b.locals.length ≤ b'.locals.length
  shown : ∀ slot, b'.Assignable slot → b.Assignable slot ∨ b.locals.length ≤ slot
  stored : ∀ slot e, (.local slot, e) ∈ stored → b.Assignable slot ∨ b.locals.length ≤ slot
  counted : ∀ l ∈ loops, b.locals.length ≤ l.var ∧ b.locals.length ≤ l.limit ∧ l.Separate

variable {b b' b'' : Binder} {stored stored' : List (Binding × Expr)}
  {loops loops' : List CountedLoop}

theorem Takes.of_adds (adds : b.Adds b') (inside : b.Inside) : b.Takes [] [] b' where
  inside := ⟨adds.scopes ▸ inside.scopes, adds.scopes ▸ adds.locals ▸ inside.slots⟩
  outer := congrArg List.tail adds.scopes
  grows := Nat.le_of_eq (congrArg List.length adds.locals.symm)
  shown slot h := .inl (by rwa [Assignable, adds.scopes] at h)
  stored _ _ h := nomatch h
  counted _ h := nomatch h

theorem Takes.trans (h : b.Takes stored loops b') (h' : b'.Takes stored' loops' b'') :
    b.Takes (stored ++ stored') (loops ++ loops') b'' where
  inside := h'.inside
  outer := h'.outer.trans h.outer
  grows := Nat.le_trans h.grows h'.grows
  shown slot hs := (h'.shown slot hs).elim (h.shown slot) fun new => .inr (Nat.le_trans h.grows new)
  stored slot e he := (List.mem_append.1 he).elim (h.stored slot e) fun he =>
    (h'.stored slot e he).elim (h.shown slot) fun new => .inr (Nat.le_trans h.grows new)
  counted l hl := (List.mem_append.1 hl).elim (h.counted l) fun hl =>
    have ⟨var, limit, separate⟩ := h'.counted l hl
    ⟨Nat.le_trans h.grows var, Nat.le_trans h.grows limit, separate⟩

theorem Inside.enter (h : b.Inside) : ({ b with scopes := [] :: b.scopes } : Binder).Inside :=
  ⟨List.cons_ne_nil _ _, h.slots⟩

/-- What is declared in a scope of its own cannot be seen behind it. -/
theorem Takes.inScope (inside : b.Inside)
    (h : Takes { b with scopes := [] :: b.scopes } stored loops b') :
    b.Takes stored loops { b' with scopes := b'.scopes.tail } := by
  have scopes : b'.scopes.tail = b.scopes := h.outer
  rw [scopes]
  have slots : ∀ entry ∈ b.scopes.flatten, entry.2.slot < b'.locals.length := fun entry he =>
    Nat.lt_of_lt_of_le (inside.slots entry he) h.grows
  exact ⟨⟨inside.scopes, slots⟩, rfl, h.grows, fun _ => .inl, h.stored, h.counted⟩

/-- How deep in loops a statement stands has nothing to do with slots. -/
theorem Takes.inLoop {n n' : Nat} (h : Takes { b with loopDepth := n } stored loops b') :
    b.Takes stored loops { b' with loopDepth := n' } :=
  ⟨⟨h.inside.scopes, h.inside.slots⟩, h.outer, h.grows, h.shown, h.stored, h.counted⟩

end Binder

open Binder (Takes)

/-! ### Declarations and assignments -/

/-- A declared variable takes the next slot, which can be assigned unless it is a constant. -/
theorem declareLocal_takes (name : String) (ty : Ty) (isConst : Bool) :
    Succeeds (declareLocal name ty isConst) fun b slot b' => b.Inside →
      slot = b.locals.length ∧ b'.locals.length = b.locals.length + 1 ∧ b.Takes [] [] b' ∧
        (isConst = true → ¬ b'.Assignable slot) := by
  intro b
  rw [declareLocal_run]
  refine ⟨List.prefix_rfl, fun _ inside => ⟨rfl, List.length_append, ?_, ?_⟩⟩
  all_goals
    obtain ⟨scope, outer, scopes⟩ := List.exists_cons_of_ne_nil inside.scopes
    have entries : ({ b with
        locals := b.locals ++ [⟨name, ty⟩]
        scopes := b.scopes.modifyHead ((name, ⟨b.locals.length, isConst⟩) :: ·) } :
          Binder).scopes.flatten = (name, ⟨b.locals.length, isConst⟩) :: b.scopes.flatten := by
      simp [scopes]
  · refine ⟨⟨by simp [scopes], fun entry he => ?_⟩, List.tail_modifyHead, by simp, ?_, nofun, nofun⟩
    · rw [entries] at he
      rw [List.length_append]
      rcases List.mem_cons.1 he with rfl | he
      · exact Nat.lt_succ_self _
      · exact Nat.lt_succ_of_lt (inside.slots entry he)
    · rintro slot ⟨name', seen⟩
      rw [entries] at seen
      rcases List.mem_cons.1 seen with same | seen
      · cases same
        exact .inr (Nat.le_refl _)
      · exact .inl ⟨name', seen⟩
  · rintro rfl ⟨name', seen⟩
    rw [entries] at seen
    rcases List.mem_cons.1 seen with same | seen
    · cases same
    · exact Nat.lt_irrefl _ (inside.slots _ seen)

/-- A name stands for a slot of a declaration that can be seen. -/
theorem assignable_of_local? {b : Binder} {name : String} {entry : LocalEntry}
    (h : b.local? name = some entry) (notConst : entry.isConst = false) :
    b.Assignable entry.slot := by
  obtain ⟨scope, hscope, hentry⟩ := List.exists_of_findSome?_eq_some h
  obtain ⟨before, after, split, _⟩ := List.lookup_eq_some_iff.1 hentry
  refine ⟨name, List.mem_flatten.2 ⟨scope, hscope, ?_⟩⟩
  obtain ⟨slot, isConst⟩ := entry
  cases notConst
  rw [split]
  exact List.mem_append_right _ List.mem_cons_self

theorem bindTarget_assignable (target : Ident) :
    SucceedsIfOk (bindTarget target) fun b r b' =>
      b' = b ∧ ∀ slot, r.1 = .local slot → b.Assignable slot := by
  refine .get_bind fun s => ?_
  dsimp only
  split
  · next entry found =>
    split
    · exact .fail
    · next notConst =>
      refine .pure fun b same => ⟨rfl, fun slot local' => ?_⟩
      cases local'
      exact same ▸ assignable_of_local? found (Bool.eq_false_iff.2 notConst)
  · split
    · split
      · exact .fail
      · exact .pure fun b _ => ⟨rfl, fun _ local' => nomatch local'⟩
    · split
      · exact .fail
      · exact .fail

/-- A statement has been bound. -/
def StmtTakes (b : Binder) (s : Stmt) (b' : Binder) : Prop := b.Takes s.stored s.loops b'

def StmtsTake (b : Binder) (ss : List Stmt) (b' : Binder) : Prop :=
  b.Takes (stmtsStored ss) (stmtsLoops ss) b'

theorem StmtTakes.assign {b b' : Binder} (adds : b.Adds b') (inside : b.Inside) {target : Binding}
    (assignable : ∀ slot, target = .local slot → b.Assignable slot) (place : Location) (e : Expr) :
    StmtTakes b (.assign place target e) b' :=
  { Takes.of_adds adds inside with
    stored := fun slot e he => by
      cases List.mem_singleton.1 he
      exact .inl (assignable slot rfl) }

theorem bindAssignment_takes (place : Location) (target : Ident) (op : Option BinaryOp)
    (value : Syntax.Expr) :
    SucceedsIfOk (bindAssignment place target op value) fun b s b' => b.Inside →
      StmtTakes b s b' := by
  unfold bindAssignment
  refine (bindTarget_assignable target).bind fun r => ?_
  obtain ⟨binding, ty⟩ := r
  refine (bindExpr_succeeds value _).bind fun e => ?_
  dsimp only
  split
  · split
    · refine .pure fun b₂ b₁ bound b found inside => ?_
      obtain ⟨same, assignable⟩ := found
      exact .assign (same ▸ bound.1) inside assignable _ _
    · exact .fail
  · split
    · exact .fail
    · refine .pure fun b₂ b₁ bound b found inside => ?_
      obtain ⟨same, assignable⟩ := found
      exact .assign (same ▸ bound.1) inside assignable _ _

/-! ### Statements -/

/-- A statement that stores nothing and has no loop. -/
theorem StmtTakes.of_adds {b b' : Binder} (adds : b.Adds b') (inside : b.Inside) {s : Stmt}
    (stored : s.stored = []) (loops : s.loops = []) : StmtTakes b s b' := by
  rw [StmtTakes, stored, loops]
  exact Takes.of_adds adds inside

theorem bindReturn_takes (place : Location) (value : Option Syntax.Expr) :
    Succeeds (bindReturn place value) fun b r b' => b.Inside →
      ∃ s, r = some s ∧ StmtTakes b s b' := by
  refine .get_bind fun s => ?_
  dsimp only
  split
  · split
    · exact .pure fun b _ inside => ⟨_, rfl, .of_adds (.refl b) inside rfl rfl⟩
    · exact .report_bind
  · next e =>
    refine (bindExpr_succeeds e _).attempt.bind fun r => ?_
    split
    · exact .without_result
    · next e' =>
      split
      · exact .report_bind
      · refine .pure fun b' b bound _ inside => ⟨_, rfl, ?_⟩
        obtain ⟨a, same, adds, _⟩ := bound
        exact .of_adds adds inside rfl rfl

theorem bindControl_takes {keyword : String} {s : Stmt} (stored : s.stored = [])
    (loops : s.loops = []) :
    Succeeds (bindControl keyword s) fun b r b' => b.Inside →
      ∃ s, r = some s ∧ StmtTakes b s b' := by
  refine .get_bind fun start => ?_
  split
  · exact .report_bind
  · exact .pure fun b _ inside => ⟨s, rfl, .of_adds (.refl b) inside stored loops⟩

/-- A loop whose slots have been given out before its body is bound is separate, if the limit cannot
be assigned in the body. -/
theorem CountedLoop.Separate.of_takes {l : CountedLoop} {b b' : Binder}
    (body : StmtsTake b l.body b') (ne : l.limit ≠ l.var) (var : l.var < b.locals.length)
    (limit : l.limit < b.locals.length) (fixed : ¬ b.Assignable l.limit) : l.Separate where
  limit_ne_var := ne
  limit_kept e he := (body.stored _ e he).elim fixed fun new => by omega
  others m hm slot hslot := by
    obtain ⟨newVar, newLimit, -⟩ := body.counted m hm
    have new : b.locals.length ≤ slot := by
      rcases List.mem_pair.1 hslot with rfl | rfl
      · exact newVar
      · exact newLimit
    exact ⟨by omega, by omega⟩

/-- The limit of a loop takes the next slot and its variable the one behind; the body is bound after
both. -/
theorem counted_takes {body : Syntax.Block}
    (h : Succeeds (bindBlock body) fun b ss b' => b.Inside → StmtsTake b ss b')
    (place : Location) (var : Ident) (first last : Expr) :
    Succeeds (inScope do
        let limit ← declareLocal "$limit" first.ty true
        let slot ← declareLocal var.name first.ty false
        return some (Stmt.for place slot limit first last (← inLoop (bindBlock body))))
      fun b r b' => b.Inside → ∃ s, r = some s ∧ StmtTakes b s b' := by
  have counted : Succeeds (do
        let limit ← declareLocal "$limit" first.ty true
        let slot ← declareLocal var.name first.ty false
        return some (Stmt.for place slot limit first last (← inLoop (bindBlock body))))
      fun b r b' => b.Inside → ∃ s, r = some s ∧ StmtTakes b s b' := by
    refine (declareLocal_takes "$limit" first.ty true).bind fun limit => ?_
    refine (declareLocal_takes var.name first.ty false).bind fun slot => ?_
    refine h.inLoop.bind fun ss => ?_
    refine .pure fun b₃ b₂ block b₁ counter b limit inside => ?_
    obtain ⟨rfl, next₁, takes₁, kept⟩ := limit inside
    obtain ⟨rfl, next₂, takes₂, -⟩ := counter takes₁.inside
    obtain ⟨inner, block, rfl⟩ := block
    have body : Takes b₂ (stmtsStored ss) (stmtsLoops ss) { inner with
        loopDepth := inner.loopDepth - 1 } :=
      (block ⟨takes₂.inside.scopes, takes₂.inside.slots⟩).inLoop
    -- the slot of the limit has been given out, and it cannot be assigned
    have limit_fixed : ¬ b₂.Assignable b.locals.length := fun assignable =>
      (takes₂.shown _ assignable).elim (kept rfl) fun new => by omega
    have before : b.locals.length < b₁.locals.length := by omega
    have both : b₁.locals.length < b₂.locals.length := by omega
    refine ⟨_, rfl, { (takes₁.trans takes₂).trans body with counted := fun l hl => ?_ }⟩
    rcases List.mem_cons.1 hl with rfl | hl
    · exact ⟨Nat.le_of_lt before, Nat.le_refl _,
        .of_takes body (Nat.ne_of_lt before) both (Nat.lt_trans before both) limit_fixed⟩
    · exact ((takes₁.trans takes₂).trans body).counted l hl
  refine counted.inScope.mono fun b r b' ⟨inner, counted, same⟩ inside => ?_
  subst same
  obtain ⟨s, bound, takes⟩ := counted inside.enter
  exact ⟨s, bound, takes.inScope inside⟩

mutual

theorem bindStmt_takes : ∀ stmt : Syntax.Stmt,
    Succeeds (bindStmt stmt) fun b r b' => b.Inside → ∃ s, r = some s ∧ StmtTakes b s b'
  | .block node body => by
    rw [bindStmt]
    refine (bindBlock_takes body).bind fun ss => ?_
    exact .pure fun b' b block inside => ⟨_, rfl, block inside⟩
  | .var node decl => by
    rw [bindStmt]
    refine (bindDeclaration_succeeds decl).bind fun r => ?_
    split
    · refine .pure ?_
      rintro b' b ⟨_, ty, init, same, _⟩
      cases same
    · next ty init =>
      refine (declareLocal_takes decl.name.name ty decl.isConst).bind fun slot => ?_
      refine .pure fun b₂ b₁ new b ⟨adds, _⟩ inside => ⟨_, rfl, ?_⟩
      have before := Takes.of_adds adds inside
      obtain ⟨rfl, -, takes, -⟩ := new before.inside
      refine { before.trans takes with stored := fun slot e he => ?_ }
      cases List.mem_singleton.1 he
      exact .inr before.grows
  | .assign node target op value => by
    rw [bindStmt]
    exact (bindAssignment_takes _ target op value).attempt.mono
      fun b r b' ⟨s, same, done⟩ inside => ⟨s, same, done inside⟩
  | .expr node e => by
    rw [bindStmt]
    refine (bindExpr_succeeds e none).attempt.bind fun r => ?_
    refine .pure fun b' b ⟨e', same, adds, _⟩ inside => ?_
    subst same
    exact ⟨_, rfl, .of_adds adds inside rfl rfl⟩
  | .cond node branches => by
    rw [bindStmt]
    refine (bindBranches_takes branches).bind fun r => ?_
    refine .pure fun b' b done inside => ?_
    obtain ⟨bs, rfl, takes⟩ := done inside
    exact ⟨_, rfl, takes⟩
  | .while node cond body => by
    rw [bindStmt]
    refine Succeeds.bind (bindCondition_succeeds cond) fun c => ?_
    refine (bindBlock_takes body).inLoop.bind fun ss => ?_
    refine (Succeeds.record c).bind fun r => ?_
    refine .pure fun b₃ b₂ ⟨c', ok, result, same⟩ b₁ ⟨inner, block, looped⟩ b bound inside => ?_
    subst result same looped
    have before := Takes.of_adds (bound c' ok).1 inside
    have body := block ⟨before.inside.scopes, before.inside.slots⟩
    exact ⟨_, rfl, before.trans body.inLoop⟩
  | .loop node body => by
    rw [bindStmt]
    refine (bindBlock_takes body).inLoop.bind fun ss => ?_
    refine .pure fun b₂ b ⟨inner, block, looped⟩ inside => ?_
    subst looped
    exact ⟨_, rfl, (block ⟨inside.scopes, inside.slots⟩).inLoop⟩
  | .for node var start stop body => by
    rw [bindStmt]
    refine (bindBounds_succeeds start stop).bind fun r => ?_
    split
    · refine .pure ?_
      rintro b' b ⟨_, _, same, _⟩
      cases same
    · next first last =>
      refine (counted_takes (bindBlock_takes body) _ var first last).mono ?_
      intro b' r b'' counted b ⟨_, _, found, _, adds, _⟩ inside
      have before := Takes.of_adds adds inside
      obtain ⟨s, rfl, takes⟩ := counted before.inside
      exact ⟨s, rfl, before.trans takes⟩
  | .ret node value => by
    rw [bindStmt]
    exact bindReturn_takes _ value
  | .break node => by
    rw [bindStmt]
    exact bindControl_takes rfl rfl
  | .continue node => by
    rw [bindStmt]
    exact bindControl_takes rfl rfl

theorem bindBranches_takes : ∀ bs : Syntax.Branches,
    Succeeds (bindBranches bs) fun b r b' => b.Inside → ∃ bs', r = some bs' ∧
      b.Takes bs'.stored bs'.loops b'
  | .none => by
    rw [bindBranches]
    exact .pure fun b inside => ⟨_, rfl, .of_adds (.refl b) inside⟩
  | .otherwise body => by
    rw [bindBranches]
    refine (bindBlock_takes body).bind fun ss => ?_
    exact .pure fun b' b block inside => ⟨_, rfl, block inside⟩
  | .branch cond body rest => by
    rw [bindBranches]
    refine Succeeds.bind (bindCondition_succeeds cond) fun c => ?_
    refine (bindBlock_takes body).bind fun ss => ?_
    refine (Succeeds.record c).bind fun r => ?_
    split
    · exact .pure fun b₃ b₂ ⟨c', _, result, _⟩ => by cases result
    · next c' =>
      refine (bindBranches_takes rest).bind fun r => ?_
      refine .pure fun b₄ b₃ others b₂ ⟨c'', ok, result, same⟩ b₁ block b bound inside => ?_
      cases result
      subst same
      have before := Takes.of_adds (bound c' ok).1 inside
      have body := block before.inside
      obtain ⟨bs, rfl, takes⟩ := others body.inside
      exact ⟨_, rfl, (before.trans body).trans takes⟩

theorem bindBlock_takes : ∀ body : Syntax.Block,
    Succeeds (bindBlock body) fun b ss b' => b.Inside → StmtsTake b ss b'
  | .mk node ss => by
    rw [bindBlock]
    refine (bindStmts_takes ss).inScope.mono fun b bound b' ⟨inner, stmts, same⟩ inside => ?_
    subst same
    exact (stmts inside.enter).inScope inside

theorem bindStmts_takes : ∀ ss : List Syntax.Stmt,
    Succeeds (bindStmts ss) fun b ss' b' => b.Inside → StmtsTake b ss' b'
  | [] => by
    rw [bindStmts]
    exact .pure fun b inside => .of_adds (.refl b) inside
  | stmt :: ss => by
    rw [bindStmts]
    refine (bindStmt_takes stmt).bind fun r => ?_
    refine (bindStmts_takes ss).bind fun rest => ?_
    refine .pure fun b₂ b₁ others b first inside => ?_
    obtain ⟨s, rfl, takes⟩ := first inside
    exact takes.trans (others takes.inside)

end

/-! ### Programs -/

theorem Succeeds.and {α : Type} {P R : Binder → α → Binder → Prop} {x : BindM α}
    (h : Succeeds x P) (h' : Succeeds x R) : Succeeds x fun b a b' => P b a b' ∧ R b a b' :=
  fun b => ⟨(h b).1, fun clean => ⟨(h b).2 clean, (h' b).2 clean⟩⟩

/-- All counted loops of the function are separate. -/
def Function.LoopsSeparate (f : Function) : Prop := ∀ l ∈ stmtsLoops f.stmts, l.Separate

theorem Function.loopsSeparate_of_stmts {f : Function} (h : f.stmts = []) : f.LoopsSeparate := by
  rw [Function.LoopsSeparate, h]
  exact fun _ hl => nomatch hl

/-- Binding a body takes from the slots behind those of the parameters. -/
theorem inside_paramScope (b : Binder) (f : Function) :
    Binder.Inside { b with
      locals := f.locals, ret := f.ret, loopDepth := 0, scopes := [paramScope f.locals] } := by
  refine ⟨List.cons_ne_nil _ _, fun entry he => ?_⟩
  rw [List.flatten_singleton] at he
  exact slot_lt_of_mem_paramScope he

theorem AddsCalled.loopsSeparate {fs fs' : List Function} (called : AddsCalled fs fs')
    (h : ∀ f ∈ fs, f.LoopsSeparate) : ∀ f ∈ fs', f.LoopsSeparate := by
  obtain ⟨added, rfl, implicit⟩ := called
  intro f hf
  rcases List.mem_append.1 hf with hf | hf
  · exact h f hf
  · obtain ⟨i, place, rfl⟩ := implicit f hf
    exact Function.loopsSeparate_of_stmts rfl

theorem bindBody_separate (id : Nat) (block : Syntax.Block) :
    Succeeds (bindBody id block) fun b _ b' => (∀ f ∈ b.functions, f.LoopsSeparate) →
      ∀ f ∈ b'.functions, f.LoopsSeparate := by
  unfold bindBody
  refine .get_bind fun start => ?_
  split
  · exact .pure fun b _ h => h
  · next f found =>
    refine (Succeeds.modifyGet (R := fun b _ b' => b' = { b with
      locals := f.locals, ret := f.ret, loopDepth := 0, scopes := [paramScope f.locals] })
      (fun _ => rfl) fun _ => rfl).bind fun _ => ?_
    refine ((bindStmts_takes block.stmts).and (bindStmts_succeeds block.stmts)).bind fun ss => ?_
    refine .modifyGet (fun _ => rfl) fun b₂ b₁ ⟨taken, bound⟩ b entered _ h f' hf' => ?_
    subst entered
    have inside := inside_paramScope b f
    rcases List.mem_or_eq_of_mem_set hf' with hf' | rfl
    · exact (bound inside.scopes).1.functions.loopsSeparate h f' hf'
    · exact fun l hl => ((taken inside).counted l hl).2.2

theorem bindBodies_separate : ∀ items : List (Syntax.Item × Option Nat),
    Succeeds (bindBodies items) fun b _ b' => (∀ f ∈ b.functions, f.LoopsSeparate) →
      ∀ f ∈ b'.functions, f.LoopsSeparate
  | [] => .pure fun b h => h
  | (i, id) :: items => by
    have rest := bindBodies_separate items
    unfold bindBodies at rest ⊢
    refine Succeeds.bind (P := fun b _ b' => (∀ f ∈ b.functions, f.LoopsSeparate) →
      ∀ f ∈ b'.functions, f.LoopsSeparate) ?_ fun _ => rest.mono fun _ _ _ later _ first h =>
        later (first h)
    dsimp only
    split
    · split
      · exact bindBody_separate _ _
      · exact .pure fun b h => h
    · exact .pure fun b h => h

/-- A function that has only been declared has no loops. -/
theorem FunctionDeclared.loopsSeparate {f : Syntax.Function} {f' : Function}
    (h : FunctionDeclared f f') : f'.LoopsSeparate := by
  have body := h.body
  refine Function.loopsSeparate_of_stmts ?_
  rw [Function.stmts]
  generalize f.body = written, f'.body = declared at body
  cases body <;> rfl

theorem declared_loopsSeparate {fs : List Syntax.Function} {fs' : List Function}
    (h : List.Forall₂ FunctionDeclared fs fs') : ∀ f ∈ fs', f.LoopsSeparate := by
  induction h with
  | nil => exact fun _ hf => nomatch hf
  | cons first _ ih => exact List.forall_mem_cons.2 ⟨first.loopsSeparate, ih⟩

theorem work_separate (items : List Syntax.Item) :
    Succeeds (do
        let ids ← declareFunctions items
        bindGlobals items
        bindBodies (items.zip ids))
      fun b _ b' => b = {} → ∀ f ∈ b'.functions, f.LoopsSeparate := by
  refine (declareFunctions_succeeds items).bind fun ids => ?_
  refine (bindGlobals_succeeds items).bind fun _ => ?_
  refine (bindBodies_separate (items.zip ids)).mono ?_
  intro b₂ _ b₃ bodies b₁ globals b ⟨_, declared, state, all⟩ start
  subst start state
  obtain ⟨-, -, called, -⟩ := globals rfl rfl
  exact bodies (called.loopsSeparate (declared_loopsSeparate all))

/-- In a bound program the counted loops are separate. -/
theorem separate_of_bind {source : Syntax.Program} {p : Program} (h : bind source = .ok p) :
    ∀ f ∈ p.functions, f.LoopsSeparate := by
  have separate := (work_separate source.items {}).2
  unfold bind at h
  extract_lets items work at h
  split at h
  next _ b run =>
  split at h
  · next clean =>
    cases h
    have last : b = (work.run {}).2 := by rw [run]
    subst last
    exact separate (List.isEmpty_iff.1 clean) rfl
  · cases h

end ScriptLang.Bound
