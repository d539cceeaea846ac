import ScriptLang.Proofs.BoundExpressions

/-!
# Bound statements are well typed

Every statement that is bound is well typed but for one thing: an assignment through an operator
does not look at the type of its operand (`BinderStores`).
-/

namespace ScriptLang.Bound

open Syntax (Ident)

/-- What an assignment that was bound stores: a value that fits the variable, or the result of an
operator on the variable and any operand. -/
def BinderStores (Γ : Env) (target : Binding) (e : Expr) : Prop :=
  Stores Γ target e ∨ ∃ i op v operand, e = .binary i op (.variable v target) operand ∧
    Γ.type? target = some v.ty ∧ operandAllowed op v.ty = true ∧ i.ty = v.ty ∧ operand.WellTyped Γ

theorem BinderStores.mono {Γ Γ' : Env} (hle : Γ.Le Γ') {target : Binding} {e : Expr}
    (h : BinderStores Γ target e) : BinderStores Γ' target e := by
  obtain ⟨typed, hty⟩ | ⟨i, op, v, operand, rfl, hty, allowed, same, typed⟩ := h
  · exact .inl ⟨typed.mono hle, hle.type?_eq hty⟩
  · exact .inr ⟨i, op, v, operand, rfl, hle.type?_eq hty, allowed, same, typed.mono hle⟩

variable {b : Binder}

/-! ### Declarations and assignments -/

/-- A type other than `void` and an initial value of it, if there is one. -/
def GoodDeclaration (d : Ty × Option Expr) (b : Binder) : Prop :=
  d.1 ≠ .void ∧ ∀ e, d.2 = some e → GoodExpr e b ∧ e.ty = d.1

theorem bindDeclaration_yields (decl : Syntax.VarDecl) :
    Yields b (bindDeclaration decl) (IfSome GoodDeclaration) := by
  unfold bindDeclaration
  extract_lets location afterType
  have typed : ∀ annotated b₁, Yields b₁ (afterType annotated) (IfSome GoodDeclaration) := by
    intro annotated b₁
    unfold afterType
    extract_lets afterInit
    have valued : ∀ init b₂, (∀ e, init = some e → GoodExpr e b₂) →
        Yields b₂ (afterInit init) (IfSome GoodDeclaration) := by
      intro init b₂ hinit
      unfold afterInit
      extract_lets ty checked
      have kept : (∀ ty e, annotated = some ty → init = some e → e.ty = ty) →
          Yields b₂ (checked ()) (IfSome GoodDeclaration) := by
        intro hty
        unfold checked
        split
        · exact Yields.report.bind fun _ _ _ _ => .pure .none
        · rename_i notVoid
          refine .pure fun d same => ?_
          cases same
          refine ⟨notVoid, fun e he => ⟨hinit e he, ?_⟩⟩
          change init = some e at he
          change e.ty = annotated.getD (init.elim .void Expr.ty)
          cases hann : annotated with
          | some given => exact hty given e hann he
          | none =>
            rw [he]
            rfl
      split
      · split
        · exact Yields.report.bind fun _ _ _ _ => .pure .none
        · rename_i same
          refine kept fun ty e hann he => ?_
          cases hann
          cases he
          exact Decidable.not_not.1 same
      · exact Yields.report.bind fun _ _ _ _ => .pure .none
      · rename_i other _
        refine kept fun ty e hann he => ?_
        exact absurd hann (other ty e · he)
    split
    · refine (bindExpr_yields _).attempt.bind fun r b₂ _ hr => ?_
      split
      · rename_i e
        exact valued (some e) b₂ fun e' same => by
          cases same
          exact hr e rfl
      · exact .pure .none
    · exact valued none b₁ fun e same => by cases same
  split
  · refine (resolveType_yields _).attempt.bind fun r b₁ _ _ => ?_
    split
    · exact typed _ b₁
    · exact .pure .none
  · exact typed none b

theorem declareLocal_yields (hb : b.scopes ≠ []) (name : String) (ty : Ty) (isConst : Bool) :
    Yields b (declareLocal name ty isConst) fun slot b' =>
      b'.env.type? (.local slot) = some ty := by
  intro valid
  refine ⟨_, _, rfl, ⟨⟨[], by simp⟩, rfl, List.prefix_append _ _, rfl, rfl, ?_,
    fun hnil => absurd hnil hb⟩, ⟨?_, valid.names⟩, ?_⟩
  · cases b.scopes <;> rfl
  · intro scope hscope entry hentry
    simp only [List.length_append, List.length_singleton]
    have before : ∀ s ∈ b.scopes, ∀ e ∈ s, e.2.slot < b.locals.length := valid.slots
    cases hs : b.scopes with
    | nil => simp [hs] at hscope
    | cons inner outer =>
      rw [hs] at before
      simp only [hs, List.mem_cons] at hscope
      rcases hscope with rfl | hscope
      · rcases List.mem_cons.1 hentry with rfl | hentry
        · exact Nat.lt_succ_self _
        · exact Nat.lt_succ_of_lt (before inner List.mem_cons_self entry hentry)
      · exact Nat.lt_succ_of_lt (before scope (List.mem_cons_of_mem _ hscope) entry hentry)
  · simp [Env.type?, Binder.env]

/-- The variable that is written has the type that is given with it. -/
theorem bindTarget_yields {target : Ident} :
    YieldsIfOk b (bindTarget target) fun r b' => b'.env.type? r.1 = some r.2 := by
  refine .get_bind fun valid => ?_
  dsimp only
  split
  · rename_i entry hentry
    split
    · exact .fail
    · exact .pure (slotType_of_local? valid hentry)
  · split
    · rename_i id g hg
      split
      · exact .fail
      · exact .pure (type?_of_global? hg)
    · split
      · exact .fail
      · exact .fail

/-- A well-typed statement of the function that is being bound. -/
def GoodStmt (s : Stmt) (b : Binder) : Prop :=
  s.Typed (BinderStores b.env) b.env b.ret (decide (0 < b.loopDepth))

theorem GoodStmt.grows {s : Stmt} {b b' : Binder} (h : GoodStmt s b) (grows : b.Grows b') :
    GoodStmt s b' := by
  unfold GoodStmt
  rw [grows.ret, grows.loopDepth]
  exact Stmt.Typed.mono grows.le (fun _ _ _ hs => hs.mono grows.le) h

theorem bindAssignment_yields {place : Location} {target : Ident} {op : Option BinaryOp}
    {value : Syntax.Expr} : YieldsIfOk b (bindAssignment place target op value) GoodStmt := by
  unfold bindAssignment
  refine bindTarget_yields.bind fun r b₁ _ hr => ?_
  obtain ⟨binding, ty⟩ := r
  refine (bindExpr_yields value).bind fun e b₂ grows he => ?_
  have htarget := grows.le.type?_eq hr
  dsimp only
  split
  · split
    · rename_i allowed
      exact .pure (.inr ⟨_, _, _, e, rfl, htarget, allowed, rfl, he⟩)
    · exact .fail
  · split
    · exact .fail
    · rename_i same
      exact .pure (.inl ⟨he, htarget.trans (congrArg some (Decidable.not_not.1 same).symm)⟩)

/-! ### Statements -/

/-- Well-typed statements of the function that is being bound. -/
def GoodStmts (ss : List Stmt) (b : Binder) : Prop :=
  stmtsTyped (BinderStores b.env) b.env b.ret (decide (0 < b.loopDepth)) ss

theorem GoodStmts.grows {ss : List Stmt} {b b' : Binder} (h : GoodStmts ss b) (grows : b.Grows b') :
    GoodStmts ss b' := by
  unfold GoodStmts
  rw [grows.ret, grows.loopDepth]
  exact stmtsTyped_mono grows.le (fun _ _ _ hs => hs.mono grows.le) h

/-- Well-typed statements of the body of a loop. -/
def GoodLoopBody (ss : List Stmt) (b : Binder) : Prop :=
  stmtsTyped (BinderStores b.env) b.env b.ret true ss

theorem GoodLoopBody.grows {ss : List Stmt} {b b' : Binder} (h : GoodLoopBody ss b)
    (grows : b.Grows b') : GoodLoopBody ss b' := by
  unfold GoodLoopBody
  rw [grows.ret]
  exact stmtsTyped_mono grows.le (fun _ _ _ hs => hs.mono grows.le) h

/-- What is bound in a scope of its own does not depend on the scopes around it. -/
theorem inScope_yields {α : Type} {x : BindM α} {Q : α → Binder → Prop} (hb : b.scopes ≠ [])
    (h : Yields { b with scopes := [] :: b.scopes } x Q)
    (hQ : ∀ a b', Q a b' → Q a { b' with scopes := b'.scopes.tail }) :
    Yields b (inScope x) Q := by
  intro valid
  have begun : ({ b with scopes := [] :: b.scopes } : Binder).Valid := by
    refine ⟨fun scope hscope entry hentry => ?_, valid.names⟩
    rcases List.mem_cons.1 hscope with rfl | hscope
    · cases hentry
    · exact valid.slots scope hscope entry hentry
  obtain ⟨a, b', hrun, grows, valid', hresult⟩ := h begun
  have hscope : (inScope x).run b =
      ((x.run { b with scopes := [] :: b.scopes }).1,
        { (x.run { b with scopes := [] :: b.scopes }).2 with
          scopes := (x.run { b with scopes := [] :: b.scopes }).2.scopes.tail }) := rfl
  rw [hrun] at hscope
  have hlen : b'.scopes.length = b.scopes.length + 1 := grows.scopes
  exact ⟨a, _, hscope, ⟨grows.functions, grows.globals, grows.locals, grows.ret, grows.loopDepth,
    by simp [hlen], fun hnil => absurd hnil hb⟩,
    ⟨fun scope hs => valid'.slots scope (List.mem_of_mem_tail hs), valid'.names⟩, hQ a b' hresult⟩

theorem inLoop_yields {x : BindM (List Stmt)}
    (h : Yields { b with loopDepth := b.loopDepth + 1 } x GoodStmts) :
    Yields b (inLoop x) GoodLoopBody := by
  intro valid
  obtain ⟨ss, b', hrun, grows, valid', hresult⟩ := h ⟨valid.slots, valid.names⟩
  have hloop : (inLoop x).run b =
      ((x.run { b with loopDepth := b.loopDepth + 1 }).1,
        { (x.run { b with loopDepth := b.loopDepth + 1 }).2 with
          loopDepth := (x.run { b with loopDepth := b.loopDepth + 1 }).2.loopDepth - 1 }) := rfl
  rw [hrun] at hloop
  have hdepth : b'.loopDepth = b.loopDepth + 1 := grows.loopDepth
  refine ⟨ss, _, hloop, ⟨grows.functions, grows.globals, grows.locals, grows.ret, ?_, grows.scopes,
    grows.outside⟩, ⟨valid'.slots, valid'.names⟩, ?_⟩
  · exact Nat.sub_eq_of_eq_add hdepth
  · rw [GoodStmts, hdepth] at hresult
    exact hresult

/-- A well-typed condition. -/
def GoodCondition (c : Expr) (b : Binder) : Prop := GoodExpr c b ∧ c.ty = .bool

theorem GoodCondition.grows {c : Expr} {b b' : Binder} (h : GoodCondition c b)
    (grows : b.Grows b') : GoodCondition c b' :=
  ⟨h.1.grows grows, h.2⟩

theorem bindCondition_yields (c : Syntax.Expr) : YieldsIfOk b (bindCondition c) GoodCondition := by
  unfold bindCondition
  refine (bindExpr_yields c).bind fun e b₁ _ he => ?_
  split
  · exact .fail
  · rename_i isBool
    exact .pure ⟨he, Decidable.not_not.1 isBool⟩

theorem bindReturn_yields (place : Location) (value : Option Syntax.Expr) :
    Yields b (bindReturn place value) (IfSome GoodStmt) := by
  refine .get_bind fun valid => ?_
  dsimp only
  split
  · split
    · rename_i isVoid
      exact .pure (.some isVoid)
    · exact Yields.report.bind fun _ _ _ _ => .pure .none
  · refine (bindExpr_yields _).attempt.bind fun r b₁ grows hr => ?_
    split
    · exact .pure .none
    · rename_i e
      split
      · exact Yields.report.bind fun _ _ _ _ => .pure .none
      · rename_i same
        refine .pure (.some ⟨hr e rfl, ?_⟩)
        rw [grows.ret]
        exact Decidable.not_not.1 same

theorem bindControl_yields {keyword : String} {s : Stmt}
    (h : ∀ b : Binder, 0 < b.loopDepth → GoodStmt s b) :
    Yields b (bindControl keyword s) (IfSome GoodStmt) := by
  refine .get_bind fun valid => ?_
  split
  · exact Yields.report.bind fun _ _ _ _ => .pure .none
  · rename_i inside
    exact .pure (.some (h b (Nat.pos_of_ne_zero inside)))

theorem bindBounds_yields (start stop : Syntax.Expr) :
    Yields b (bindBounds start stop)
      (IfSome fun p b' => GoodPair p b' ∧ p.1.ty.isInteger = true) := by
  unfold bindBounds
  refine (bindPair_yields (bindExpr_yields start) (bindExpr_yields stop)).attempt.bind
    fun r b₁ _ hr => ?_
  split
  · exact .pure .none
  · rename_i a z
    split
    · rename_i integer
      exact .pure (.some ⟨hr _ rfl, integer⟩)
    · exact Yields.report.bind fun _ _ _ _ => .pure .none

/-- Well-typed branches of a conditional. -/
def GoodBranches (bs : Branches) (b : Binder) : Prop :=
  bs.Typed (BinderStores b.env) b.env b.ret (decide (0 < b.loopDepth))

mutual

/-- A statement that is bound is well typed. -/
theorem bindStmt_yields : ∀ (s : Syntax.Stmt) {b : Binder}, b.scopes ≠ [] →
    Yields b (bindStmt s) (IfSome GoodStmt)
  | .block node body, b, hb => by
    rw [bindStmt]
    exact (bindBlock_yields body hb).bind fun ss b₁ _ hss => .pure (.some hss)
  | .var node decl, b, hb => by
    rw [bindStmt]
    refine (bindDeclaration_yields decl).bind fun r b₁ grows₁ hr => ?_
    split
    · exact .pure .none
    · rename_i ty init
      obtain ⟨notVoid, hinit⟩ := hr _ rfl
      refine (declareLocal_yields (grows₁.scopes_ne_nil hb) _ ty _).bind
        fun slot b₂ grows hslot => ?_
      refine .pure (.some (.inl ?_))
      cases init with
      | none =>
        refine ⟨goodExpr_ofValue (by rw [Value.zero_type]; exact notVoid) _, ?_⟩
        rw [hslot]
        exact congrArg some (Value.zero_type ty).symm
      | some e =>
        obtain ⟨he, hty⟩ := hinit e rfl
        refine ⟨he.grows grows, ?_⟩
        rw [hslot]
        exact congrArg some hty.symm
  | .assign node target op value, b, hb => by
    rw [bindStmt]
    exact bindAssignment_yields.attempt
  | .expr node e, b, hb => by
    rw [bindStmt]
    refine (bindExpr_yields e).attempt.bind fun r b₁ _ hr => ?_
    cases r with
    | none => exact .pure .none
    | some e' => exact .pure (.some (hr e' rfl))
  | .cond node branches, b, hb => by
    rw [bindStmt]
    refine (bindBranches_yields branches hb).bind fun r b₁ _ hr => ?_
    cases r with
    | none => exact .pure .none
    | some bs => exact .pure (.some (hr bs rfl))
  | .while node cond body, b, hb => by
    rw [bindStmt]
    refine Yields.bind (bindCondition_yields cond) fun c b₁ grows₁ hc => ?_
    refine (inLoop_yields (bindBlock_yields body (grows₁.scopes_ne_nil hb))).bind
      fun ss b₂ grows hss => ?_
    have hc' : ∀ c', c = .ok c' → GoodCondition c' b₂ := fun c' same => (hc c' same).grows grows
    refine (Yields.record hc').bind fun r b₃ grows' hr => ?_
    cases r with
    | none => exact .pure .none
    | some c' =>
      obtain ⟨typed, isBool⟩ := hr c' rfl
      exact .pure (.some ⟨typed, isBool, hss.grows grows'⟩)
  | .loop node body, b, hb => by
    rw [bindStmt]
    exact (inLoop_yields (bindBlock_yields body hb)).bind fun ss b₁ _ hss => .pure (.some hss)
  | .for node var start stop body, b, hb => by
    rw [bindStmt]
    refine (bindBounds_yields start stop).bind fun r b₁ grows₁ hr => ?_
    split
    · exact .pure .none
    · rename_i a z
      obtain ⟨⟨ha, hz, same⟩, integer⟩ := hr _ rfl
      refine inScope_yields (grows₁.scopes_ne_nil hb) ?_ fun _ _ h => h
      refine (declareLocal_yields (List.cons_ne_nil _ _) _ a.ty _).bind
        fun limit b₂ grows₂ hlimit => ?_
      have hb₂ := grows₂.scopes_ne_nil (List.cons_ne_nil _ _)
      refine (declareLocal_yields hb₂ _ a.ty _).bind fun slot b₃ grows₃ hslot => ?_
      have hb₃ := grows₃.scopes_ne_nil hb₂
      refine (inLoop_yields (bindBlock_yields body hb₃)).bind fun ss b₄ grows₄ hss => ?_
      have grows := grows₂.trans (grows₃.trans grows₄)
      exact .pure (.some ⟨ha.mono grows.le, hz.mono grows.le, same, integer,
        grows₄.le.type?_eq hslot, (grows₃.trans grows₄).le.type?_eq hlimit, hss⟩)
  | .ret node value, b, hb => by
    rw [bindStmt]
    exact bindReturn_yields _ _
  | .break node, b, hb => by
    rw [bindStmt]
    exact bindControl_yields fun b inside => decide_eq_true inside
  | .continue node, b, hb => by
    rw [bindStmt]
    exact bindControl_yields fun b inside => decide_eq_true inside

theorem bindBranches_yields : ∀ (bs : Syntax.Branches) {b : Binder}, b.scopes ≠ [] →
    Yields b (bindBranches bs) (IfSome GoodBranches)
  | .none, b, hb => by
    rw [bindBranches]
    exact .pure (.some trivial)
  | .otherwise body, b, hb => by
    rw [bindBranches]
    exact (bindBlock_yields body hb).bind fun ss b₁ _ hss => .pure (.some hss)
  | .branch cond body rest, b, hb => by
    rw [bindBranches]
    refine Yields.bind (bindCondition_yields cond) fun c b₁ grows₁ hc => ?_
    have hb₁ := grows₁.scopes_ne_nil hb
    refine (bindBlock_yields body hb₁).bind fun ss b₂ grows hss => ?_
    have hc' : ∀ c', c = .ok c' → GoodCondition c' b₂ := fun c' same => (hc c' same).grows grows
    refine (Yields.record hc').bind fun r b₃ grows₃ hr => ?_
    cases r with
    | none => exact .pure .none
    | some c' =>
      obtain ⟨typed, isBool⟩ := hr c' rfl
      have hb₃ := grows₃.scopes_ne_nil (grows.scopes_ne_nil hb₁)
      refine (bindBranches_yields rest hb₃).bind fun r b₄ grows₄ hrest => ?_
      cases r with
      | none => exact .pure .none
      | some bs =>
        exact .pure (.some ⟨typed.mono grows₄.le, isBool, hss.grows (grows₃.trans grows₄),
          hrest bs rfl⟩)

theorem bindBlock_yields : ∀ (body : Syntax.Block) {b : Binder}, b.scopes ≠ [] →
    Yields b (bindBlock body) GoodStmts
  | .mk node ss, b, hb => by
    rw [bindBlock]
    exact inScope_yields hb (bindStmts_yields ss (List.cons_ne_nil _ _)) fun _ _ h => h

theorem bindStmts_yields : ∀ (ss : List Syntax.Stmt) {b : Binder}, b.scopes ≠ [] →
    Yields b (bindStmts ss) GoodStmts
  | [], b, hb => by
    rw [bindStmts]
    exact .pure trivial
  | s :: ss, b, hb => by
    rw [bindStmts]
    refine (bindStmt_yields s hb).bind fun r b₁ grows₁ hr => ?_
    refine (bindStmts_yields ss (grows₁.scopes_ne_nil hb)).bind fun rest b₂ grows hrest => ?_
    cases r with
    | none => exact .pure hrest
    | some st => exact .pure ⟨(hr st rfl).grows grows, hrest⟩

end

end ScriptLang.Bound
