import ScriptLang.Proofs.LexicalScope

/-!
# Binding resolves names by the rules of scope

A step of binding takes back no error.  So where there are none in the end there were none on the
way (`Succeeds`), and all that was written has been bound.  The scopes of the binder are the
declarations that can be seen (`Binder.seen`), and the number of its locals is the next slot.  What
has been declared by then stays declared (`Binder.Within`), so a step is judged by what is declared
in the end.
-/

namespace ScriptLang.Bound

open Syntax (Ident TypeName)

/-! ### Steps without errors -/

/-- The step takes back no error, and if there is none behind it then the state before, its result
and the state behind it are in the relation. -/
def Succeeds {α : Type} (x : BindM α) (R : Binder → α → Binder → Prop) : Prop :=
  ∀ b, b.errors <+: (x.run b).2.errors ∧ ((x.run b).2.errors = [] → R b (x.run b).1 (x.run b).2)

/-- As `Succeeds`, of a step that may fail and then has no result. -/
def SucceedsIfOk {α : Type} (x : ExprM α) (R : Binder → α → Binder → Prop) : Prop :=
  Succeeds x.run fun b r b' => ∀ a, r = .ok a → R b a b'

section

variable {α β : Type} {P R : Binder → α → Binder → Prop}

theorem Succeeds.pure {a : α} (h : ∀ b, R b a b) : Succeeds (Pure.pure a) R := fun b =>
  ⟨List.prefix_rfl, fun _ => h b⟩

theorem Succeeds.mono {x : BindM α} (hx : Succeeds x P) (h : ∀ b a b', P b a b' → R b a b') :
    Succeeds x R := fun b => ⟨(hx b).1, fun clean => h _ _ _ ((hx b).2 clean)⟩

/-- What follows a step is judged with what the step has done in mind. -/
theorem Succeeds.bind {x : BindM α} {f : α → BindM β} {R : Binder → β → Binder → Prop}
    (hx : Succeeds x P) (hf : ∀ a, Succeeds (f a) fun b' c b'' => ∀ b, P b a b' → R b c b'') :
    Succeeds (x >>= f) R := by
  intro b
  obtain ⟨grown, done⟩ := hx b
  obtain ⟨grown', done'⟩ := hf (x.run b).1 (x.run b).2
  rw [StateT.run_bind]
  exact ⟨grown.trans grown', fun clean => done' clean b (done (List.prefix_nil.1 (clean ▸ grown')))⟩

theorem Succeeds.modifyGet {g : Binder → α × Binder}
    (errors : ∀ b, (g b).2.errors = b.errors) (h : ∀ b, R b (g b).1 (g b).2) :
    Succeeds (modifyGet g) R := fun b =>
  ⟨(errors b).symm ▸ List.prefix_rfl, fun _ => h b⟩

theorem Succeeds.get_bind {f : Binder → BindM α}
    (h : ∀ s, Succeeds (f s) fun b a b' => b = s → R b a b') : Succeeds (get >>= f) R := fun b =>
  ⟨(h b b).1, fun clean => (h b b).2 clean rfl⟩

theorem Succeeds.report (fault : Fault) (place : Location) :
    Succeeds (report fault place) fun _ _ _ => False := fun _ =>
  ⟨List.prefix_append _ _, fun clean =>
    List.append_ne_nil_of_right_ne_nil _ (List.cons_ne_nil _ _) clean⟩

/-- What follows a step that has no result where it must have one. -/
theorem Succeeds.without_result {a : β} {Q : Binder → α → Binder → Prop}
    {R : Binder → β → Binder → Prop} :
    Succeeds (Pure.pure a)
      fun b' r b'' => ∀ b, (∃ c, (none : Option α) = some c ∧ Q b c b') → R b r b'' := by
  refine .pure ?_
  rintro b' b ⟨c, same, -⟩
  cases same

/-- Behind a report nothing counts. -/
theorem Succeeds.report_bind {fault : Fault} {place : Location} {a : α} :
    Succeeds (do Bound.report fault place; return a) R :=
  (report fault place).bind fun _ => .pure fun _ _ never => never.elim

theorem Succeeds.record (r : Except BindError α) :
    Succeeds (record r) fun b o b' => ∃ a, r = .ok a ∧ o = some a ∧ b' = b := by
  cases r with
  | ok a => exact .pure fun b => ⟨a, rfl, rfl, rfl⟩
  | error e =>
    exact fun _ => ⟨List.prefix_append _ _, fun clean =>
      (List.append_ne_nil_of_right_ne_nil _ (List.cons_ne_nil _ _) clean).elim⟩

theorem SucceedsIfOk.pure {a : α} (h : ∀ b, R b a b) : SucceedsIfOk (Pure.pure a) R :=
  Succeeds.pure fun b a' same => by
    cases same
    exact h b

theorem SucceedsIfOk.fail {fault : Fault} {place : Location} :
    SucceedsIfOk (fail (α := α) fault place) R :=
  Succeeds.pure fun _ _ same => by cases same

theorem SucceedsIfOk.mono {x : ExprM α} (hx : SucceedsIfOk x P)
    (h : ∀ b a b', P b a b' → R b a b') : SucceedsIfOk x R :=
  Succeeds.mono hx fun b _ b' done a same => h b a b' (done a same)

theorem SucceedsIfOk.bind {x : ExprM α} {f : α → ExprM β} {R : Binder → β → Binder → Prop}
    (hx : SucceedsIfOk x P)
    (hf : ∀ a, SucceedsIfOk (f a) fun b' c b'' => ∀ b, P b a b' → R b c b'') :
    SucceedsIfOk (x >>= f) R := by
  rw [SucceedsIfOk, ExceptT.run_bind]
  refine Succeeds.bind hx fun r => ?_
  cases r with
  | ok a =>
    exact Succeeds.mono (hf a) fun _ _ _ done b before c same => done c same b (before a rfl)
  | error e => exact .pure fun _ _ _ _ same => by cases same

/-- Whichever of two steps is taken, what follows is the same. -/
theorem SucceedsIfOk.ite_bind {c : Prop} [Decidable c] {x y : ExprM α} {f : α → ExprM β}
    {R : Binder → β → Binder → Prop} (hx : SucceedsIfOk x P) (hy : SucceedsIfOk y P)
    (hf : ∀ a, SucceedsIfOk (f a) fun b' c b'' => ∀ b, P b a b' → R b c b'') :
    SucceedsIfOk (if c then x >>= f else y >>= f) R := by
  split
  · exact hx.bind hf
  · exact hy.bind hf

theorem SucceedsIfOk.get_bind {f : Binder → ExprM α}
    (h : ∀ s, SucceedsIfOk (f s) fun b a b' => b = s → R b a b') :
    SucceedsIfOk (get >>= f) R := fun b =>
  ⟨(h b b).1, fun clean a same => (h b b).2 clean a same rfl⟩

/-- A step that writes what it has read is judged from its state. -/
theorem SucceedsIfOk.get_bind_self {f : Binder → ExprM α}
    (h : ∀ b, b.errors <+: ((f b).run.run b).2.errors ∧ (((f b).run.run b).2.errors = [] →
      ∀ a, ((f b).run.run b).1 = .ok a → R b a ((f b).run.run b).2)) :
    SucceedsIfOk (get >>= f) R := h

theorem SucceedsIfOk.attempt {x : ExprM α} (hx : SucceedsIfOk x R) :
    Succeeds (attempt x) fun b o b' => ∃ a, o = some a ∧ R b a b' :=
  Succeeds.bind hx fun r => (Succeeds.record r).mono fun _ _ _ ⟨a, ok, result, same⟩ _ done =>
    ⟨a, result, same ▸ done a ok⟩

end

/-! ### States -/

/-- Functions are added that are called without a declaration. -/
def AddsCalled (fs fs' : List Function) : Prop :=
  ∃ added, fs' = fs ++ added ∧ ∀ f ∈ added, ∃ i place, f = implicitFunction i place

theorem AddsCalled.refl (fs : List Function) : AddsCalled fs fs :=
  ⟨[], (List.append_nil fs).symm, nofun⟩

theorem AddsCalled.trans {fs fs' fs'' : List Function} (h : AddsCalled fs fs')
    (h' : AddsCalled fs' fs'') : AddsCalled fs fs'' := by
  obtain ⟨added, rfl, implicit⟩ := h
  obtain ⟨added', rfl, implicit'⟩ := h'
  exact ⟨added ++ added', List.append_assoc _ _ _, fun f hf =>
    (List.mem_append.1 hf).elim (implicit f) (implicit' f)⟩

theorem AddsCalled.names {fs fs' : List Function} (h : AddsCalled fs fs') :
    fs.map Function.name <+: fs'.map Function.name := by
  obtain ⟨added, rfl, -⟩ := h
  rw [List.map_append]
  exact List.prefix_append _ _

namespace Binder

/-- The declarations that can be seen. -/
def seen (b : Binder) : Visible := b.scopes.flatten.map fun entry => (entry.1, entry.2.slot)

def scope (b : Binder) : Scope := ⟨b.seen, b.locals.length⟩

/-- What has been declared so far is a part of what is declared in the end. -/
structure Within (b : Binder) (d : Declared) : Prop where
  globals : d.globals = b.globals.map Global.name
  functions : b.functions.map Function.name <+: d.functions
  locals : b.locals <+: d.locals

/-- What expressions may change. -/
structure Adds (b b' : Binder) : Prop where
  functions : AddsCalled b.functions b'.functions
  globals : b'.globals = b.globals
  scopes : b'.scopes = b.scopes
  locals : b'.locals = b.locals

/-- What statements may change; inside a function there is a scope. -/
structure Extends (b b' : Binder) : Prop where
  functions : AddsCalled b.functions b'.functions
  globals : b'.globals = b.globals
  locals : b.locals <+: b'.locals
  outer : b'.scopes.tail = b.scopes.tail
  inside : b'.scopes ≠ []

variable {b b' b'' : Binder} {d : Declared}

theorem Adds.refl (b : Binder) : b.Adds b := ⟨.refl _, rfl, rfl, rfl⟩

theorem Adds.trans (h : b.Adds b') (h' : b'.Adds b'') : b.Adds b'' where
  functions := h.functions.trans h'.functions
  globals := h'.globals.trans h.globals
  scopes := h'.scopes.trans h.scopes
  locals := h'.locals.trans h.locals

theorem Adds.extends (h : b.Adds b') (inside : b.scopes ≠ []) : b.Extends b' where
  functions := h.functions
  globals := h.globals
  locals := h.locals ▸ List.prefix_rfl
  outer := congrArg List.tail h.scopes
  inside := h.scopes ▸ inside

theorem Extends.refl (inside : b.scopes ≠ []) : b.Extends b := (Adds.refl b).extends inside

theorem Extends.trans (h : b.Extends b') (h' : b'.Extends b'') : b.Extends b'' where
  functions := h.functions.trans h'.functions
  globals := h'.globals.trans h.globals
  locals := h.locals.trans h'.locals
  outer := h'.outer.trans h.outer
  inside := h'.inside

theorem Within.before (h : b'.Within d) (grows : b.Extends b') : b.Within d where
  globals := grows.globals ▸ h.globals
  functions := grows.functions.names.trans h.functions
  locals := grows.locals.trans h.locals

theorem Within.beforeExpr (h : b'.Within d) (adds : b.Adds b') : b.Within d where
  globals := adds.globals ▸ h.globals
  functions := adds.functions.names.trans h.functions
  locals := adds.locals ▸ h.locals

theorem Adds.seen (h : b.Adds b') : b'.seen = b.seen := by rw [Binder.seen, h.scopes, Binder.seen]

theorem Adds.scope (h : b.Adds b') : b'.scope = b.scope := by
  rw [Binder.scope, Binder.scope, h.seen, h.locals]

/-- The latest declaration that can be seen is that of the innermost scope that has one. -/
theorem lookup_seen (b : Binder) (name : String) :
    b.seen.lookup name = (b.local? name).map LocalEntry.slot := by
  have scopes : ∀ (entries : List (String × LocalEntry)),
      (entries.map fun entry => (entry.1, entry.2.slot)).lookup name =
        (entries.lookup name).map LocalEntry.slot := by
    intro entries
    induction entries with
    | nil => rfl
    | cons entry entries ih =>
      rw [List.map_cons, List.lookup_cons, List.lookup_cons, ih]
      cases name == entry.1 <;> rfl
  rw [seen, scopes, local?]
  congr 1
  induction b.scopes with
  | nil => rfl
  | cons scope outer ih =>
    rw [List.flatten_cons, List.lookup_append, List.findSome?_cons, ih]
    cases scope.lookup name <;> rfl

end Binder

open Binder (Adds Extends Within)

/-! ### Expressions -/

/-- The result is what the expression is bound to by the rules of scope. -/
def ExprBound (e : Syntax.Expr) (b : Binder) (e' : Expr) (b' : Binder) : Prop :=
  b.Adds b' ∧ ∀ d, b'.Within d → ExprResolves d b.seen e e'

theorem ExprBound.literal (e : Syntax.Expr) (written : IsLiteral e) {b b' : Binder} (same : b' = b)
    {e' : Expr} (h : ∃ info value, e' = .literal info value) : ExprBound e b e' b' := by
  obtain ⟨info, value, rfl⟩ := h
  exact ⟨same ▸ .refl b, fun d _ => .literal written info value⟩

theorem literalOf_succeeds {ty : Ty} {value : Int} {place : Location} :
    SucceedsIfOk (literalOf ty value place)
      fun b e' b' => b' = b ∧ ∃ info value, e' = .literal info value := by
  unfold literalOf
  split
  · exact .pure fun b => ⟨rfl, _, _, rfl⟩
  · exact .fail

theorem resolveType_succeeds (t : TypeName) :
    SucceedsIfOk (resolveType t) fun b ty b' => Ty.ofName? t.name = some ty ∧ b' = b := by
  unfold resolveType
  split
  · next ty known => exact .pure fun b => ⟨known, rfl⟩
  · exact .fail

theorem bindInteger_succeeds {place : Location} {value : Int} {suffix : Option TypeName}
    {expected : Option Ty} :
    SucceedsIfOk (bindInteger place value suffix expected)
      fun b e' b' => b' = b ∧ ∃ info value, e' = .literal info value := by
  unfold bindInteger
  split
  · refine (resolveType_succeeds _).bind fun ty => ?_
    split
    · exact literalOf_succeeds.mono fun b e' b' done b₀ resolved => resolved.2 ▸ done
    · exact .fail
  · split
    · exact .pure fun b => ⟨rfl, _, _, rfl⟩
    · exact literalOf_succeeds
    · exact literalOf_succeeds

/-- What is found by its name has that name. -/
theorem getElem?_of_found {α : Type} {as : List α} {view : α → String} {name : String} {k : Nat}
    {a : α}
    (h : (as.zipIdx.find? fun q => view q.1 == name).map (fun q => (q.2, q.1)) = some (k, a)) :
    (as.map view)[k]? = some name := by
  rw [List.getElem?_map, getElem?_of_find?_zipIdx h]
  obtain ⟨found, hfound, same⟩ := Option.map_eq_some_iff.1 h
  cases same
  exact congrArg some (beq_iff_eq.1 (List.find?_some hfound :))

/-- A name stands for what the binder takes it for. -/
theorem means_of_local? {b : Binder} {d : Declared} {name : String} {entry : LocalEntry}
    (h : b.local? name = some entry) : d.Means b.seen name (.local entry.slot) :=
  .local entry.slot (by rw [b.lookup_seen, h]; rfl)

theorem means_of_global? {b : Binder} {d : Declared} (within : b.Within d) {name : String}
    (undeclared : b.local? name = none) {id : Nat} {g : Global}
    (h : b.global? name = some (id, g)) : d.Means b.seen name (.global id) :=
  .global id (by rw [b.lookup_seen, undeclared]; rfl) (within.globals ▸ getElem?_of_found h)

theorem bindName_succeeds (node : Syntax.Node) (name : String) {place : Location} :
    SucceedsIfOk (bindName name place) (ExprBound (.name node name)) := by
  refine .get_bind fun s => ?_
  split
  · next entry found =>
    refine .pure fun b same => ?_
    subst same
    exact ⟨.refl b, fun d _ => .name node _ (means_of_local? found)⟩
  · next undeclared =>
    split
    · next id g found =>
      refine .pure fun b same => ?_
      subst same
      exact ⟨.refl b, fun d within => .name node _ (means_of_global? within undeclared found)⟩
    · exact .fail

theorem bindCallee_succeeds (callee : Ident) :
    SucceedsIfOk (bindCallee callee) fun b found b' =>
      b.Adds b' ∧ (b'.functions.map Function.name)[found.1]? = some callee.name := by
  refine .get_bind_self fun b => ?_
  split
  · next found hfound =>
    refine ⟨List.prefix_rfl, fun _ result same => ?_⟩
    cases same
    exact ⟨.refl b, getElem?_of_found hfound⟩
  · split
    · next i known =>
      refine ⟨List.prefix_rfl, fun _ result same => ?_⟩
      cases same
      refine ⟨⟨⟨_, rfl, fun f hf => ⟨i, _, List.mem_singleton.1 hf⟩⟩, rfl, rfl, rfl⟩, ?_⟩
      change (List.map Function.name (b.functions ++ [_]))[b.functions.length]? = _
      simp [implicitFunction, ofName?_name known]
    · refine ⟨List.prefix_rfl, fun _ result same => ?_⟩
      cases same

/-- An argument may be converted. -/
theorem fitArg_succeeds {isIntrinsic : Bool} {param : Ty} {e : Expr} :
    SucceedsIfOk (fitArg isIntrinsic param e)
      fun b e' b' => b' = b ∧ (e' = e ∨ ∃ info, e' = .cast info e) := by
  unfold fitArg
  split
  · exact .pure fun b => ⟨rfl, .inl rfl⟩
  · split
    · exact .pure fun b => ⟨rfl, .inr ⟨_, rfl⟩⟩
    · exact .fail

/-- An expression that has been bound may be bound once more, now that another type is expected. -/
def Rebound (e : Syntax.Expr) (e' : Expr) (b : Binder) (e'' : Expr) (b' : Binder) : Prop :=
  (e'' = e' ∧ b' = b) ∨ ExprBound e b e'' b'

theorem rebinds {e : Syntax.Expr} {e' : Expr} {x : ExprM Expr} (h : SucceedsIfOk x (ExprBound e)) :
    SucceedsIfOk x (Rebound e e') :=
  h.mono fun _ _ _ bound => .inr bound

/-- Two expressions are bound, and then perhaps the first once more. -/
theorem boundPair {l r : Syntax.Expr} {l' r' l'' : Expr} {b b₁ b₂ b₃ : Binder}
    (left : ExprBound l b l' b₁) (right : ExprBound r b₁ r' b₂) (again : Rebound l l' b₂ l'' b₃) :
    b.Adds b₃ ∧ (∀ d, b₃.Within d → ExprResolves d b.seen l l'') ∧
      ∀ d, b₃.Within d → ExprResolves d b.seen r r' := by
  obtain ⟨addsl, left⟩ := left
  obtain ⟨addsr, right⟩ := right
  have adds := addsl.trans addsr
  rcases again with ⟨rfl, rfl⟩ | ⟨addsAgain, again⟩
  · refine ⟨adds, fun d within => left d (within.beforeExpr addsr), fun d within => ?_⟩
    exact addsl.seen ▸ right d within
  · refine ⟨adds.trans addsAgain, fun d within => adds.seen ▸ again d within, fun d within => ?_⟩
    exact addsl.seen ▸ right d (within.beforeExpr addsAgain)

/-- The sides of a pair are bound by the rules of scope if either is, whatever is expected of it. -/
theorem bindPair_succeeds {l r : Syntax.Expr}
    (hl : ∀ expected, SucceedsIfOk (bindExpr l expected) (ExprBound l))
    (hr : ∀ expected, SucceedsIfOk (bindExpr r expected) (ExprBound r)) (expected : Option Ty) :
    SucceedsIfOk (bindPair l r expected) fun b p b' =>
      p.1.ty = p.2.ty ∧ b.Adds b' ∧ (∀ d, b'.Within d → ExprResolves d b.seen l p.1) ∧
        ∀ d, b'.Within d → ExprResolves d b.seen r p.2 := by
  unfold bindPair
  refine (hl _).bind fun l' => ?_
  refine (hr _).bind fun r' => ?_
  refine SucceedsIfOk.ite_bind (rebinds (hl (some r'.ty))) (.pure fun b => .inl ⟨rfl, rfl⟩)
    fun l'' => ?_
  dsimp only
  split
  · exact .fail
  · next same =>
    exact .pure fun b₃ b₂ again b₁ right b left =>
      ⟨Decidable.not_not.1 same, boundPair left right again⟩

mutual

theorem bindExpr_succeeds : ∀ (e : Syntax.Expr) (expected : Option Ty),
    SucceedsIfOk (bindExpr e expected) (ExprBound e)
  | .integer node value suffix, expected => by
    rw [bindExpr]
    exact bindInteger_succeeds.mono fun _ _ _ done =>
      .literal (.integer node value suffix) trivial done.1 done.2
  | .decimal node x, expected => by
    rw [bindExpr]
    exact .pure fun _ => .literal (.decimal node x) trivial rfl ⟨_, _, rfl⟩
  | .string node s, expected => by
    rw [bindExpr]
    exact .pure fun _ => .literal (.string node s) trivial rfl ⟨_, _, rfl⟩
  | .bool node c, expected => by
    rw [bindExpr]
    exact .pure fun _ => .literal (.bool node c) trivial rfl ⟨_, _, rfl⟩
  | .name node name, expected => by
    rw [bindExpr]
    exact bindName_succeeds node name
  | .unary node op operand, expected => by
    have ordinary : SucceedsIfOk (do
        let e ← bindExpr operand expected
        if unaryAllowed op e.ty then return .unary ⟨e.ty, node.token.location⟩ op e
        else fail (.invalidOperand op.symbol e.ty) node.token.location)
        (ExprBound (.unary node op operand)) := by
      refine (bindExpr_succeeds operand expected).bind fun e => ?_
      split
      · exact .pure fun b₁ b ⟨adds, bound⟩ =>
          ⟨adds, fun d within => .unary node op _ (bound d within)⟩
      · exact .fail
    cases op with
    | neg =>
      cases operand with
      | integer node' value suffix =>
        rw [bindExpr]
        exact bindInteger_succeeds.mono fun _ _ _ done =>
          .literal (.unary node .neg (.integer node' value suffix)) trivial done.1 done.2
      | _ => exact ordinary
    | _ => exact ordinary
  | .binary node op lhs rhs, expected => by
    rw [bindExpr_binary]
    refine (bindPair_succeeds (bindExpr_succeeds lhs) (bindExpr_succeeds rhs) _).bind fun p => ?_
    split
    · exact .pure fun b' b ⟨_, adds, left, right⟩ =>
        ⟨adds, fun d within => .binary node op _ (left d within) (right d within)⟩
    · exact .fail
  | .cast node inner type, expected => by
    rw [bindExpr]
    refine (resolveType_succeeds _).bind fun target => ?_
    refine (bindExpr_succeeds inner none).bind fun e => ?_
    split
    · refine .pure fun b₂ b₁ bound b resolved => ?_
      obtain ⟨-, rfl⟩ := resolved
      exact ⟨bound.1, fun d within => .cast node type _ (bound.2 d within)⟩
    · exact .fail
  | .ternary node cond yes no, expected => by
    rw [bindExpr_ternary]
    refine (bindExpr_succeeds cond _).bind fun c => ?_
    split
    · exact .fail
    · refine (bindPair_succeeds (bindExpr_succeeds yes) (bindExpr_succeeds no) _).bind fun p => ?_
      refine .pure fun b₂ b₁ ⟨_, adds', yes, no⟩ b ⟨adds, cond⟩ => ?_
      refine ⟨adds.trans adds', fun d within => .ternary node _ ?_ ?_ ?_⟩
      · exact cond d (within.beforeExpr adds')
      · exact adds.seen ▸ yes d within
      · exact adds.seen ▸ no d within
  | .call node callee args, expected => by
    rw [bindExpr]
    refine (bindCallee_succeeds callee).bind fun found => ?_
    obtain ⟨id, f⟩ := found
    dsimp only
    split
    · exact .fail
    · next count =>
      refine (bindArgs_succeeds args f.params _ (Decidable.not_not.1 count).symm).bind fun es => ?_
      refine .pure fun b₂ b₁ ⟨adds, bound⟩ b ⟨called, name⟩ => ?_
      refine ⟨called.trans adds, fun d within => .call node _ ?_ ?_⟩
      · exact getElem?_of_prefix (within.beforeExpr adds).functions name
      · rw [← called.seen]
        exact bound d within

theorem bindArgs_succeeds : ∀ (args : List Syntax.Expr) (params : List Ty) (isIntrinsic : Bool),
    args.length = params.length →
    SucceedsIfOk (bindArgs isIntrinsic args params) fun b es b' =>
      b.Adds b' ∧ ∀ d, b'.Within d → List.Forall₂ (ExprResolves d b.seen) args es
  | [], params, isIntrinsic, count => by
    cases params with
    | nil =>
      rw [bindArgs]
      · exact .pure fun b => ⟨.refl b, fun _ _ => .nil⟩
      · simp
    | cons p ps => cases count
  | arg :: args, params, isIntrinsic, count => by
    cases params with
    | nil => cases count
    | cons p ps =>
      rw [bindArgs]
      refine (bindExpr_succeeds arg _).bind fun e => ?_
      refine fitArg_succeeds.bind fun e' => ?_
      refine (bindArgs_succeeds args ps isIntrinsic (Nat.succ.inj count)).bind fun es => ?_
      refine .pure fun b₃ b₂ ⟨addsRest, rest⟩ b₁ ⟨same, fits⟩ b ⟨adds, bound⟩ => ?_
      subst same
      refine ⟨adds.trans addsRest, fun d within => .cons ?_ (adds.seen ▸ rest d within)⟩
      have first := bound d (within.beforeExpr addsRest)
      rcases fits with rfl | ⟨info, rfl⟩
      · exact first
      · exact .converted info first

end

theorem bindCondition_succeeds (e : Syntax.Expr) :
    SucceedsIfOk (bindCondition e) (ExprBound e) := by
  unfold bindCondition
  refine (bindExpr_succeeds e _).bind fun c => ?_
  split
  · exact .fail
  · exact .pure fun b₁ b bound => bound

/-! ### Declarations and assignments -/

/-- The type and the initial value are those of the declaration. -/
def DeclarationBound (decl : Syntax.VarDecl) (b : Binder) (r : Option (Ty × Option Expr))
    (b' : Binder) : Prop :=
  b.Adds b' ∧ ∃ ty init, r = some (ty, init) ∧
    ∀ d, b'.Within d → DeclarationResolves d b.seen decl ty init

/-- The type that is written with a declaration has been read, if one is. -/
def TypeRead (decl : Syntax.VarDecl) (annotated : Option Ty) : Prop :=
  Option.Rel (fun t ty => Ty.ofName? t.name = some ty) decl.type annotated

/-- What a declaration comes to once its type and its initial value are known and fit. -/
theorem declarationResolves {d : Declared} {seen : Visible} {decl : Syntax.VarDecl}
    {annotated : Option Ty} {init : Option Expr}
    (read : TypeRead decl annotated)
    (value : Option.Rel (ExprResolves d seen) decl.init init)
    (fits : ∀ ty e, annotated = some ty → init = some e → e.ty = ty)
    (known : annotated ≠ none ∨ init ≠ none) :
    DeclarationResolves d seen decl (annotated.getD (init.elim .void Expr.ty)) init where
  written t type := by
    rw [TypeRead, type] at read
    cases read with
    | some resolved => exact resolved
  typed e same := by
    subst same
    cases annotated with
    | some ty => exact fits ty e rfl rfl
    | none => rfl
  known := by
    refine known.imp (fun given nothing => given ?_) (fun given nothing => given ?_)
    · rw [TypeRead, nothing] at read
      cases read
      rfl
    · rw [nothing] at value
      cases value
      rfl
  value := value

theorem bindDeclaration_succeeds (decl : Syntax.VarDecl) :
    Succeeds (bindDeclaration decl) (DeclarationBound decl) := by
  unfold bindDeclaration
  extract_lets location afterType
  -- the type is read first, then the initial value, and then both are checked
  have typed : ∀ annotated, Succeeds (afterType annotated) fun b r b' =>
      TypeRead decl annotated → DeclarationBound decl b r b' := by
    intro annotated
    unfold afterType
    extract_lets afterInit
    have valued : ∀ init, Succeeds (afterInit init) fun b' r b'' => ∀ b, b.Adds b' →
        (∀ d, b'.Within d → Option.Rel (ExprResolves d b.seen) decl.init init) →
          TypeRead decl annotated → DeclarationBound decl b r b'' := by
      intro init
      unfold afterInit
      extract_lets ty checked
      have kept (fits : ∀ ty e, annotated = some ty → init = some e → e.ty = ty)
          (known : annotated ≠ none ∨ init ≠ none) : Succeeds (checked ()) fun b' r b'' => ∀ b,
            b.Adds b' → (∀ d, b'.Within d → Option.Rel (ExprResolves d b.seen) decl.init init) →
              TypeRead decl annotated → DeclarationBound decl b r b'' := by
        unfold checked
        split
        · exact .report_bind
        · exact .pure fun b' b adds value read =>
            ⟨adds, ty, init, rfl, fun d within =>
              declarationResolves read (value d within) fits known⟩
      split
      · split
        · exact .report_bind
        · next same =>
          refine kept (fun ty e hann he => ?_) (.inl (Option.some_ne_none _))
          cases hann
          cases he
          exact Decidable.not_not.1 same
      · exact .report_bind
      · next both neither =>
        refine kept (fun ty e hann he => absurd hann (both ty e · he)) ?_
        exact not_and_or.1 fun none => neither none.1 none.2
    split
    · next e given =>
      refine (bindExpr_succeeds e annotated).attempt.bind fun r => ?_
      split
      · next e' =>
        refine (valued (some e')).mono fun b' r b'' done b found => ?_
        obtain ⟨a, same, adds, bound⟩ := found
        cases same
        exact done b adds fun d within => given ▸ .some (bound d within)
      · exact .without_result
    · next given =>
      exact (valued none).mono fun b r b' done => done b (.refl b) fun d within => given ▸ .none
  split
  · next t given =>
    refine (resolveType_succeeds t).attempt.bind fun r => ?_
    split
    · next ty =>
      refine (typed (some ty)).mono fun b' r b'' done b found => ?_
      obtain ⟨a, same, resolved, rfl⟩ := found
      cases same
      exact done (by rw [TypeRead, given]; exact .some resolved)
    · exact .without_result
  · next given =>
    exact (typed none).mono fun b r b' done => done (by rw [TypeRead, given]; exact .none)

/-- A new slot is the next one, and its name can be seen from then on. -/
theorem declareLocal_succeeds (name : String) (ty : Ty) (isConst : Bool) :
    Succeeds (declareLocal name ty isConst) fun b slot b' => b.scopes ≠ [] →
      slot = b.locals.length ∧ b.Extends b' ∧ b'.scope = b.scope.declare name ∧
        b'.locals[b.locals.length]? = some ⟨name, ty⟩ := by
  refine fun b => ⟨List.prefix_rfl, fun _ inside => ⟨rfl, ?_⟩⟩
  obtain ⟨scope, outer, scopes⟩ := List.exists_cons_of_ne_nil inside
  have run : ((declareLocal name ty isConst).run b).2 =
      { b with locals := b.locals ++ [⟨name, ty⟩],
               scopes := ((name, ⟨b.locals.length, isConst⟩) :: scope) :: outer } := by
    cases b
    cases scopes
    rfl
  rw [run]
  refine ⟨⟨.refl _, rfl, List.prefix_append _ _, ?_, List.cons_ne_nil _ _⟩, ?_, ?_⟩
  · rw [scopes]
    rfl
  · rw [Binder.scope, Binder.scope, Binder.seen, Binder.seen, scopes]
    simp [Scope.declare]
  · simp

theorem bindTarget_succeeds (target : Ident) :
    SucceedsIfOk (bindTarget target) fun b r b' =>
      b' = b ∧ ∀ d, b.Within d → d.Means b.seen target.name r.1 := by
  refine .get_bind fun s => ?_
  dsimp only
  split
  · next entry found =>
    split
    · exact .fail
    · refine .pure fun b same => ⟨rfl, fun d _ => ?_⟩
      subst same
      exact means_of_local? found
  · next undeclared =>
    split
    · next id g found =>
      split
      · exact .fail
      · refine .pure fun b same => ⟨rfl, fun d within => ?_⟩
        subst same
        exact means_of_global? within undeclared found
    · split
      · exact .fail
      · exact .fail

/-- The statement has been bound, from the place that the state stands for up to the one behind it.
-/
def StmtBound (stmt : Syntax.Stmt) (b : Binder) (bound : Stmt) (b' : Binder) : Prop :=
  b.Extends b' ∧ ∀ d, b'.Within d → StmtResolves d b.scope stmt bound b'.scope

theorem StmtBound.of_expr {stmt : Syntax.Stmt} {b b' : Binder} {bound : Stmt}
    (inside : b.scopes ≠ []) (adds : b.Adds b')
    (h : ∀ d, b'.Within d → StmtResolves d b.scope stmt bound b.scope) :
    StmtBound stmt b bound b' :=
  ⟨adds.extends inside, fun d within => adds.scope.symm ▸ h d within⟩

theorem bindAssignment_succeeds (node : Syntax.Node) (place : Location) (target : Ident)
    (op : Option BinaryOp) (value : Syntax.Expr) :
    SucceedsIfOk (bindAssignment place target op value) fun b bound b' => b.scopes ≠ [] →
      StmtBound (.assign node target op value) b bound b' := by
  unfold bindAssignment
  refine (bindTarget_succeeds target).bind fun r => ?_
  obtain ⟨binding, ty⟩ := r
  refine (bindExpr_succeeds value _).bind fun e => ?_
  dsimp only
  split
  · split
    · refine .pure fun b₂ b₁ ⟨adds, bound⟩ b ⟨same, means⟩ inside => ?_
      subst same
      exact .of_expr inside adds fun d within =>
        .assignThrough _ node place _ _ _ (means d (within.beforeExpr adds)) (bound d within)
    · exact .fail
  · split
    · exact .fail
    · refine .pure fun b₂ b₁ ⟨adds, bound⟩ b ⟨same, means⟩ inside => ?_
      subst same
      exact .of_expr inside adds fun d within =>
        .assign _ node place (means d (within.beforeExpr adds)) (bound d within)

/-! ### Statements -/

section

variable {α : Type} {P : Binder → α → Binder → Prop}

theorem Succeeds.inScope {x : BindM α} (hx : Succeeds x P) :
    Succeeds (inScope x) fun b a b' => ∃ inner, P { b with scopes := [] :: b.scopes } a inner ∧
      b' = { inner with scopes := inner.scopes.tail } := fun b =>
  ⟨(hx { b with scopes := [] :: b.scopes }).1, fun clean => ⟨_, (hx _).2 clean, rfl⟩⟩

theorem Succeeds.inLoop {x : BindM α} (hx : Succeeds x P) :
    Succeeds (inLoop x) fun b a b' => ∃ inner, P { b with loopDepth := b.loopDepth + 1 } a inner ∧
      b' = { inner with loopDepth := inner.loopDepth - 1 } := fun b =>
  ⟨(hx { b with loopDepth := b.loopDepth + 1 }).1, fun clean => ⟨_, (hx _).2 clean, rfl⟩⟩

end

theorem bindReturn_succeeds (node : Syntax.Node) (place : Location) (value : Option Syntax.Expr) :
    Succeeds (bindReturn place value) fun b r b' => b.scopes ≠ [] →
      ∃ bound, r = some bound ∧ StmtBound (.ret node value) b bound b' := by
  refine .get_bind fun s => ?_
  dsimp only
  split
  · split
    · refine .pure fun b _ inside => ⟨_, rfl, ?_⟩
      exact .of_expr inside (.refl b) fun d _ => .ret _ node place .none
    · exact .report_bind
  · next e =>
    refine (bindExpr_succeeds e _).attempt.bind fun r => ?_
    split
    · exact .without_result
    · next e' =>
      split
      · exact .report_bind
      · refine .pure fun b' b bound _ inside => ⟨_, rfl, ?_⟩
        obtain ⟨a, same, adds, bound⟩ := bound
        cases same
        exact .of_expr inside adds fun d within => .ret _ node place (.some (bound d within))

theorem bindControl_succeeds {keyword : String} {stmt : Syntax.Stmt} {bound : Stmt}
    (h : ∀ d s, StmtResolves d s stmt bound s) :
    Succeeds (bindControl keyword bound) fun b r b' => b.scopes ≠ [] →
      ∃ bound, r = some bound ∧ StmtBound stmt b bound b' := by
  refine .get_bind fun s => ?_
  split
  · exact .report_bind
  · exact .pure fun b _ inside => ⟨_, rfl, .of_expr inside (.refl b) fun d _ => h d _⟩

theorem bindBounds_succeeds (start stop : Syntax.Expr) :
    Succeeds (bindBounds start stop) fun b r b' => ∃ first last, r = some (first, last) ∧
      first.ty = last.ty ∧ b.Adds b' ∧ (∀ d, b'.Within d → ExprResolves d b.seen start first) ∧
        ∀ d, b'.Within d → ExprResolves d b.seen stop last := by
  unfold bindBounds
  refine (bindPair_succeeds (bindExpr_succeeds start) (bindExpr_succeeds stop) none).attempt.bind
    fun r => ?_
  split
  · exact .without_result
  · next first last =>
    split
    · refine .pure fun b' b bound => ?_
      obtain ⟨p, same, bound⟩ := bound
      cases same
      exact ⟨first, last, rfl, bound⟩
    · exact .report_bind

/-- The statements have been bound, from the place that the state stands for up to the one behind
them. -/
def StmtsBound (ss : List Syntax.Stmt) (b : Binder) (bound : List Stmt) (b' : Binder) : Prop :=
  b.Extends b' ∧ ∀ d, b'.Within d → StmtsResolve d b.scope ss bound b'.scope

/-- The block has been bound; what it declares cannot be seen any more. -/
def BlockBound (body : Syntax.Block) (b : Binder) (bound : List Stmt) (b' : Binder) : Prop :=
  b.Extends b' ∧ ∀ d, b'.Within d → ∃ inside, StmtsResolve d b.scope body.stmts bound inside ∧
    b'.scope = b.scope.behind inside

def BranchesBound (bs : Syntax.Branches) (b : Binder) (bound : Branches) (b' : Binder) : Prop :=
  b.Extends b' ∧ ∀ d, b'.Within d → BranchesResolve d b.scope bs bound b'.scope

/-- A block in a scope of its own. -/
theorem StmtsBound.block {node : Syntax.Node} {ss : List Syntax.Stmt} {b inner : Binder}
    {bound : List Stmt} (h : StmtsBound ss { b with scopes := [] :: b.scopes } bound inner)
    (inside : b.scopes ≠ []) :
    BlockBound (.mk node ss) b bound { inner with scopes := inner.scopes.tail } := by
  obtain ⟨grows, resolved⟩ := h
  have scopes : inner.scopes.tail = b.scopes := grows.outer
  refine ⟨⟨grows.functions, grows.globals, grows.locals, congrArg List.tail scopes, ?_⟩, ?_⟩
  · exact scopes ▸ inside
  · intro d within
    refine ⟨inner.scope, resolved d ⟨within.globals, within.functions, within.locals⟩, ?_⟩
    rw [Binder.scope, Binder.seen, scopes]
    rfl

/-- A statement that only has the block in it is bound when the block is. -/
theorem BlockBound.stmt {body : Syntax.Block} {stmt : Syntax.Stmt} {b b' : Binder}
    {bound : List Stmt} {made : Stmt} (h : BlockBound body b bound b')
    (rule : ∀ d inner, StmtsResolve d b.scope body.stmts bound inner →
      StmtResolves d b.scope stmt made (b.scope.behind inner)) : StmtBound stmt b made b' := by
  refine ⟨h.1, fun d within => ?_⟩
  obtain ⟨inner, stmts, behind⟩ := h.2 d within
  exact behind ▸ rule d inner stmts

/-- In a loop a block is bound as elsewhere. -/
theorem loopBody_succeeds {body : Syntax.Block}
    (h : Succeeds (bindBlock body) fun b bound b' => b.scopes ≠ [] → BlockBound body b bound b') :
    Succeeds (inLoop (bindBlock body)) fun b bound b' =>
      b.scopes ≠ [] → BlockBound body b bound b' := by
  refine h.inLoop.mono fun b bound b' ⟨inner, block, same⟩ inside => ?_
  subst same
  obtain ⟨grows, resolved⟩ := block inside
  exact ⟨⟨grows.functions, grows.globals, grows.locals, grows.outer, grows.inside⟩,
    fun d within => resolved d ⟨within.globals, within.functions, within.locals⟩⟩

/-- In a counted loop the next two slots are for the limit and the variable, which can be seen in
the body only. -/
def CountedBound (place : Location) (var : Ident) (first last : Expr) (body : Syntax.Block)
    (b : Binder) (r : Option Stmt) (b' : Binder) : Prop :=
  ∃ ss, r = some (.for place (b.scope.next + 1) b.scope.next first last ss) ∧ b.Extends b' ∧
    ∀ d, b'.Within d → d.locals[b.scope.next]? = some ⟨"$limit", first.ty⟩ ∧
      d.locals[b.scope.next + 1]? = some ⟨var.name, first.ty⟩ ∧ ∃ inside,
      StmtsResolve d ((b.scope.declare "$limit").declare var.name) body.stmts ss inside ∧
        b'.scope = b.scope.behind inside

theorem counted_succeeds {body : Syntax.Block}
    (h : Succeeds (bindBlock body) fun b bound b' => b.scopes ≠ [] → BlockBound body b bound b')
    (place : Location) (var : Ident) (first last : Expr) :
    Succeeds (inScope do
        let limit ← declareLocal "$limit" first.ty true
        let slot ← declareLocal var.name first.ty false
        return some (Stmt.for place slot limit first last (← inLoop (bindBlock body))))
      fun b r b' => b.scopes ≠ [] → CountedBound place var first last body b r b' := by
  -- in the new scope all that is declared is left to be seen
  have counted : Succeeds (do
        let limit ← declareLocal "$limit" first.ty true
        let slot ← declareLocal var.name first.ty false
        return some (Stmt.for place slot limit first last (← inLoop (bindBlock body))))
      fun b r b' => b.scopes ≠ [] → ∃ ss,
        r = some (.for place (b.scope.next + 1) b.scope.next first last ss) ∧ b.Extends b' ∧
        ∀ d, b'.Within d → d.locals[b.scope.next]? = some ⟨"$limit", first.ty⟩ ∧
          d.locals[b.scope.next + 1]? = some ⟨var.name, first.ty⟩ ∧ ∃ inside,
          StmtsResolve d ((b.scope.declare "$limit").declare var.name) body.stmts ss inside ∧
            b'.locals.length = inside.next := by
    refine (declareLocal_succeeds "$limit" first.ty true).bind fun limit => ?_
    refine (declareLocal_succeeds var.name first.ty false).bind fun slot => ?_
    refine (loopBody_succeeds h).bind fun ss => ?_
    refine .pure fun b₃ b₂ block b₁ counter b limit inside => ?_
    obtain ⟨rfl, grows₁, scope₁, limit⟩ := limit inside
    obtain ⟨rfl, grows₂, scope₂, counter⟩ := counter grows₁.inside
    obtain ⟨grows₃, resolved⟩ := block grows₂.inside
    have next : b₁.locals.length = b.scope.next + 1 := congrArg Scope.next scope₁
    rw [next] at counter ⊢
    rw [scope₁] at scope₂
    refine ⟨ss, rfl, (grows₁.trans grows₂).trans grows₃, fun d within => ?_⟩
    have within₂ := within.before grows₃
    obtain ⟨inner, stmts, behind⟩ := resolved d within
    have limit' := getElem?_of_prefix (within₂.before grows₂).locals limit
    have counter' := getElem?_of_prefix within₂.locals counter
    refine ⟨limit', counter', inner, scope₂ ▸ stmts, ?_⟩
    exact (congrArg Scope.next behind :)
  refine counted.inScope.mono fun b r b' ⟨inner, counted, same⟩ inside => ?_
  subst same
  obtain ⟨ss, same, grows, resolved⟩ := counted (List.cons_ne_nil _ _)
  have scopes : inner.scopes.tail = b.scopes := grows.outer
  refine ⟨ss, same, ⟨grows.functions, grows.globals, grows.locals, congrArg List.tail scopes,
    scopes ▸ inside⟩, fun d within => ?_⟩
  obtain ⟨limit, counter, place, stmts, next⟩ :=
    resolved d ⟨within.globals, within.functions, within.locals⟩
  refine ⟨limit, counter, place, stmts, ?_⟩
  rw [scopes, Binder.scope, next]
  rfl

mutual

theorem bindStmt_succeeds : ∀ stmt : Syntax.Stmt,
    Succeeds (bindStmt stmt) fun b r b' => b.scopes ≠ [] →
      ∃ bound, r = some bound ∧ StmtBound stmt b bound b'
  | .block node body => by
    rw [bindStmt]
    refine (bindBlock_succeeds body).bind fun ss => ?_
    refine .pure fun b' b block inside => ⟨_, rfl, ?_⟩
    obtain ⟨node', written⟩ := body
    exact (block inside).stmt fun d inner stmts => .block _ node node' _ stmts
  | .var node decl => by
    rw [bindStmt]
    refine (bindDeclaration_succeeds decl).bind fun r => ?_
    split
    · refine .pure ?_
      rintro b' b ⟨_, ty, init, same, _⟩
      cases same
    · next ty init =>
      refine (declareLocal_succeeds decl.name.name ty decl.isConst).bind fun slot => ?_
      refine .pure fun b₂ b₁ new b ⟨adds, ty', init', same, declared⟩ inside => ⟨_, rfl, ?_⟩
      cases same
      obtain ⟨rfl, grows, scope, slot⟩ := new (adds.scopes ▸ inside)
      refine ⟨(adds.extends inside).trans grows, fun d within => ?_⟩
      have there : d.locals[b₁.locals.length]? = _ := getElem?_of_prefix within.locals slot
      rw [scope, adds.scope]
      rw [adds.locals] at there ⊢
      exact .var b.scope node _ _ there (declared d (within.before grows))
  | .assign node target op value => by
    rw [bindStmt]
    exact (bindAssignment_succeeds node _ target op value).attempt.mono
      fun b r b' ⟨bound, same, done⟩ inside => ⟨bound, same, done inside⟩
  | .expr node e => by
    rw [bindStmt]
    refine (bindExpr_succeeds e none).attempt.bind fun r => ?_
    refine .pure fun b' b ⟨e', same, adds, bound⟩ inside => ?_
    subst same
    refine ⟨_, rfl, .of_expr inside adds fun d within => ?_⟩
    exact .expr _ node _ (bound d within)
  | .cond node branches => by
    rw [bindStmt]
    refine (bindBranches_succeeds branches).bind fun r => ?_
    refine .pure fun b' b done inside => ?_
    obtain ⟨bound, rfl, grows, resolved⟩ := done inside
    exact ⟨_, rfl, grows, fun d within => .cond _ node _ (resolved d within)⟩
  | .while node cond body => by
    rw [bindStmt]
    refine Succeeds.bind (bindCondition_succeeds cond) fun c => ?_
    refine (loopBody_succeeds (bindBlock_succeeds body)).bind fun ss => ?_
    refine (Succeeds.record c).bind fun r => ?_
    refine .pure fun b₃ b₂ ⟨c', ok, result, same⟩ b₁ block b bound inside => ?_
    subst result same
    obtain ⟨adds, cond⟩ := bound c' ok
    obtain ⟨grows, resolved⟩ := block (adds.scopes ▸ inside)
    obtain ⟨node', written⟩ := body
    refine ⟨_, rfl, (adds.extends inside).trans grows, fun d within => ?_⟩
    obtain ⟨inner, stmts, behind⟩ := resolved d within
    rw [adds.scope] at stmts behind
    exact behind ▸ .while _ node node' _ (cond d (within.before grows)) stmts
  | .loop node body => by
    rw [bindStmt]
    refine (loopBody_succeeds (bindBlock_succeeds body)).bind fun ss => ?_
    refine .pure fun b' b block inside => ⟨_, rfl, ?_⟩
    obtain ⟨node', written⟩ := body
    exact (block inside).stmt fun d inner stmts => .loop _ node node' _ stmts
  | .for node var start stop body => by
    rw [bindStmt]
    refine (bindBounds_succeeds start stop).bind fun r => ?_
    split
    · refine .pure ?_
      rintro b' b ⟨_, _, same, _⟩
      cases same
    · next first last =>
      refine (counted_succeeds (bindBlock_succeeds body) _ var first last).mono ?_
      intro b' r b'' counted b ⟨_, _, found, same, adds, start', stop'⟩ inside
      cases found
      obtain ⟨ss, rfl, grows, resolved⟩ := counted (adds.scopes ▸ inside)
      obtain ⟨node', written⟩ := body
      refine ⟨_, rfl, (adds.extends inside).trans grows, fun d within => ?_⟩
      have before := within.before grows
      obtain ⟨limit, counter, inner, stmts, behind⟩ := resolved d within
      rw [adds.scope] at limit counter stmts behind ⊢
      rw [behind]
      exact .for _ node node' _ (start' d before) (stop' d before) same limit counter stmts
  | .ret node value => by
    rw [bindStmt]
    exact bindReturn_succeeds node _ value
  | .break node => by
    rw [bindStmt]
    exact bindControl_succeeds fun d s => .break s node _
  | .continue node => by
    rw [bindStmt]
    exact bindControl_succeeds fun d s => .continue s node _

theorem bindBranches_succeeds : ∀ bs : Syntax.Branches,
    Succeeds (bindBranches bs) fun b r b' => b.scopes ≠ [] →
      ∃ bound, r = some bound ∧ BranchesBound bs b bound b'
  | .none => by
    rw [bindBranches]
    exact .pure fun b inside => ⟨_, rfl, .refl inside, fun d _ => .none _⟩
  | .otherwise body => by
    rw [bindBranches]
    refine (bindBlock_succeeds body).bind fun ss => ?_
    refine .pure fun b' b block inside => ⟨_, rfl, ?_⟩
    obtain ⟨grows, resolved⟩ := block inside
    obtain ⟨node', written⟩ := body
    refine ⟨grows, fun d within => ?_⟩
    obtain ⟨inner, stmts, behind⟩ := resolved d within
    exact behind ▸ .otherwise _ node' stmts
  | .branch cond body rest => by
    rw [bindBranches]
    refine Succeeds.bind (bindCondition_succeeds cond) fun c => ?_
    refine (bindBlock_succeeds body).bind fun ss => ?_
    refine (Succeeds.record c).bind fun r => ?_
    split
    · exact .pure fun b₃ b₂ ⟨c', _, result, _⟩ => by cases result
    · next c' =>
      refine (bindBranches_succeeds rest).bind fun r => ?_
      refine .pure fun b₄ b₃ others b₂ ⟨c'', ok, result, same⟩ b₁ block b bound inside => ?_
      cases result
      subst same
      obtain ⟨adds, cond⟩ := bound c' ok
      obtain ⟨grows, resolved⟩ := block (adds.scopes ▸ inside)
      obtain ⟨bs, rfl, grows', others⟩ := others grows.inside
      obtain ⟨node', written⟩ := body
      refine ⟨_, rfl, ((adds.extends inside).trans grows).trans grows', fun d within => ?_⟩
      have within' := within.before grows'
      obtain ⟨inner, stmts, behind⟩ := resolved d within'
      rw [adds.scope] at stmts behind
      exact .branch _ node' (cond d (within'.before grows)) stmts (behind ▸ others d within)

theorem bindBlock_succeeds : ∀ body : Syntax.Block,
    Succeeds (bindBlock body) fun b bound b' => b.scopes ≠ [] → BlockBound body b bound b'
  | .mk node ss => by
    rw [bindBlock]
    refine (bindStmts_succeeds ss).inScope.mono fun b bound b' ⟨inner, stmts, same⟩ inside => ?_
    subst same
    exact (stmts (List.cons_ne_nil _ _)).block inside

theorem bindStmts_succeeds : ∀ ss : List Syntax.Stmt,
    Succeeds (bindStmts ss) fun b bound b' => b.scopes ≠ [] → StmtsBound ss b bound b'
  | [] => by
    rw [bindStmts]
    exact .pure fun b inside => ⟨.refl inside, fun d _ => .nil _⟩
  | stmt :: ss => by
    rw [bindStmts]
    refine (bindStmt_succeeds stmt).bind fun r => ?_
    refine (bindStmts_succeeds ss).bind fun rest => ?_
    refine .pure fun b₂ b₁ done' b done inside => ?_
    obtain ⟨bound, rfl, grows, first⟩ := done inside
    obtain ⟨grows', rest⟩ := done' grows.inside
    exact ⟨grows.trans grows', fun d within =>
      .cons (first d (within.before grows')) (rest d within)⟩

end

end ScriptLang.Bound
