import Mathlib.Data.List.Forall2
import Mathlib.Data.List.Nodup
import ScriptLang.Proofs.BinderSoundness
import ScriptLang.Proofs.LiteralSides

/-!
# Binding depends on scope only

Two states agree where the same names mean the same, whatever the slots and the numbers they are
given and whatever has gone wrong before (`Agrees`).  The same code, bound in two such states, fails
in the same places with the same errors, and the states agree again (`bindStmt_alike`).  An
expression or a block also leaves behind it what it found (`Binder.beneath`).
-/

namespace ScriptLang.Bound

open Syntax (Ident TypeName)

/-! ### States that agree -/

/-- What a call has to know of a function. -/
def Function.callable (f : Function) : List Ty × Ty × Bool := (f.params, f.ret, f.body.isIntrinsic)

/-- What a call of a name is a call of. -/
def Binder.callable? (b : Binder) (name : String) : Option (List Ty × Ty × Bool) :=
  match b.function? name with
  | some found => some found.2.callable
  | none => (Intrinsic.ofName? name).map fun _ => ([.string], .void, true)

/-- The local variables in scope, without their slots. -/
def Binder.visible (b : Binder) : List (List (String × Bool × Ty)) :=
  b.scopes.map (List.map fun entry => (entry.1, entry.2.isConst, b.slotType entry.2.slot))

/-- Each name means the same in both states.  A function that needs no declaration may have been
called in the second alone. -/
structure Agrees (b b' : Binder) : Prop where
  visible : b'.visible = b.visible
  globals : b'.globals = b.globals
  callable : ∀ name, b'.callable? name = b.callable? name
  known : ∀ name, (b.function? name).isSome → (b'.function? name).isSome
  ret : b'.ret = b.ret
  loopDepth : b'.loopDepth = b.loopDepth
  valid : b.Valid
  valid' : b'.Valid

theorem Agrees.refl {b : Binder} (valid : b.Valid) : Agrees b b :=
  ⟨rfl, rfl, fun _ => rfl, fun _ h => h, rfl, rfl, valid, valid⟩

theorem Agrees.trans {b₁ b₂ b₃ : Binder} (h : Agrees b₁ b₂) (h' : Agrees b₂ b₃) : Agrees b₁ b₃ where
  visible := h'.visible.trans h.visible
  globals := h'.globals.trans h.globals
  callable name := (h'.callable name).trans (h.callable name)
  known name found := h'.known name (h.known name found)
  ret := h'.ret.trans h.ret
  loopDepth := h'.loopDepth.trans h.loopDepth
  valid := h.valid
  valid' := h'.valid'

/-- The state without its `k` innermost scopes. -/
def Binder.beneath (k : Nat) (b : Binder) : Binder := { b with scopes := b.scopes.drop k }

theorem Binder.Valid.beneath {b : Binder} (valid : b.Valid) (k : Nat) : (b.beneath k).Valid :=
  ⟨fun scope inside => valid.slots scope (List.mem_of_mem_drop inside), valid.names⟩

theorem Binder.Valid.enter {b : Binder} (valid : b.Valid) :
    ({ b with scopes := [] :: b.scopes } : Binder).Valid := by
  refine ⟨fun scope inside entry declared => ?_, valid.names⟩
  rcases List.mem_cons.1 inside with rfl | inside
  · cases declared
  · exact valid.slots scope inside entry declared

theorem Agrees.beneath {b b' : Binder} (h : Agrees b b') (k : Nat) :
    Agrees (b.beneath k) (b'.beneath k) where
  visible := by
    have same := congrArg (List.drop k) h.visible
    unfold Binder.visible at same ⊢
    rwa [← List.map_drop, ← List.map_drop] at same
  globals := h.globals
  callable := h.callable
  known := h.known
  ret := h.ret
  loopDepth := h.loopDepth
  valid := h.valid.beneath k
  valid' := h.valid'.beneath k

/-- The states agree in a new innermost scope. -/
theorem Agrees.enter {b b' : Binder} (h : Agrees b b') :
    Agrees { b with scopes := [] :: b.scopes } { b' with scopes := [] :: b'.scopes } where
  visible := congrArg (List.cons []) h.visible
  globals := h.globals
  callable := h.callable
  known := h.known
  ret := h.ret
  loopDepth := h.loopDepth
  valid := h.valid.enter
  valid' := h.valid'.enter

/-- The states agree inside any number of loops. -/
theorem Agrees.inLoops {b b' : Binder} (h : Agrees b b') {n n' : Nat} (same : n' = n) :
    Agrees { b with loopDepth := n } { b' with loopDepth := n' } where
  visible := h.visible
  globals := h.globals
  callable := h.callable
  known := h.known
  ret := h.ret
  loopDepth := same
  valid := ⟨h.valid.slots, h.valid.names⟩
  valid' := ⟨h.valid'.slots, h.valid'.names⟩

/-- Agreement has nothing to do with the errors so far. -/
theorem Agrees.errors {b b' : Binder} (h : Agrees b b') (es es' : List BindError) :
    Agrees { b with errors := es } { b' with errors := es' } :=
  ⟨h.visible, h.globals, h.callable, h.known, h.ret, h.loopDepth, ⟨h.valid.slots, h.valid.names⟩,
    ⟨h.valid'.slots, h.valid'.names⟩⟩

/-! ### Errors and outcomes that agree -/

/-- The same is wrong in the same place.  An assignment to a function that needs no declaration is
told apart from one to an unknown name by whether the function has been called before. -/
def BindError.Same (e e' : BindError) : Prop :=
  e'.location = e.location ∧ (e'.fault = e.fault ∨
    ∃ i : Intrinsic, e.fault = .unknownName i.name ∧ e'.fault = .notAssignable i.name)

theorem BindError.Same.refl (e : BindError) : e.Same e := ⟨rfl, .inl rfl⟩

/-- Results in the relation, or the same failure. -/
inductive SameOutcome {α β : Type} (R : α → β → Prop) :
    Except BindError α → Except BindError β → Prop where
  | ok {a : α} {c : β} : R a c → SameOutcome R (.ok a) (.ok c)
  | error {e e' : BindError} : e.Same e' → SameOutcome R (.error e) (.error e')

/-- From states that agree the two steps lead to states that agree, with results in the relation,
and report the same errors; beneath the `k` innermost scopes the second changes nothing. -/
structure Parallel {α β : Type} (k : Nat) (R : α → β → Prop) (x : BindM α) (y : BindM β)
    (b b' : Binder) : Prop where
  result : R (x.run b).1 (y.run b').1
  agrees : Agrees (x.run b).2 (y.run b').2
  errors : ∃ es es', (x.run b).2.errors = b.errors ++ es ∧ (y.run b').2.errors = b'.errors ++ es' ∧
    List.Forall₂ BindError.Same es es'
  stays : Agrees (b'.beneath k) ((y.run b').2.beneath k)

/-- The two steps do the same in states that agree. -/
def Alike {α β : Type} (k : Nat) (R : α → β → Prop) (x : BindM α) (y : BindM β) : Prop :=
  ∀ b b', Agrees b b' → Parallel k R x y b b'

/-- As `Alike`, of expressions. -/
def AlikeOk {α β : Type} (R : α → β → Prop) (x : ExprM α) (y : ExprM β) : Prop :=
  Alike 0 (SameOutcome R) x.run y.run

section

variable {α β γ δ : Type} {k : Nat} {R : α → β → Prop} {S : γ → δ → Prop}

theorem Alike.pure {a : α} {c : β} (h : R a c) : Alike k R (Pure.pure a) (Pure.pure c) :=
  fun _ _ agrees =>
    ⟨h, agrees, ⟨[], [], (List.append_nil _).symm, (List.append_nil _).symm, .nil⟩,
      .refl (agrees.valid'.beneath k)⟩

theorem Alike.bind {x : BindM α} {y : BindM β} {f : α → BindM γ} {g : β → BindM δ}
    (h : Alike k R x y) (next : ∀ a c, R a c → Alike k S (f a) (g c)) :
    Alike k S (x >>= f) (y >>= g) := by
  intro b b' agrees
  have first := h b b' agrees
  have second := next _ _ first.result _ _ first.agrees
  obtain ⟨es, es', grown, grown', same⟩ := first.errors
  obtain ⟨fs, fs', more, more', same'⟩ := second.errors
  refine ⟨second.result, second.agrees, ⟨es ++ fs, es' ++ fs', ?_, ?_, List.rel_append same same'⟩,
    first.stays.trans second.stays⟩
  · rw [← List.append_assoc, ← grown, ← more]
    rfl
  · rw [← List.append_assoc, ← grown', ← more']
    rfl

theorem Alike.mono {R' : α → β → Prop} {x : BindM α} {y : BindM β} (h : Alike k R x y)
    (weaker : ∀ a c, R a c → R' a c) : Alike k R' x y := fun b b' agrees =>
  have parallel := h b b' agrees
  ⟨weaker _ _ parallel.result, parallel.agrees, parallel.errors, parallel.stays⟩

/-- What leaves everything as it was leaves what is beneath a scope. -/
theorem Alike.inside {x : BindM α} {y : BindM β} (h : Alike 0 R x y) : Alike k R x y :=
  fun b b' agrees =>
    have parallel := h b b' agrees
    ⟨parallel.result, parallel.agrees, parallel.errors, parallel.stays.beneath k⟩

theorem Alike.get_bind {f : Binder → BindM α} {g : Binder → BindM β}
    (h : ∀ s s', Agrees s s' → Parallel k R (f s) (g s') s s') :
    Alike k R (get >>= f) (get >>= g) := fun b b' agrees =>
  let ⟨result, after, errors, stays⟩ := h b b' agrees
  ⟨result, after, errors, stays⟩

theorem Alike.report {e e' : BindError} (same : e.Same e') :
    Alike k (fun _ _ => True) (report e.fault e.location) (report e'.fault e'.location) :=
  fun _ _ agrees =>
    ⟨trivial, agrees.errors _ _, ⟨[e], [e'], rfl, rfl, .cons same .nil⟩,
      (Agrees.refl (agrees.valid'.beneath k)).errors _ _⟩

/-- The same is reported, and nothing comes of it. -/
theorem Alike.report_bind {e e' : BindError} (same : e.Same e') {a : α} {c : β} (h : R a c) :
    Alike k R (do Bound.report e.fault e.location; return a)
      (do Bound.report e'.fault e'.location; return c) :=
  (Alike.report same).bind fun _ _ _ => .pure h

theorem Alike.record {r : Except BindError α} {r' : Except BindError β} (h : SameOutcome R r r') :
    Alike k (Option.Rel R) (Bound.record r) (Bound.record r') := by
  cases h with
  | ok related => exact .pure (.some related)
  | error same => exact (Alike.report same).bind fun _ _ _ => .pure .none

theorem AlikeOk.attempt {x : ExprM α} {y : ExprM β} (h : AlikeOk R x y) :
    Alike 0 (Option.Rel R) (attempt x) (attempt y) := Alike.bind h fun _ _ => Alike.record

theorem AlikeOk.pure {a : α} {c : β} (h : R a c) : AlikeOk R (Pure.pure a) (Pure.pure c) :=
  Alike.pure (.ok h)

theorem AlikeOk.fail {e e' : BindError} (same : e.Same e') :
    AlikeOk R (fail e.fault e.location) (fail e'.fault e'.location) :=
  Alike.pure (.error same)

theorem AlikeOk.get_bind {f : Binder → ExprM α} {g : Binder → ExprM β}
    (h : ∀ s s', Agrees s s' → Parallel 0 (SameOutcome R) (f s).run (g s').run s s') :
    AlikeOk R (get >>= f) (get >>= g) := fun b b' agrees =>
  let ⟨result, after, errors, stays⟩ := h b b' agrees
  ⟨result, after, errors, stays⟩

theorem AlikeOk.bind {x : ExprM α} {y : ExprM β} {f : α → ExprM γ} {g : β → ExprM δ}
    (h : AlikeOk R x y) (next : ∀ a c, R a c → AlikeOk S (f a) (g c)) :
    AlikeOk S (x >>= f) (y >>= g) := by
  rw [AlikeOk, ExceptT.run_bind, ExceptT.run_bind]
  refine Alike.bind h fun r r' related => ?_
  cases related with
  | ok related => exact next _ _ related
  | error same => exact Alike.pure (.error same)

end

/-! ### Names -/

theorem lookup_map_snd {β γ : Type} (f : β → γ) (name : String) : ∀ l : List (String × β),
    (l.map fun entry => (entry.1, f entry.2)).lookup name = (l.lookup name).map f
  | [] => rfl
  | (key, value) :: l => by
    rw [List.map_cons, List.lookup_cons, List.lookup_cons]
    cases name == key with
    | true => rfl
    | false => exact lookup_map_snd f name l

/-- What a name in scope stands for can be read off what can be seen. -/
theorem findSome?_visible (b : Binder) (name : String) :
    b.visible.findSome? (·.lookup name)
      = (b.local? name).map fun entry => (entry.isConst, b.slotType entry.slot) := by
  unfold Binder.visible Binder.local?
  rw [List.findSome?_map]
  induction b.scopes with
  | nil => rfl
  | cons scope outer ih =>
    rw [List.findSome?_cons, List.findSome?_cons, Function.comp_apply,
      lookup_map_snd fun entry : LocalEntry => (entry.isConst, b.slotType entry.slot)]
    cases scope.lookup name with
    | none => exact ih
    | some entry => rfl

variable {b b' : Binder}

theorem Agrees.local? (h : Agrees b b') (name : String) :
    (b'.local? name).map (fun entry => (entry.isConst, b'.slotType entry.slot))
      = (b.local? name).map fun entry => (entry.isConst, b.slotType entry.slot) := by
  rw [← findSome?_visible, ← findSome?_visible, h.visible]

theorem Agrees.global? (h : Agrees b b') (name : String) : b'.global? name = b.global? name := by
  unfold Binder.global?
  rw [h.globals]

theorem Binder.function?_append (b : Binder) (f : Function) (name : String) :
    ({ b with functions := b.functions ++ [f] } : Binder).function? name
      = (b.function? name).or (if f.name == name then some (b.functions.length, f) else none) := by
  unfold Binder.function?
  rw [List.zipIdx_append, List.find?_append, Option.map_or]
  cases same : f.name == name <;> simp [same]

section

variable {name : String} {i : Intrinsic}

/-- Behind the first call of a function that needs no declaration, it is known. -/
theorem function?_called (needless : Intrinsic.ofName? name = some i) (place : Location)
    (other : String) :
    (({ b with functions := b.functions ++ [implicitFunction i place] } : Binder).function?
      other).isSome ↔ (b.function? other).isSome ∨ other = name := by
  have named : (implicitFunction i place).name = name := ofName?_name needless
  rw [Binder.function?_append, Option.isSome_or, Bool.or_eq_true, named]
  refine or_congr Iff.rfl ?_
  cases same : name == other with
  | true => simp [beq_iff_eq.1 same]
  | false =>
    have differ : other ≠ name := fun h => absurd (beq_iff_eq.2 h.symm) (same ▸ Bool.false_ne_true)
    simp [differ]

variable (undeclared : b.function? name = none) (needless : Intrinsic.ofName? name = some i)
  (place : Location)

include undeclared needless

/-- Calling a function that needs no declaration changes the meaning of no name. -/
theorem agrees_called (valid : b.Valid) :
    Agrees b { b with functions := b.functions ++ [implicitFunction i place] } where
  visible := rfl
  globals := rfl
  callable other := by
    unfold Binder.callable?
    rw [Binder.function?_append]
    cases found : b.function? other with
    | some f => rfl
    | none =>
      cases same : (implicitFunction i place).name == other with
      | false => simp
      | true =>
        have named : other = name := (beq_iff_eq.1 same).symm.trans (ofName?_name needless)
        simp [named, needless, Function.callable, implicitFunction, Body.isIntrinsic]
  known other found := (function?_called needless place other).2 (.inl found)
  ret := rfl
  loopDepth := rfl
  valid := valid
  valid' := by
    refine ⟨valid.slots, ?_⟩
    have named : (implicitFunction i place).name = name := ofName?_name needless
    rw [List.map_append, List.map_singleton, ← List.concat_eq_append, List.nodup_concat, named]
    exact ⟨name_not_mem_of_function? undeclared, valid.names⟩

theorem Agrees.called (h : Agrees b b') (known : (b'.function? name).isSome) :
    Agrees { b with functions := b.functions ++ [implicitFunction i place] } b' :=
  have called := agrees_called undeclared needless place h.valid
  { h with
    callable := fun other => (h.callable other).trans (called.callable other).symm
    known := fun other found =>
      ((function?_called needless place other).1 found).elim (h.known other)
        fun same => same ▸ known
    valid := called.valid' }

end

/-- Bound to the same type, in the same place. -/
def SameInfo (e e' : Expr) : Prop := e'.info = e.info

theorem SameInfo.ty {e e' : Expr} (h : SameInfo e e') : e'.ty = e.ty := congrArg Info.ty h

theorem SameInfo.location {e e' : Expr} (h : SameInfo e e') : e'.location = e.location :=
  congrArg Info.location h

theorem bindName_alike (name : String) (place : Location) :
    AlikeOk SameInfo (bindName name place) (bindName name place) := by
  refine .get_bind fun b b' agrees => ?_
  have found := agrees.local? name
  rw [agrees.global? name]
  cases here : b.local? name with
  | some entry =>
    rw [here] at found
    obtain ⟨entry', here', same⟩ := Option.map_eq_some_iff.1 found
    have sameTy : b'.slotType entry'.slot = b.slotType entry.slot := congrArg Prod.snd same
    rw [here']
    refine AlikeOk.pure (R := SameInfo) ?_ b b' agrees
    exact congrArg (Info.mk · place) sameTy
  | none =>
    rw [here] at found
    rw [Option.map_eq_none_iff.1 found]
    cases b.global? name with
    | some g => exact AlikeOk.pure (R := SameInfo) rfl b b' agrees
    | none => exact AlikeOk.fail (.refl ⟨_, _⟩) b b' agrees

/-- What the first state calls by a name the second calls so too, and if it is unknown in the first
then it is in the second, but for a function that needs no declaration. -/
theorem Agrees.callee (h : Agrees b b') (name : String) :
    (∃ f f', b.function? name = some f ∧ b'.function? name = some f' ∧
      f'.2.callable = f.2.callable) ∨
    b.function? name = none ∧ (b'.function? name = none ∨
      ∃ i f', Intrinsic.ofName? name = some i ∧ b'.function? name = some f' ∧
        f'.2.callable = ([.string], .void, true)) := by
  have same := h.callable name
  unfold Binder.callable? at same
  cases here : b.function? name with
  | some f =>
    obtain ⟨f', here'⟩ := Option.isSome_iff_exists.1 (h.known name (here ▸ rfl))
    rw [here, here'] at same
    exact .inl ⟨f, f', rfl, here', Option.some.inj same⟩
  | none =>
    refine .inr ⟨rfl, ?_⟩
    cases here' : b'.function? name with
    | none => exact .inl rfl
    | some f' =>
      rw [here, here'] at same
      obtain ⟨i, needless, called⟩ := Option.map_eq_some_iff.1 same.symm
      exact .inr ⟨i, f', needless, rfl, called.symm⟩

/-- To a call the two functions are the same. -/
def SameCallable (f f' : Nat × Function) : Prop := f'.2.callable = f.2.callable

theorem bindCallee_alike (callee : Ident) :
    AlikeOk SameCallable (bindCallee callee) (bindCallee callee) := by
  refine .get_bind fun b b' agrees => ?_
  obtain ⟨f, f', here, here', same⟩ | ⟨here, here' | ⟨i, f', needless, here', called⟩⟩ :=
    agrees.callee callee.name
  · rw [here, here']
    exact AlikeOk.pure (R := SameCallable) same b b' agrees
  · rw [here, here']
    cases needless : Intrinsic.ofName? callee.name with
    | none => exact AlikeOk.fail (.refl ⟨_, _⟩) b b' agrees
    | some i =>
      have after' := agrees_called here' needless callee.token.location agrees.valid'
      have known := (function?_called (b := b') needless callee.token.location callee.name).2
        (.inr rfl)
      exact ⟨.ok rfl, (agrees.trans after').called here needless _ known,
        ⟨[], [], (List.append_nil _).symm, (List.append_nil _).symm, .nil⟩, after'⟩
  · rw [here, here', needless]
    exact ⟨.ok called, agrees.called here needless _ (here' ▸ rfl),
      ⟨[], [], (List.append_nil _).symm, (List.append_nil _).symm, .nil⟩, .refl agrees.valid'⟩

/-! ### Expressions -/

theorem resolveType_alike (t : TypeName) : AlikeOk Eq (resolveType t) (resolveType t) := by
  unfold resolveType
  cases Ty.ofName? t.name with
  | some ty => exact .pure rfl
  | none => exact .fail (.refl ⟨_, _⟩)

theorem literalOf_alike (ty : Ty) (value : Int) (place : Location) :
    AlikeOk SameInfo (literalOf ty value place) (literalOf ty value place) := by
  unfold literalOf
  cases Value.literal ty value with
  | ok v => exact .pure rfl
  | error e => exact .fail (.refl ⟨_, _⟩)

theorem bindInteger_alike (place : Location) (value : Int) (suffix : Option TypeName)
    (expected : Option Ty) :
    AlikeOk SameInfo (bindInteger place value suffix expected)
      (bindInteger place value suffix expected) := by
  unfold bindInteger
  cases suffix with
  | some name =>
    refine (resolveType_alike name).bind fun ty _ same => ?_
    subst same
    split
    · exact literalOf_alike ty value place
    · exact .fail (.refl ⟨_, _⟩)
  | none =>
    dsimp only
    split
    · exact .pure rfl
    · exact literalOf_alike _ value place
    · exact literalOf_alike _ value place

theorem fitArg_alike (isIntrinsic : Bool) (param : Ty) {e e' : Expr} (same : SameInfo e e') :
    AlikeOk SameInfo (fitArg isIntrinsic param e) (fitArg isIntrinsic param e') := by
  unfold fitArg
  rw [same.ty, same.location]
  split
  · exact .pure same
  · split
    · exact .pure rfl
    · exact .fail (.refl ⟨_, _⟩)

/-- Of one type, and each in its place. -/
def SamePair (p p' : Expr × Expr) : Prop := SameInfo p.1 p'.1 ∧ SameInfo p.2 p'.2

theorem bindPair_alike {l r : Syntax.Expr}
    (hl : ∀ expected, AlikeOk SameInfo (bindExpr l expected) (bindExpr l expected))
    (hr : ∀ expected, AlikeOk SameInfo (bindExpr r expected) (bindExpr r expected))
    (expected : Option Ty) :
    AlikeOk SamePair (bindPair l r expected) (bindPair l r expected) := by
  unfold bindPair
  refine (hl expected).bind fun a a' sameA => ?_
  rw [sameA.ty]
  refine (hr (some a.ty)).bind fun z z' sameZ => ?_
  rw [sameZ.ty, sameZ.location]
  have checked {e e' : Expr} (sameE : SameInfo e e') :
      AlikeOk SamePair (if e.ty ≠ z.ty then fail (.typeMismatch e.ty z.ty) z.location
        else return (e, z)) (if e'.ty ≠ z.ty then fail (.typeMismatch e'.ty z.ty) z.location
        else return (e', z')) := by
    rw [sameE.ty]
    split
    · exact .fail (.refl ⟨_, _⟩)
    · exact .pure ⟨sameE, sameZ⟩
  split
  · exact (hl (some z.ty)).bind fun e e' => checked
  · exact checked sameA

mutual

theorem bindExpr_alike : ∀ (e : Syntax.Expr) (expected : Option Ty),
    AlikeOk SameInfo (bindExpr e expected) (bindExpr e expected)
  | .integer node value suffix, expected => by
    rw [bindExpr]
    exact bindInteger_alike _ value suffix expected
  | .decimal .., _ | .string .., _ | .bool .., _ => by
    rw [bindExpr]
    exact .pure rfl
  | .name node name, _ => by
    rw [bindExpr]
    exact bindName_alike name _
  | .unary node op operand, expected => by
    have ordinary (x : ExprM Expr) (made : x = do
        let e ← bindExpr operand expected
        if unaryAllowed op e.ty then return .unary ⟨e.ty, node.token.location⟩ op e
        else fail (.invalidOperand op.symbol e.ty) node.token.location) : AlikeOk SameInfo x x := by
      rw [made]
      refine (bindExpr_alike operand expected).bind fun e e' same => ?_
      rw [same.ty]
      split
      · exact .pure rfl
      · exact .fail (.refl ⟨_, _⟩)
    cases op with
    | neg =>
      cases operand with
      | integer node' value suffix =>
        rw [bindExpr]
        exact bindInteger_alike _ _ suffix expected
      | _ => exact ordinary _ rfl
    | _ => exact ordinary _ rfl
  | .binary node op lhs rhs, expected => by
    rw [bindExpr_binary]
    refine (bindPair_alike (bindExpr_alike lhs) (bindExpr_alike rhs) _).bind fun p p' same => ?_
    rw [same.1.ty]
    split
    · exact .pure rfl
    · exact .fail (.refl ⟨_, _⟩)
  | .cast node inner type, _ => by
    rw [bindExpr]
    refine (resolveType_alike type).bind fun target _ sameTarget => ?_
    subst sameTarget
    refine (bindExpr_alike inner none).bind fun e e' same => ?_
    rw [same.ty]
    split
    · exact .pure rfl
    · exact .fail (.refl ⟨_, _⟩)
  | .ternary node cond yes no, expected => by
    rw [bindExpr_ternary]
    refine (bindExpr_alike cond _).bind fun c c' same => ?_
    rw [same.ty, same.location]
    split
    · exact .fail (.refl ⟨_, _⟩)
    · refine (bindPair_alike (bindExpr_alike yes) (bindExpr_alike no) _).bind
        fun p p' samePair => .pure ?_
      rw [SameInfo, samePair.1.ty]
      rfl
  | .call node callee args, _ => by
    rw [bindExpr]
    refine (bindCallee_alike callee).bind fun f f' same => ?_
    obtain ⟨id, f⟩ := f
    obtain ⟨id', f'⟩ := f'
    have params : f'.params = f.params := congrArg Prod.fst same
    have ret : f'.ret = f.ret := congrArg (·.2.1) same
    have isIntrinsic : f'.body.isIntrinsic = f.body.isIntrinsic := congrArg (·.2.2) same
    dsimp only
    rw [params, ret, isIntrinsic]
    split
    · exact .fail (.refl ⟨_, _⟩)
    · exact (bindArgs_alike f.body.isIntrinsic args f.params).bind fun _ _ _ => .pure rfl

theorem bindArgs_alike (isIntrinsic : Bool) : ∀ (args : List Syntax.Expr) (params : List Ty),
    AlikeOk (fun _ _ => True) (bindArgs isIntrinsic args params) (bindArgs isIntrinsic args params)
  | [], params => by
    rw [bindArgs]
    · exact .pure trivial
    · simp
  | _ :: _, [] => by
    rw [bindArgs]
    · exact .pure trivial
    · simp
  | arg :: args, param :: params => by
    rw [bindArgs]
    refine (bindExpr_alike arg _).bind fun e e' same => ?_
    refine (fitArg_alike isIntrinsic param same).bind fun _ _ _ => ?_
    exact (bindArgs_alike isIntrinsic args params).bind fun _ _ _ => .pure trivial

end

theorem bindCondition_alike (e : Syntax.Expr) :
    AlikeOk SameInfo (bindCondition e) (bindCondition e) := by
  refine (bindExpr_alike e _).bind fun c c' same => ?_
  rw [same.ty, same.location]
  split
  · exact .fail (.refl ⟨_, _⟩)
  · exact .pure same

/-! ### Declarations and assignments -/

/-- Declarations of one type. -/
def SameDeclaration (d d' : Ty × Option Expr) : Prop := d'.1 = d.1

theorem bindDeclaration_alike (decl : Syntax.VarDecl) :
    Alike 0 (Option.Rel SameDeclaration) (bindDeclaration decl) (bindDeclaration decl) := by
  unfold bindDeclaration
  extract_lets location afterType
  have typed (annotated : Option Ty) : Alike 0 (Option.Rel SameDeclaration) (afterType annotated)
      (afterType annotated) := by
    unfold afterType
    extract_lets afterInit
    have valued (init init' : Option Expr) (same : Option.Rel SameInfo init init') :
        Alike 0 (Option.Rel SameDeclaration) (afterInit init) (afterInit init') := by
      have sameTy : init'.elim .void Expr.ty = init.elim .void Expr.ty := by
        cases same with
        | none => rfl
        | some same => exact same.ty
      unfold afterInit
      rw [sameTy]
      extract_lets ty checked checked'
      have kept : Alike 0 (Option.Rel SameDeclaration) (checked ()) (checked' ()) := by
        unfold checked checked'
        split
        · exact Alike.report_bind (.refl ⟨_, _⟩) .none
        · exact .pure (.some rfl)
      cases same with
      | none =>
        cases annotated with
        | none => exact Alike.report_bind (.refl ⟨_, _⟩) .none
        | some given => exact kept
      | @some e e' same =>
        cases annotated with
        | none => exact kept
        | some given =>
          dsimp only
          rw [same.ty, same.location]
          split
          · exact Alike.report_bind (.refl ⟨_, _⟩) .none
          · exact kept
    split
    · refine (bindExpr_alike _ annotated).attempt.bind fun r r' same => ?_
      cases same with
      | none => exact .pure .none
      | some same => exact valued _ _ (.some same)
    · exact valued none none .none
  split
  · refine (resolveType_alike _).attempt.bind fun r r' same => ?_
    cases same with
    | none => exact .pure .none
    | some same => exact same ▸ typed _
  · exact typed none

/-- More local variables change nothing about those in scope. -/
theorem visible_grown (valid : b.Valid) (added : List LocalSlot) :
    ({ b with locals := b.locals ++ added } : Binder).visible = b.visible := by
  unfold Binder.visible
  refine List.map_congr_left fun scope inside => List.map_congr_left fun entry declared => ?_
  have before := valid.slots scope inside entry declared
  rw [Binder.slotType, Binder.slotType, List.getElem?_append_left before]

theorem agrees_grown (valid : b.Valid) (added : List LocalSlot) :
    Agrees b { b with locals := b.locals ++ added } where
  visible := visible_grown valid added
  globals := rfl
  callable _ := rfl
  known _ found := found
  ret := rfl
  loopDepth := rfl
  valid := valid
  valid' := ⟨fun scope inside entry declared =>
    Nat.lt_of_lt_of_le (valid.slots scope inside entry declared)
      (List.length_append ▸ Nat.le_add_right _ _), valid.names⟩

theorem declareLocal_run (name : String) (ty : Ty) (isConst : Bool) (b : Binder) :
    (declareLocal name ty isConst).run b = (b.locals.length,
      { b with
        locals := b.locals ++ [⟨name, ty⟩]
        scopes := b.scopes.modifyHead ((name, ⟨b.locals.length, isConst⟩) :: ·) }) := by
  obtain ⟨_, _, _, scopes, _, _, _⟩ := b
  cases scopes <;> rfl

/-- A declared variable is seen in the innermost scope, if there is one. -/
theorem visible_declareLocal (valid : b.Valid) (name : String) (ty : Ty) (isConst : Bool) :
    ((declareLocal name ty isConst).run b).2.visible
      = b.visible.modifyHead ((name, isConst, ty) :: ·) := by
  have grown := visible_grown valid [⟨name, ty⟩]
  rw [declareLocal_run]
  unfold Binder.visible at grown ⊢
  cases scopes : b.scopes with
  | nil => rfl
  | cons inner outer =>
    rw [scopes, List.map_cons, List.map_cons, List.cons.injEq] at grown
    have here : ({ b with locals := b.locals ++ [⟨name, ty⟩] } : Binder).slotType b.locals.length
        = ty := by simp [Binder.slotType]
    have first := congrArg₂ List.cons (congrArg (name, isConst, ·) here) grown.1
    exact congrArg₂ List.cons first grown.2

theorem valid_declareLocal (valid : b.Valid) (name : String) (ty : Ty) (isConst : Bool) :
    ((declareLocal name ty isConst).run b).2.Valid := by
  rw [declareLocal_run]
  have grown := (agrees_grown valid [⟨name, ty⟩]).valid'.slots
  refine ⟨?_, valid.names⟩
  cases scopes : b.scopes with
  | nil => exact fun _ inside => nomatch inside
  | cons inner outer =>
    rw [scopes] at grown
    rintro scope (_ | ⟨_, inside⟩) entry declared
    · rcases List.mem_cons.1 declared with rfl | declared
      · simp
      · exact grown inner List.mem_cons_self entry declared
    · exact grown scope (List.mem_cons_of_mem _ inside) entry declared

theorem declareLocal_alike (name : String) (ty : Ty) (isConst : Bool) :
    Alike 1 (fun _ _ => True) (declareLocal name ty isConst) (declareLocal name ty isConst) := by
  intro b b' agrees
  refine ⟨trivial, ⟨?_, agrees.globals, agrees.callable, agrees.known, agrees.ret,
    agrees.loopDepth, valid_declareLocal agrees.valid .., valid_declareLocal agrees.valid' ..⟩,
    ⟨[], [], (List.append_nil _).symm, (List.append_nil _).symm, .nil⟩, ?_⟩
  · rw [visible_declareLocal agrees.valid', visible_declareLocal agrees.valid, agrees.visible]
  · have stays := agrees_grown (agrees.valid'.beneath 1) [⟨name, ty⟩]
    rw [declareLocal_run]
    unfold Binder.beneath at stays ⊢
    rwa [List.drop_one, List.drop_one, List.tail_modifyHead, ← List.drop_one]

/-- Targets of one type. -/
def SameTarget (t t' : Binding × Ty) : Prop := t'.2 = t.2

theorem bindTarget_alike (target : Ident) :
    AlikeOk SameTarget (bindTarget target) (bindTarget target) := by
  refine .get_bind fun b b' agrees => ?_
  have found := agrees.local? target.name
  dsimp only
  rw [agrees.global? target.name]
  cases here : b.local? target.name with
  | some entry =>
    rw [here] at found
    obtain ⟨entry', here', same⟩ := Option.map_eq_some_iff.1 found
    have sameConst : entry'.isConst = entry.isConst := congrArg Prod.fst same
    have sameTy : b'.slotType entry'.slot = b.slotType entry.slot := congrArg Prod.snd same
    rw [here']
    dsimp only
    rw [sameConst]
    split
    · exact AlikeOk.fail (.refl ⟨_, _⟩) b b' agrees
    · refine AlikeOk.pure (R := SameTarget) ?_ b b' agrees
      exact sameTy
  | none =>
    rw [here] at found
    rw [Option.map_eq_none_iff.1 found]
    cases b.global? target.name with
    | some g =>
      dsimp only
      split
      · exact AlikeOk.fail (.refl ⟨_, _⟩) b b' agrees
      · exact AlikeOk.pure (R := SameTarget) rfl b b' agrees
    | none =>
      dsimp only
      obtain ⟨f, f', here, here', -⟩ | ⟨here, here' | ⟨i, f', needless, here', -⟩⟩ :=
        agrees.callee target.name
      · rw [here, here']
        exact AlikeOk.fail (.refl ⟨_, _⟩) b b' agrees
      · rw [here, here']
        exact AlikeOk.fail (.refl ⟨_, _⟩) b b' agrees
      · rw [here, here', ← ofName?_name needless]
        have same (place : Location) : BindError.Same ⟨.unknownName i.name, place⟩
            ⟨.notAssignable i.name, place⟩ := ⟨rfl, .inr ⟨i, rfl, rfl⟩⟩
        exact AlikeOk.fail (same target.token.location) b b' agrees

theorem bindAssignment_alike (stmt : Location) (target : Ident) (op : Option BinaryOp)
    (value : Syntax.Expr) :
    AlikeOk (fun _ _ => True) (bindAssignment stmt target op value)
      (bindAssignment stmt target op value) := by
  refine (bindTarget_alike target).bind fun (binding, ty) (binding', ty') same => ?_
  obtain rfl : ty' = ty := same
  refine (bindExpr_alike value (some ty')).bind fun e e' sameE => ?_
  rw [sameE.ty, sameE.location]
  split
  · split
    · exact .pure trivial
    · exact .fail (.refl ⟨_, _⟩)
  · split
    · exact .fail (.refl ⟨_, _⟩)
    · exact .pure trivial

/-! ### Statements -/

section

variable {α β : Type} {k : Nat} {R : α → β → Prop}

/-- A scope of its own leaves nothing behind. -/
theorem Alike.inScope {x : BindM α} {y : BindM β} (h : Alike 1 R x y) :
    Alike 0 R (Bound.inScope x) (Bound.inScope y) := by
  intro b b' agrees
  have ⟨result, after, errors, stays⟩ := h _ _ agrees.enter
  refine ⟨result, ?_, errors, ?_⟩
  · have left := after.beneath 1
    unfold Binder.beneath at left
    rwa [List.drop_one, List.drop_one] at left
  · unfold Binder.beneath at stays ⊢
    rwa [List.drop_one, List.drop_one] at stays

/-- Around a loop nothing is different. -/
theorem Alike.inLoop {x : BindM α} {y : BindM β} (h : Alike k R x y) :
    Alike k R (Bound.inLoop x) (Bound.inLoop y) := by
  intro b b' agrees
  have ⟨result, after, errors, stays⟩ :=
    h _ _ (agrees.inLoops (congrArg (· + 1) agrees.loopDepth))
  have around : (y.run { b' with loopDepth := b'.loopDepth + 1 }).2.loopDepth - 1 = b'.loopDepth :=
    congrArg (· - 1) stays.loopDepth
  exact ⟨result, after.inLoops (congrArg (· - 1) after.loopDepth), errors, stays.inLoops around⟩

end

theorem bindReturn_alike (place : Location) (value : Option Syntax.Expr) :
    Alike 0 (fun _ _ => True) (bindReturn place value) (bindReturn place value) := by
  refine .get_bind fun b b' agrees => ?_
  rw [agrees.ret]
  refine Alike.mono (R := fun _ _ => True) ?_ (fun _ _ _ => trivial) b b' agrees
  cases value with
  | none =>
    dsimp only
    split
    · exact .pure trivial
    · exact Alike.report_bind (.refl ⟨_, _⟩) trivial
  | some e =>
    refine (bindExpr_alike e _).attempt.bind fun r r' same => ?_
    cases same with
    | none => exact .pure trivial
    | @some e e' same =>
      dsimp only
      rw [same.ty, same.location]
      split
      · exact Alike.report_bind (.refl ⟨_, _⟩) trivial
      · exact .pure trivial

theorem bindControl_alike (keyword : String) (stmt : Stmt) :
    Alike 0 (fun _ _ => True) (bindControl keyword stmt) (bindControl keyword stmt) := by
  refine .get_bind fun b b' agrees => ?_
  rw [agrees.loopDepth]
  split
  · exact Alike.report_bind (.refl ⟨_, _⟩) trivial b b' agrees
  · exact Alike.pure trivial b b' agrees

theorem bindBounds_alike (start stop : Syntax.Expr) :
    Alike 0 (Option.Rel SamePair) (bindBounds start stop) (bindBounds start stop) := by
  refine (bindPair_alike (bindExpr_alike start) (bindExpr_alike stop) none).attempt.bind
    fun r r' same => ?_
  cases same with
  | none => exact .pure .none
  | @some p p' same =>
    dsimp only
    rw [same.1.ty, same.1.location]
    split
    · exact .pure (.some same)
    · exact Alike.report_bind (.refl ⟨_, _⟩) .none

mutual

/-- A statement fails in the same way wherever the same names mean the same. -/
theorem bindStmt_alike : ∀ s : Syntax.Stmt,
    Alike 1 (fun _ _ => True) (bindStmt s) (bindStmt s)
  | .block node body => by
    rw [bindStmt]
    exact (bindBlock_alike body).inside.bind fun _ _ _ => .pure trivial
  | .var node decl => by
    rw [bindStmt]
    refine (bindDeclaration_alike decl).inside.bind fun r r' same => ?_
    cases same with
    | none => exact .pure trivial
    | @some d d' same =>
      obtain ⟨ty, init⟩ := d
      obtain ⟨ty', init'⟩ := d'
      obtain rfl : ty' = ty := same
      exact (declareLocal_alike _ _ _).bind fun _ _ _ => .pure trivial
  | .assign node target op value => by
    rw [bindStmt]
    exact ((bindAssignment_alike _ target op value).attempt.inside).mono fun _ _ _ => trivial
  | .expr node e => by
    rw [bindStmt]
    exact (bindExpr_alike e none).attempt.inside.bind fun _ _ _ => .pure trivial
  | .cond node branches => by
    rw [bindStmt]
    exact (bindBranches_alike branches).inside.bind fun _ _ _ => .pure trivial
  | .while node cond body => by
    rw [bindStmt]
    refine Alike.bind (bindCondition_alike cond).inside fun c c' same => ?_
    refine (bindBlock_alike body).inLoop.inside.bind fun _ _ _ => ?_
    exact (Alike.record same).bind fun _ _ _ => .pure trivial
  | .loop node body => by
    rw [bindStmt]
    exact (bindBlock_alike body).inLoop.inside.bind fun _ _ _ => .pure trivial
  | .for node var start stop body => by
    rw [bindStmt]
    refine (bindBounds_alike start stop).inside.bind fun r r' same => ?_
    cases same with
    | none => exact .pure trivial
    | @some p p' same =>
      dsimp only
      rw [same.1.ty]
      refine Alike.inside (.inScope ?_)
      refine (declareLocal_alike _ _ _).bind fun _ _ _ => ?_
      refine (declareLocal_alike _ _ _).bind fun _ _ _ => ?_
      exact (bindBlock_alike body).inLoop.inside.bind fun _ _ _ => .pure trivial
  | .ret node value => by
    rw [bindStmt]
    exact (bindReturn_alike _ value).inside
  | .break node => by
    rw [bindStmt]
    exact (bindControl_alike _ _).inside
  | .continue node => by
    rw [bindStmt]
    exact (bindControl_alike _ _).inside

theorem bindBranches_alike : ∀ bs : Syntax.Branches,
    Alike 0 (fun _ _ => True) (bindBranches bs) (bindBranches bs)
  | .none => by
    rw [bindBranches]
    exact .pure trivial
  | .otherwise body => by
    rw [bindBranches]
    exact (bindBlock_alike body).bind fun _ _ _ => .pure trivial
  | .branch cond body rest => by
    rw [bindBranches]
    refine Alike.bind (bindCondition_alike cond) fun c c' same => ?_
    refine (bindBlock_alike body).bind fun _ _ _ => ?_
    refine (Alike.record same).bind fun r r' bound => ?_
    cases bound with
    | none => exact .pure trivial
    | some _ => exact (bindBranches_alike rest).bind fun _ _ _ => .pure trivial

theorem bindBlock_alike : ∀ body : Syntax.Block,
    Alike 0 (fun _ _ => True) (bindBlock body) (bindBlock body)
  | .mk _ stmts => by
    rw [bindBlock]
    exact (bindStmts_alike stmts).inScope

theorem bindStmts_alike : ∀ ss : List Syntax.Stmt,
    Alike 1 (fun _ _ => True) (bindStmts ss) (bindStmts ss)
  | [] => by
    rw [bindStmts]
    exact .pure trivial
  | s :: ss => by
    rw [bindStmts]
    refine (bindStmt_alike s).bind fun _ _ _ => ?_
    exact (bindStmts_alike ss).bind fun _ _ _ => .pure trivial

end

end ScriptLang.Bound
