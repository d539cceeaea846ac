import ScriptLang.Proofs.Typing

/-!
# How binding proceeds

Binding only ever adds: functions that are called without a declaration, and local variables.  So
what has been bound stays well typed (`Binder.Grows.le`), and binding is reasoned about step by step
(`Yields`): a step that begins with scopes in order ends so, and its result has a property.  The
operands of a binary expression and the two values of a ternary are bound as pairs are
(`bindExpr_binary`, `bindExpr_ternary`).
-/

namespace ScriptLang.Bound

/-! ### States -/

/-- What code that is being bound can refer to. -/
def Binder.env (b : Binder) : Env :=
  ⟨b.functions.map Function.signature, b.globals.map Global.ty, b.locals.map LocalSlot.ty⟩

/-- Every name in scope stands for a local variable of the function, and functions have names of
their own. -/
structure Binder.Valid (b : Binder) : Prop where
  slots : ∀ scope ∈ b.scopes, ∀ entry ∈ scope, entry.2.slot < b.locals.length
  names : (b.functions.map Function.name).Nodup

/-- What binding the body of a function or an initial value may change, apart from what the scopes
contain and the errors.  Outside of functions there are no scopes, and no locals are added. -/
structure Binder.Grows (b b' : Binder) : Prop where
  functions : ∃ added, b'.functions = b.functions ++ added ∧
    ∀ f ∈ added, ∃ i place, f = implicitFunction i place
  globals : b'.globals = b.globals
  locals : b.locals <+: b'.locals
  ret : b'.ret = b.ret
  loopDepth : b'.loopDepth = b.loopDepth
  scopes : b'.scopes.length = b.scopes.length
  outside : b.scopes = [] → b'.locals = b.locals

theorem Binder.Grows.refl (b : Binder) : b.Grows b :=
  ⟨⟨[], by simp⟩, rfl, List.prefix_refl _, rfl, rfl, rfl, fun _ => rfl⟩

theorem Binder.Grows.errors (b : Binder) (errors : List BindError) : b.Grows { b with errors } :=
  ⟨⟨[], by simp⟩, rfl, List.prefix_refl _, rfl, rfl, rfl, fun _ => rfl⟩

theorem Binder.Grows.scopes_ne_nil {b b' : Binder} (h : b.Grows b') (hb : b.scopes ≠ []) :
    b'.scopes ≠ [] := by
  intro hnil
  have hlen := h.scopes
  rw [hnil] at hlen
  exact hb (List.length_eq_zero_iff.1 hlen.symm)

theorem Binder.Grows.trans {b₁ b₂ b₃ : Binder} (h : b₁.Grows b₂) (h' : b₂.Grows b₃) :
    b₁.Grows b₃ := by
  obtain ⟨added, hadded, himplicit⟩ := h.functions
  obtain ⟨added', hadded', himplicit'⟩ := h'.functions
  refine ⟨⟨added ++ added', ?_, ?_⟩, h'.globals.trans h.globals, h.locals.trans h'.locals,
    h'.ret.trans h.ret, h'.loopDepth.trans h.loopDepth, h'.scopes.trans h.scopes, fun hnil => ?_⟩
  · rw [hadded', hadded, List.append_assoc]
  · intro f hf
    exact (List.mem_append.1 hf).elim (himplicit f) (himplicit' f)
  · have hnil' : b₂.scopes = [] := by
      rw [← List.length_eq_zero_iff, h.scopes, hnil, List.length_nil]
    exact (h'.outside hnil').trans (h.outside hnil)

/-- There is never less to refer to. -/
theorem Binder.Grows.le {b b' : Binder} (h : b.Grows b') : b.env.Le b'.env := by
  obtain ⟨added, hadded, _⟩ := h.functions
  refine ⟨⟨added.map Function.signature, ?_⟩, ?_, h.locals.map _⟩
  · rw [Binder.env, Binder.env, hadded, List.map_append]
  · have same : b'.env.globals = b.env.globals := by rw [Binder.env, Binder.env, h.globals]
    exact same ▸ List.prefix_refl _

/-! ### Steps -/

/-- Begun in a state that is in order, the step ends in one, and its result has the property `Q`
there. -/
def Yields {α : Type} (b : Binder) (x : BindM α) (Q : α → Binder → Prop) : Prop :=
  b.Valid → ∃ a b', x.run b = (a, b') ∧ b.Grows b' ∧ b'.Valid ∧ Q a b'

/-- As `Yields`, of a step that may fail and then has no result. -/
def YieldsIfOk {α : Type} (b : Binder) (x : ExprM α) (Q : α → Binder → Prop) : Prop :=
  Yields b x.run fun r b' => ∀ a, r = .ok a → Q a b'

/-- A property of the result, if there is one. -/
def IfSome {α : Type} (Q : α → Binder → Prop) (r : Option α) (b : Binder) : Prop :=
  ∀ a, r = some a → Q a b

section

variable {α β : Type} {b : Binder} {P Q : α → Binder → Prop}

theorem IfSome.none : IfSome Q none b := fun _ same => by cases same

theorem IfSome.some {a : α} (h : Q a b) : IfSome Q (some a) b := fun _ same => by
  cases same
  exact h

theorem Yields.pure {a : α} (h : Q a b) : Yields b (Pure.pure a) Q := fun valid =>
  ⟨a, b, rfl, .refl b, valid, h⟩

theorem Yields.bind {x : BindM α} {f : α → BindM β} {Q : β → Binder → Prop} (hx : Yields b x P)
    (hf : ∀ a b', b.Grows b' → P a b' → Yields b' (f a) Q) : Yields b (x >>= f) Q := by
  intro valid
  obtain ⟨a, b', hrun, grows, valid', hP⟩ := hx valid
  obtain ⟨c, b'', hrun', grows', valid'', hQ⟩ := hf a b' grows hP valid'
  refine ⟨c, b'', ?_, grows.trans grows', valid'', hQ⟩
  rw [StateT.run_bind, hrun]
  exact hrun'

theorem Yields.get_bind {f : Binder → BindM α} (h : b.Valid → Yields b (f b) Q) :
    Yields b (get >>= f) Q := by
  intro valid
  exact h valid valid

theorem Yields.report {fault : Fault} {place : Location} :
    Yields b (report fault place) fun _ _ => True := fun valid =>
  ⟨(), _, rfl, .errors b _, ⟨valid.slots, valid.names⟩, trivial⟩

theorem YieldsIfOk.pure {a : α} (h : Q a b) : YieldsIfOk b (Pure.pure a) Q :=
  Yields.pure fun _ same => by
    cases same
    exact h

theorem YieldsIfOk.fail {fault : Fault} {place : Location} :
    YieldsIfOk b (fail (α := α) fault place) Q :=
  Yields.pure fun _ same => by cases same

theorem YieldsIfOk.bind {x : ExprM α} {f : α → ExprM β} {Q : β → Binder → Prop}
    (hx : YieldsIfOk b x P) (hf : ∀ a b', b.Grows b' → P a b' → YieldsIfOk b' (f a) Q) :
    YieldsIfOk b (x >>= f) Q := by
  rw [YieldsIfOk, ExceptT.run_bind]
  refine Yields.bind hx fun r b' grows hP => ?_
  cases r with
  | ok a => exact hf a b' grows (hP a rfl)
  | error e => exact Yields.pure fun _ same => by cases same

/-- Whichever of two steps is taken, what follows is the same. -/
theorem YieldsIfOk.ite_bind {c : Prop} [Decidable c] {x y : ExprM α} {f : α → ExprM β}
    {Q : β → Binder → Prop} (hx : YieldsIfOk b x P) (hy : YieldsIfOk b y P)
    (hf : ∀ a b', b.Grows b' → P a b' → YieldsIfOk b' (f a) Q) :
    YieldsIfOk b (if c then x >>= f else y >>= f) Q := by
  split
  · exact hx.bind hf
  · exact hy.bind hf

theorem YieldsIfOk.get_bind {f : Binder → ExprM α} (h : b.Valid → YieldsIfOk b (f b) Q) :
    YieldsIfOk b (get >>= f) Q := fun valid => h valid valid

/-- A failure is reported; there is a result only if there is none. -/
theorem Yields.record {r : Except BindError α} (h : ∀ a, r = .ok a → Q a b) :
    Yields b (record r) (IfSome Q) := by
  cases r with
  | ok a => exact Yields.pure (.some (h a rfl))
  | error e =>
    exact fun valid => ⟨none, _, rfl, .errors b _, ⟨valid.slots, valid.names⟩, .none⟩

theorem YieldsIfOk.attempt {x : ExprM α} (h : YieldsIfOk b x Q) :
    Yields b (attempt x) (IfSome Q) :=
  Yields.bind h fun _ _ _ hr => Yields.record hr

end

/-! ### Pairs of operands -/

/-- What is made of a pair is made once both sides are of one type. -/
theorem bindPair_bind (lhs rhs : Syntax.Expr) (expected : Option Ty)
    (f : Expr × Expr → ExprM Expr) :
    bindPair lhs rhs expected >>= f = (do
      let l ← bindExpr lhs expected
      let r ← bindExpr rhs (some l.ty)
      let l ← if l.ty ≠ r.ty ∧ isUntypedLiteral lhs then bindExpr lhs (some r.ty) else pure l
      if l.ty ≠ r.ty then fail (.typeMismatch l.ty r.ty) r.location else f (l, r)) := by
  simp only [bindPair, bind_assoc]
  refine bind_congr fun l => bind_congr fun r => ?_
  split
  · rw [bind_assoc]
    refine bind_congr fun l => ?_
    by_cases same : l.ty = r.ty <;> simp [fail, same]
  · by_cases same : l.ty = r.ty <;> simp [fail, same]

/-- The operands of a binary expression are bound as a pair. -/
theorem bindExpr_binary (node : Syntax.Node) (op : BinaryOp) (lhs rhs : Syntax.Expr)
    (expected : Option Ty) :
    bindExpr (.binary node op lhs rhs) expected
      = bindPair lhs rhs (operandExpected op expected) >>= fun p =>
        if operandAllowed op p.1.ty then
          return .binary ⟨resultType op p.1.ty, node.token.location⟩ op p.1 p.2
        else fail (.invalidOperand op.symbol p.1.ty) node.token.location := by
  rw [bindExpr, bindPair_bind]

/-- The two values of a ternary are bound as a pair. -/
theorem bindExpr_ternary (node : Syntax.Node) (cond yes no : Syntax.Expr)
    (expected : Option Ty) :
    bindExpr (.ternary node cond yes no) expected
      = bindExpr cond (some .bool) >>= fun c =>
        if c.ty ≠ .bool then fail (.typeMismatch .bool c.ty) c.location
        else bindPair yes no expected >>= fun p =>
          return .ternary ⟨p.1.ty, node.token.location⟩ c p.1 p.2 := by
  rw [bindExpr]
  simp only [bindPair_bind]

end ScriptLang.Bound
