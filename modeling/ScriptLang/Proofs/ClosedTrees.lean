import ScriptLang.Proofs.BinderSoundness

/-!
# What bound trees refer to

A tree is *closed* if all variables and functions that it refers to are there, every function is
called with as many arguments as it has parameters, and every statement that leaves a loop is in one.
Bound programs are closed (`closed_of_bind`), whatever becomes of the types in them.
-/

namespace ScriptLang.Bound

/-- How much there is to refer to: the functions, by their numbers of parameters, and the numbers of
variables. -/
structure Extent where
  arities : List Nat
  globals : Nat
  locals : Nat

/-- The variable is there. -/
def Extent.Has (x : Extent) : Binding → Prop
  | .local slot => slot < x.locals
  | .global id => id < x.globals

/-- What code with so many local variables can refer to. -/
def Program.extent (p : Program) (locals : Nat) : Extent :=
  ⟨p.functions.map fun f => f.params.length, p.globals.length, locals⟩

section

variable (x : Extent)

mutual

/-- All variables and functions in the expression are there, and all arguments. -/
def Expr.Closed : Expr → Prop
  | .literal _ _ => True
  | .variable _ b => x.Has b
  | .unary _ _ e => e.Closed
  | .binary _ _ l r => l.Closed ∧ r.Closed
  | .cast _ e => e.Closed
  | .ternary _ c y n => c.Closed ∧ y.Closed ∧ n.Closed
  | .call _ f args => argsClosed args ∧ x.arities[f]? = some args.length

def argsClosed : List Expr → Prop
  | [] => True
  | e :: es => e.Closed ∧ argsClosed es

end

mutual

/-- All that the statement refers to is there, inside a loop or not. -/
def Stmt.Closed (inLoop : Bool) : Stmt → Prop
  | .block _ body => stmtsClosed inLoop body
  | .assign _ target e => x.Has target ∧ e.Closed x
  | .expr _ e => e.Closed x
  | .cond _ branches => branches.Closed inLoop
  | .while _ c body => c.Closed x ∧ stmtsClosed true body
  | .loop _ body => stmtsClosed true body
  | .for _ var limit a z body =>
    x.Has (.local var) ∧ x.Has (.local limit) ∧ a.Closed x ∧ z.Closed x ∧ stmtsClosed true body
  | .ret _ none => True
  | .ret _ (some e) => e.Closed x
  | .break _ => inLoop = true
  | .continue _ => inLoop = true

def Branches.Closed (inLoop : Bool) : Branches → Prop
  | .none => True
  | .otherwise body => stmtsClosed inLoop body
  | .branch c body rest => c.Closed x ∧ stmtsClosed inLoop body ∧ rest.Closed inLoop

def stmtsClosed (inLoop : Bool) : List Stmt → Prop
  | [] => True
  | s :: ss => s.Closed inLoop ∧ stmtsClosed inLoop ss

end

end

/-- All that the program refers to is there; initial values refer to no local variables. -/
structure Program.Closed (p : Program) : Prop where
  inits_closed : ∀ g ∈ p.globals, ∀ e, g.init = some e → e.Closed (p.extent 0)
  stmts_closed : ∀ f ∈ p.functions, stmtsClosed (p.extent f.locals.length) false f.stmts

/-! ### Typed trees -/

/-- How much there is of everything. -/
def Env.extent (Γ : Env) : Extent :=
  ⟨Γ.signatures.map fun sig => sig.params.length, Γ.globals.length, Γ.locals.length⟩

theorem Program.extent_env (p : Program) (types : List Ty) :
    (p.env types).extent = p.extent types.length := by
  simp only [Env.extent, Program.env, Program.extent, List.map_map, List.length_map]
  rfl

section

variable {Γ : Env}

theorem Env.has_of_type? {b : Binding} {ty : Ty} (h : Γ.type? b = some ty) : Γ.extent.Has b := by
  cases b with
  | «local» slot => exact (List.getElem?_eq_some_iff.1 h).1
  | «global» id => exact (List.getElem?_eq_some_iff.1 h).1

mutual

theorem Expr.WellTyped.closed : ∀ {e : Expr}, e.WellTyped Γ → e.Closed Γ.extent
  | .literal _ _, _ => trivial
  | .variable _ _, h => Env.has_of_type? h
  | .unary _ _ _, h => h.1.closed
  | .binary _ _ _ _, h => ⟨h.1.closed, h.2.1.closed⟩
  | .cast _ _, h => h.1.closed
  | .ternary _ _ _ _, h => ⟨h.1.closed, h.2.1.closed, h.2.2.1.closed⟩
  | .call _ f args, h => by
    refine ⟨argsWellTyped_closed h.1, ?_⟩
    rw [Env.extent, List.getElem?_map, h.2, Option.map_some, List.length_map]

theorem argsWellTyped_closed : ∀ {es : List Expr}, argsWellTyped Γ es → argsClosed Γ.extent es
  | [], _ => trivial
  | _ :: _, h => ⟨h.1.closed, argsWellTyped_closed h.2⟩

end

/-- An assignment that was bound refers to what is there. -/
theorem BinderStores.closed {target : Binding} {e : Expr} (h : BinderStores Γ target e) :
    Γ.extent.Has target ∧ e.Closed Γ.extent := by
  obtain ⟨typed, hty⟩ | ⟨i, op, v, operand, rfl, hty, _, _, typed⟩ := h
  · exact ⟨Env.has_of_type? hty, typed.closed⟩
  · exact ⟨Env.has_of_type? hty, Env.has_of_type? hty, typed.closed⟩

variable {stores : Binding → Expr → Prop} {ret : Ty}

mutual

theorem Stmt.Typed.closed (hs : ∀ t e, stores t e → Γ.extent.Has t ∧ e.Closed Γ.extent) :
    ∀ {s : Stmt} {inLoop : Bool}, s.Typed stores Γ ret inLoop → s.Closed Γ.extent inLoop
  | .block _ _, _, h => stmtsTyped_closed hs h
  | .assign _ target e, _, h => hs target e h
  | .expr _ _, _, h => Expr.WellTyped.closed h
  | .cond _ _, _, h => Branches.Typed.closed hs h
  | .while _ _ _, _, h => ⟨h.1.closed, stmtsTyped_closed hs h.2.2⟩
  | .loop _ _, _, h => stmtsTyped_closed hs h
  | .for _ _ _ _ _ _, _, h => by
    obtain ⟨ha, hz, _, _, hvar, hlimit, hbody⟩ := h
    exact ⟨Env.has_of_type? hvar, Env.has_of_type? hlimit, ha.closed, hz.closed,
      stmtsTyped_closed hs hbody⟩
  | .ret _ none, _, _ => trivial
  | .ret _ (some _), _, h => h.1.closed
  | .break _, _, h => h
  | .continue _, _, h => h

theorem Branches.Typed.closed (hs : ∀ t e, stores t e → Γ.extent.Has t ∧ e.Closed Γ.extent) :
    ∀ {bs : Branches} {inLoop : Bool}, bs.Typed stores Γ ret inLoop → bs.Closed Γ.extent inLoop
  | .none, _, _ => trivial
  | .otherwise _, _, h => stmtsTyped_closed hs h
  | .branch _ _ _, _, h => ⟨h.1.closed, stmtsTyped_closed hs h.2.2.1, h.2.2.2.closed hs⟩

theorem stmtsTyped_closed (hs : ∀ t e, stores t e → Γ.extent.Has t ∧ e.Closed Γ.extent) :
    ∀ {ss : List Stmt} {inLoop : Bool}, stmtsTyped stores Γ ret inLoop ss →
      stmtsClosed Γ.extent inLoop ss
  | [], _, _ => trivial
  | _ :: _, _, h => ⟨h.1.closed hs, stmtsTyped_closed hs h.2⟩

end

end

/-! ### Programs -/

/-- A program is closed if it is well typed but for what its assignments store. -/
theorem Program.Typed.closed {stores : Env → Binding → Expr → Prop} {p : Program}
    (stored : ∀ {Γ : Env} {t e}, stores Γ t e → Γ.extent.Has t ∧ e.Closed Γ.extent)
    (typed : p.Typed stores) : p.Closed where
  inits_closed g hg e he := p.extent_env [] ▸ (typed.globals_typed g hg e he).1.closed
  stmts_closed f hf := by
    have closed := stmtsTyped_closed (fun _ _ => stored) (typed.functions_typed f hf).stmts_typed
    rwa [p.extent_env, Function.localTypes, List.length_map] at closed

theorem Program.WellTyped.closed {p : Program} (typed : p.WellTyped) : p.Closed :=
  Program.Typed.closed (fun stored => BinderStores.closed (.inl stored)) typed

theorem closed_of_bind {source : Syntax.Program} {p : Program} (h : bind source = .ok p) :
    p.Closed :=
  (typed_of_bind h).closed BinderStores.closed

end ScriptLang.Bound
