import ScriptLang.Bound.Binder
import ScriptLang.Code.Program

/-!
# Well-typed programs

A bound program records a type at every expression.  It is *well typed* if each recorded type is the
one that the parts of the expression give, and if every operand, argument, condition, stored value
and returned value has the type that its place asks for.  What assignments may store is a parameter
of the definitions (`Stmt.Typed`), so that the promise of the binder, which is weaker for
assignments through an operator, is stated with the same words.
-/

namespace ScriptLang.Bound

/-- The signatures of the functions and the types of the variables that code can refer to. -/
structure Env where
  signatures : List Signature
  globals : List Ty
  locals : List Ty

/-- The type of the variable that a name stands for. -/
def Env.type? (Γ : Env) : Binding → Option Ty
  | .local slot => Γ.locals[slot]?
  | .global id => Γ.globals[id]?

def Function.signature (f : Function) : Signature := ⟨f.params, f.ret⟩

/-- What code with some local variables can refer to. -/
def Program.env (p : Program) (locals : List Ty) : Env :=
  ⟨p.functions.map Function.signature, p.globals.map Global.ty, locals⟩

/-! ### Expressions -/

mutual

/-- Every recorded type is the one that the operands give, and every operand is of a type that its
operator or function takes. -/
def Expr.WellTyped (Γ : Env) : Expr → Prop
  | .literal i v => i.ty = v.type ∧ i.ty ≠ .void
  | .variable i b => Γ.type? b = some i.ty
  | .unary i op e => e.WellTyped Γ ∧ unaryAllowed op e.ty = true ∧ i.ty = e.ty
  | .binary i op l r =>
    l.WellTyped Γ ∧ r.WellTyped Γ ∧ l.ty = r.ty ∧ operandAllowed op l.ty = true ∧
      i.ty = resultType op l.ty
  | .cast i e => e.WellTyped Γ ∧ castable e.ty i.ty = true
  | .ternary i c y n =>
    c.WellTyped Γ ∧ y.WellTyped Γ ∧ n.WellTyped Γ ∧ c.ty = .bool ∧ y.ty = n.ty ∧ i.ty = y.ty
  | .call i f args =>
    argsWellTyped Γ args ∧ Γ.signatures[f]? = some ⟨args.map Expr.ty, i.ty⟩

def argsWellTyped (Γ : Env) : List Expr → Prop
  | [] => True
  | e :: es => e.WellTyped Γ ∧ argsWellTyped Γ es

end

mutual

/-- No part of the expression is of type `void`. -/
def Expr.VoidFree : Expr → Prop
  | .literal i _ => i.ty ≠ .void
  | .variable i _ => i.ty ≠ .void
  | .unary i _ e => i.ty ≠ .void ∧ e.VoidFree
  | .binary i _ l r => i.ty ≠ .void ∧ l.VoidFree ∧ r.VoidFree
  | .cast i e => i.ty ≠ .void ∧ e.VoidFree
  | .ternary i c y n => i.ty ≠ .void ∧ c.VoidFree ∧ y.VoidFree ∧ n.VoidFree
  | .call i _ args => i.ty ≠ .void ∧ argsVoidFree args

def argsVoidFree : List Expr → Prop
  | [] => True
  | e :: es => e.VoidFree ∧ argsVoidFree es

end

theorem Expr.VoidFree.ty_ne_void {e : Expr} (h : e.VoidFree) : e.ty ≠ .void := by
  cases e with
  | literal => exact h
  | «variable» => exact h
  | _ => exact h.1

/-- Free of `void` but for a call that the statement itself is. -/
def Expr.VoidFreeStatement : Expr → Prop
  | .call _ _ args => argsVoidFree args
  | e => e.VoidFree

/-! ### Statements -/

/-- The value fits the variable that it is stored in. -/
def Stores (Γ : Env) (target : Binding) (e : Expr) : Prop :=
  e.WellTyped Γ ∧ Γ.type? target = some e.ty

section

variable (stores : Binding → Expr → Prop) (Γ : Env) (ret : Ty)

mutual

/-- A statement of a function that returns `ret`, inside a loop or not, is well typed if the
assignments that it makes are allowed by `stores`. -/
def Stmt.Typed (inLoop : Bool) : Stmt → Prop
  | .block _ body => stmtsTyped inLoop body
  | .assign _ target e => stores target e
  | .expr _ e => e.WellTyped Γ
  | .cond _ branches => branches.Typed inLoop
  | .while _ c body => c.WellTyped Γ ∧ c.ty = .bool ∧ stmtsTyped true body
  | .loop _ body => stmtsTyped true body
  | .for _ var limit a z body =>
    a.WellTyped Γ ∧ z.WellTyped Γ ∧ a.ty = z.ty ∧ a.ty.isInteger = true ∧
      Γ.type? (.local var) = some a.ty ∧ Γ.type? (.local limit) = some a.ty ∧
      stmtsTyped true body
  | .ret _ none => ret = .void
  | .ret _ (some e) => e.WellTyped Γ ∧ e.ty = ret
  | .break _ => inLoop = true
  | .continue _ => inLoop = true

def Branches.Typed (inLoop : Bool) : Branches → Prop
  | .none => True
  | .otherwise body => stmtsTyped inLoop body
  | .branch c body rest =>
    c.WellTyped Γ ∧ c.ty = .bool ∧ stmtsTyped inLoop body ∧ rest.Typed inLoop

def stmtsTyped (inLoop : Bool) : List Stmt → Prop
  | [] => True
  | s :: ss => s.Typed inLoop ∧ stmtsTyped inLoop ss

end

end

mutual

/-- The only parts of the statement of type `void` are calls made for their effect. -/
def Stmt.VoidFree : Stmt → Prop
  | .block _ body => stmtsVoidFree body
  | .assign _ _ e => e.VoidFree
  | .expr _ e => e.VoidFreeStatement
  | .cond _ branches => branches.VoidFree
  | .while _ c body => c.VoidFree ∧ stmtsVoidFree body
  | .loop _ body => stmtsVoidFree body
  | .for _ _ _ a z body => a.VoidFree ∧ z.VoidFree ∧ stmtsVoidFree body
  | .ret _ none => True
  | .ret _ (some e) => e.VoidFree
  | .break _ => True
  | .continue _ => True

def Branches.VoidFree : Branches → Prop
  | .none => True
  | .otherwise body => stmtsVoidFree body
  | .branch c body rest => c.VoidFree ∧ stmtsVoidFree body ∧ rest.VoidFree

def stmtsVoidFree : List Stmt → Prop
  | [] => True
  | s :: ss => s.VoidFree ∧ stmtsVoidFree ss

end

mutual

/-- What the statement assigns: the variables with the expressions stored in them. -/
def Stmt.stored : Stmt → List (Binding × Expr)
  | .block _ body => stmtsStored body
  | .assign _ target e => [(target, e)]
  | .expr _ _ => []
  | .cond _ branches => branches.stored
  | .while _ _ body => stmtsStored body
  | .loop _ body => stmtsStored body
  | .for _ _ _ _ _ body => stmtsStored body
  | .ret _ _ => []
  | .break _ => []
  | .continue _ => []

def Branches.stored : Branches → List (Binding × Expr)
  | .none => []
  | .otherwise body => stmtsStored body
  | .branch _ body rest => stmtsStored body ++ rest.stored

def stmtsStored : List Stmt → List (Binding × Expr)
  | [] => []
  | s :: ss => s.stored ++ stmtsStored ss

end

/-! ### More to refer to -/

/-- The second environment has everything the first one has, and perhaps more behind it. -/
structure Env.Le (Γ Γ' : Env) : Prop where
  signatures : Γ.signatures <+: Γ'.signatures
  globals : Γ.globals <+: Γ'.globals
  locals : Γ.locals <+: Γ'.locals

theorem Env.Le.refl (Γ : Env) : Γ.Le Γ :=
  ⟨List.prefix_refl _, List.prefix_refl _, List.prefix_refl _⟩

theorem getElem?_of_prefix {α : Type} {as bs : List α} (h : as <+: bs) {k : Nat} {a : α}
    (ha : as[k]? = some a) : bs[k]? = some a := by
  obtain ⟨more, rfl⟩ := h
  obtain ⟨hlt, _⟩ := List.getElem?_eq_some_iff.1 ha
  rw [List.getElem?_append_left hlt, ha]

section

variable {Γ Γ' : Env}

theorem Env.Le.type?_eq (h : Γ.Le Γ') {b : Binding} {ty : Ty} (hb : Γ.type? b = some ty) :
    Γ'.type? b = some ty := by
  cases b with
  | «local» slot => exact getElem?_of_prefix h.locals hb
  | «global» id => exact getElem?_of_prefix h.globals hb

mutual

theorem Expr.WellTyped.mono (hle : Γ.Le Γ') : ∀ {e : Expr}, e.WellTyped Γ → e.WellTyped Γ'
  | .literal _ _, h => h
  | .variable _ _, h => hle.type?_eq h
  | .unary _ _ _, h => ⟨h.1.mono hle, h.2⟩
  | .binary _ _ _ _, h => ⟨h.1.mono hle, h.2.1.mono hle, h.2.2⟩
  | .cast _ _, h => ⟨h.1.mono hle, h.2⟩
  | .ternary _ _ _ _, h => ⟨h.1.mono hle, h.2.1.mono hle, h.2.2.1.mono hle, h.2.2.2⟩
  | .call _ _ _, h => ⟨argsWellTyped_mono hle h.1, getElem?_of_prefix hle.signatures h.2⟩

theorem argsWellTyped_mono (hle : Γ.Le Γ') : ∀ {es : List Expr},
    argsWellTyped Γ es → argsWellTyped Γ' es
  | [], _ => trivial
  | _ :: _, h => ⟨h.1.mono hle, argsWellTyped_mono hle h.2⟩

end

variable {stores stores' : Binding → Expr → Prop} {ret : Ty}

mutual

/-- A statement stays well typed when there is more to refer to and each assignment that it makes
stays allowed. -/
theorem Stmt.Typed.mono (hle : Γ.Le Γ') : ∀ {s : Stmt} {inLoop : Bool},
    (∀ t e, (t, e) ∈ s.stored → stores t e → stores' t e) →
    s.Typed stores Γ ret inLoop → s.Typed stores' Γ' ret inLoop
  | .block _ _, _, hs, h => stmtsTyped_mono hle hs h
  | .assign _ target e, _, hs, h => hs target e (List.mem_singleton_self _) h
  | .expr _ _, _, _, h => Expr.WellTyped.mono hle h
  | .cond _ _, _, hs, h => Branches.Typed.mono hle hs h
  | .while _ _ _, _, hs, h => ⟨h.1.mono hle, h.2.1, stmtsTyped_mono hle hs h.2.2⟩
  | .loop _ _, _, hs, h => stmtsTyped_mono hle hs h
  | .for _ _ _ _ _ _, _, hs, h => by
    obtain ⟨ha, hz, same, integer, hvar, hlimit, hbody⟩ := h
    exact ⟨ha.mono hle, hz.mono hle, same, integer, hle.type?_eq hvar, hle.type?_eq hlimit,
      stmtsTyped_mono hle hs hbody⟩
  | .ret _ none, _, _, h => h
  | .ret _ (some _), _, _, h => ⟨h.1.mono hle, h.2⟩
  | .break _, _, _, h => h
  | .continue _, _, _, h => h

theorem Branches.Typed.mono (hle : Γ.Le Γ') : ∀ {bs : Branches} {inLoop : Bool},
    (∀ t e, (t, e) ∈ bs.stored → stores t e → stores' t e) →
    bs.Typed stores Γ ret inLoop → bs.Typed stores' Γ' ret inLoop
  | .none, _, _, _ => trivial
  | .otherwise _, _, hs, h => stmtsTyped_mono hle hs h
  | .branch _ _ _, _, hs, h =>
    ⟨h.1.mono hle, h.2.1,
      stmtsTyped_mono hle (fun t e he => hs t e (List.mem_append_left _ he)) h.2.2.1,
      h.2.2.2.mono hle fun t e he => hs t e (List.mem_append_right _ he)⟩

theorem stmtsTyped_mono (hle : Γ.Le Γ') : ∀ {ss : List Stmt} {inLoop : Bool},
    (∀ t e, (t, e) ∈ stmtsStored ss → stores t e → stores' t e) →
    stmtsTyped stores Γ ret inLoop ss → stmtsTyped stores' Γ' ret inLoop ss
  | [], _, _, _ => trivial
  | _ :: _, _, hs, h =>
    ⟨h.1.mono hle fun t e he => hs t e (List.mem_append_left _ he),
      stmtsTyped_mono hle (fun t e he => hs t e (List.mem_append_right _ he)) h.2⟩

end

mutual

theorem Stmt.Typed.stored_of_mem : ∀ {s : Stmt} {inLoop : Bool}, s.Typed stores Γ ret inLoop →
    ∀ t e, (t, e) ∈ s.stored → stores t e
  | .block _ _, _, h, t, e, he => stmtsTyped_stored_of_mem h t e he
  | .assign _ _ _, _, h, t, e, he => by
    cases List.mem_singleton.1 he
    exact h
  | .cond _ _, _, h, t, e, he => Branches.Typed.stored_of_mem h t e he
  | .while _ _ _, _, h, t, e, he => stmtsTyped_stored_of_mem h.2.2 t e he
  | .loop _ _, _, h, t, e, he => stmtsTyped_stored_of_mem h t e he
  | .for _ _ _ _ _ _, _, h, t, e, he => by
    obtain ⟨_, _, _, _, _, _, hbody⟩ := h
    exact stmtsTyped_stored_of_mem hbody t e he

theorem Branches.Typed.stored_of_mem : ∀ {bs : Branches} {inLoop : Bool},
    bs.Typed stores Γ ret inLoop → ∀ t e, (t, e) ∈ bs.stored → stores t e
  | .otherwise _, _, h, t, e, he => stmtsTyped_stored_of_mem h t e he
  | .branch _ _ _, _, h, t, e, he =>
    (List.mem_append.1 he).elim (stmtsTyped_stored_of_mem h.2.2.1 t e)
      (h.2.2.2.stored_of_mem t e)

theorem stmtsTyped_stored_of_mem : ∀ {ss : List Stmt} {inLoop : Bool},
    stmtsTyped stores Γ ret inLoop ss → ∀ t e, (t, e) ∈ stmtsStored ss → stores t e
  | _ :: _, _, h, t, e, he =>
    (List.mem_append.1 he).elim (h.1.stored_of_mem t e) (stmtsTyped_stored_of_mem h.2 t e)

end

end

/-! ### Programs -/

/-- The statements of the function's body, none if it is not written in the language. -/
def Function.stmts (f : Function) : List Stmt :=
  match f.body with
  | .block stmts => stmts
  | _ => []

/-- The types of the function's variables, its parameters first. -/
def Function.localTypes (f : Function) : List Ty := f.locals.map LocalSlot.ty

/-- The function is well typed if the assignments in it are allowed by `stores`. -/
structure Function.Typed (stores : Env → Binding → Expr → Prop) (p : Program) (f : Function) :
    Prop where
  params_first : f.params <+: f.localTypes
  stmts_typed :
    stmtsTyped (stores (p.env f.localTypes)) (p.env f.localTypes) f.ret false f.stmts

/-- The initial value fits the global, and refers to no local variables. -/
def Global.WellTyped (p : Program) (g : Global) : Prop :=
  ∀ e, g.init = some e → e.WellTyped (p.env []) ∧ e.ty = g.ty

/-- A program is well typed if the assignments in it are allowed by `stores`. -/
structure Program.Typed (stores : Env → Binding → Expr → Prop) (p : Program) : Prop where
  globals_typed : ∀ g ∈ p.globals, g.WellTyped p
  functions_typed : ∀ f ∈ p.functions, f.Typed stores p

/-- Every node of the program is well typed. -/
abbrev Program.WellTyped (p : Program) : Prop := p.Typed Stores

/-- The only parts of type `void` are calls made for their effect, and no variable is of that
type. -/
structure Program.VoidFree (p : Program) : Prop where
  global_types : ∀ g ∈ p.globals, g.ty ≠ .void
  global_inits : ∀ g ∈ p.globals, ∀ e, g.init = some e → e.VoidFree
  local_types : ∀ f ∈ p.functions, ∀ ty ∈ f.localTypes, ty ≠ .void
  stmts_free : ∀ f ∈ p.functions, stmtsVoidFree f.stmts

/-- Every function has a name of its own, and none has the name of the function that sets the
globals, which is no name that can be written. -/
structure Program.NamesDistinct (p : Program) : Prop where
  nodup : (p.functions.map Function.name).Nodup
  ne_init : ∀ f ∈ p.functions, f.name ≠ Code.initName

end ScriptLang.Bound
