import ScriptLang.Proofs.Binding
import ScriptLang.Proofs.ResultTypes

/-!
# Bound expressions are well typed

Every way of binding an expression, rebinding a literal and fitting an argument included, gives a
well-typed one (`bindExpr_yields`).
-/

namespace ScriptLang.Bound

open Syntax (Ident TypeName)

/-- A well-typed expression. -/
def GoodExpr (e : Expr) (b : Binder) : Prop := e.WellTyped b.env

theorem GoodExpr.grows {e : Expr} {b b' : Binder} (h : GoodExpr e b) (grows : b.Grows b') :
    GoodExpr e b' :=
  Expr.WellTyped.mono grows.le h

variable {b : Binder}

theorem goodExpr_ofValue {v : Value} (hv : v.type ≠ .void) (place : Location) :
    GoodExpr (.ofValue v place) b :=
  ⟨rfl, hv⟩

/-! ### Literals and names -/

theorem resolveType_yields (t : TypeName) : YieldsIfOk b (resolveType t) fun _ _ => True := by
  unfold resolveType
  split
  · exact .pure trivial
  · exact .fail

theorem literalOf_yields {ty : Ty} {n : Int} {place : Location} :
    YieldsIfOk b (literalOf ty n place) GoodExpr := by
  unfold literalOf
  split
  · rename_i v hv
    exact .pure (goodExpr_ofValue (Value.literal_type_ne_void hv) _)
  · exact .fail

theorem bindInteger_yields {place : Location} {n : Int} {suffix : Option TypeName}
    {expected : Option Ty} : YieldsIfOk b (bindInteger place n suffix expected) GoodExpr := by
  unfold bindInteger
  split
  · refine (resolveType_yields _).bind fun ty b' _ _ => ?_
    split
    · exact literalOf_yields
    · exact .fail
  · split
    · exact .pure (goodExpr_ofValue Ty.noConfusion _)
    · exact literalOf_yields
    · exact literalOf_yields

/-- A local variable in scope has a slot. -/
theorem slotType_of_local? (valid : b.Valid) {name : String} {entry : LocalEntry}
    (h : b.local? name = some entry) :
    b.env.type? (.local entry.slot) = some (b.slotType entry.slot) := by
  obtain ⟨scope, hscope, hentry⟩ := List.exists_of_findSome?_eq_some h
  obtain ⟨before, after, hsplit, _⟩ := List.lookup_eq_some_iff.1 hentry
  have mem : (name, entry) ∈ scope := by rw [hsplit]; simp
  have hlt := valid.slots scope hscope _ mem
  rw [Env.type?, Binder.env, List.getElem?_map, Binder.slotType, List.getElem?_eq_getElem hlt]
  rfl

theorem getElem?_of_find?_zipIdx {α : Type} {as : List α} {p : α × Nat → Bool} {k : Nat} {a : α}
    (h : (as.zipIdx.find? p).map (fun q => (q.2, q.1)) = some (k, a)) : as[k]? = some a := by
  obtain ⟨⟨a', k'⟩, found, same⟩ := Option.map_eq_some_iff.1 h
  cases same
  exact List.mem_zipIdx_iff_getElem?.1 (List.mem_of_find?_eq_some found)

theorem type?_of_global? {name : String} {id : Nat} {g : Global}
    (h : b.global? name = some (id, g)) :
    b.env.type? (.global id) = some g.ty := by
  rw [Env.type?, Binder.env, List.getElem?_map, getElem?_of_find?_zipIdx h, Option.map_some]

theorem bindName_yields {name : String} {place : Location} :
    YieldsIfOk b (bindName name place) GoodExpr := by
  refine .get_bind fun valid => ?_
  split
  · rename_i entry hentry
    exact .pure (slotType_of_local? valid hentry)
  · split
    · rename_i id g hg
      exact .pure (type?_of_global? hg)
    · exact .fail

/-! ### Calls -/

theorem ofName?_name {name : String} {f : Intrinsic} (h : Intrinsic.ofName? name = some f) :
    f.name = name := by
  unfold Intrinsic.ofName? at h
  split at h
  · cases h
    rfl
  · cases h
    rfl
  · cases h

theorem name_not_mem_of_function? {name : String} (h : b.function? name = none) :
    name ∉ b.functions.map Function.name := by
  rw [Binder.function?, Option.map_eq_none_iff, List.find?_eq_none] at h
  intro hmem
  obtain ⟨f, hf, rfl⟩ := List.mem_map.1 hmem
  obtain ⟨k, hk⟩ := List.getElem?_of_mem hf
  exact h (f, k) (List.mem_zipIdx_iff_getElem?.2 hk) (beq_self_eq_true _)

/-- What is called is a function of the program, declared or not. -/
theorem bindCallee_yields {callee : Ident} :
    YieldsIfOk b (bindCallee callee) fun found b' => b'.functions[found.1]? = some found.2 := by
  refine .get_bind fun valid => ?_
  split
  · rename_i found hfound
    exact .pure (getElem?_of_find?_zipIdx hfound)
  · rename_i hnone
    split
    · rename_i i hi
      refine fun valid => ⟨_, _, rfl, ⟨⟨_, rfl, ?_⟩, rfl, List.prefix_refl _, rfl, rfl, rfl,
        fun _ => rfl⟩, ⟨valid.slots, ?_⟩, fun a same => ?_⟩
      · intro f hf
        exact ⟨i, _, List.mem_singleton.1 hf⟩
      · rw [List.map_append, List.nodup_append]
        refine ⟨valid.names, by simp, fun name hname name' hname' => ?_⟩
        rintro rfl
        refine name_not_mem_of_function? hnone ?_
        rw [List.map_singleton, List.mem_singleton] at hname'
        rwa [hname', show (implicitFunction i callee.token.location).name = callee.name from
          ofName?_name hi] at hname
      · cases same
        simp
    · exact .fail

theorem fitArg_yields {isIntrinsic : Bool} {param : Ty} {e : Expr} (h : GoodExpr e b) :
    YieldsIfOk b (fitArg isIntrinsic param e) fun e' b' => GoodExpr e' b' ∧ e'.ty = param := by
  unfold fitArg
  split
  · rename_i same
    exact .pure ⟨h, same⟩
  · split
    · rename_i fits
      simp only [Bool.and_eq_true, beq_iff_eq] at fits
      obtain ⟨⟨_, isString⟩, castable⟩ := fits
      rw [isString] at castable
      exact .pure ⟨⟨h, castable⟩, isString.symm⟩
    · exact .fail

/-! ### Expressions -/

/-- Two well-typed expressions of one type. -/
def GoodPair (p : Expr × Expr) (b : Binder) : Prop :=
  GoodExpr p.1 b ∧ GoodExpr p.2 b ∧ p.1.ty = p.2.ty

/-- A pair is well typed if either side is, whatever is expected of it. -/
theorem bindPair_yields {lhs rhs : Syntax.Expr} {expected : Option Ty}
    (hlhs : ∀ {expected b}, YieldsIfOk b (bindExpr lhs expected) GoodExpr)
    (hrhs : ∀ {expected b}, YieldsIfOk b (bindExpr rhs expected) GoodExpr) :
    YieldsIfOk b (bindPair lhs rhs expected) GoodPair := by
  unfold bindPair
  refine hlhs.bind fun l b₁ _ hl => ?_
  refine hrhs.bind fun r b₂ grows hr => ?_
  refine YieldsIfOk.ite_bind hlhs (.pure (hl.grows grows)) fun l b₃ grows hl => ?_
  dsimp only
  split
  · exact .fail
  · rename_i same
    exact .pure ⟨hl, hr.grows grows, Decidable.not_not.1 same⟩

/-- Well-typed arguments of these types. -/
def GoodArgs (params : List Ty) (es : List Expr) (b : Binder) : Prop :=
  argsWellTyped b.env es ∧ es.map Expr.ty = params

mutual

theorem bindExpr_yields : ∀ (e : Syntax.Expr) {expected : Option Ty} {b : Binder},
    YieldsIfOk b (bindExpr e expected) GoodExpr
  | .integer node value suffix, expected, b => by
    rw [bindExpr]
    exact bindInteger_yields
  | .decimal node x, expected, b => by
    rw [bindExpr]
    exact .pure (goodExpr_ofValue Ty.noConfusion _)
  | .string node s, expected, b => by
    rw [bindExpr]
    exact .pure (goodExpr_ofValue Ty.noConfusion _)
  | .bool node c, expected, b => by
    rw [bindExpr]
    exact .pure (goodExpr_ofValue Ty.noConfusion _)
  | .name node name, expected, b => by
    rw [bindExpr]
    exact bindName_yields
  | .unary node op operand, expected, b => by
    have ordinary : YieldsIfOk b (do
        let e ← bindExpr operand expected
        if unaryAllowed op e.ty then return .unary ⟨e.ty, node.token.location⟩ op e
        else fail (.invalidOperand op.symbol e.ty) node.token.location) GoodExpr := by
      refine (bindExpr_yields operand).bind fun e b' _ he => ?_
      split
      · rename_i allowed
        exact .pure ⟨he, allowed, rfl⟩
      · exact .fail
    cases op with
    | neg =>
      cases operand with
      | integer node' value suffix =>
        rw [bindExpr]
        exact bindInteger_yields
      | _ => exact ordinary
    | _ => exact ordinary
  | .binary node op lhs rhs, expected, b => by
    rw [bindExpr_binary]
    refine (bindPair_yields (bindExpr_yields lhs) (bindExpr_yields rhs)).bind fun p b₁ _ hp => ?_
    obtain ⟨hl, hr, same⟩ := hp
    split
    · rename_i allowed
      exact .pure ⟨hl, hr, same, allowed, rfl⟩
    · exact .fail
  | .cast node inner type, expected, b => by
    rw [bindExpr]
    refine (resolveType_yields _).bind fun target b₁ _ _ => ?_
    refine (bindExpr_yields inner).bind fun e b₂ _ he => ?_
    split
    · rename_i castable
      exact .pure ⟨he, castable⟩
    · exact .fail
  | .ternary node cond yes no, expected, b => by
    rw [bindExpr_ternary]
    refine (bindExpr_yields cond).bind fun c b₁ _ hc => ?_
    split
    · exact .fail
    · rename_i isBool
      refine (bindPair_yields (bindExpr_yields yes) (bindExpr_yields no)).bind fun p b₂ grows hp => ?_
      obtain ⟨hy, hn, same⟩ := hp
      exact .pure ⟨hc.grows grows, hy, hn, Decidable.not_not.1 isBool, same, rfl⟩
  | .call node callee args, expected, b => by
    rw [bindExpr]
    refine bindCallee_yields.bind fun found b₁ _ hfound => ?_
    obtain ⟨id, f⟩ := found
    dsimp only
    split
    · exact .fail
    · rename_i count
      refine (bindArgs_yields args (Decidable.not_not.1 count).symm).bind fun es b₂ grows hes => ?_
      have hsig : b₁.env.signatures[id]? = some f.signature := by
        rw [Binder.env, List.getElem?_map, hfound, Option.map_some]
      refine .pure ⟨hes.1, ?_⟩
      rw [hes.2]
      exact getElem?_of_prefix grows.le.signatures hsig

theorem bindArgs_yields : ∀ (args : List Syntax.Expr) {params : List Ty} {isIntrinsic : Bool}
    {b : Binder}, args.length = params.length →
    YieldsIfOk b (bindArgs isIntrinsic args params) (GoodArgs params)
  | [], params, isIntrinsic, b, hlen => by
    cases params with
    | nil =>
      rw [bindArgs]
      · exact .pure ⟨trivial, rfl⟩
      · simp
    | cons p ps => cases hlen
  | arg :: args, params, isIntrinsic, b, hlen => by
    cases params with
    | nil => cases hlen
    | cons p ps =>
      rw [bindArgs]
      rw [List.length_cons, List.length_cons, Nat.add_right_cancel_iff] at hlen
      refine (bindExpr_yields arg).bind fun e b₁ _ he => ?_
      refine (fitArg_yields he).bind fun e' b₂ _ he' => ?_
      refine (bindArgs_yields args hlen).bind fun es b₃ grows hes => ?_
      refine .pure ⟨⟨GoodExpr.grows he'.1 grows, hes.1⟩, ?_⟩
      rw [List.map_cons, he'.2, hes.2]

end

end ScriptLang.Bound
