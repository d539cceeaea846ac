import ScriptLang.Proofs.NameResolution

/-!
# Bound programs follow the rules of scope

All functions are declared before anything is bound (`declareFunctions_succeeds`), then the globals
are bound in order, and then the bodies, each in the place of its declaration (`FunctionsBound`).
Functions that are called without a declaration come behind the declared ones and do not change
their numbers.
-/

namespace ScriptLang.Bound

open Syntax (TypeName)

/-! ### Functions -/

theorem declaredType_succeeds (t : TypeName) :
    Succeeds (declaredType t) fun b ty b' => Ty.ofName? t.name = some ty ∧ b' = b := by
  unfold declaredType
  refine (resolveType_succeeds t).attempt.bind fun r => ?_
  refine .pure fun b' b ⟨ty, same, known, state⟩ => ?_
  subst same
  exact ⟨known, state⟩

/-- What a body comes to before it is bound: nothing, if it has to be bound. -/
inductive BodyDeclared : Syntax.FunctionBody → Body → Prop
  | block (body : Syntax.Block) : BodyDeclared (.block body) (.block [])
  | native (symbol : String) : BodyDeclared (.native symbol) (.native symbol)
  | intrinsic {name : String} {f : Intrinsic} (known : Intrinsic.ofName? name = some f) :
    BodyDeclared (.intrinsic name) (.intrinsic f)

theorem declaredBody_succeeds (body : Syntax.FunctionBody) (place : Location) :
    Succeeds (declaredBody body place) fun b declared b' =>
      BodyDeclared body declared ∧ b' = b := by
  unfold declaredBody
  split
  · exact .pure fun b => ⟨.block _, rfl⟩
  · exact .pure fun b => ⟨.native _, rfl⟩
  · split
    · next f known => exact .pure fun b => ⟨.intrinsic known, rfl⟩
    · exact .report_bind

/-- Only statements are left to be bound. -/
theorem BodyDeclared.resolves {body : Syntax.FunctionBody} {declared : Body}
    (h : BodyDeclared body declared) (noBlock : ∀ block, body ≠ .block block) (d : Declared)
    (params : List Syntax.Param) : BodyResolves d params body declared := by
  cases h with
  | block block => exact absurd rfl (noBlock block)
  | native symbol => exact .native symbol
  | intrinsic known => exact .intrinsic known

/-- A function before its body is bound. -/
structure FunctionDeclared (f : Syntax.Function) (f' : Function) : Prop where
  signature : SignatureResolves f f'
  locals : f'.locals = f.params.zipWith (fun p ty => ⟨p.name.name, ty⟩) f'.params
  body : BodyDeclared f.body f'.body

theorem Succeeds.mapM {γ α : Type} {Q : γ → α → Prop} {f : γ → BindM α}
    (hf : ∀ c, Succeeds (f c) fun b a b' => Q c a ∧ b' = b) : ∀ cs : List γ,
    Succeeds (cs.mapM f) fun b as b' => List.Forall₂ Q cs as ∧ b' = b
  | [] => .pure fun _ => ⟨.nil, rfl⟩
  | c :: cs => by
    rw [List.mapM_cons]
    refine (hf c).bind fun a => (Succeeds.mapM hf cs).bind fun as => ?_
    exact .pure fun b₂ b₁ ⟨rest, same'⟩ b ⟨first, same⟩ => ⟨.cons first rest, same'.trans same⟩

theorem declareFunction_succeeds (f : Syntax.Function) :
    Succeeds (declareFunction f) fun b r b' => r = some b.functions.length ∧ ∃ f',
      b' = { b with functions := b.functions ++ [f'] } ∧ FunctionDeclared f f' := by
  unfold declareFunction
  refine .get_bind fun s => ?_
  split
  · exact .report_bind
  · have types : Succeeds (f.params.mapM fun p => declaredType p.type) fun b tys b' =>
        List.Forall₂ (fun p ty => Ty.ofName? p.type.name = some ty) f.params tys ∧ b' = b :=
      Succeeds.mapM (Q := fun (p : Syntax.Param) ty => Ty.ofName? p.type.name = some ty)
        (fun p => declaredType_succeeds p.type) f.params
    refine types.bind fun params => ?_
    extract_lets locals afterRet
    have declared : ∀ ret, Succeeds (afterRet ret) fun b r b' =>
        List.Forall₂ (fun p ty => Ty.ofName? p.type.name = some ty) f.params params →
        (∀ t, f.ret = some t → Ty.ofName? t.name = some ret) → (f.ret = none → ret = .void) →
          r = some b.functions.length ∧ ∃ f',
            b' = { b with functions := b.functions ++ [f'] } ∧ FunctionDeclared f f' := by
      intro ret
      refine (declaredBody_succeeds f.body _).bind fun body => .modifyGet (fun _ => rfl) ?_
      rintro b b₀ ⟨bodied, rfl⟩ types given missing
      exact ⟨rfl, _, rfl, ⟨rfl, types, given, missing, List.prefix_rfl⟩, rfl, bodied⟩
    split
    · next t given =>
      refine (declaredType_succeeds t).bind fun ret => (declared ret).mono ?_
      rintro b₂ r b' done b₁ ⟨known, rfl⟩ b ⟨types, rfl⟩ -
      refine done types (fun t' given' => ?_) fun missing => ?_
      · cases given.symm.trans given'
        exact known
      · cases given.symm.trans missing
    · next missing =>
      refine (declared .void).mono ?_
      rintro b₁ r b' done b ⟨types, rfl⟩ -
      refine done types (fun t' given => ?_) fun _ => rfl
      cases missing.symm.trans given

/-- For each item the number of its function, if it has one, when the next number is `n`. -/
def numbers (n : Nat) : List Syntax.Item → List (Option Nat)
  | [] => []
  | i :: items =>
    match i.function? with
    | some _ => some n :: numbers (n + 1) items
    | none => none :: numbers n items

theorem declareFunctions_succeeds : ∀ items : List Syntax.Item,
    Succeeds (declareFunctions items) fun b ids b' => ids = numbers b.functions.length items ∧
      ∃ declared, b' = { b with functions := b.functions ++ declared } ∧
        List.Forall₂ FunctionDeclared (items.filterMap Syntax.Item.function?) declared
  | [] => .pure fun b => ⟨rfl, [], by rw [List.append_nil], .nil⟩
  | i :: items => by
    unfold declareFunctions
    rw [List.mapM_cons]
    have rest := declareFunctions_succeeds items
    cases kind : i.kind with
    | function f =>
      have here : i.function? = some f := by rw [Syntax.Item.function?, kind]
      refine (declareFunction_succeeds f).bind fun r => rest.bind fun ids => ?_
      refine .pure fun b₂ b₁ ⟨numbered, declared, state, all⟩ b ⟨number, f', state', first⟩ => ?_
      subst number state' numbered state
      refine ⟨?_, f' :: declared, ?_, ?_⟩
      · rw [numbers, here, List.length_append]
        rfl
      · rw [List.append_assoc]
        rfl
      · rw [List.filterMap_cons_some here]
        exact .cons first all
    | _ =>
      have here : i.function? = none := by rw [Syntax.Item.function?, kind]
      refine (Succeeds.pure (R := fun b r b' => r = none ∧ b' = b) fun b =>
        ⟨rfl, rfl⟩).bind fun r => ?_
      refine rest.bind fun ids => ?_
      refine .pure fun b₂ b₁ ⟨numbered, declared, state, all⟩ b ⟨nothing, same⟩ => ?_
      subst nothing same numbered state
      refine ⟨?_, declared, rfl, ?_⟩
      · rw [numbers, here]
      · rwa [List.filterMap_cons_none here]

/-! ### Globals -/

theorem name_not_mem_of_global? {b : Binder} {name : String} (h : b.global? name = none) :
    name ∉ b.globals.map Global.name := by
  rw [Binder.global?, Option.map_eq_none_iff, List.find?_eq_none] at h
  intro mem
  obtain ⟨g, hg, rfl⟩ := List.mem_map.1 mem
  obtain ⟨k, hk⟩ := List.getElem?_of_mem hg
  exact h (g, k) (List.mem_zipIdx_iff_getElem?.2 hk) (beq_self_eq_true _)

/-- Globals have been bound outside of functions, where no local variable can be seen. -/
def GlobalsBound (decls : List Syntax.VarDecl) (b b' : Binder) : Prop :=
  b.scopes = [] → b.locals = [] → b'.scopes = [] ∧ b'.locals = [] ∧
    AddsCalled b.functions b'.functions ∧ ∃ gs, b'.globals = b.globals ++ gs ∧
      ∀ functions, b'.functions.map Function.name <+: functions →
        GlobalsResolve functions (b.globals.map Global.name) decls gs

theorem bindGlobal_succeeds (decl : Syntax.VarDecl) :
    Succeeds (bindGlobal decl) fun b _ b' => GlobalsBound [decl] b b' := by
  unfold bindGlobal
  refine .get_bind fun s => ?_
  split
  · exact .report_bind
  · next undefined =>
    refine (bindDeclaration_succeeds decl).bind fun r => ?_
    split
    · refine .pure ?_
      rintro b' b ⟨_, ty, init, same, _⟩
      cases same
    · next ty init =>
      refine .modifyGet (fun _ => rfl) fun b₁ b bound start scopes locals => ?_
      subst start
      obtain ⟨adds, _, _, same, declared⟩ := bound
      cases same
      refine ⟨adds.scopes.trans scopes, adds.locals.trans locals, adds.functions, [_],
        congrArg (· ++ _) adds.globals, fun functions names => ?_⟩
      have seen : b.seen = [] := by rw [Binder.seen, scopes]; rfl
      have resolved := declared ⟨b.globals.map Global.name, functions, []⟩
        ⟨congrArg _ adds.globals.symm, names, adds.locals.trans locals ▸ List.nil_prefix⟩
      rw [seen] at resolved
      refine .cons rfl rfl ?_ resolved (.nil _)
      refine name_not_mem_of_global? ?_
      simp only [Binder.isDefined, Bool.or_eq_true, not_or] at undefined
      simpa using undefined.2

theorem GlobalsResolve.append {functions earlier : List String} {decls decls' : List Syntax.VarDecl}
    {gs gs' : List Global} (h : GlobalsResolve functions earlier decls gs)
    (h' : GlobalsResolve functions (earlier ++ gs.map Global.name) decls' gs') :
    GlobalsResolve functions earlier (decls ++ decls') (gs ++ gs') := by
  induction h with
  | nil earlier => simpa using h'
  | cons name isConst new value rest ih =>
    refine .cons name isConst new value (ih ?_)
    rwa [List.append_assoc]

theorem GlobalsBound.append {decls decls' : List Syntax.VarDecl} {b b₁ b₂ : Binder}
    (h : GlobalsBound decls b b₁) (h' : GlobalsBound decls' b₁ b₂) :
    GlobalsBound (decls ++ decls') b b₂ := by
  intro scopes locals
  obtain ⟨scopes, locals, called, gs, globals, resolved⟩ := h scopes locals
  obtain ⟨scopes, locals, called', gs', globals', resolved'⟩ := h' scopes locals
  refine ⟨scopes, locals, called.trans called', gs ++ gs', ?_, fun functions names => ?_⟩
  · rw [globals', globals, List.append_assoc]
  · have later := resolved' functions names
    rw [globals, List.map_append] at later
    exact (resolved functions (called'.names.trans names)).append later

theorem bindGlobals_succeeds : ∀ items : List Syntax.Item,
    Succeeds (bindGlobals items) fun b _ b' =>
      GlobalsBound (items.filterMap Syntax.Item.declaration?) b b'
  | [] => .pure fun b scopes locals =>
    ⟨scopes, locals, .refl _, [], (List.append_nil _).symm, fun _ _ => .nil _⟩
  | i :: items => by
    have rest := bindGlobals_succeeds items
    unfold bindGlobals at rest ⊢
    rw [List.filterMap_cons]
    cases kind : i.kind with
    | «variable» decl =>
      have here : i.declaration? = some decl := by rw [Syntax.Item.declaration?, kind]
      rw [here]
      refine Succeeds.bind (?_ : Succeeds _ fun b _ b' => GlobalsBound [decl] b b') fun _ => ?_
      · dsimp only
        rw [kind]
        exact bindGlobal_succeeds decl
      · exact rest.mono fun b₁ _ b₂ others b first => first.append others
    | _ =>
      have here : i.declaration? = none := by rw [Syntax.Item.declaration?, kind]
      rw [here]
      refine Succeeds.bind (?_ : Succeeds _ fun b _ b' => b' = b) fun _ => ?_
      · dsimp only
        rw [kind]
        exact .pure fun b => rfl
      · exact rest.mono fun b₁ _ b₂ others b same => same ▸ others

/-! ### Bodies -/

/-- The scope of the parameters, as the rules have it. -/
theorem scope_paramScope {params : List Syntax.Param} {locals : List LocalSlot}
    (names : locals.map LocalSlot.name = params.map fun p => p.name.name) :
    (⟨(paramScope locals).map fun entry => (entry.1, entry.2.slot), locals.length⟩ : Scope) =
      .ofParams params := by
  have count : locals.length = params.length := by
    rw [← List.length_map LocalSlot.name, names, List.length_map]
  rw [Scope.ofParams_eq, ← names, count, paramScope, List.map_reverse, List.map_map,
    List.zipIdx_map]
  rfl

/-- The body has been bound, and it takes the place of what was declared. -/
theorem bindBody_succeeds (id : Nat) (node : Syntax.Node) (ss : List Syntax.Stmt) :
    Succeeds (bindBody id (.mk node ss)) fun b _ b' => ∀ f, b.functions[id]? = some f →
      ∃ functions locals bound s, AddsCalled b.functions functions ∧
        b'.functions = functions.set id { f with locals, body := .block bound } ∧
        b'.globals = b.globals ∧ f.locals <+: locals ∧ s.next = locals.length ∧
        ∀ names, functions.map Function.name <+: names →
          StmtsResolve ⟨b.globals.map Global.name, names, locals⟩
            ⟨(paramScope f.locals).map fun entry => (entry.1, entry.2.slot), f.locals.length⟩
            ss bound s := by
  unfold bindBody
  refine .get_bind fun start => ?_
  split
  · next missing => exact .pure fun b same f found => by cases missing.symm.trans (same ▸ found)
  · next f found =>
    refine (Succeeds.modifyGet (R := fun b _ b' => b' = { b with
      locals := f.locals, ret := f.ret, loopDepth := 0, scopes := [paramScope f.locals] })
      (fun _ => rfl) fun _ => rfl).bind fun _ => ?_
    refine (bindStmts_succeeds ss).bind fun bound => ?_
    refine .modifyGet (fun _ => rfl) fun b₂ b₁ stmts b entered same f' found' => ?_
    subst same entered
    cases found.symm.trans found'
    obtain ⟨grows, resolved⟩ := stmts (List.cons_ne_nil _ _)
    refine ⟨b₂.functions, b₂.locals, bound, b₂.scope, grows.functions, rfl, grows.globals,
      grows.locals, rfl, fun names prefixed => ?_⟩
    have done := resolved ⟨b.globals.map Global.name, names, b₂.locals⟩
      ⟨congrArg _ grows.globals.symm, prefixed, List.prefix_rfl⟩
    rwa [Binder.scope, Binder.seen, List.flatten_singleton] at done

/-- The function with the number `n` has been bound to the end. -/
def FunctionBound (f : Syntax.Function) (n : Nat) (b b' : Binder) : Prop :=
  ∀ earlier declared rest, b.functions = earlier ++ declared :: rest → earlier.length = n →
    FunctionDeclared f declared → ∃ bound rest', b'.functions = earlier ++ bound :: rest' ∧
      AddsCalled rest rest' ∧ b'.globals = b.globals ∧
      b.functions.map Function.name <+: b'.functions.map Function.name ∧
      ∀ names, b'.functions.map Function.name <+: names →
        FunctionResolves (b.globals.map Global.name) names f bound

/-- As `FunctionBound`, of the functions from the number `n` on. -/
def FunctionsBound (fs : List Syntax.Function) (n : Nat) (b b' : Binder) : Prop :=
  ∀ earlier declared rest, b.functions = earlier ++ (declared ++ rest) → earlier.length = n →
    List.Forall₂ FunctionDeclared fs declared → ∃ bound rest',
      b'.functions = earlier ++ (bound ++ rest') ∧ AddsCalled rest rest' ∧ b'.globals = b.globals ∧
      b.functions.map Function.name <+: b'.functions.map Function.name ∧
      ∀ names, b'.functions.map Function.name <+: names →
        List.Forall₂ (FunctionResolves (b.globals.map Global.name) names) fs bound

theorem FunctionsBound.nil (n : Nat) (b : Binder) : FunctionsBound [] n b b := by
  intro earlier declared rest functions count none
  cases none
  exact ⟨[], rest, functions, .refl _, rfl, List.prefix_rfl, fun _ _ => .nil⟩

theorem FunctionBound.cons {f : Syntax.Function} {fs : List Syntax.Function} {n : Nat}
    {b b₁ b₂ : Binder} (h : FunctionBound f n b b₁) (h' : FunctionsBound fs (n + 1) b₁ b₂) :
    FunctionsBound (f :: fs) n b b₂ := by
  intro earlier declared rest functions count all
  obtain ⟨p, ps, first, others, rfl⟩ := List.forall₂_cons_left_iff.1 all
  obtain ⟨bound, rest₁, split, ⟨added, rfl, called⟩, globals, names, done⟩ :=
    h earlier p (ps ++ rest) functions count first
  obtain ⟨bounds, rest₂, split', called', globals', names', done'⟩ :=
    h' (earlier ++ [bound]) ps (rest ++ added) (by rw [split]; simp) (by simp [count]) others
  refine ⟨bound :: bounds, rest₂, by rw [split']; simp, .trans ⟨added, rfl, called⟩ called',
    globals'.trans globals, names.trans names', fun all prefixed => ?_⟩
  exact .cons (done all (names'.trans prefixed)) (globals ▸ done' all prefixed)

theorem set_append_cons {α : Type} (earlier : List α) (a a' : α) (rest : List α) :
    (earlier ++ a :: rest).set earlier.length a' = earlier ++ a' :: rest := by
  rw [List.set_append_right _ _ (Nat.le_refl _), Nat.sub_self, List.set_cons_zero]

/-- A function without statements stays as it was declared. -/
theorem FunctionBound.of_no_block {f : Syntax.Function} (noBlock : ∀ block, f.body ≠ .block block)
    (n : Nat) (b : Binder) : FunctionBound f n b b := fun _ p rest functions _ declared =>
  ⟨p, rest, functions, .refl _, rfl, List.prefix_rfl, fun _ _ =>
    ⟨declared.signature, declared.body.resolves noBlock _ _⟩⟩

/-- A function with statements takes those that they are bound to. -/
theorem functionBody_succeeds {f : Syntax.Function} {node : Syntax.Node} {ss : List Syntax.Stmt}
    (body : f.body = .block (.mk node ss)) (n : Nat) :
    Succeeds (bindBody n (.mk node ss)) fun b _ b' => FunctionBound f n b b' := by
  refine (bindBody_succeeds n node ss).mono ?_
  intro b _ b' bound earlier p rest functions count declared
  subst count
  obtain ⟨_, locals, stmts, s, ⟨added, rfl, called⟩, functions', globals, grows, all, resolved⟩ :=
    bound p (by rw [functions, List.getElem?_append_right (Nat.le_refl _), Nat.sub_self]; rfl)
  rw [functions, List.append_assoc, List.cons_append, set_append_cons] at functions'
  have names : b'.functions.map Function.name = (b.functions ++ added).map Function.name := by
    rw [functions', functions]
    simp
  have signature := declared.signature
  have signature' : SignatureResolves f { p with locals, body := .block stmts } :=
    { signature with slots := signature.slots.trans grows }
  have begun := scope_paramScope (declared.locals ▸ map_name_slots signature.params)
  refine ⟨_, _, functions', ⟨added, rfl, called⟩, globals, ?_, fun all' prefixed =>
    ⟨signature', ?_⟩⟩
  · rw [names, List.map_append]
    exact List.prefix_append _ _
  · have done := resolved all' (names ▸ prefixed)
    rw [begun] at done
    rw [body]
    exact .block node done (signature'.slots_of_stmts done all)

/-- The part of the work on bodies that is for one function. -/
theorem function_succeeds (f : Syntax.Function) (n : Nat) :
    Succeeds (match f.body with
      | .block block => bindBody n block
      | _ => return) fun b _ b' => FunctionBound f n b b' := by
  cases body : f.body with
  | block block =>
    obtain ⟨node, ss⟩ := block
    exact functionBody_succeeds body n
  | _ => exact .pure (.of_no_block (by simp [body]) n)

theorem numbers_cons_some {i : Syntax.Item} {f : Syntax.Function} (here : i.function? = some f)
    (n : Nat) (items : List Syntax.Item) :
    numbers n (i :: items) = some n :: numbers (n + 1) items := by
  rw [numbers, here]

theorem numbers_cons_none {i : Syntax.Item} (here : i.function? = none) (n : Nat)
    (items : List Syntax.Item) : numbers n (i :: items) = none :: numbers n items := by
  rw [numbers, here]

theorem bindBodies_succeeds : ∀ (items : List Syntax.Item) (ids : List (Option Nat)),
    Succeeds (bindBodies (items.zip ids)) fun b _ b' => ∀ n, ids = numbers n items →
      FunctionsBound (items.filterMap Syntax.Item.function?) n b b'
  | [], _ => .pure fun b n _ => .nil n b
  | _ :: _, [] => .pure fun b n none => by
    rw [numbers] at none
    split at none <;> cases none
  | i :: items, id :: ids => by
    have rest := bindBodies_succeeds items ids
    unfold bindBodies at rest ⊢
    cases here : i.function? with
    | some f =>
      have kind : i.kind = .function f := by
        unfold Syntax.Item.function? at here
        split at here
        · next kind => exact kind.trans (congrArg _ (Option.some.inj here))
        · cases here
      simp only [numbers_cons_some here, List.filterMap_cons_some here, List.cons.injEq]
      refine Succeeds.bind (?_ : Succeeds _ fun b _ b' => ∀ n, id = some n → FunctionBound f n b b')
        fun _ => rest.mono fun b₁ _ b₂ others b first n ⟨number, numbered⟩ =>
          (first n number).cons (others (n + 1) numbered)
      dsimp only
      rw [kind]
      cases id with
      | some n =>
        exact (function_succeeds f n).mono fun b _ b' done m same => Option.some.inj same ▸ done
      | none => exact .pure fun b n same => by cases same
    | none =>
      have kind : ∀ f, i.kind ≠ .function f := by
        intro f kind
        rw [Syntax.Item.function?, kind] at here
        cases here
      simp only [numbers_cons_none here, List.filterMap_cons_none here, List.cons.injEq]
      refine Succeeds.bind (?_ : Succeeds _ fun b _ b' => b' = b) fun _ =>
        rest.mono fun b₁ _ b₂ others b same n ⟨_, numbered⟩ => same ▸ others n numbered
      dsimp only
      split
      · next f _ found => exact absurd found (kind f)
      · exact .pure fun b => rfl

/-! ### Programs -/

/-- The work on a program. -/
theorem work_succeeds (items : List Syntax.Item) :
    Succeeds (do
        let ids ← declareFunctions items
        bindGlobals items
        bindBodies (items.zip ids))
      fun b _ b' => b = {} → ∃ declared implicit, b'.functions = declared ++ implicit ∧
        (∀ f ∈ implicit, ∃ i place, f = implicitFunction i place) ∧
        GlobalsResolve (b'.functions.map Function.name) []
          (items.filterMap Syntax.Item.declaration?) b'.globals ∧
        List.Forall₂
          (FunctionResolves (b'.globals.map Global.name) (b'.functions.map Function.name))
          (items.filterMap Syntax.Item.function?) declared := by
  refine (declareFunctions_succeeds items).bind fun ids => ?_
  refine (bindGlobals_succeeds items).bind fun _ => ?_
  refine (bindBodies_succeeds items ids).mono ?_
  intro b₂ _ b₃ bodies b₁ globals b ⟨numbered, declared, state, signatures⟩ start
  subst start state
  obtain ⟨-, -, ⟨added, functions, called⟩, gs, found, resolved⟩ := globals rfl rfl
  obtain ⟨bound, implicit, split, ⟨added', rfl, called'⟩, same, names, done⟩ :=
    bodies 0 numbered [] declared added functions rfl signatures
  refine ⟨bound, added ++ added', split, fun f hf => ?_, ?_, ?_⟩
  · exact (List.mem_append.1 hf).elim (called f) (called' f)
  · rw [same, found]
    exact resolved _ names
  · rw [same]
    exact done _ List.prefix_rfl

/-- A program that is bound is bound by the rules of scope. -/
theorem resolves_of_bind {source : Syntax.Program} {p : Program} (h : bind source = .ok p) :
    p.Resolves source := by
  have closed := closed_of_bind h
  have functionNames := nodup_names_of_bind h
  have succeeds := (work_succeeds source.items {}).2
  unfold bind at h
  extract_lets items work at h
  split at h
  next _ b run =>
  split at h
  · next clean =>
    cases h
    have last : b = (work.run {}).2 := by rw [run]
    subst last
    obtain ⟨declared, implicit, split, called, globals, functions⟩ :=
      succeeds (List.isEmpty_iff.1 clean) rfl
    refine ⟨globals, ⟨declared, implicit, split, functions, called⟩, ?_, functionNames, closed⟩
    exact globals.nodup .nil
  · cases h

/-! ### A name that is declared again -/

/-- `var y = 1; func f(x: i32): i32 { var x = x; for x in 0..x { y = x; } return x; }`, without
places. -/
def redeclaring : Syntax.Program :=
  let node : Syntax.Node := ⟨0, default⟩
  let ident (name : String) : Syntax.Ident := ⟨name, default⟩
  let x : Syntax.Expr := .name node "x"
  let number (n : Int) : Syntax.Expr := .integer node n none
  let body : List Syntax.Stmt :=
    [.var node ⟨node, ident "x", none, some x, false⟩,
     .for node (ident "x") (number 0) x (.mk node [.assign node (ident "y") none x]),
     .ret node (some x)]
  ⟨[⟨"", [⟨node, .variable ⟨node, ident "y", none, some (number 1), false⟩⟩,
     ⟨node, .function ⟨ident "f", [⟨ident "x", ⟨"i32", default⟩⟩], some ⟨"i32", default⟩,
       .block (.mk node body)⟩⟩]⟩]⟩

/-- What `redeclaring` is bound to. -/
def redeclaringBound : Program :=
  let use (b : Binding) : Expr := .variable ⟨.int .i32, .unknown⟩ b
  let number (n : Int) : Expr := .ofValue (.ofInt .i32 n) .unknown
  { globals := [⟨"y", .int .i32, false, some (number 1), .unknown⟩]
    functions := [⟨"f", [.int .i32], .int .i32,
      [⟨"x", .int .i32⟩, ⟨"x", .int .i32⟩, ⟨"$limit", .int .i32⟩, ⟨"x", .int .i32⟩],
      .block [.assign .unknown (.local 1) (use (.local 0)),
        .for .unknown 3 2 (number 0) (use (.local 1))
          [.assign .unknown (.global 0) (use (.local 3))],
        .ret .unknown (some (use (.local 1)))], .unknown⟩] }

theorem redeclaring_resolves :
    bind redeclaring = .ok redeclaringBound ∧ redeclaringBound.Resolves redeclaring := by
  have bound : bind redeclaring = .ok redeclaringBound := rfl
  exact ⟨bound, resolves_of_bind bound⟩

end ScriptLang.Bound
