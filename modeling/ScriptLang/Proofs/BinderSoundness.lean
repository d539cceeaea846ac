import ScriptLang.Proofs.BoundStatements

/-!
# What binding promises

The functions of a bound program have names of their own, and the program is well typed but for the
operands of assignments through an operator (`typed_of_bind`).  It is well typed exactly if each of
these has the type of its variable and the operator gives a value of that type
(`wellTyped_iff_of_bind`).
-/

namespace ScriptLang.Bound

/-! ### Steps that keep an invariant -/

/-- The step keeps the invariant `I` of the state. -/
def Keeps {α : Type} (I : Binder → Prop) (x : BindM α) : Prop := ∀ b, I b → I (x.run b).2

section

variable {α β : Type} {I : Binder → Prop}

theorem Keeps.pure (a : α) : Keeps I (Pure.pure a) := fun _ h => h

theorem Keeps.bind {x : BindM α} {f : α → BindM β} (hx : Keeps I x) (hf : ∀ a, Keeps I (f a)) :
    Keeps I (x >>= f) := fun b h => hf _ _ (hx b h)

theorem run_modify_bind (g : Binder → Binder) (f : PUnit → BindM α) (b : Binder) :
    (modify g >>= f).run b = (f ⟨⟩).run (g b) := rfl

theorem Keeps.mapM {γ : Type} {f : γ → BindM α} (hf : ∀ c, Keeps I (f c)) (cs : List γ) :
    Keeps I (cs.mapM f) := by
  induction cs with
  | nil => exact .pure _
  | cons c cs ih =>
    rw [List.mapM_cons]
    exact (hf c).bind fun _ => ih.bind fun _ => .pure _

theorem Keeps.forM {γ : Type} {f : γ → BindM PUnit} (hf : ∀ c, Keeps I (f c)) (cs : List γ) :
    Keeps I (cs.forM f) := by
  induction cs with
  | nil => exact .pure _
  | cons c cs ih => exact (hf c).bind fun _ => ih

end

/-! ### Well-typed programs that grow -/

theorem Function.Typed.mono {p p' : Program} {f : Function} (h : f.Typed BinderStores p)
    (hle : ∀ types, (p.env types).Le (p'.env types)) : f.Typed BinderStores p' :=
  ⟨h.params_first, stmtsTyped_mono (hle _) (fun _ _ _ hs => hs.mono (hle _)) h.stmts_typed⟩

theorem Global.WellTyped.mono {p p' : Program} {g : Global} (h : g.WellTyped p)
    (hle : (p.env []).Le (p'.env [])) : g.WellTyped p' := fun e he =>
  ⟨(h e he).1.mono hle, (h e he).2⟩

theorem implicitFunction_typed (i : Intrinsic) (place : Location) (p : Program) :
    (implicitFunction i place).Typed BinderStores p :=
  ⟨List.prefix_refl _, trivial⟩

/-- What is bound so far is in order, and no function is being bound. -/
structure Binder.Sound (b : Binder) : Prop where
  names : (b.functions.map Function.name).Nodup
  typed : Program.Typed BinderStores ⟨b.globals, b.functions⟩
  scopes : b.scopes = []
  locals : b.locals = []

theorem Binder.Sound.valid {b : Binder} (h : b.Sound) : b.Valid := by
  refine ⟨fun scope hscope => ?_, h.names⟩
  rw [h.scopes] at hscope
  cases hscope

/-- Functions that were called without a declaration are in order too. -/
theorem typed_of_grows {b b' : Binder} (grows : b.Grows b')
    (h : Program.Typed BinderStores ⟨b.globals, b.functions⟩) :
    Program.Typed BinderStores ⟨b'.globals, b'.functions⟩ := by
  obtain ⟨added, hadded, himplicit⟩ := grows.functions
  have hle (types : List Ty) : ((⟨b.globals, b.functions⟩ : Program).env types).Le
      ((⟨b'.globals, b'.functions⟩ : Program).env types) :=
    ⟨grows.le.signatures, grows.le.globals, List.prefix_refl _⟩
  refine ⟨fun g hg => ?_, fun f hf => ?_⟩
  · rw [grows.globals] at hg
    exact (h.globals_typed g hg).mono (hle [])
  · rw [hadded] at hf
    rcases List.mem_append.1 hf with hf | hf
    · exact (h.functions_typed f hf).mono hle
    · obtain ⟨i, place, rfl⟩ := himplicit f hf
      exact implicitFunction_typed i place _

/-! ### Declarations of functions -/

/-- The step only reports errors, and its result has the property `P`. -/
def Reports {α : Type} (x : BindM α) (P : α → Prop) : Prop :=
  ∀ b, ∃ a errors, x.run b = (a, { b with errors }) ∧ P a

section

variable {α β : Type} {P : α → Prop}

theorem Reports.pure {a : α} (h : P a) : Reports (Pure.pure a) P := fun b => ⟨a, b.errors, rfl, h⟩

theorem Reports.bind {x : BindM α} {f : α → BindM β} {Q : β → Prop} (hx : Reports x P)
    (hf : ∀ a, P a → Reports (f a) Q) : Reports (x >>= f) Q := by
  intro b
  obtain ⟨a, errors, hrun, hP⟩ := hx b
  obtain ⟨c, errors', hrun', hQ⟩ := hf a hP { b with errors }
  refine ⟨c, errors', ?_, hQ⟩
  rw [StateT.run_bind, hrun]
  exact hrun'

theorem report_reports (fault : Fault) (place : Location) :
    Reports (report fault place) fun _ => True := fun _ => ⟨(), _, rfl, trivial⟩

theorem declaredType_reports (t : Syntax.TypeName) : Reports (declaredType t) fun _ => True := by
  intro b
  unfold declaredType attempt resolveType
  cases Ty.ofName? t.name with
  | none => exact ⟨_, _, rfl, trivial⟩
  | some ty => exact ⟨ty, b.errors, rfl, trivial⟩

theorem mapM_reports {γ : Type} {f : γ → BindM α} (hf : ∀ c, Reports (f c) fun _ => True) :
    ∀ cs : List γ, Reports (cs.mapM f) fun as => as.length = cs.length
  | [] => .pure rfl
  | c :: cs => by
    rw [List.mapM_cons]
    refine (hf c).bind fun a _ => (mapM_reports hf cs).bind fun as has => .pure ?_
    rw [List.length_cons, List.length_cons, has]

/-- A body that is declared is not bound yet. -/
theorem declaredBody_reports (body : Syntax.FunctionBody) (place : Location) :
    Reports (declaredBody body place) fun declared => ∀ ss, declared = .block ss → ss = [] := by
  unfold declaredBody
  split
  · exact .pure fun ss same => by
      cases same
      rfl
  · exact .pure fun ss same => by cases same
  · split
    · exact .pure fun ss same => by cases same
    · exact (report_reports _ _).bind fun _ _ => .pure fun ss same => by
        cases same
        rfl

end

theorem zipWith_types {γ : Type} (name : γ → String) : ∀ (ps : List γ) (tys : List Ty),
    tys.length = ps.length →
    (ps.zipWith (fun p ty => (⟨name p, ty⟩ : LocalSlot)) tys).map LocalSlot.ty = tys
  | [], [], _ => rfl
  | p :: ps, ty :: tys, h => by
    rw [List.zipWith_cons_cons, List.map_cons, zipWith_types name ps tys (Nat.succ.inj h)]

/-- A function whose body is not bound yet is well typed. -/
theorem Function.typed_of_stmts_eq_nil {f : Function} {p : Program}
    (hlocals : f.localTypes = f.params)
    (hstmts : f.stmts = []) : f.Typed BinderStores p := by
  refine ⟨hlocals ▸ List.prefix_refl _, ?_⟩
  rw [hstmts]
  trivial

theorem Binder.Sound.declare {b : Binder} (h : b.Sound) {f : Function}
    (hname : f.name ∉ b.functions.map Function.name) (hlocals : f.localTypes = f.params)
    (hstmts : f.stmts = []) (errors : List BindError) :
    ({ b with errors, functions := b.functions ++ [f] } : Binder).Sound := by
  have hle (types : List Ty) : ((⟨b.globals, b.functions⟩ : Program).env types).Le
      ((⟨b.globals, b.functions ++ [f]⟩ : Program).env types) := by
    refine ⟨?_, List.prefix_refl _, List.prefix_refl _⟩
    rw [Program.env, Program.env, List.map_append]
    exact List.prefix_append _ _
  refine ⟨?_, ⟨fun g hg => (h.typed.globals_typed g hg).mono (hle []), fun f' hf' => ?_⟩,
    h.scopes, h.locals⟩
  · rw [List.map_append, List.nodup_append]
    refine ⟨h.names, by simp, fun name hin name' hin' => ?_⟩
    rintro rfl
    rw [List.map_singleton, List.mem_singleton] at hin'
    exact hname (hin' ▸ hin)
  · rcases List.mem_append.1 hf' with hf' | hf'
    · exact (h.typed.functions_typed f' hf').mono hle
    · rw [List.mem_singleton.1 hf']
      exact Function.typed_of_stmts_eq_nil hlocals hstmts

theorem Binder.Sound.errors {b : Binder} (h : b.Sound) (errors : List BindError) :
    ({ b with errors } : Binder).Sound :=
  ⟨h.names, h.typed, h.scopes, h.locals⟩

/-- What is in order stays so while errors are reported. -/
theorem Reports.sound_bind {α β : Type} {P : α → Prop} {x : BindM α} {f : α → BindM β}
    (hx : Reports x P) (b : Binder)
    (hf : ∀ a errors, P a → Binder.Sound ((f a).run { b with errors }).2) :
    Binder.Sound ((x >>= f).run b).2 := by
  obtain ⟨a, errors, hrun, hP⟩ := hx b
  rw [StateT.run_bind, hrun]
  exact hf a errors hP

theorem Keeps.get_bind {α : Type} {I : Binder → Prop} {f : Binder → BindM α}
    (h : ∀ b, I b → I ((f b).run b).2) : Keeps I (get >>= f) := h

theorem declareFunction_keeps (f : Syntax.Function) : Keeps Binder.Sound (declareFunction f) := by
  unfold declareFunction
  refine .get_bind fun b h => ?_
  split
  · exact h.errors _
  · rename_i undefined
    have hname : f.name.name ∉ b.functions.map Function.name := by
      refine name_not_mem_of_function? ?_
      cases hf : b.function? f.name.name with
      | none => rfl
      | some found => simp [Binder.isDefined, hf] at undefined
    refine (mapM_reports (fun p : Syntax.Param => declaredType_reports p.type)
      f.params).sound_bind b
      fun params errors hlen => ?_
    extract_lets locals afterRet
    have declared : ∀ ret errors, Binder.Sound ((afterRet ret).run { b with errors }).2 := by
      intro ret errors
      refine (declaredBody_reports f.body _).sound_bind _ fun body errors hbody => ?_
      refine h.declare (f := ⟨f.name.name, params, ret, locals, body, _⟩) hname
        (zipWith_types _ _ _ hlen) ?_ errors
      cases body with
      | block ss => exact hbody ss rfl
      | native symbol => rfl
      | intrinsic i => rfl
    split
    · exact (declaredType_reports _).sound_bind _ fun ret errors _ => declared ret errors
    · exact declared _ _

theorem declareFunctions_keeps (items : List Syntax.Item) :
    Keeps Binder.Sound (declareFunctions items) := by
  refine .mapM (fun i => ?_) items
  split
  · exact declareFunction_keeps _
  · exact .pure _

/-! ### Globals -/

theorem Binder.Sound.grows {b b' : Binder} (h : b.Sound) (grows : b.Grows b') (valid : b'.Valid) :
    b'.Sound := by
  refine ⟨valid.names, typed_of_grows grows h.typed, ?_, (grows.outside h.scopes).trans h.locals⟩
  rw [← List.length_eq_zero_iff, grows.scopes, h.scopes, List.length_nil]

theorem Binder.Sound.env_eq {b : Binder} (h : b.Sound) :
    b.env = (⟨b.globals, b.functions⟩ : Program).env [] := by
  rw [Binder.env, h.locals]
  rfl

theorem Binder.Sound.addGlobal {b : Binder} (h : b.Sound) {g : Global}
    (hg : g.WellTyped ⟨b.globals, b.functions⟩) :
    ({ b with globals := b.globals ++ [g] } : Binder).Sound := by
  have hle (types : List Ty) : ((⟨b.globals, b.functions⟩ : Program).env types).Le
      ((⟨b.globals ++ [g], b.functions⟩ : Program).env types) := by
    refine ⟨List.prefix_refl _, ?_, List.prefix_refl _⟩
    rw [Program.env, Program.env, List.map_append]
    exact List.prefix_append _ _
  refine ⟨h.names, ⟨fun g' hg' => ?_, fun f hf => (h.typed.functions_typed f hf).mono hle⟩,
    h.scopes, h.locals⟩
  rcases List.mem_append.1 hg' with hg' | hg'
  · exact (h.typed.globals_typed g' hg').mono (hle [])
  · rw [List.mem_singleton.1 hg']
    exact hg.mono (hle [])

theorem bindGlobal_keeps (decl : Syntax.VarDecl) : Keeps Binder.Sound (bindGlobal decl) := by
  unfold bindGlobal
  refine .get_bind fun b h => ?_
  split
  · exact h.errors _
  · obtain ⟨r, b', hrun, grows, valid, hr⟩ := bindDeclaration_yields decl h.valid
    have sound := h.grows grows valid
    rw [StateT.run_bind, hrun]
    cases r with
    | none => exact sound
    | some d =>
      obtain ⟨ty, init⟩ := d
      refine sound.addGlobal fun e he => ?_
      rw [← sound.env_eq]
      exact (hr _ rfl).2 e he

theorem bindGlobals_keeps (items : List Syntax.Item) : Keeps Binder.Sound (bindGlobals items) := by
  refine .forM (fun i => ?_) items
  split
  · exact bindGlobal_keeps _
  · exact .pure _

/-! ### Bodies of functions -/

theorem slot_lt_of_mem_paramScope {locals : List LocalSlot} {entry : String × LocalEntry}
    (h : entry ∈ paramScope locals) : entry.2.slot < locals.length := by
  obtain ⟨⟨l, slot⟩, hmem, rfl⟩ := List.mem_map.1 (List.mem_reverse.1 h)
  have hlt := (List.mem_zipIdx hmem).2.1
  simpa using hlt

/-- What looks the same in its place changes nothing about how a list looks. -/
theorem map_set_of_eq {α β : Type} (view : α → β) {as : List α} {k : Nat} {a a' : α}
    (here : as[k]? = some a) (same : view a' = view a) : (as.set k a').map view = as.map view := by
  obtain ⟨inside, rfl⟩ := List.getElem?_eq_some_iff.1 here
  have inside' : k < (as.map view).length := List.length_map view ▸ inside
  rw [List.map_set, same, ← List.getElem_map view (h := inside'), List.set_getElem_self]

/-- A function whose body has been bound takes the place of its declaration. -/
theorem Binder.Sound.setBody {b : Binder} (hnames : (b.functions.map Function.name).Nodup)
    (h : Program.Typed BinderStores ⟨b.globals, b.functions⟩) {f : Function} {id : Nat}
    (hf : b.functions[id]? = some f) {locals : List LocalSlot} {ss : List Stmt}
    (hlocals : f.locals <+: locals)
    (hss : stmtsTyped
      (BinderStores ((⟨b.globals, b.functions⟩ : Program).env (locals.map LocalSlot.ty)))
      ((⟨b.globals, b.functions⟩ : Program).env (locals.map LocalSlot.ty)) f.ret false ss) :
    ({ b with functions := b.functions.set id { f with locals, body := .block ss },
              scopes := [], locals := [] } : Binder).Sound := by
  have same {β : Type} (view : Function → β)
      (hview : view { f with locals, body := .block ss } = view f) :
      (b.functions.set id { f with locals, body := .block ss }).map view =
        b.functions.map view := map_set_of_eq view hf hview
  have henv (types : List Ty) :
      (⟨b.globals, b.functions.set id { f with locals, body := .block ss }⟩ : Program).env types =
        (⟨b.globals, b.functions⟩ : Program).env types := by
    rw [Program.env, Program.env, same Function.signature rfl]
  have hle (types : List Ty) : ((⟨b.globals, b.functions⟩ : Program).env types).Le
      ((⟨b.globals, b.functions.set id { f with locals, body := .block ss }⟩ : Program).env
        types) := by
    rw [henv]
    exact .refl _
  refine ⟨?_, ⟨fun g hg => (h.globals_typed g hg).mono (hle []), fun f' hf' => ?_⟩, rfl, rfl⟩
  · rw [same Function.name rfl]
    exact hnames
  · rcases List.mem_or_eq_of_mem_set hf' with hf' | rfl
    · exact (h.functions_typed f' hf').mono hle
    · refine ⟨?_, ?_⟩
      · exact (h.functions_typed f (List.mem_of_getElem? hf)).params_first.trans (hlocals.map _)
      · rw [henv]
        exact hss

theorem bindBody_keeps (id : Nat) (block : Syntax.Block) :
    Keeps Binder.Sound (bindBody id block) := by
  unfold bindBody
  refine .get_bind fun b h => ?_
  split
  · exact h
  · rename_i f hf
    have entered : ({ b with locals := f.locals, ret := f.ret, loopDepth := 0,
                             scopes := [paramScope f.locals] } : Binder).Valid := by
      refine ⟨fun scope hscope entry hentry => ?_, h.names⟩
      rw [List.mem_singleton.1 hscope] at hentry
      exact slot_lt_of_mem_paramScope hentry
    obtain ⟨ss, b', hrun, grows, valid, hss⟩ :=
      bindStmts_yields block.stmts (List.cons_ne_nil _ _) entered
    have hset : b'.functions[id]? = some f := by
      obtain ⟨added, hadded, _⟩ := grows.functions
      rw [hadded]
      exact getElem?_of_prefix (List.prefix_append _ _) hf
    have hret : b'.ret = f.ret := grows.ret
    have hdepth : b'.loopDepth = 0 := grows.loopDepth
    rw [run_modify_bind, StateT.run_bind, hrun]
    refine Binder.Sound.setBody valid.names (typed_of_grows grows h.typed) hset grows.locals ?_
    rw [GoodStmts, hret, hdepth] at hss
    exact hss

theorem bindBodies_keeps (items : List (Syntax.Item × Option Nat)) :
    Keeps Binder.Sound (bindBodies items) := by
  refine .forM (fun (i, id) => ?_) items
  dsimp only
  split
  · rename_i f id _
    cases f.body with
    | block block => exact bindBody_keeps id block
    | _ => exact .pure _
  · exact .pure _

/-! ### Programs -/

theorem sound_empty : ({} : Binder).Sound := by
  refine ⟨List.nodup_nil, ⟨fun g hg => ?_, fun f hf => ?_⟩, rfl, rfl⟩
  · cases hg
  · cases hf

/-- A bound program is what a binder in order has at its end. -/
theorem sound_of_bind {source : Syntax.Program} {p : Program} (h : bind source = .ok p) :
    ∃ b : Binder, b.Sound ∧ p = ⟨b.globals, b.functions⟩ := by
  have sound := (declareFunctions_keeps source.items).bind (fun ids =>
    (bindGlobals_keeps source.items).bind fun _ => bindBodies_keeps (source.items.zip ids))
    {} sound_empty
  unfold bind at h
  extract_lets items work at h
  split at h
  rename_i b hrun
  have hb : b = (work.run {}).2 := by rw [hrun]
  split at h
  · cases h
    refine ⟨b, ?_, rfl⟩
    rw [hb]
    exact sound
  · cases h

/-- Every node of a bound program is well typed, but for what `BinderStores` leaves open. -/
theorem typed_of_bind {source : Syntax.Program} {p : Program} (h : bind source = .ok p) :
    p.Typed BinderStores := by
  obtain ⟨b, sound, rfl⟩ := sound_of_bind h
  exact sound.typed

theorem nodup_names_of_bind {source : Syntax.Program} {p : Program} (h : bind source = .ok p) :
    (p.functions.map Function.name).Nodup := by
  obtain ⟨b, sound, rfl⟩ := sound_of_bind h
  exact sound.names

/-- In an assignment that applies an operator to the variable it writes, the operand has the type of
the variable, and so does the result. -/
def FitsOperand (target : Binding) (e : Expr) : Prop :=
  ∀ i op v operand, e = .binary i op (.variable v target) operand →
    v.ty = operand.ty ∧ i.ty = resultType op v.ty

theorem stores_iff_of_binderStores {Γ : Env} {target : Binding} {e : Expr}
    (h : BinderStores Γ target e) : Stores Γ target e ↔ FitsOperand target e := by
  constructor
  · rintro ⟨typed, hty⟩ i op v operand rfl
    obtain ⟨_, _, same, _, hresult⟩ := typed
    exact ⟨same, hresult⟩
  · intro fits
    obtain stored | ⟨i, op, v, operand, rfl, hty, allowed, same, typed⟩ := h
    · exact stored
    · obtain ⟨hoperand, hresult⟩ := fits i op v operand rfl
      exact ⟨⟨hty, typed, hoperand, allowed, hresult⟩, hty.trans (congrArg some same.symm)⟩

/-- A bound program is well typed exactly if the assignments through an operator in it are. -/
theorem wellTyped_iff_of_bind {source : Syntax.Program} {p : Program} (h : bind source = .ok p) :
    p.WellTyped ↔
      ∀ f ∈ p.functions, ∀ target e, (target, e) ∈ stmtsStored f.stmts → FitsOperand target e := by
  have typed := typed_of_bind h
  constructor
  · intro wellTyped f hf target e he
    exact (stores_iff_of_binderStores
      (stmtsTyped_stored_of_mem (typed.functions_typed f hf).stmts_typed target e he)).1
      (stmtsTyped_stored_of_mem (wellTyped.functions_typed f hf).stmts_typed target e he)
  · intro fits
    refine ⟨typed.globals_typed, fun f hf => ⟨(typed.functions_typed f hf).params_first, ?_⟩⟩
    exact stmtsTyped_mono (.refl _)
      (fun target e he stored => (stores_iff_of_binderStores stored).2 (fits f hf target e he))
      (typed.functions_typed f hf).stmts_typed

/-! ### An operand that does not fit -/

/-- `func main() { var x = 1; x += true; }`, without places. -/
def addingTruth : Syntax.Program :=
  let node : Syntax.Node := ⟨0, default⟩
  let x : Syntax.Ident := ⟨"x", default⟩
  let body : List Syntax.Stmt :=
    [.var node ⟨node, x, none, some (.integer node 1 none), false⟩,
     .assign node x (some .add) (.bool node true)]
  ⟨[⟨"", [⟨node, .function ⟨⟨"main", default⟩, [], none, .block (.mk node body)⟩⟩]⟩]⟩

/-- The sum that `addingTruth` stores. -/
def truthAdded : Expr :=
  .binary ⟨.int .i32, .unknown⟩ .add (.variable ⟨.int .i32, .unknown⟩ (.local 0))
    (.ofValue (.bool true) .unknown)

/-- What `addingTruth` is bound to. -/
def addingTruthBound : Program where
  globals := []
  functions := [⟨"main", [], .void, [⟨"x", .int .i32⟩], .block
    [.assign .unknown (.local 0) (.ofValue (.ofInt .i32 1) .unknown),
     .assign .unknown (.local 0) truthAdded], .unknown⟩]

/-- The program is bound, and yet it adds a truth value to an integer. -/
theorem addingTruth_not_wellTyped :
    bind addingTruth = .ok addingTruthBound ∧ ¬ addingTruthBound.WellTyped := by
  refine ⟨rfl, fun wellTyped => ?_⟩
  have fits := (wellTyped_iff_of_bind (rfl : bind addingTruth = .ok addingTruthBound)).1 wellTyped _
    (List.mem_singleton_self _) (.local 0) truthAdded (List.mem_cons_of_mem _ List.mem_cons_self)
  exact absurd (fits _ _ _ _ rfl).1 (by decide)

end ScriptLang.Bound
