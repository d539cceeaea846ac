import ScriptLang.Native.Bridge
import ScriptLang.Proofs.Outcomes

/-!
# Calls of native functions, as a whole or not at all

A call is checked before its symbol is invoked: the number of the arguments, the signature, the types
of the arguments and their texts, in this order (`firstRefusal`).  If a check fails its error is the
result and nothing is invoked; otherwise the symbol is invoked once, with the arguments in the form in
which they travel.  Nothing goes wrong behind the checks: every argument that is come to can be
widened, and there is a caller for so many of them.
-/

namespace ScriptLang.Native

/-! ### The form in which arguments travel -/

/-- The word holds the value, extended to 64 bits by the sign of its type. -/
inductive Travels : Value → Word → Prop
  | bool (b : Bool) : Travels (.bool b) (.bits (if b then 1 else 0))
  | int {t : IntType} (bits : BitVec t.bits) : Travels (.int t bits)
      (.bits (if t.signed then bits.signExtend 64 else bits.setWidth 64))
  | pointer (address : BitVec 64) : Travels (.pointer address) (.bits address)
  | string (s : String) : Travels (.string s) (.text s)

/-- The arguments are the values in their order: floats, or else words. -/
inductive Arguments.Carries : Arguments → List Value → Prop
  | floats {xs : List Float} (some : xs ≠ []) : Carries (.floats xs) (xs.map .float)
  | words {ws : List Word} {args : List Value} (h : List.Forall₂ Travels args ws) :
      Carries (.words ws) args

/-- A text with a zero byte inside would end early. -/
def endsEarly : Value → Bool
  | .string s => s.toList.contains '\x00'
  | _ => false

/-- The first check of a call that fails. -/
def firstRefusal (name : String) (s : Signature) (args : List Value) : Option NativeError :=
  if args.length ≠ s.params.length then some (.arityMismatch name s.params.length args.length)
  else
    match checkSignature name s with
    | .error e => some e
    | .ok () =>
      match (args.zip s.params).find? fun vp => vp.1.type != vp.2 with
      | some (v, p) => some (.unsupportedType name
          ("expected a " ++ p.name ++ " argument, got " ++ v.type.name))
      | none =>
        if args.any endsEarly then
          some (.unsupportedType name "string argument contains a NUL byte")
        else none

/-! ### Signatures -/

/-- What an accepted signature has: classes of its parameters, not mixed and not too many. -/
theorem classes_of_checkSignature {name : String} {s : Signature} {u : Unit}
    (h : checkSignature name s = .ok u) : ∃ classes : List PassClass,
      List.Forall₂ (fun p c => PassClass.of? p = some c) s.params classes ∧
      (classes.count .float = 0 ∧ classes.length ≤ maxWords ∨
        classes.count .float = classes.length ∧ classes.length ≤ maxFloats) := by
  obtain ⟨classes, found, h⟩ := exists_of_bind_eq_ok h
  refine ⟨classes, (forall₂_of_mapM_eq_ok found).imp fun p c hp => ?_, ?_⟩
  · split at hp
    · next _ known =>
      cases hp
      exact known
    · cases hp
  · have most := List.count_le_length (a := PassClass.float) (l := classes)
    dsimp only at h
    split at h
    · cases h
    split at h
    · cases h
    split at h
    · cases h
    omega

/-- A signature is refused for what the convention does not cover. -/
theorem unsupported_of_checkSignature {name : String} {s : Signature} {e : NativeError}
    (h : checkSignature name s = .error e) : ∃ reason, e = .unsupportedType name reason := by
  rcases of_bind_eq_error h with failed | ⟨classes, -, h⟩
  · obtain ⟨p, -, failed⟩ := exists_of_mapM_eq_error failed
    split at failed <;> cases failed
    exact ⟨_, rfl⟩
  · dsimp only at h
    split at h
    · cases h
      exact ⟨_, rfl⟩
    split at h
    · cases h
      exact ⟨_, rfl⟩
    split at h
    · cases h
      exact ⟨_, rfl⟩
    split at h
    · cases h
      exact ⟨_, rfl⟩
    · cases h

theorem class_of_forall₂ {args : List Value} {classes : List PassClass} {c : PassClass}
    (found : List.Forall₂ (fun v c => PassClass.of? v.type = some c) args classes)
    (same : ∀ c' ∈ classes, c' = c) : ∀ v ∈ args, PassClass.of? v.type = some c := by
  induction found with
  | nil => nofun
  | cons first _ ih =>
    obtain ⟨rfl, others⟩ := List.forall_mem_cons.1 same
    exact List.forall_mem_cons.2 ⟨first, ih others⟩

/-- The types of the arguments of an accepted signature are all of one class. -/
theorem class_of_checkSignature {name : String} {s : Signature} {u : Unit} {args : List Value}
    (h : checkSignature name s = .ok u) (types : args.map Value.type = s.params) :
    (∀ v ∈ args, PassClass.of? v.type = some .word) ∧ args.length ≤ maxWords ∨
      (∀ v ∈ args, PassClass.of? v.type = some .float) ∧ args.length ≤ maxFloats := by
  obtain ⟨classes, found, few⟩ := classes_of_checkSignature h
  rw [← types, List.forall₂_map_left_iff] at found
  rw [found.length_eq]
  rcases few with ⟨none, few⟩ | ⟨all, few⟩
  · refine .inl ⟨class_of_forall₂ found fun c' hc' => ?_, few⟩
    cases c' with
    | word => rfl
    | float => exact absurd hc' (List.count_eq_zero.1 none)
  · exact .inr ⟨class_of_forall₂ found fun c' hc' => (List.count_eq_length.1 all c' hc').symm, few⟩

/-! ### Arguments -/

theorem checkArguments_eq (name : String) : ∀ (args : List Value) (params : List Ty),
    checkArguments name args params =
      match (args.zip params).find? fun vp => vp.1.type != vp.2 with
      | some (v, p) => .error (.unsupportedType name
          ("expected a " ++ p.name ++ " argument, got " ++ v.type.name))
      | none => .ok ()
  | [], _ => rfl
  | _ :: _, [] => rfl
  | v :: vs, p :: ps => by
    rw [checkArguments, List.zip_cons_cons, List.find?_cons]
    by_cases same : v.type = p
    · rw [if_pos same, checkArguments_eq name vs ps, bne_eq_false_iff_eq.2 same]
    · rw [if_neg same, bne_iff_ne.2 same]

theorem map_type_eq_iff : ∀ {args : List Value} {params : List Ty}, args.length = params.length →
    (args.map Value.type = params ↔
      (args.zip params).find? (fun vp => vp.1.type != vp.2) = none)
  | [], [], _ => by simp
  | v :: vs, p :: ps, h => by
    have rest := map_type_eq_iff (Nat.succ.inj h)
    rw [List.find?_eq_none] at rest ⊢
    rw [List.map_cons, List.cons.injEq, rest, List.zip_cons_cons, List.forall_mem_cons]
    simp

theorem passArguments_floats (name : String) {xs : List Float} (some : xs ≠ []) :
    passArguments name (xs.map .float) = .ok (.floats xs) := by
  have taken : (xs.map Value.float).filterMap Value.float? = xs := by
    rw [List.filterMap_map]
    exact List.filterMap_some
  have full : (!(xs.map Value.float).isEmpty && xs.length == (xs.map Value.float).length) = true := by
    simpa using some
  rw [passArguments, taken]
  exact if_pos full

theorem exists_floats : ∀ {args : List Value}, (∀ v ∈ args, PassClass.of? v.type = some .float) →
    ∃ xs : List Float, args = xs.map .float
  | [], _ => ⟨[], rfl⟩
  | v :: vs, h => by
    obtain ⟨hv, hvs⟩ := List.forall_mem_cons.1 h
    obtain ⟨xs, rfl⟩ := exists_floats hvs
    cases v with
    | float x => exact ⟨x :: xs, rfl⟩
    | _ => cases hv

theorem float?_eq_none {v : Value} (h : PassClass.of? v.type = some .word) : v.float? = none := by
  cases v <;> first | rfl | cases h

theorem passArguments_words (name : String) {args : List Value}
    (h : ∀ v ∈ args, PassClass.of? v.type = some .word) :
    passArguments name args = (args.mapM (wordOf name)).map .words := by
  have none : args.filterMap Value.float? = [] :=
    List.filterMap_eq_nil_iff.2 fun v hv => float?_eq_none (h v hv)
  have other : ¬ (!args.isEmpty && ([] : List Float).length == args.length) = true := by
    cases args <;> simp
  rw [passArguments, none]
  exact if_neg other

/-- Extending by the sign of the type keeps the integer. -/
theorem widen?_int {t : IntType} (bits : BitVec t.bits) : widen? (.int t bits) =
    some (if t.signed then bits.signExtend 64 else bits.setWidth 64) := by
  change some (BitVec.ofInt 64 (t.toInt bits)) = _
  unfold IntType.toInt
  split
  · rfl
  · rw [BitVec.ofInt_natCast, BitVec.ofNat_toNat]

/-- What is passed as a word has one, unless it is a text with a zero byte. -/
theorem wordOf_spec (name : String) {v : Value} (h : PassClass.of? v.type = some .word) :
    (endsEarly v = true ∧
      wordOf name v = .error (.unsupportedType name "string argument contains a NUL byte")) ∨
    (endsEarly v = false ∧ ∃ w, wordOf name v = .ok w ∧ Travels v w) := by
  cases v with
  | void => cases h
  | float x => cases h
  | bool b => exact .inr ⟨rfl, _, rfl, .bool b⟩
  | pointer address => exact .inr ⟨rfl, _, rfl, .pointer address⟩
  | int t bits =>
    refine .inr ⟨rfl, _, ?_, .int bits⟩
    rw [wordOf, widen?_int]
    nofun
  | string s =>
    by_cases early : s.toList.contains '\x00' = true
    · exact .inl ⟨early, if_pos early⟩
    · exact .inr ⟨Bool.eq_false_iff.2 early, _, if_neg early, .string s⟩

theorem mapM_wordOf (name : String) : ∀ {args : List Value},
    (∀ v ∈ args, PassClass.of? v.type = some .word) →
      (args.any endsEarly = true ∧ args.mapM (wordOf name) =
        .error (.unsupportedType name "string argument contains a NUL byte")) ∨
      (args.any endsEarly = false ∧ ∃ ws, args.mapM (wordOf name) = .ok ws ∧
        List.Forall₂ Travels args ws)
  | [], _ => .inr ⟨rfl, [], rfl, .nil⟩
  | v :: vs, h => by
    obtain ⟨hv, hvs⟩ := List.forall_mem_cons.1 h
    rw [List.any_cons, List.mapM_cons]
    rcases wordOf_spec name hv with ⟨early, failed⟩ | ⟨late, w, made, travels⟩
    · rw [early, failed]
      exact .inl ⟨rfl, rfl⟩
    · rw [late, made]
      rcases mapM_wordOf name hvs with ⟨early, failed⟩ | ⟨late, ws, made, travel⟩
      · rw [early, failed]
        exact .inl ⟨rfl, rfl⟩
      · rw [late, made]
        exact .inr ⟨rfl, _, rfl, .cons travels travel⟩

/-! ### Callers -/

theorem hasCaller_words {ws : List Word} (few : ws.length ≤ maxWords) :
    (Arguments.words ws).hasCaller = true := by
  unfold maxWords at few
  match ws with
  | [] | [_] | [_, _] | [_, _, _] | [_, _, _, _] | [_, _, _, _, _] | [_, _, _, _, _, _] => rfl
  | _ :: _ :: _ :: _ :: _ :: _ :: _ :: _ => simp only [List.length_cons] at few; omega

theorem hasCaller_floats {xs : List Float} (some : xs ≠ []) (few : xs.length ≤ maxFloats) :
    (Arguments.floats xs).hasCaller = true := by
  unfold maxFloats at few
  match xs with
  | [] => exact absurd rfl some
  | [_] | [_, _] | [_, _, _] | [_, _, _, _] => rfl
  | _ :: _ :: _ :: _ :: _ :: _ => simp only [List.length_cons] at few; omega

/-- Arguments of the declared types travel, and there is a caller for them, unless a text would end
early. -/
theorem passArguments_spec {name : String} {s : Signature} {u : Unit} {args : List Value}
    (h : checkSignature name s = .ok u) (types : args.map Value.type = s.params) :
    (args.any endsEarly = true ∧ passArguments name args =
      .error (.unsupportedType name "string argument contains a NUL byte")) ∨
    (args.any endsEarly = false ∧ ∃ a, passArguments name args = .ok a ∧ a.Carries args ∧
      a.hasCaller = true) := by
  rcases class_of_checkSignature h types with ⟨words, few⟩ | ⟨floats, few⟩
  · rw [passArguments_words name words]
    rcases mapM_wordOf name words with ⟨early, failed⟩ | ⟨late, ws, made, travel⟩
    · exact .inl ⟨early, by rw [failed]; rfl⟩
    · refine .inr ⟨late, .words ws, by rw [made]; rfl, .words travel, hasCaller_words ?_⟩
      rwa [← travel.length_eq]
  · obtain ⟨xs, rfl⟩ := exists_floats floats
    have late : (xs.map Value.float).any endsEarly = false := by simp [endsEarly]
    refine .inr ⟨late, ?_⟩
    cases xs with
    | nil => exact ⟨.words [], rfl, .words .nil, rfl⟩
    | cons x xs =>
      rw [List.length_map] at few
      have some : x :: xs ≠ [] := List.cons_ne_nil x xs
      exact ⟨_, passArguments_floats name some, .floats some, hasCaller_floats some few⟩

/-! ### Calls -/

/-- A call is prepared exactly if no check fails. -/
theorem prepare_spec (name : String) (s : Signature) (args : List Value) :
    (∃ e, firstRefusal name s args = some e ∧ prepare name s args = .error e) ∨
    (firstRefusal name s args = none ∧ ∃ a : Arguments, a.Carries args ∧ a.hasCaller = true ∧
      prepare name s args = .ok ⟨a, PassClass.of? s.ret⟩) := by
  unfold firstRefusal prepare
  by_cases arity : args.length ≠ s.params.length
  · rw [if_pos arity, if_pos arity]
    exact .inl ⟨_, rfl, rfl⟩
  rw [if_neg arity, if_neg arity]
  cases signature : checkSignature name s with
  | error e => exact .inl ⟨e, rfl, rfl⟩
  | ok _ =>
    have checked := checkArguments_eq name args s.params
    dsimp only
    cases found : (args.zip s.params).find? fun vp => vp.1.type != vp.2 with
    | some vp =>
      rw [found] at checked
      refine .inl ⟨_, rfl, ?_⟩
      change (checkArguments name args s.params >>= fun _ => _) = _
      rw [checked]
      rfl
    | none =>
      rw [found] at checked
      have types := (map_type_eq_iff (not_not.1 arity)).2 found
      rw [checked]
      rcases passArguments_spec signature types with ⟨early, failed⟩ | ⟨late, a, made, carries, few⟩
      · rw [early, failed]
        exact .inl ⟨_, rfl, rfl⟩
      · rw [late, made]
        exact .inr ⟨rfl, a, carries, few, rfl⟩

section

variable {m : Type → Type} [Monad m] {name : String} {s : Signature} {args : List Value}
  {e : NativeError}

theorem firstRefusal_eq_none_iff : firstRefusal name s args = none ↔
    args.length = s.params.length ∧ checkSignature name s = .ok () ∧
      args.map Value.type = s.params ∧ ∀ text, .string text ∈ args → '\x00' ∉ text.toList := by
  have texts : args.any endsEarly = false ↔
      ∀ text, .string text ∈ args → '\x00' ∉ text.toList := by
    rw [List.any_eq_false]
    constructor
    · intro late text mem inside
      exact late _ mem (List.contains_iff_mem.2 inside)
    · intro late v mem early
      cases v with
      | string text => exact late text mem (List.contains_iff_mem.1 early)
      | _ => cases early
  rw [← texts]
  unfold firstRefusal
  by_cases arity : args.length = s.params.length
  · rw [if_neg (not_not.2 arity), map_type_eq_iff arity]
    cases checkSignature name s with
    | error e => simp
    | ok _ =>
      cases (args.zip s.params).find? fun vp => vp.1.type != vp.2 with
      | some vp => simp
      | none => simp [arity]
  · simp [arity]

/-- A refusal is about the number of arguments if that is wrong, and else about what cannot be
passed. -/
theorem firstRefusal_kind (h : firstRefusal name s args = some e) :
    (args.length ≠ s.params.length ∧ e = .arityMismatch name s.params.length args.length) ∨
      (args.length = s.params.length ∧ ∃ reason, e = .unsupportedType name reason) := by
  unfold firstRefusal at h
  split at h
  · next arity =>
    cases h
    exact .inl ⟨arity, rfl⟩
  · next arity =>
    refine .inr ⟨not_not.1 arity, ?_⟩
    split at h
    · next e' refused =>
      cases h
      exact unsupported_of_checkSignature refused
    · split at h
      · cases h
        exact ⟨_, rfl⟩
      · split at h
        · cases h
          exact ⟨_, rfl⟩
        · cases h

/-- No argument that is passed as a word lacks one. -/
theorem widen?_isSome (signature : checkSignature name s = .ok ())
    (types : args.map Value.type = s.params) :
    (∃ xs : List Float, args = xs.map .float) ∨
      ∀ v ∈ args, (∃ text, v = .string text) ∨ (widen? v).isSome = true := by
  rcases class_of_checkSignature signature types with ⟨words, -⟩ | ⟨floats, -⟩
  · refine .inr fun v hv => ?_
    have word := words v hv
    cases v with
    | void | float _ => cases word
    | string text => exact .inl ⟨text, rfl⟩
    | bool _ | int _ _ | pointer _ => exact .inr rfl
  · exact .inl (exists_floats floats)

namespace Bridge

theorem name_of_lookupAllWith {L : Type} [DynamicLoader L] {f : FunctionHandle} :
    ∀ {loader : L} {ls : List LoadedLibrary},
      (lookupAllWith name loader ls).1 = .ok f → f.name = name
  | loader, l :: ls, h => by
    unfold lookupAllWith at h
    dsimp only at h
    split at h
    · cases h
      rfl
    · cases h
    · exact name_of_lookupAllWith h

/-- Once a symbol is found it is called under its name. -/
theorem callNamed_of_resolve {b : Bridge} {f : FunctionHandle}
    (signature : checkSignature name s = .ok ()) (found : (b.resolve name).1 = .ok f) :
    (b.callNamed name s args).1 = call name f.symbol s args := by
  have named : f.name = name := name_of_lookupAllWith found
  unfold callNamed
  rw [signature]
  dsimp only
  cases resolved : b.resolve name with
  | mk r b' =>
    rw [resolved] at found
    cases found
    rw [← named]
    rfl

end Bridge

end

/-- A native function is called as a whole or not at all.  Exactly if the number of arguments, the
signature, the types of the arguments and their texts are in order, the symbol is invoked, once, with
the arguments as they travel and the class of the result; the value is made of what it leaves.
Otherwise the error is that of the first check that fails, and the symbol is not invoked.  Behind the
checks there is a caller for the arguments, and what is passed as a word has one.  A name that is found
is called in this way. -/
theorem native_calls_whole {m : Type → Type} [Monad m] (name : String)
    (invoke : Invocation → m Results) (s : Signature) (args : List Value) :
    (firstRefusal name s args = none ↔
      args.length = s.params.length ∧ checkSignature name s = .ok () ∧
        args.map Value.type = s.params ∧ ∀ text, .string text ∈ args → '\x00' ∉ text.toList) ∧
    (firstRefusal name s args = none → ∃ a : Arguments, a.Carries args ∧
      callWith name invoke s args = do
        let r ← invoke ⟨a, PassClass.of? s.ret⟩
        return .ok ⟨⟨a, PassClass.of? s.ret⟩, resultValue s.ret r⟩) ∧
    (∀ e, firstRefusal name s args = some e →
      callWith name invoke s args = pure (.error e) ∧
      ((args.length ≠ s.params.length ∧ e = .arityMismatch name s.params.length args.length) ∨
        (args.length = s.params.length ∧ ∃ reason, e = .unsupportedType name reason))) ∧
    (∀ i, prepare name s args = .ok i → i.arguments.hasCaller = true) ∧
    (checkSignature name s = .ok () → args.map Value.type = s.params →
      (∃ xs : List Float, args = xs.map .float) ∨
        ∀ v ∈ args, (∃ text, v = .string text) ∨ (widen? v).isSome = true) ∧
    (∀ (b : Bridge) (f : FunctionHandle), checkSignature name s = .ok () →
      (b.resolve name).1 = .ok f → (b.callNamed name s args).1 =
        Id.run (callWith name (fun i => return f.symbol i.arguments) s args)) := by
  have prepared := prepare_spec name s args
  refine ⟨firstRefusal_eq_none_iff, fun passes => ?invoked,
    fun e refused => ⟨?refused, firstRefusal_kind refused⟩, fun i made => ?caller, widen?_isSome,
    fun b f => Bridge.callNamed_of_resolve⟩
  case invoked =>
    obtain ⟨e, refused, -⟩ | ⟨-, a, carries, few, made⟩ := prepared
    · cases passes.symm.trans refused
    · refine ⟨a, carries, ?_⟩
      unfold callWith
      rw [made]
      exact if_pos few
  case refused =>
    obtain ⟨e', refused', failed⟩ | ⟨passes, -⟩ := prepared
    · cases refused.symm.trans refused'
      unfold callWith
      rw [failed]
    · cases passes.symm.trans refused
  case caller =>
    obtain ⟨e, -, failed⟩ | ⟨-, a, -, few, made'⟩ := prepared
    · cases made.symm.trans failed
    · cases made.symm.trans made'
      exact few

/-- A byte and a text are passed as words, with one invocation; a text with a zero byte is passed with
none. -/
theorem counted_calls_whole :
    let invoke : Invocation → StateM Nat Results := fun _ => do
      modify (· + 1)
      return { word := 255 }
    let s : Signature := ⟨[.int .i8, .string], .int .i8⟩
    (∃ a : Arguments, a.Carries [.int .i8 (-1), .string "a"] ∧
      (callWith "f" invoke s [.int .i8 (-1), .string "a"]).run 0 =
        (.ok ⟨⟨a, some .word⟩, .int .i8 (-1)⟩, 1)) ∧
      (callWith "f" invoke s [.int .i8 (-1), .string "a\x00b"]).run 0 =
        (.error (.unsupportedType "f" "string argument contains a NUL byte"), 0) := by
  intro invoke s
  obtain ⟨a, carries, whole⟩ :=
    (native_calls_whole "f" invoke s [.int .i8 (-1), .string "a"]).2.1 (by decide)
  have refused := ((native_calls_whole "f" invoke s [.int .i8 (-1), .string "a\x00b"]).2.2.1
    (.unsupportedType "f" "string argument contains a NUL byte") (by decide)).1
  exact ⟨⟨a, carries, by rw [whole]; rfl⟩, by rw [refused]; rfl⟩

end ScriptLang.Native
