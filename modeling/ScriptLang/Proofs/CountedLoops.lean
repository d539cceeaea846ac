import ScriptLang.Proofs.FrameSteps
import ScriptLang.Proofs.IntegerTypes
import ScriptLang.Proofs.LinkedCode

/-!
# Counted loops count right

A counted loop whose body always completes, normally or by `continue`, and is not assigned the
variable of the loop runs its body once for each integer from the first bound up to, not including,
the second, in order (`counted_loop_counts`).  One round is followed from the label that begins it
back to that label (`Loop.round`); the number of rounds left is the distance to the limit, which
stands in a slot of its own (`Loop.rounds`).  No value of the counter leaves its type, since each is
at most the limit.
-/

namespace ScriptLang

/-! ### Counting in an integer type -/

/-- A counter that goes from one integer of the type up to another stays in the type. -/
theorem IntType.fits_count {t : IntType} (u w : BitVec t.bits) {i : Nat}
    (hi : i ≤ (t.toInt w - t.toInt u).toNat) : t.fits (t.toInt u + i) = true := by
  by_cases ascending : t.toInt u ≤ t.toInt w
  · exact IntType.fits_between (t.fits_toInt u) (t.fits_toInt w) (by omega) (by omega)
  · have zero : i = 0 := by omega
    subst zero
    simpa using t.fits_toInt u

theorem Value.lt_ofInt {t : IntType} {a b : Int} (ha : t.fits a = true) (hb : t.fits b = true) :
    binary .lt (ofInt t a) (ofInt t b) = .ok (.bool (decide (a < b))) := by
  simp only [binary, ofInt, dif_pos, intBinary, IntType.toInt_ofInt ha, IntType.toInt_ofInt hb,
    Option.getD_some, BinaryOp.holds]
  congr 2
  rw [Bool.eq_iff_iff, beq_iff_eq, Int.compare_eq_lt, decide_eq_true_iff]

/-- To count up is to add one, which wraps if the sum does not fit. -/
theorem Value.add_one_ofInt {t : IntType} {a : Int} (ha : t.fits a = true) :
    binary .add (ofInt t a) (wrap (.int t) 1) = .ok (ofInt t (a + 1)) := by
  simp only [binary, ofInt, wrap, Ty.intType?, Option.getD_some, dif_pos, intBinary,
    IntType.toInt_ofInt ha, IntType.toInt_ofInt t.fits_one]

namespace Machine

open Bound (CountedLoop Store stmtsLoops stmtsStored)
open Code (LoopAt LoopInstructions LoopPlace)

variable {image : Image} {max : Nat} {t : Activation image}

/-- The slot has been given the value, and room has been made for it. -/
def putLocal (σ : Store) (slot : Nat) (v : Value) : Store :=
  { σ with locals := putAt σ.locals slot v }

/-! ### Rounds -/

/-- The value of the variable where a round of the loop begins: the function stands behind a
comparison that holds. -/
def Activation.roundAt? (t : Activation image) (x : LoopPlace) (var : Nat) (c : Config) :
    Option Value :=
  match c.frames with
  | [] => none
  | top :: below =>
    if below.length = t.below.length ∧ top.next = x.test ∧ top.operands.head?.any Value.truthy then
      top.locals[var]?
    else none

/-- The run comes from one configuration to another inside the loop, and in the rounds that it
begins meanwhile the variable has these values. -/
def Activation.Rounds (t : Activation image) (max : Nat) (x : LoopPlace) (var : Nat) (c : Config)
    (values : List Value) (c' : Config) : Prop :=
  ∃ cs, Passes image max c cs c' ∧ (∀ b ∈ cs, t.StaysIn x.first x.last b) ∧
    cs.filterMap (t.roundAt? x var) = values

/-- What is known of a loop in the code of the function: where its labels lead, and that the code of
its parts spares its slots. -/
structure Activation.Loop (t : Activation image) (l : CountedLoop) (x : LoopPlace) (T : IntType) :
    Prop where
  code : LoopInstructions t.code l x
  again : image.labelPlace? t.index x.label = some x.top
  leaves : image.labelPlace? t.index (x.label + 2) = some x.done
  ne : l.limit ≠ l.var
  stop : t.Spares x.stopFirst x.stopEnd l.var
  var : t.Spares x.bodyFirst x.step l.var
  limit : t.Spares x.bodyFirst x.step l.limit
  type : l.start.ty = .int T

section

variable {x : LoopPlace} {var : Nat} {c c' c'' : Config} {vs ws : List Value}

theorem Activation.Rounds.append (h : t.Rounds max x var c vs c')
    (h' : t.Rounds max x var c' ws c'') : t.Rounds max x var c (vs ++ ws) c'' := by
  obtain ⟨cs, passes, stays, rfl⟩ := h
  obtain ⟨cs', passes', stays', rfl⟩ := h'
  exact ⟨cs ++ cs', passes.append passes', List.forall_mem_append.2 ⟨stays, stays'⟩,
    List.filterMap_append⟩

theorem Activation.Rounds.comes (h : t.Rounds max x var c vs c') :
    t.Comes max x.first x.last c c' := by
  obtain ⟨cs, passes, stays, _⟩ := h
  exact ⟨cs, passes, stays⟩

/-- A round begins only behind the comparison. -/
theorem Activation.StaysIn.roundAt?_eq_none {lo hi : Nat} (h : t.StaysIn lo hi c)
    (away : x.test < lo ∨ hi ≤ x.test) : t.roundAt? x var c = none := by
  obtain ⟨_, frame, there, _, inside⟩ := h
  unfold roundAt?
  cases frames : c.frames with
  | nil => rfl
  | cons top below =>
    refine if_neg fun ⟨innermost, here, _⟩ => ?_
    rw [frame?, frames, getElem?_reverse_cons, if_pos innermost.symm] at there
    cases there
    have := inside (by rw [frames, List.length_cons, innermost])
    omega

/-- No round begins in a stretch away from the comparison. -/
theorem Activation.Comes.rounds {lo hi : Nat} (h : t.Comes max lo hi c c') (above : x.first ≤ lo)
    (below : hi ≤ x.last) (away : x.test < lo ∨ hi ≤ x.test) : t.Rounds max x var c [] c' := by
  obtain ⟨cs, passes, stays⟩ := h
  refine ⟨cs, passes, fun b hb => (stays b hb).mono above below, ?_⟩
  exact List.filterMap_eq_nil_iff.2 fun b hb => (stays b hb).roundAt?_eq_none away

/-- A step begins no round but behind the comparison. -/
theorem StepsTo.rounds {σ : Store} {pc : Nat} {operands : List Value}
    (h : StepsTo image max (t.config σ pc operands) c') (above : x.first ≤ pc) (below : pc < x.last)
    (away : pc ≠ x.test) : t.Rounds max x var (t.config σ pc operands) [] c' :=
  (h.comes (Nat.le_refl pc) (Nat.lt_succ_self pc)).rounds above below (by omega)

end

section

variable {l : CountedLoop} {x : LoopPlace} {T : IntType} {σ : Store} {operands : List Value}
  {k n : Int}

/-- From the beginning of a round up to the jump that leaves the loop or not. -/
theorem Activation.Loop.compare (h : t.Loop l x T)
    (hvar : σ.locals[l.var]? = some (.ofInt T k)) (hlimit : σ.locals[l.limit]? = some (.ofInt T n))
    (hk : T.fits k = true) (hn : T.fits n = true) :
    t.Comes max x.top x.test (t.config σ x.top operands)
      (t.config σ x.test (.bool (decide (k < n)) :: operands)) := by
  have order := x.order
  have first : StepsTo image max (t.config σ x.top operands) (t.config σ (x.top + 1) operands) :=
    stepsTo_label t.loaded h.code.top
  have second : StepsTo image max (t.config σ (x.top + 1) operands)
      (t.config σ (x.top + 2) (.ofInt T k :: operands)) :=
    stepsTo_pushLocal t.loaded hvar h.code.readVar
  have third : StepsTo image max (t.config σ (x.top + 2) (.ofInt T k :: operands))
      (t.config σ (x.top + 3) (.ofInt T n :: .ofInt T k :: operands)) :=
    stepsTo_pushLocal t.loaded hlimit h.code.readLimit
  have fourth : StepsTo image max (t.config σ (x.top + 3) (.ofInt T n :: .ofInt T k :: operands))
      (t.config σ x.test (.bool (decide (k < n)) :: operands)) :=
    stepsTo_of_push t.loaded rfl h.code.compare fun m => by
      rw [← Value.lt_ofInt hk hn]
      rfl
  exact ((first.comes (by omega) (by omega)).trans (second.comes (by omega) (by omega))).trans
    ((third.comes (by omega) (by omega)).trans (fourth.comes (by omega) (by omega)))

/-- From the end of the body back to the beginning of the next round. -/
theorem Activation.Loop.countUp (h : t.Loop l x T) (hvar : σ.locals[l.var]? = some (.ofInt T k))
    (hk : T.fits k = true) :
    t.Comes max x.step x.done (t.config σ x.step operands)
      (t.config (putLocal σ l.var (.ofInt T (k + 1))) x.top operands) := by
  have order := x.order
  have first : StepsTo image max (t.config σ x.step operands) (t.config σ (x.step + 1) operands) :=
    stepsTo_label t.loaded h.code.step
  have second : StepsTo image max (t.config σ (x.step + 1) operands)
      (t.config σ (x.step + 2) (.ofInt T k :: operands)) :=
    stepsTo_pushLocal t.loaded hvar h.code.readCounter
  have third : StepsTo image max (t.config σ (x.step + 2) (.ofInt T k :: operands))
      (t.config σ (x.step + 3) (.wrap l.start.ty 1 :: .ofInt T k :: operands)) :=
    stepsTo_pushConst t.loaded h.code.one
  have fourth : StepsTo image max
      (t.config σ (x.step + 3) (.wrap l.start.ty 1 :: .ofInt T k :: operands))
      (t.config σ (x.step + 4) (.ofInt T (k + 1) :: operands)) :=
    stepsTo_of_push t.loaded rfl h.code.add fun m => by
      rw [← Value.add_one_ofInt hk, h.type]
      rfl
  have fifth : StepsTo image max (t.config σ (x.step + 4) (.ofInt T (k + 1) :: operands))
      (t.config (putLocal σ l.var (.ofInt T (k + 1))) (x.step + 5) operands) :=
    stepsTo_popLocal t.loaded h.code.storeCounter
  have sixth : StepsTo image max
      (t.config (putLocal σ l.var (.ofInt T (k + 1))) (x.step + 5) operands)
      (t.config (putLocal σ l.var (.ofInt T (k + 1))) x.top operands) :=
    stepsTo_jump t.loaded h.again h.code.back
  exact ((first.comes (by omega) (by omega)).trans (second.comes (by omega) (by omega))).trans
    ((third.comes (by omega) (by omega)).trans ((fourth.comes (by omega) (by omega)).trans
      ((fifth.comes (by omega) (by omega)).trans (sixth.comes (by omega) (by omega)))))

/-- The jump behind the comparison leaves the loop or begins the body. -/
theorem Activation.Loop.decide (h : t.Loop l x T) (holds : Bool) :
    StepsTo image max (t.config σ x.test (.bool holds :: operands))
      (t.config σ (if holds then x.bodyFirst else x.done) operands) := by
  have jump : StepsTo image max (t.config σ x.test (.bool holds :: operands))
      (t.config σ (if (Value.bool holds).truthy = false then x.done else x.bodyFirst) operands) :=
    stepsTo_jumpIf t.loaded false h.leaves h.code.test
  cases holds <;> exact jump

/-- A loop whose counter has come to the limit is left. -/
theorem Activation.Loop.leave (h : t.Loop l x T)
    (hvar : σ.locals[l.var]? = some (.ofInt T k)) (hlimit : σ.locals[l.limit]? = some (.ofInt T n))
    (hk : T.fits k = true) (hn : T.fits n = true) (reached : n ≤ k) :
    t.Rounds max x l.var (t.config σ x.top operands) [] (t.config σ x.last operands) := by
  have order := x.order
  have compared : t.Comes max x.top x.test (t.config σ x.top operands) _ :=
    h.compare hvar hlimit hk hn
  rw [decide_eq_false (Int.not_lt.2 reached)] at compared
  have last : StepsTo image max (t.config σ x.done operands) (t.config σ x.last operands) :=
    stepsTo_label t.loaded h.code.done
  have left : t.Rounds max x l.var (t.config σ x.test (.bool false :: operands)) []
      (t.config σ x.done operands) := by
    refine ⟨_, (h.decide false).passes, fun b hb => ?_, ?_⟩
    · rw [List.mem_singleton.1 hb]
      exact t.staysIn_config (by omega) (by omega)
    · simp [roundAt?, Activation.config, Value.truthy]
  exact ((compared.rounds (by omega) (by omega) (by omega)).append left).append
    (last.rounds (by omega) (by omega) (by omega))

/-- The body of the loop always completes, normally or by `continue`: whenever the run, on its way
through the loop from the configuration `c`, stands before the body it comes to where the counter is
counted up. -/
def Activation.BodyCompletes (t : Activation image) (max : Nat) (x : LoopPlace) (c : Config) :
    Prop :=
  ∀ σ operands, t.Comes max x.first x.last c (t.config σ x.bodyFirst operands) →
    ∃ σ' operands', t.Comes max x.bodyFirst x.step (t.config σ x.bodyFirst operands)
      (t.config σ' x.step operands')

/-- One round: the body is run once, and the counter goes up by one. -/
theorem Activation.Loop.round (h : t.Loop l x T) {c : Config}
    (completes : t.BodyCompletes max x c)
    (came : t.Comes max x.first x.last c (t.config σ x.top operands))
    (hvar : σ.locals[l.var]? = some (.ofInt T k)) (hlimit : σ.locals[l.limit]? = some (.ofInt T n))
    (hk : T.fits k = true) (hn : T.fits n = true) (more : k < n) :
    ∃ σ' operands', t.Rounds max x l.var (t.config σ x.top operands) [.ofInt T k]
        (t.config σ' x.top operands') ∧
      σ'.locals[l.var]? = some (.ofInt T (k + 1)) ∧ σ'.locals[l.limit]? = some (.ofInt T n) := by
  have order := x.order
  have compared : t.Comes max x.top x.test (t.config σ x.top operands) _ :=
    h.compare hvar hlimit hk hn
  rw [decide_eq_true more] at compared
  have begun : t.Rounds max x l.var (t.config σ x.test (.bool true :: operands)) [.ofInt T k]
      (t.config σ x.bodyFirst operands) := by
    refine ⟨_, (h.decide true).passes, fun b hb => ?_, ?_⟩
    · rw [List.mem_singleton.1 hb]
      exact t.staysIn_config (by omega) (by omega)
    · simp [roundAt?, Activation.config, Value.truthy, hvar]
  have before : t.Rounds max x l.var (t.config σ x.top operands) ([] ++ [.ofInt T k]) _ :=
    (compared.rounds (by omega) (by omega) (by omega)).append begun
  obtain ⟨σ₁, operands₁, body⟩ := completes σ operands (came.trans before.comes)
  have hvar₁ := body.kept h.var hvar
  have hlimit₁ := body.kept h.limit hlimit
  have counted : t.Comes max x.step x.done (t.config σ₁ x.step operands₁) _ := h.countUp hvar₁ hk
  refine ⟨_, operands₁, (before.append (body.rounds (by omega) (by omega) (by omega))).append
    (counted.rounds (by omega) (by omega) (by omega)), getElem?_putAt_self _ _ _, ?_⟩
  exact getElem?_putAt_of_ne h.ne.symm hlimit₁ _

/-- From the beginning of a round the loop goes round as often as the counter is away from the
limit, and is left. -/
theorem Activation.Loop.rounds (h : t.Loop l x T) {c : Config}
    (completes : t.BodyCompletes max x c) (hn : T.fits n = true) :
    ∀ (left : Nat) {σ : Store} {operands : List Value} {k : Int}, (n - k).toNat = left →
      t.Comes max x.first x.last c (t.config σ x.top operands) →
      σ.locals[l.var]? = some (.ofInt T k) → σ.locals[l.limit]? = some (.ofInt T n) →
      T.fits k = true → ∃ σ' operands',
        t.Rounds max x l.var (t.config σ x.top operands)
          ((List.range left).map fun i : Nat => Value.ofInt T (k + i))
          (t.config σ' x.last operands') ∧
        σ'.locals[l.var]? = some (.ofInt T (k + left))
  | 0, σ, operands, k, away, _, hvar, hlimit, hk =>
    ⟨σ, operands, h.leave hvar hlimit hk hn (by omega), by simpa using hvar⟩
  | left + 1, σ, operands, k, away, came, hvar, hlimit, hk => by
    obtain ⟨σ₁, operands₁, round, hvar₁, hlimit₁⟩ :=
      h.round completes came hvar hlimit hk hn (by omega)
    have hk₁ : T.fits (k + 1) = true := IntType.fits_between hk hn (by omega) (by omega)
    obtain ⟨σ₂, operands₂, others, final⟩ := h.rounds completes hn left (by omega)
      (came.trans round.comes) hvar₁ hlimit₁ hk₁
    refine ⟨σ₂, operands₂, ?_, ?_⟩
    · have whole := round.append others
      rw [List.range_succ_eq_map, List.map_cons, List.map_map]
      simpa [Function.comp_def, Int.add_assoc, Int.add_comm 1] using whole
    · rw [final]
      congr 2
      push_cast
      omega

/-- The bounds come to these values, the second one with the variable set to the first. -/
def Activation.BoundsCome (t : Activation image) (max : Nat) (l : CountedLoop) (x : LoopPlace)
    (σ : Store) (operands : List Value) (u w : Value) : Prop :=
  ∃ σ₁ σ₂, t.Comes max x.first x.startEnd (t.config σ x.first operands)
      (t.config σ₁ x.startEnd (u :: operands)) ∧
    t.Comes max x.stopFirst x.stopEnd (t.config (putLocal σ₁ l.var u) x.stopFirst operands)
      (t.config σ₂ x.stopEnd (w :: operands))

/-- From the beginning of the loop to the beginning of its first round. -/
theorem Activation.Loop.bounds (h : t.Loop l x T) {u w : Value}
    (bounds : t.BoundsCome max l x σ operands u w) :
    ∃ σ', t.Rounds max x l.var (t.config σ x.first operands) [] (t.config σ' x.top operands) ∧
      σ'.locals[l.var]? = some u ∧ σ'.locals[l.limit]? = some w := by
  have order := x.order
  obtain ⟨σ₁, σ₂, start, stop⟩ := bounds
  have storeVar : StepsTo image max (t.config σ₁ x.startEnd (u :: operands))
      (t.config (putLocal σ₁ l.var u) x.stopFirst operands) :=
    stepsTo_popLocal t.loaded h.code.storeVar
  have storeLimit : StepsTo image max (t.config σ₂ x.stopEnd (w :: operands))
      (t.config (putLocal σ₂ l.limit w) x.top operands) :=
    stepsTo_popLocal t.loaded h.code.storeLimit
  have hvar : σ₂.locals[l.var]? = some u := stop.kept h.stop (getElem?_putAt_self _ _ _)
  have first : t.Rounds max x l.var (t.config σ x.first operands) [] _ :=
    start.rounds (by omega) (by omega) (by omega)
  have second : t.Rounds max x l.var (t.config _ x.stopFirst operands) [] _ :=
    stop.rounds (by omega) (by omega) (by omega)
  have begun := (first.append (storeVar.rounds (by omega) (by omega) (by omega))).append
    (second.append (storeLimit.rounds (by omega) (by omega) (by omega)))
  exact ⟨_, begun, getElem?_putAt_of_ne h.ne hvar _, getElem?_putAt_self _ _ _⟩

/-- A loop whose body always completes goes round once for each integer between its bounds. -/
theorem Activation.Loop.counts (h : t.Loop l x T) {u w : BitVec T.bits}
    (bounds : t.BoundsCome max l x σ operands (.int T u) (.int T w))
    (completes : t.BodyCompletes max x (t.config σ x.first operands)) :
    ∃ σ' operands', t.Rounds max x l.var (t.config σ x.first operands)
        ((List.range (T.toInt w - T.toInt u).toNat).map fun i : Nat =>
          Value.ofInt T (T.toInt u + i)) (t.config σ' x.last operands') ∧
      σ'.locals[l.var]? = some (.ofInt T (T.toInt u + (T.toInt w - T.toInt u).toNat)) := by
  obtain ⟨σ₁, begun, hvar, hlimit⟩ := h.bounds bounds
  rw [← Value.ofInt_toInt] at hvar hlimit
  obtain ⟨σ', operands', rounds, final⟩ := h.rounds completes (T.fits_toInt w) _ rfl begun.comes
    hvar hlimit (T.fits_toInt u)
  exact ⟨σ', operands', begun.append rounds, final⟩

end

/-! ### Loops of programs -/

section

variable {p : Bound.Program} {name entry : String} {code : Code.Program} {bridge : Native.Bridge}
  {f : Bound.Function} {g : Code.Function} {l : CountedLoop} {x : LoopPlace} {T : IntType}

/-- What the loops of a lowered function are in its code. -/
theorem loop_of_loopAt (himage : IsImage code bridge image) (lowered : Code.Lowered p f g)
    (separate : l.Separate) (counts : l.CountsIn T)
    (kept : ∀ e, (.local l.var, e) ∉ stmtsStored l.body) (placed : LoopAt p g.code l x)
    (is : t.function = g) : t.Loop l x T := by
  subst is
  have label {id : Code.Label} {k : Nat} {place : Location}
      (hk : t.code[k]? = some (Code.ins place (.label id))) :
      image.labelPlace? t.index id = some k :=
    himage.labelPlace?_eq (himage.function?_eq _ ▸ t.loaded) (lowered.placements_le_one id) hk
  obtain ⟨_, _, stop⟩ := placed.stop
  obtain ⟨_, _, body⟩ := placed.body
  obtain ⟨var, limit⟩ := Code.not_mem_storedSlots_body separate kept body
  have at' : LoopInstructions t.code l x := placed.instructions
  exact {
    code := at'
    again := label at'.top
    leaves := label at'.done
    ne := separate.limit_ne_var
    stop := Activation.spares_of_codeAt at'.stop (by simp [Code.lowerExpr_storedSlots _ stop])
    var := Activation.spares_of_codeAt at'.body var
    limit := Activation.spares_of_codeAt at'.body limit
    type := counts.1 }

/-- Let a counted loop of a program, whose body assigns nothing to the variable of the loop, be run
from the beginning, its bounds come to the integers `u` and `w` of the type in which it counts, and
its body always complete, normally or by `continue`.  Then the loop ends; its body has been run once
for each integer from `u` up to, not including, `w`, in order and with that value of the variable;
and all these integers, and the value that the variable has at last, are of the type. -/
theorem counted_loop_counts {source : Syntax.Program} (hbind : Bound.bind source = .ok p)
    (hlower : Code.lower p name entry = .ok code) (himage : IsImage code bridge image)
    (hf : f ∈ p.functions) (hl : l ∈ stmtsLoops f.stmts)
    (kept : ∀ e, (.local l.var, e) ∉ stmtsStored l.body) :
    ∃ T g, l.CountsIn T ∧ code.function? f.name = some g ∧ (∃ x, LoopAt p g.code l x) ∧
      ∀ x, LoopAt p g.code l x → ∀ t : Activation image, t.function = g →
        ∀ max σ operands (u w : BitVec T.bits),
          t.BoundsCome max l x σ operands (.int T u) (.int T w) →
          t.BodyCompletes max x (t.config σ x.first operands) →
            let n := (T.toInt w - T.toInt u).toNat
            ∃ σ' operands', t.Rounds max x l.var (t.config σ x.first operands)
                ((List.range n).map fun i : Nat => Value.ofInt T (T.toInt u + i))
                (t.config σ' x.last operands') ∧
              σ'.locals[l.var]? = some (.ofInt T (T.toInt u + n)) ∧
              ∀ i ≤ n, T.fits (T.toInt u + i) = true := by
  have typed := (Bound.typed_of_bind hbind).functions_typed f hf
  obtain ⟨T, counts⟩ := Bound.stmtsTyped_countsIn_of_mem typed.stmts_typed l hl
  obtain ⟨g, found, lowered⟩ := function?_of_lower (Bound.nodup_names_of_bind hbind) hlower hf
  have separate : l.Separate := Bound.separate_of_bind hbind f hf l hl
  refine ⟨T, g, counts, found, lowered.exists_loopAt l hl, ?_⟩
  intro x placed t is max σ operands u w bounds completes
  have loop := loop_of_loopAt himage lowered separate counts kept placed is
  obtain ⟨σ', operands', rounds, final⟩ := loop.counts bounds completes
  exact ⟨σ', operands', rounds, final, fun i hi => IntType.fits_count u w hi⟩

end

/-! ### A loop up to the greatest integer -/

/-- `func main() { var n = 255u8; for i in 253u8..n { n = 0u8; continue; } }`, without places. -/
def countingUp : Syntax.Program :=
  let node : Syntax.Node := ⟨0, default⟩
  let n : Syntax.Ident := ⟨"n", default⟩
  let number (k : Int) : Syntax.Expr := .integer node k (some ⟨"u8", default⟩)
  let body : Syntax.Block := .mk node [.assign node n none (number 0), .continue node]
  ⟨[⟨"", [⟨node, .function ⟨⟨"main", default⟩, [], none, .block (.mk node
    [.var node ⟨node, n, none, some (number 255), false⟩,
     .for node ⟨"i", default⟩ (number 253) (.name node "n") body])⟩⟩]⟩]⟩

/-- The loop of `countingUp`, with the slot of `n` before those of the limit and of `i`. -/
def countingLoop : CountedLoop :=
  let number (k : Int) : Bound.Expr := .ofValue (.ofInt .u8 k) .unknown
  ⟨.unknown, 2, 1, number 253, .variable ⟨.int .u8, .unknown⟩ (.local 0),
    [.assign .unknown (.local 0) (number 0), .continue .unknown]⟩

/-- What `countingUp` is bound to. -/
def countingUpBound : Bound.Program where
  globals := []
  functions := [⟨"main", [], .void, [⟨"n", .int .u8⟩, ⟨"$limit", .int .u8⟩, ⟨"i", .int .u8⟩],
    .block [.assign .unknown (.local 0) (.ofValue (.ofInt .u8 255) .unknown), countingLoop.stmt],
    .unknown⟩]

/-- Where the loop stands in the code. -/
def countingPlace : LoopPlace where
  first := 2
  label := 0
  start := [⟨.pushConst (.ofInt .u8 253), .unknown⟩]
  stop := [⟨.pushLocal 0, .unknown⟩]
  body := [⟨.pushConst (.ofInt .u8 0), .unknown⟩, ⟨.popLocal 0, .unknown⟩, ⟨.jump 1, .unknown⟩]

/-- The code of the only function. -/
def countingMain : Code.Function :=
  ⟨"main", ⟨[], .void⟩, [⟨"n", .int .u8⟩, ⟨"$limit", .int .u8⟩, ⟨"i", .int .u8⟩],
    .body ([⟨.pushConst (.ofInt .u8 255), .unknown⟩, ⟨.popLocal 0, .unknown⟩] ++
      (Code.forCode .unknown 0 2 1 (.int .u8) countingPlace.start countingPlace.stop
        countingPlace.body ++ [⟨.ret false, .unknown⟩])), .unknown⟩

/-- What `countingUpBound` is lowered to. -/
def countingCode : Code.Program where
  name := "counting"
  globals := []
  functions := [⟨"$init", ⟨[], .void⟩, [], .body [⟨.ret false, .unknown⟩], .unknown⟩, countingMain]
  entry := some "main"

/-- The function is run with nothing below it. -/
def counting : Activation (.interpreted countingCode Native.Bridge.platform) :=
  ⟨.entry, 1, countingMain, [], rfl⟩

theorem counting_loopAt : LoopAt countingUpBound countingMain.code countingLoop countingPlace where
  start := ⟨0, 0, rfl⟩
  stop := ⟨0, 0, rfl⟩
  body := ⟨3, 3, rfl⟩
  placed := Code.codeAt_append_left [_, _] _ _

/-- The body sets `n` to zero and goes on. -/
theorem counting_completes {max : Nat} {c : Config} :
    counting.BodyCompletes max countingPlace c := by
  intro σ operands _
  have zero : StepsTo _ max (counting.config σ 11 operands)
      (counting.config σ 12 (.ofInt .u8 0 :: operands)) := stepsTo_pushConst counting.loaded rfl
  have store : StepsTo _ max (counting.config σ 12 (.ofInt .u8 0 :: operands))
      (counting.config (putLocal σ 0 (.ofInt .u8 0)) 13 operands) :=
    stepsTo_popLocal counting.loaded rfl
  have go : StepsTo _ max (counting.config (putLocal σ 0 (.ofInt .u8 0)) 13 operands)
      (counting.config (putLocal σ 0 (.ofInt .u8 0)) 14 operands) :=
    stepsTo_jump counting.loaded rfl rfl
  exact ⟨_, _, (zero.comes (by decide) (by decide)).trans
    ((store.comes (by decide) (by decide)).trans (go.comes (by decide) (by decide)))⟩

/-- The loop runs its body for `253` and `254`, though the body sets `n` to zero, and at last `i` is
`255`, the greatest integer of its type. -/
theorem counting_counts : ∃ σ' operands',
    counting.Rounds 10 countingPlace 2 (counting.config ⟨[], [.ofInt .u8 255], ""⟩ 2 [])
      [.ofInt .u8 253, .ofInt .u8 254] (counting.config σ' 21 operands') ∧
    σ'.locals[2]? = some (.ofInt .u8 255) := by
  obtain ⟨T, g, counts, found, _, runs⟩ := counted_loop_counts
    (rfl : Bound.bind countingUp = .ok countingUpBound)
    (rfl : Code.lower countingUpBound "counting" "main" = .ok countingCode)
    (.interpreted : IsImage _ Native.Bridge.platform _) (List.mem_singleton_self _)
    (List.mem_cons_self : countingLoop ∈ stmtsLoops _)
    (by simp [countingLoop, stmtsStored, Bound.Stmt.stored])
  obtain ⟨⟨⟩, -⟩ := counts
  cases found
  have start : StepsTo _ 10 (counting.config ⟨[], [.ofInt .u8 255], ""⟩ 2 [])
      (counting.config ⟨[], [.ofInt .u8 255], ""⟩ 3 [.ofInt .u8 253]) :=
    stepsTo_pushConst counting.loaded rfl
  have stop : StepsTo _ 10
      (counting.config (putLocal ⟨[], [.ofInt .u8 255], ""⟩ 2 (.ofInt .u8 253)) 4 [])
      (counting.config (putLocal ⟨[], [.ofInt .u8 255], ""⟩ 2 (.ofInt .u8 253)) 5
        [.ofInt .u8 255]) := stepsTo_pushLocal counting.loaded rfl rfl
  obtain ⟨σ', operands', rounds, final, _⟩ := runs countingPlace counting_loopAt counting rfl 10
    _ [] (253 : BitVec 8) (255 : BitVec 8)
    ⟨_, _, start.comes (by decide) (by decide), stop.comes (by decide) (by decide)⟩
    counting_completes
  exact ⟨σ', operands', rounds, final⟩

end Machine

end ScriptLang
