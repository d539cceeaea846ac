import ScriptLang.Machine.State

/-!
# What an operation does

An operation that does not fail lets the innermost function go on with other operands, sets a
variable, calls a function of the program or returns from one.  That is said once
(`execute_does`), and what operations leave alone follows from it case by case.
-/

namespace ScriptLang.Machine

/-- What an operation does in a context; the functions below stay as they are. -/
inductive Context.Does (c : Context) (m : Machine) : Code.Op → Effect → Prop
  /-- The function goes on with other operands, and a function of the machine may have printed. -/
  | goesOn {op : Code.Op} (operands : List Value) (next : Nat) {printed : List Emission}
      (texts : ∀ e ∈ printed, ∃ text, e = .output text) :
      Does c m op
        { machine := { m with frames := { c.frame with operands, next } :: c.below }, printed }
  | setsLocal {slot : Nat} {v : Value} {rest : List Value} (last : c.frame.operands = v :: rest) :
      Does c m (.popLocal slot)
        { machine :=
            { m with
              frames :=
                { c.frame with locals := putAt c.frame.locals slot v, operands := rest } ::
                  c.below } }
  | setsGlobal {id : Nat} {v : Value} {rest : List Value} (last : c.frame.operands = v :: rest) :
      Does c m (.popGlobal id)
        { machine := c.withOperands { m with globals := putAt m.globals id v } rest }
  | enters {op : Code.Op} (operands : List Value) {index : Nat} {f : Code.Function}
      (args : List Value) (callee : m.image.function? index = some f) :
      Does c m op { machine := c.withOperands m operands, flow := .enter index f args }
  | returnsValue {v : Value} {rest : List Value} (last : c.frame.operands = v :: rest) :
      Does c m (.ret true) { machine := c.withOperands m rest, flow := .leave (some v) }
  | returns :
      Does c m (.ret false) { machine := c.withOperands m c.frame.operands, flow := .leave none }

namespace Context

variable {c : Context} {m : Machine} {op : Code.Op} {operands : List Value} {effect : Effect}

theorem does_withOperands (operands : List Value) :
    c.Does m op { machine := c.withOperands m operands } :=
  .goesOn operands c.frame.next nofun

theorem push_does {r : Except ValueError Value} (h : c.push m operands r = .ok effect) :
    c.Does m op effect := by
  cases r with
  | ok v =>
    cases h
    exact does_withOperands _
  | error e => cases h

theorem jump_does {l : Code.Label} (h : c.jump m operands l = .ok effect) :
    c.Does m op effect := by
  unfold jump at h
  split at h
  · next next _ =>
    cases h
    exact .goesOn operands next nofun
  · cases h

theorem invoke_does {index : Nat} {f : Code.Function} {args : List Value}
    (callee : m.image.function? index = some f) (h : c.invoke m operands index f args = .ok effect) :
    c.Does m op effect := by
  unfold invoke at h
  dsimp only at h
  split at h
  · split at h
    · cases h
    · cases h
      exact .enters operands args callee
  · cases h
    refine .goesOn operands c.frame.next fun e printed => ?_
    rcases List.mem_cons.1 printed with rfl | ending
    · exact ⟨_, rfl⟩
    · split at ending
      · exact ⟨_, List.mem_singleton.1 ending⟩
      · cases ending
  · split at h
    · cases h
    · cases h
      by_cases void : f.signature.ret = .void
      · rw [if_pos void]
        exact does_withOperands operands
      · rw [if_neg void]
        exact does_withOperands _

theorem call_does {name : String} {argc : Nat} (h : c.call m name argc = .ok effect) :
    c.Does m op effect := by
  unfold call at h
  dsimp only at h
  split at h
  · cases h
  · next index f found =>
    have callee : m.image.function? index = some f := by
      obtain ⟨_, _, found⟩ := Option.bind_eq_some_iff.1 found
      obtain ⟨_, function, same⟩ := Option.bind_eq_some_iff.1 found
      cases same
      exact function
    split at h
    · cases h
    · split at h
      · cases h
      · exact invoke_does callee h

/-- What an operation takes off the operands is there if it does not fail. -/
theorem execute_does (h : c.execute m op = .ok effect) : c.Does m op effect := by
  unfold execute at h
  dsimp only at h
  cases op with
  | pushConst _ | pushGlobal _ | label _ =>
    cases h
    exact does_withOperands _
  | pushLocal slot =>
    dsimp only at h
    split at h
    · cases h
      exact does_withOperands _
    · cases h
  | call name argc | callNative name argc => exact call_does h
  | jump l => exact jump_does h
  | ret hasValue =>
    cases hasValue with
    | false =>
      cases h
      exact .returns
    | true =>
      cases last : c.frame.operands with
      | nil => rw [last] at h; cases h
      | cons v rest =>
        rw [last] at h
        cases h
        exact .returnsValue last
  | binary _ =>
    rcases last : c.frame.operands with _ | ⟨r, _ | ⟨l, rest⟩⟩
    · rw [last] at h; cases h
    · rw [last] at h; cases h
    · rw [last] at h
      exact push_does h
  | unary _ | cast _ =>
    cases last : c.frame.operands with
    | nil => rw [last] at h; cases h
    | cons v rest =>
      rw [last] at h
      exact push_does h
  | popLocal slot =>
    cases last : c.frame.operands with
    | nil => rw [last] at h; cases h
    | cons v rest =>
      rw [last] at h
      cases h
      exact .setsLocal last
  | popGlobal id =>
    cases last : c.frame.operands with
    | nil => rw [last] at h; cases h
    | cons v rest =>
      rw [last] at h
      cases h
      exact .setsGlobal last
  | pop =>
    cases last : c.frame.operands with
    | nil => rw [last] at h; cases h
    | cons v rest =>
      rw [last] at h
      cases h
      exact does_withOperands rest
  | jumpIfFalse l | jumpIfTrue l =>
    cases last : c.frame.operands with
    | nil => rw [last] at h; cases h
    | cons v rest =>
      rw [last] at h
      dsimp only at h
      split at h <;> first
        | exact jump_does h
        | (cases h; exact does_withOperands rest)

end Context

end ScriptLang.Machine
