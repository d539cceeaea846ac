import ScriptLang.Proofs.SessionMessages

/-!
# The order of the stages

A session enters one stage after the other, each once, and enters none after one whose work failed;
which of the stages that run a program it comes to is a matter of its settings, and it starts its
program at most once (`stages_in_order`).
-/

namespace ScriptLang

open Machine (Emission)

/-! ### The course of the stages -/

theorem Stage.rank_of_course {linked : Bool} {place : Nat} {stage : Stage}
    (h : (Stage.course linked).tail[place]? = some stage) : stage.rank = place + 1 := by
  cases linked <;> obtain _ | _ | _ | _ | _ | place := place <;> cases h <;> rfl

namespace Session

theorem stagesTo_starts (linked : Bool) (stage : Stage) :
    stagesTo linked stage <+: (Stage.course linked).tail := List.take_prefix _ _

/-- What was entered before a stage is all that comes before it. -/
theorem stagesTo_of_append {linked : Bool} {last stage : Stage} {before later : List Stage}
    (h : before ++ stage :: later = stagesTo linked last) :
    before ++ [stage] = stagesTo linked stage := by
  have starts : before ++ [stage] <+: (Stage.course linked).tail := by
    refine List.IsPrefix.trans ⟨later, ?_⟩ (stagesTo_starts linked last)
    rw [← h, List.append_assoc]
    rfl
  have place : (Stage.course linked).tail[before.length]? = some stage := by
    obtain ⟨rest, hrest⟩ := starts
    rw [← hrest, List.append_assoc, List.getElem?_append_right (Nat.le_refl _), Nat.sub_self]
    rfl
  unfold stagesTo
  rw [Stage.rank_of_course place]
  have taken := List.prefix_iff_eq_take.1 starts
  rwa [List.length_append] at taken

theorem length_stagesTo (linked : Bool) (stage : Stage) :
    (stagesTo linked stage).length = stage.rank := by
  cases linked <;> cases stage <;> rfl

/-- Of the stages that run a program, the settings choose one. -/
theorem terminal_of_mem_stagesTo {linked : Bool} {last stage : Stage}
    (h : stage ∈ stagesTo linked last) (terminal : stage.isTerminal = true) :
    stage = if linked then .execute else .interpret := by
  have course := (stagesTo_starts linked last).subset h
  revert terminal course
  cases linked <;> cases stage <;> decide

/-! ### What was done before and after -/

theorem Halts.split {failed : Option Stage} {before later : List Deed} {d : Deed}
    (h : Halts failed (before ++ d :: later)) :
    (∀ e ∈ before, e.succeeded = true) ∧ (d.succeeded = false → later = []) := by
  unfold Halts at h
  cases failed with
  | none =>
    refine ⟨fun e he => h e (List.mem_append_left _ he), fun bad => ?_⟩
    rw [h d (List.mem_append_right _ List.mem_cons_self)] at bad
    cases bad
  | some stage =>
    obtain ⟨earlier, ds, heq, good⟩ := h
    obtain rfl | ⟨later, last, rfl⟩ := List.eq_nil_or_concat later
    · obtain ⟨rfl, _⟩ := List.append_inj' heq rfl
      exact ⟨good, fun _ => rfl⟩
    · rw [List.concat_eq_append, ← List.cons_append, ← List.append_assoc] at heq
      obtain ⟨rfl, _⟩ := List.append_inj' heq rfl
      refine ⟨fun e he => good e (List.mem_append_left _ he), fun bad => ?_⟩
      rw [good d (List.mem_append_right _ List.mem_cons_self)] at bad
      cases bad

/-- Nothing that was done is undone. -/
theorem askAll_deeds : ∀ (rs : List Request) (h : History), h.deeds <+: (h.askAll rs).deeds
  | [], _ => List.prefix_refl _
  | r :: rs, h => by
    have first : h.deeds <+: (h.ask r).deeds := List.prefix_append _ _
    exact first.trans (askAll_deeds rs (h.ask r))

/-! ### Starts of programs -/

/-- Whether this tells that a program starts. -/
def startsProgram : Emission → Bool
  | .message m => m.kind == .programStart
  | .output _ => false

theorem countP_heard : ∀ {body : List Emission} {l l' : Listener}, l.hearAll body = some l' →
    body.countP startsProgram = 0
  | [], _, _, _ => rfl
  | e :: body, l, l', h => by
    obtain ⟨l₁, first, rest⟩ := Option.bind_eq_some_iff.1 h
    have other : startsProgram e = false := by
      cases e with
      | output text => rfl
      | message m =>
        obtain ⟨kind, payload⟩ := m
        cases kind with
        | programStart => cases first
        | _ => rfl
    rw [List.countP_cons_of_neg (by rw [other]; exact Bool.false_ne_true)]
    exact countP_heard rest

theorem countP_stream {stage : Stage} {program : List Emission} (h : ProgramStream stage program) :
    program.countP startsProgram ≤ 1 := by
  cases h with
  | unstarted => exact Nat.zero_le _
  | running name entry heard =>
    refine Nat.le_of_eq ?_
    rw [List.countP_cons_of_pos rfl, countP_heard heard]
  | ended name entry heard status closed =>
    refine Nat.le_of_eq ?_
    rw [List.cons_append, List.countP_cons_of_pos rfl, List.countP_append, countP_heard heard]
    rfl

theorem countP_announcements (c : Config) (deeds : List Deed) :
    (announcements c deeds).countP startsProgram = 0 := by
  refine List.countP_eq_zero.2 fun e he => ?_
  obtain ⟨d, _, he⟩ := List.mem_flatMap.1 he
  unfold Deed.announcement at he
  split at he <;> simp only [List.append_nil, List.mem_append, List.mem_cons, List.not_mem_nil,
    or_false] at he
  · obtain rfl | rfl := he <;> exact Bool.false_ne_true
  · obtain (rfl | rfl) | rfl := he <;> exact Bool.false_ne_true

/-! ### Stages in order -/

/-- Whatever a session is asked, in any order: when it enters a stage, it has entered all the stages
before it and no others, each with success, and once one fails it enters no other; it stays in the
stage that it entered last.  What was entered stays entered, whatever is asked later.  Only the stage
that the settings choose runs the program.  A source can be loaded as long as no stage was entered, and
the program is started at most once. -/
theorem stages_in_order (c : Config) (files : FileSystem) (bridge : Native.Bridge) (fuel : Nat)
    (rs later : List Request) :
    let h := (History.ofConfig c files bridge fuel).askAll rs
    let s := h.session
    h.deeds.map Deed.stage = stagesTo c.execute s.stage ∧
    (∀ before d after, h.deeds = before ++ d :: after →
      before.map Deed.stage ++ [d.stage] = stagesTo c.execute d.stage ∧
      (∀ e ∈ before, e.succeeded = true) ∧ (d.succeeded = false → after = [])) ∧
    (h.deeds <+: (h.askAll later).deeds ∧ s.stage.rank ≤ (h.askAll later).session.stage.rank) ∧
    (∀ d ∈ h.deeds, d.stage.isTerminal = true →
      d.stage = if c.execute then .execute else .interpret) ∧
    (∀ source, s.answer (.load source) =
      if h.deeds = [] then (.ok .done, { s with source := some source })
      else (.error (.wrongStage "load a source" s.stage), s)) ∧
    s.sent.toList.countP startsProgram ≤ 1 := by
  intro h s
  have told : Tells c h.deeds s := askAll_tells c files bridge fuel rs
  have order := told.order
  refine ⟨order.stages, fun before d after hdeeds => ?_, ⟨askAll_deeds later h, ?_⟩,
    fun d hd terminal => ?_, fun source => ?_, ?_⟩
  · have halts := order.halts
    rw [hdeeds] at halts
    have stages := order.stages
    rw [hdeeds, List.map_append, List.map_cons] at stages
    exact ⟨stagesTo_of_append stages, halts.split⟩
  · have order' : InOrder c (h.askAll later).deeds (h.askAll later).session :=
      inOrder_kept.askAll later order
    have length := (askAll_deeds later h).length_le
    rw [← List.length_map Deed.stage, ← List.length_map Deed.stage, order.stages, order'.stages,
      length_stagesTo, length_stagesTo] at length
    exact length
  · have entered : d.stage ∈ stagesTo c.execute s.stage := by
      rw [← order.stages]
      exact List.mem_map_of_mem hd
    exact terminal_of_mem_stagesTo entered terminal
  · have fresh : h.deeds = [] ↔ s.stage = .init := by
      rw [← List.map_eq_nil_iff (f := Deed.stage), order.stages, ← List.length_eq_zero_iff,
        length_stagesTo]
      cases s.stage <;> decide
    change (s.load source).giving _ = _
    unfold Session.load
    by_cases early : s.stage = .init
    · rw [if_pos early, if_pos (fresh.2 early)]
      rfl
    · rw [if_neg early, if_neg (mt fresh.1 early)]
      rfl
  · obtain ⟨program, narrates, sent⟩ := told.program
    rw [sent, List.append_assoc, List.countP_append, countP_announcements, Nat.zero_add]
    exact countP_stream narrates.stream

end Session

end ScriptLang
