import ScriptLang.Lexer.State

/-!
# Reading makes progress

Every source on the stack carries a pair of counts: the characters it has left and the directive
work that is pending in it.  A step that makes a token lowers the pair of some source and may only
change the sources above that one (`nextRaw_lowers`).  As the stack never grows beyond the limit,
this order on lexers is well founded, and `Lexer.rank_nextRaw_lt` says that each step goes down.
-/

namespace ScriptLang

/-! ### Finite sequences of pairs, ordered from the first difference -/

/-- `n` pairs of counts. -/
def Rank : Nat → Type
  | 0 => Unit
  | n + 1 => (Nat × Nat) × Rank n

namespace Rank

/-- The order that the first difference decides. -/
@[reducible] def order : (n : Nat) → WellFoundedRelation (Rank n)
  | 0 => ⟨fun _ _ => False, ⟨fun _ => ⟨_, fun _ h => h.elim⟩⟩⟩
  | n + 1 => @Prod.instWellFoundedRelation (Nat × Nat) (Rank n) inferInstance (order n)

instance (n : Nat) : WellFoundedRelation (Rank n) := order n

/-- The first `n` pairs of a list, filled up with zeros. -/
def ofList : (n : Nat) → List (Nat × Nat) → Rank n
  | 0, _ => ()
  | n + 1, [] => ((0, 0), ofList n [])
  | n + 1, p :: ps => (p, ofList n ps)

theorem ofList_lt {n : Nat} {common xs ys : List (Nat × Nat)} {p q : Nat × Nat}
    (hn : common.length < n) (h : Prod.Lex (· < ·) (· < ·) p q) :
    (order n).rel (ofList n (common ++ p :: xs)) (ofList n (common ++ q :: ys)) := by
  induction common generalizing n with
  | nil =>
    obtain ⟨m, rfl⟩ : ∃ m, n = m + 1 := ⟨n - 1, by simp at hn; omega⟩
    exact Prod.Lex.left _ _ h
  | cons c common ih =>
    obtain ⟨m, rfl⟩ : ∃ m, n = m + 1 := ⟨n - 1, by simp at hn; omega⟩
    exact Prod.Lex.right _ (ih (by simp at hn; omega))

end Rank

/-- Whether, from the bottom of two stacks up, the first difference is a lower pair in `xs`.  The top
of a stack comes first. -/
def Lowers (xs ys : List (Nat × Nat)) : Prop :=
  ∃ above above' p q common, xs = above ++ p :: common ∧ ys = above' ++ q :: common ∧
    Prod.Lex (· < ·) (· < ·) p q

namespace Lexer

/-! ### Counts of the stack -/

/-- Directive work pending in the top source. -/
def work (lx : Lexer) : Nat :=
  2 * (lx.directive.elim 0 fun d => d.phases.length) + (if lx.pending.isSome then 1 else 0)

def waitingCounts (fs : List Frame) : List (Nat × Nat) := fs.map fun f => (f.rest.length, 0)

/-- The counts of all sources, the top first. -/
def counts (lx : Lexer) : List (Nat × Nat) := (lx.top.rest.length, lx.work) :: waitingCounts lx.below

/-- The greatest depth that can still be reached. -/
def reach (lx : Lexer) : Nat := max lx.depth (lx.options.maxIncludeDepth + 1)

/-- A measure that every step lowers. -/
def rank (lx : Lexer) : PSigma Rank :=
  ⟨lx.reach, Rank.ofList lx.reach lx.counts.reverse⟩

/-- The order of the measure. -/
def RankLt (a b : PSigma Rank) : Prop := PSigma.Lex (· < ·) (fun n => (Rank.order n).rel) a b

instance rankOrder : WellFoundedRelation (PSigma Rank) :=
  PSigma.lex Nat.lt_wfRel Rank.order

theorem rank_lt_of_lowers {a b : Lexer} (hreach : a.reach ≤ b.reach)
    (h : Lowers a.counts b.counts) : RankLt a.rank b.rank := by
  unfold RankLt rank
  rcases Nat.lt_or_eq_of_le hreach with hlt | heq
  · exact PSigma.Lex.left _ _ hlt
  · rw [heq]
    refine PSigma.Lex.right _ ?_
    obtain ⟨above, above', p, q, common, ha, hb, hpq⟩ := h
    have hlen : common.length + 1 ≤ a.depth := by
      have := congrArg List.length ha
      simp [counts, waitingCounts, depth] at this ⊢
      omega
    have hn : common.reverse.length < b.reach := by
      have : a.depth ≤ a.reach := Nat.le_max_left ..
      simp
      omega
    have hshape (above : List (Nat × Nat)) (p : Nat × Nat) :
        (above ++ p :: common).reverse = common.reverse ++ p :: above.reverse := by simp
    rw [ha, hb, hshape, hshape]
    exact Rank.ofList_lt hn hpq

/-! ### What each part of a step keeps -/

attribute [local simp] runPhases

theorem runPhases_options (index : Nat) (phases : List DirectivePhase) (lx : Lexer) :
    (runPhases index phases lx).2.options = lx.options := by
  induction phases generalizing lx with
  | nil => rfl
  | cons phase phases ih =>
    rw [runPhases]
    split
    · exact ih lx
    · rfl
    · split <;> rfl
    · rfl
    · split
      · rfl
      · exact ih _

theorem runPhases_below (index : Nat) (phases : List DirectivePhase) (lx : Lexer) :
    (runPhases index phases lx).2.below = lx.below := by
  induction phases generalizing lx with
  | nil => rfl
  | cons phase phases ih =>
    rw [runPhases]
    split
    · exact ih lx
    · rfl
    · split <;> rfl
    · rfl
    · split
      · rfl
      · exact ih _

theorem runPhases_rest_le (index : Nat) (phases : List DirectivePhase) (lx : Lexer) :
    (runPhases index phases lx).2.top.rest.length ≤ lx.top.rest.length := by
  induction phases generalizing lx with
  | nil => exact Nat.le_refl _
  | cons phase phases ih =>
    rw [runPhases]
    split
    · exact ih lx
    · exact Nat.le_refl _
    · next width _ =>
      split
      · exact Nat.le_refl _
      · exact lx.top.advance_rest_length_le width
    · next width _ _ => exact lx.top.advance_rest_length_le width
    · next width _ _ =>
      split
      · exact lx.top.advance_rest_length_le width
      · exact Nat.le_trans (ih _) (lx.top.advance_rest_length_le width)

/-- Phases that make no token leave no directive, and the request as it was. -/
theorem runPhases_none (index : Nat) (phases : List DirectivePhase) (lx : Lexer)
    (h : (runPhases index phases lx).1 = none) :
    (runPhases index phases lx).2.directive = none ∧
      (runPhases index phases lx).2.pending = lx.pending := by
  induction phases generalizing lx with
  | nil => exact ⟨rfl, rfl⟩
  | cons phase phases ih =>
    rw [runPhases] at h ⊢
    split at h
    · exact ih lx h
    · exact ⟨rfl, rfl⟩
    · split at h
      · next hw =>
        rw [if_pos hw]
        exact ⟨rfl, rfl⟩
      · simp at h
    · simp at h
    · split at h
      · next hw =>
        rw [if_pos hw]
        exact ⟨rfl, rfl⟩
      · next hw =>
        rw [if_neg hw]
        exact ih _ h

/-- Phases that make a token leave less work. -/
theorem runPhases_work_lt (index : Nat) (phases : List DirectivePhase) (lx : Lexer)
    (h : (runPhases index phases lx).1 ≠ none) :
    (runPhases index phases lx).2.work <
      2 * phases.length + (if lx.pending.isSome then 1 else 0) := by
  induction phases generalizing lx with
  | nil => exact absurd rfl h
  | cons phase phases ih =>
    rw [runPhases] at h ⊢
    split at h
    · have := ih lx h
      simp only [List.length_cons]
      omega
    · exact absurd rfl h
    · split at h
      · exact absurd rfl h
      · next hw =>
        simp only [hw, if_false, work, Option.elim, List.length_cons]
        omega
    · simp only [work, Option.elim, List.length_cons, Option.isSome, if_true]
      omega
    · split at h
      · exact absurd rfl h
      · next hw =>
        have hih := ih _ h
        change _ < 2 * phases.length + (if lx.pending.isSome then 1 else 0) at hih
        rw [if_neg hw, List.length_cons]
        omega

theorem runDirective_options (lx : Lexer) : lx.runDirective.2.options = lx.options := by
  unfold runDirective
  split
  · rfl
  · exact runPhases_options ..

theorem runDirective_below (lx : Lexer) : lx.runDirective.2.below = lx.below := by
  unfold runDirective
  split
  · rfl
  · exact runPhases_below ..

theorem runDirective_rest_le (lx : Lexer) :
    lx.runDirective.2.top.rest.length ≤ lx.top.rest.length := by
  unfold runDirective
  split
  · exact Nat.le_refl _
  · exact runPhases_rest_le ..

theorem runDirective_pending {lx : Lexer} (h : lx.runDirective.1 = none) :
    lx.runDirective.2.pending = lx.pending := by
  unfold runDirective at h ⊢
  split at h
  · rfl
  · exact (runPhases_none _ _ _ h).2

/-- A token made by a directive leaves less work in the top source. -/
theorem runDirective_work_lt {lx : Lexer} (h : lx.runDirective.1 ≠ none) :
    lx.runDirective.2.work < lx.work := by
  unfold runDirective at h ⊢
  split at h
  · exact absurd rfl h
  · next d hd =>
    have := runPhases_work_lt d.index d.phases lx h
    simpa [work, hd] using this

theorem enter_options (lx : Lexer) (name : String) (l : Location) :
    (lx.enter name l).options = lx.options := by
  unfold enter
  simp only
  split
  · rfl
  · split
    · rfl
    · split <;> rfl

/-- Entering a source either leaves the stack as it is or, below the limit, puts one on top. -/
theorem enter_stack (lx : Lexer) (name : String) (l : Location) :
    ((lx.enter name l).top = lx.top ∧ (lx.enter name l).below = lx.below) ∨
      ((lx.enter name l).below = lx.top :: lx.below ∧
        lx.below.length < lx.options.maxIncludeDepth) := by
  unfold enter
  simp only
  split
  · exact .inl ⟨rfl, rfl⟩
  · next hd =>
    split
    · exact .inl ⟨rfl, rfl⟩
    · split
      · exact .inl ⟨rfl, rfl⟩
      · exact .inr ⟨rfl, by omega⟩

theorem enterPending_options (lx : Lexer) : lx.enterPending.options = lx.options := by
  unfold enterPending
  split
  · rfl
  · exact enter_options ..

theorem enterPending_stack (lx : Lexer) :
    (lx.enterPending.top = lx.top ∧ lx.enterPending.below = lx.below) ∨
      (lx.enterPending.below = lx.top :: lx.below ∧ lx.pending.isSome ∧
        lx.below.length < lx.options.maxIncludeDepth) := by
  unfold enterPending
  split
  · exact .inl ⟨rfl, rfl⟩
  · next name l hp =>
    rcases enter_stack { lx with pending := none } name l with h | h
    · exact .inl h
    · exact .inr ⟨h.1, by simp [hp], h.2⟩

/-- Leaving sources keeps the lower part of the stack. -/
theorem leaveExhausted_suffix (top : Frame) (below : List Frame) :
    ∃ left, top :: below =
      left ++ (leaveExhausted top below).1 :: (leaveExhausted top below).2 := by
  induction below generalizing top with
  | nil => exact ⟨[], rfl⟩
  | cons f fs ih =>
    unfold leaveExhausted
    split
    · obtain ⟨left, h⟩ := ih f
      exact ⟨top :: left, by rw [h]; rfl⟩
    · exact ⟨[], rfl⟩

theorem scan_options (lx : Lexer) : lx.scan.2.options = lx.options := by
  unfold scan
  split
  · rfl
  · simp only
    split <;> split <;> rfl

theorem scan_below (lx : Lexer) : lx.scan.2.below = lx.below := by
  unfold scan
  split
  · rfl
  · simp only
    split <;> split <;> rfl

/-- A lexeme takes characters from the top source. -/
theorem scan_rest_lt {lx : Lexer} (h : lx.scan.1.kind ≠ .endOfFile) :
    lx.scan.2.top.rest.length < lx.top.rest.length := by
  have key (c : Char) (cs : List Char) (hrest : lx.top.rest = c :: cs) :
      (lx.top.advance (Lexeme.scan lx.profile c cs).width).rest.length <
        lx.top.rest.length :=
    Frame.advance_rest_length_lt (Lexeme.scan_width_pos _ c cs) (by simp [hrest])
  unfold scan at h ⊢
  split at h
  · exact absurd rfl h
  · next c cs hrest =>
    have hlt := key c cs hrest
    simp only
    split <;> split <;> exact hlt

/-- A token taken from the sources comes from one of them; those below stay, those above are left. -/
theorem scanSources_stack {lx : Lexer} (h : lx.scanSources.1.kind ≠ .endOfFile) :
    ∃ left t b, lx.top :: lx.below = left ++ t :: b ∧ lx.scanSources.2.below = b ∧
      lx.scanSources.2.top.rest.length < t.rest.length := by
  obtain ⟨left, hleft⟩ := leaveExhausted_suffix lx.top lx.below
  exact ⟨left, _, _, hleft, scan_below _, scan_rest_lt h⟩

theorem scanSources_options (lx : Lexer) : lx.scanSources.2.options = lx.options :=
  scan_options _

/-! ### The whole step -/

theorem nextRaw_options (lx : Lexer) : lx.nextRaw.2.options = lx.options := by
  have hd := runDirective_options lx
  unfold nextRaw
  split
  · next h => simpa [h] using hd
  · next h =>
    rw [scanSources_options, enterPending_options]
    simpa [h] using hd

/-- A step that does not end the text lowers the counts of some source. -/
theorem nextRaw_lowers {lx : Lexer} (h : lx.nextRaw.1.kind ≠ .endOfFile) :
    Lowers lx.nextRaw.2.counts lx.counts := by
  have hbelow := runDirective_below lx
  have hrest := runDirective_rest_le lx
  have hpending := @runDirective_pending lx
  have hwork := @runDirective_work_lt lx
  unfold nextRaw at h ⊢
  split at h
  · next t lx₁ hd =>
    simp only [hd] at hbelow hrest hwork ⊢
    refine ⟨[], [], (lx₁.top.rest.length, lx₁.work), _, waitingCounts lx.below, ?_, rfl, ?_⟩
    · simp [counts, hbelow]
    · rcases Nat.lt_or_eq_of_le hrest with hlt | heq
      · exact Prod.Lex.left _ _ hlt
      · rw [heq]
        exact Prod.Lex.right _ (hwork (by simp))
  · next lx₁ hd =>
    simp only [hd] at hbelow hrest hpending ⊢
    obtain ⟨left, t, b, hstack, hb, ht⟩ := scanSources_stack h
    generalize lx₁.enterPending.scanSources.2 = last at hb ht ⊢
    -- a source of the old stack, or the old top itself, has lost characters
    have fromOld (fs : List Frame) (hfs : lx₁.top :: lx.below = fs ++ t :: b) :
        Lowers last.counts lx.counts := by
      cases fs with
      | nil =>
        obtain ⟨rfl, rfl⟩ : t = lx₁.top ∧ b = lx.below := by simpa [eq_comm] using hfs
        refine ⟨[], [], (last.top.rest.length, last.work), _, waitingCounts lx.below, ?_, rfl,
          Prod.Lex.left _ _ ?_⟩
        · simp only [counts, hb, List.nil_append]
        · omega
      | cons f fs =>
        obtain ⟨rfl, hbelow'⟩ : f = lx₁.top ∧ lx.below = fs ++ t :: b := by
          simpa [eq_comm] using hfs
        refine ⟨[], lx.counts.head (by simp [counts]) :: waitingCounts fs,
          (last.top.rest.length, last.work), (t.rest.length, 0), waitingCounts b, ?_, ?_,
          Prod.Lex.left _ _ ht⟩
        · simp only [counts, hb, List.nil_append]
        · simp [counts, waitingCounts, hbelow']
    rcases enterPending_stack lx₁ with ⟨htop, hbel⟩ | ⟨hbel, hsome, _⟩
    · exact fromOld left (by rw [← hstack, htop, hbel, hbelow])
    · cases left with
      | nil =>
        obtain ⟨_, hb'⟩ : t = lx₁.enterPending.top ∧ b = lx₁.top :: lx.below := by
          simpa [eq_comm, hbel, hbelow] using hstack
        have hwork' : 0 < lx.work := by
          rw [hpending trivial] at hsome
          simp [work, hsome]
        refine ⟨[(last.top.rest.length, last.work)], [], (lx₁.top.rest.length, 0), _,
          waitingCounts lx.below, ?_, rfl, ?_⟩
        · simp [counts, hb, hb', waitingCounts]
        · rcases Nat.lt_or_eq_of_le hrest with hlt | heq
          · exact Prod.Lex.left _ _ hlt
          · rw [heq]
            exact Prod.Lex.right _ hwork'
      | cons f left =>
        exact fromOld left (by simpa [hbel, hbelow] using congrArg List.tail hstack)

/-- A step never takes the stack beyond the limit, unless it is there already. -/
theorem nextRaw_reach_le {lx : Lexer} (h : lx.nextRaw.1.kind ≠ .endOfFile) :
    lx.nextRaw.2.reach ≤ lx.reach := by
  have hoptions := nextRaw_options lx
  have hbelow := runDirective_below lx
  have hdopt := runDirective_options lx
  suffices hd : lx.nextRaw.2.depth ≤ lx.reach by
    simp only [reach, hoptions] at hd ⊢
    omega
  unfold nextRaw at h ⊢
  split at h
  · next t lx₁ hd =>
    simp only [hd] at hbelow ⊢
    simp only [reach, depth, hbelow]
    omega
  · next lx₁ hd =>
    simp only [hd] at hbelow hdopt ⊢
    obtain ⟨left, t, b, hstack, hb, _⟩ := scanSources_stack h
    have hlen := congrArg List.length hstack
    simp only [List.length_cons, List.length_append] at hlen
    rcases enterPending_stack lx₁ with ⟨_, hbel⟩ | ⟨hbel, _, hlim⟩
    · simp only [hbel, hbelow] at hlen
      simp only [reach, depth, hb]
      omega
    · simp only [hbel, hbelow, List.length_cons] at hlen
      simp only [hdopt, hbelow] at hlim
      simp only [reach, depth, hb]
      omega

/-- Every step that does not end the text lowers the measure. -/
theorem rank_nextRaw_lt {lx : Lexer} (h : lx.nextRaw.1.kind ≠ .endOfFile) :
    rankOrder.rel lx.nextRaw.2.rank lx.rank :=
  rank_lt_of_lowers (nextRaw_reach_le h) (nextRaw_lowers h)

end Lexer

end ScriptLang
