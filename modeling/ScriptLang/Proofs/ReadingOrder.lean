import ScriptLang.Proofs.SourceTiling
import ScriptLang.Proofs.TextSessions

/-!
# Reading from front to back

As long as no other source is entered, the tokens of a text come in their order, and the errors that are
found on the way to a token stand between the token before it and its own end (`drain_inOrder`).  What is
refused is a source that was asked for a token earlier: its error stands where the lexer has not been
since (`Lexer.mark`), so nothing that was reported before it stands behind it.
-/

namespace ScriptLang

theorem Frame.index_le_advance (f : Frame) (n : Nat) :
    f.location.index ≤ (f.advance n).location.index := by
  have after (cs : List Char) : ∀ l : Location, l.index ≤ (Frame.locationAfter l cs).index := by
    induction cs with
    | nil => exact fun l => Nat.le_refl _
    | cons c cs ih =>
      intro l
      have one : l.index ≤ (l.after c).index := by
        unfold Location.after
        split <;> exact Nat.le_add_right _ _
      exact Nat.le_trans one (ih (l.after c))
  exact after _ _

/-- Whether an error is that of a parser, for which another token was expected. -/
def LexError.isUnexpected : LexError → Bool
  | .unexpected .. => true
  | _ => false

/-- Tokens and the errors found on the way to each, none before the byte `low` or behind `stop`. -/
inductive InOrder (stop : Nat) : (low : Nat) → List (Token × List LexError) → Prop
  | done {low : Nat} (le : low ≤ stop) : InOrder stop low []
  | next {low : Nat} {t : Token} {es : List LexError} {rest : List (Token × List LexError)}
      (le : low ≤ t.location.index)
      (sorted : es.Pairwise fun e e' => e.location.index ≤ e'.location.index)
      (within : ∀ e ∈ es, low ≤ e.location.index ∧ e.location.index ≤ t.location.index)
      (own : ∀ e ∈ es, e.isUnexpected = false)
      (later : InOrder stop t.location.index rest) : InOrder stop low ((t, es) :: rest)

section

variable {bound low low' : Nat} {t : Token} {es : List LexError} {ts : List (Token × List LexError)}

theorem inOrder_cons : InOrder bound low ((t, es) :: ts) ↔ low ≤ t.location.index ∧
    es.Pairwise (fun e e' => e.location.index ≤ e'.location.index) ∧
    (∀ e ∈ es, low ≤ e.location.index ∧ e.location.index ≤ t.location.index) ∧
    (∀ e ∈ es, e.isUnexpected = false) ∧ InOrder bound t.location.index ts := by
  constructor
  · intro h
    cases h with
    | next le sorted within own later => exact ⟨le, sorted, within, own, later⟩
  · rintro ⟨le, sorted, within, own, later⟩
    exact .next le sorted within own later

theorem InOrder.le_stop (h : InOrder bound low ts) : low ≤ bound := by
  induction h with
  | done le => exact le
  | next le _ _ _ _ ih => exact Nat.le_trans le ih

theorem InOrder.of_le (h : InOrder bound low ts) (le : low' ≤ low) : InOrder bound low' ts := by
  cases h with
  | done le' => exact .done (Nat.le_trans le le')
  | next le' sorted within own later =>
    exact .next (Nat.le_trans le le') sorted
      (fun e mem => ⟨Nat.le_trans le (within e mem).1, (within e mem).2⟩) own later

end

namespace Lexer

variable {lx next last : Lexer} {new new' : List LexError}

/-! ### How far the text has been told -/

/-- No source is ever put on top of the one being read. -/
def Alone (lx : Lexer) : Prop := ∀ n, (lx.after n).below = []

theorem alone_of_closed (closed : lx.resolver = none) (below : lx.below = []) : lx.Alone := by
  intro n
  induction n generalizing lx with
  | zero => exact below
  | succ n ih =>
    refine ih (lx.turn_setup.2.trans closed) ?_
    cases lx.meets with
    | directive d under turned =>
      rw [turned, (turnPhase_same lx d.index d.phases).2.1, below]
    | request p through asked turned =>
      rw [turned, turnRequest, enterPending, asked]
      dsimp only
      rw [enter_shut { lx with pending := none } below (.inr closed)]
      exact below
    | exhausted f _ through idle empty stack turned =>
      rw [below] at stack
      cases stack
    | lexeme through idle root turned => rw [turned, scan_below, below]

/-- The byte before which nothing is to be reported any more: that of the request that waits for an
answer, or else that of the next lexeme. -/
def mark (lx : Lexer) : Nat :=
  match lx.pending with
  | some p => p.2.index
  | none => lx.top.location.index

/-- A lexer of the language whose request, if there is one, is the end of its directive. -/
structure Steady (lx : Lexer) : Prop where
  profile : lx.profile = .language
  phases : ∀ d, lx.directive = some d → d.phases <:+ [includeBlanks, includeArgument]
  behind : ∀ p, lx.pending = some p → p.2.index ≤ lx.top.location.index
  last : ∀ p d, lx.pending = some p → lx.directive = some d → d.phases = []

/-- A lexer that has gone on in its text with some errors. -/
structure Onward (lx next : Lexer) (new : List LexError) : Prop where
  steady : next.Steady
  errors : next.errors = lx.errors ++ new
  sorted : new.Pairwise fun e e' => e.location.index ≤ e'.location.index
  within : ∀ e ∈ new, lx.mark ≤ e.location.index ∧ e.location.index ≤ next.mark
  own : ∀ e ∈ new, e.isUnexpected = false
  mark_le : lx.mark ≤ next.mark

/-- The token that is made stands behind all that has been reported. -/
structure Makes (lx next : Lexer) (new : List LexError) (t : Token) : Prop where
  low : lx.mark ≤ t.location.index
  high : t.location.index ≤ next.mark
  errors : ∀ e ∈ new, e.location.index ≤ t.location.index

theorem Onward.trans (h : Onward lx next new) (h' : Onward next last new') :
    Onward lx last (new ++ new') where
  steady := h'.steady
  errors := by rw [h'.errors, h.errors, List.append_assoc]
  sorted := List.pairwise_append.2 ⟨h.sorted, h'.sorted, fun e mem e' mem' =>
    Nat.le_trans (h.within e mem).2 (h'.within e' mem').1⟩
  within e mem := by
    obtain mem | mem := List.mem_append.1 mem
    · exact ⟨(h.within e mem).1, Nat.le_trans (h.within e mem).2 h'.mark_le⟩
    · exact ⟨Nat.le_trans h.mark_le (h'.within e mem).1, (h'.within e mem).2⟩
  own e mem := by
    obtain mem | mem := List.mem_append.1 mem
    · exact h.own e mem
    · exact h'.own e mem
  mark_le := Nat.le_trans h.mark_le h'.mark_le

theorem Makes.behind {t : Token} (h : Onward lx next new) (h' : Makes next last new' t) :
    Makes lx last (new ++ new') t where
  low := Nat.le_trans h.mark_le h'.low
  high := h'.high
  errors e mem := by
    obtain mem | mem := List.mem_append.1 mem
    · exact Nat.le_trans (h.within e mem).2 h'.low
    · exact h'.errors e mem

/-- Nothing is reported. -/
theorem onward_of_mark_le (steady : next.Steady) (errors : next.errors = lx.errors)
    (mark_le : lx.mark ≤ next.mark) : Onward lx next [] where
  steady := steady
  errors := by rw [errors, List.append_nil]
  sorted := .nil
  within := fun _ mem => nomatch mem
  own := fun _ mem => nomatch mem
  mark_le := mark_le

/-- One error is reported. -/
theorem onward_of_error {e : LexError} (steady : next.Steady) (errors : next.errors = lx.errors ++ [e])
    (low : lx.mark ≤ e.location.index) (high : e.location.index ≤ next.mark)
    (own : e.isUnexpected = false) : Onward lx next [e] where
  steady := steady
  errors := errors
  sorted := List.pairwise_singleton _ _
  within := List.forall_mem_singleton.2 ⟨low, high⟩
  own := List.forall_mem_singleton.2 own
  mark_le := Nat.le_trans low high

theorem makes_of_no_error {t : Token} (low : lx.mark ≤ t.location.index)
    (high : t.location.index ≤ next.mark) : Makes lx next [] t :=
  ⟨low, high, fun _ mem => nomatch mem⟩

/-! ### Turns -/

/-- What a turn does when it stays in its source. -/
def GoesOn (lx : Lexer) (a : Turn) (next : Lexer) : Prop :=
  ∃ new, Onward lx next new ∧ ∀ t, a = .made t → Makes lx next new t

theorem mark_of_idle (idle : lx.pending = none) : lx.mark = lx.top.location.index := by
  rw [mark, idle]

theorem index_le_mark {width : Nat} (idle : next.pending = none)
    (top : next.top = lx.top.advance width) : lx.top.location.index ≤ next.mark := by
  rw [mark_of_idle idle, top]
  exact Frame.index_le_advance _ _

theorem Steady.idle {d : ActiveDirective} (h : lx.Steady) (under : lx.directive = some d)
    (more : d.phases ≠ []) : lx.pending = none :=
  Option.eq_none_iff_forall_ne_some.2 fun p asked => more (h.last p d asked under)

/-- A directive is through, and nothing was said. -/
theorem Steady.passed (h : lx.Steady) : GoesOn lx .passed { lx with directive := none } :=
  ⟨[], onward_of_mark_le ⟨h.profile, nofun, h.behind, fun _ _ _ under => nomatch under⟩ rfl
    (Nat.le_refl _), nofun⟩

/-- A step of a directive with some phases left, none of which has asked for a source. -/
theorem Steady.advanced (h : lx.Steady) (idle : lx.pending = none) (width : Nat)
    {d : Option ActiveDirective}
    (phases : ∀ d', d = some d' → d'.phases <:+ [includeBlanks, includeArgument]) (es : List LexError) :
    Steady { lx with top := lx.top.advance width, directive := d, errors := es } :=
  ⟨h.profile, phases, fun _ asked => (nomatch idle.symm.trans asked),
    fun _ _ asked => (nomatch idle.symm.trans asked)⟩

theorem Steady.argument (h : lx.Steady) (index : Nat) (idle : lx.pending = none) :
    GoesOn lx (lx.turnPhase index [includeArgument]).1 (lx.turnPhase index [includeArgument]).2 := by
  have start : lx.mark = lx.top.location.index := mark_of_idle idle
  have none_left : ([] : List DirectivePhase) <:+ [includeBlanks, includeArgument] := List.nil_suffix
  obtain ⟨width, name, found⟩ | ⟨width, message, found⟩ := includeArgument_cases lx.top.rest
  · rw [turnPhase, found]
    refine ⟨[], onward_of_mark_le ⟨h.profile, ?_, ?_, ?_⟩ rfl (Nat.le_of_eq start), ?_⟩
    · rintro d ⟨⟩
      exact none_left
    · rintro p ⟨⟩
      exact Frame.index_le_advance _ _
    · rintro p d - ⟨⟩
      rfl
    · rintro t ⟨⟩
      exact makes_of_no_error (Nat.le_of_eq start) (Nat.le_refl _)
  · rw [turnPhase, found]
    refine ⟨_, onward_of_error (h.advanced idle width ?_ _) rfl (Nat.le_of_eq start)
      (index_le_mark idle rfl) rfl, fun _ made => by cases made⟩
    intro d under
    split at under
    · cases under
    · obtain rfl := Option.some.inj under
      exact none_left

theorem Steady.blanks (h : lx.Steady) (index : Nat) (idle : lx.pending = none) :
    GoesOn lx (lx.turnPhase index [includeBlanks, includeArgument]).1
      (lx.turnPhase index [includeBlanks, includeArgument]).2 := by
  have start : lx.mark = lx.top.location.index := mark_of_idle idle
  have one_left (d : ActiveDirective) (under : some ⟨index, [includeArgument]⟩ = some d) :
      d.phases <:+ [includeBlanks, includeArgument] := by
    obtain rfl := Option.some.inj under
    exact List.suffix_cons _ _
  obtain found | ⟨width, found⟩ := includeBlanks_cases lx.top.rest
  · rw [turnPhase, found]
    refine ⟨[], onward_of_mark_le ⟨h.profile, one_left, h.behind, ?_⟩ rfl (Nat.le_refl _),
      fun _ made => by cases made⟩
    intro p d asked
    cases idle.symm.trans asked
  · rw [turnPhase, found]
    dsimp only
    split
    · exact h.passed
    · refine ⟨[], onward_of_mark_le (h.advanced idle width one_left _) rfl
        (Nat.le_trans (Nat.le_of_eq start) (index_le_mark idle rfl)), ?_⟩
      rintro t ⟨⟩
      exact makes_of_no_error (Nat.le_of_eq start) (index_le_mark idle rfl)

/-- A refused request is reported where it was made. -/
theorem errors_enter {name : String} {l : Location} (refused : (lx.enter name l).below = lx.below) :
    ∃ e : LexError, e.location = l ∧ e.isUnexpected = false ∧
      (lx.enter name l).errors = lx.errors ++ [e] := by
  have pushed (f : Frame) : f :: lx.below ≠ lx.below := fun same =>
    absurd (congrArg List.length same) (by rw [List.length_cons]; omega)
  unfold enter at refused ⊢
  split at refused
  · next full =>
    rw [if_pos full]
    exact ⟨_, rfl, rfl, rfl⟩
  · next room =>
    rw [if_neg room]
    dsimp only at refused ⊢
    split at refused
    · exact ⟨_, rfl, rfl, rfl⟩
    · next s found =>
      split at refused
      · next reading =>
        rw [if_pos reading]
        exact ⟨_, rfl, rfl, rfl⟩
      · exact absurd refused (pushed _)

theorem Steady.request (h : lx.Steady) {p : String × Location} (through : lx.directive = none)
    (asked : lx.pending = some p) (alone : lx.below = []) (alone' : lx.turnRequest.2.below = []) :
    GoesOn lx lx.turnRequest.1 lx.turnRequest.2 := by
  have top : lx.enterPending.top = lx.top := by
    obtain ⟨same, -⟩ | ⟨pushed, -⟩ := lx.enterPending_stack
    · exact same
    · exact nomatch pushed.symm.trans alone'
  have entered : lx.enterPending = enter { lx with pending := none } p.1 p.2 := by
    rw [enterPending, asked]
  have idle := enterPending_idle through asked
  obtain ⟨e, place, own, errors⟩ : ∃ e : LexError, e.location = p.2 ∧ e.isUnexpected = false ∧
      lx.enterPending.errors = lx.errors ++ [e] := by
    rw [entered]
    exact errors_enter (by rw [← entered]; exact alone'.trans alone.symm)
  have steady : lx.enterPending.Steady := by
    refine ⟨?_, ?_, ?_, ?_⟩
    · rw [entered]
      exact (enter_setup { lx with pending := none } p.1 p.2).1.trans h.profile
    · intro d under
      cases idle.1.symm.trans under
    · intro q asked
      cases idle.2.symm.trans asked
    · intro q d asked
      cases idle.2.symm.trans asked
  have start : lx.mark = e.location.index := by rw [mark, asked, place]
  have high : e.location.index ≤ lx.enterPending.mark := by
    rw [place, mark_of_idle idle.2, top]
    exact h.behind p asked
  refine ⟨[e], onward_of_error steady errors (Nat.le_of_eq start) high own, fun t made => ?_⟩
  rw [turnRequest] at made
  dsimp only at made
  split at made <;> cases made

theorem Steady.scan (h : lx.Steady) (through : lx.directive = none) (idle : lx.pending = none) :
    GoesOn lx (.made lx.scan.1) lx.scan.2 := by
  have start : lx.mark = lx.top.location.index := mark_of_idle idle
  cases rest : lx.top.rest with
  | nil =>
    rw [scan_of_end rest]
    refine ⟨[], onward_of_mark_le h rfl (Nat.le_refl _), ?_⟩
    rintro t ⟨⟩
    exact makes_of_no_error (Nat.le_of_eq start) (Nat.le_of_eq start.symm)
  | cons c cs =>
    rw [scan_of_lexeme rest]
    have known := @Lexeme.ordinary_scan lx.profile c cs
    generalize Lexeme.scan lx.profile c cs = l at known ⊢
    have steady : (lx.behind l).Steady := by
      refine h.advanced idle l.width (fun d under => ?_) _
      split at under
      · next begins =>
        obtain ⟨directive, mem, phases⟩ := known.2 begins
        rw [h.profile] at mem
        obtain rfl := Option.some.inj under
        obtain rfl := List.mem_singleton.1 mem
        exact phases ▸ List.suffix_refl _
      · exact nomatch through.symm.trans under
    have high : lx.top.location.index ≤ (lx.behind l).mark := index_le_mark idle rfl
    by_cases unknown : l.kind = .unknown
    · have wrong : lx.top.wrongWith l = [.invalidToken l.text lx.top.location l.width] := if_pos unknown
      refine ⟨_, onward_of_error steady (congrArg (lx.errors ++ ·) wrong) (Nat.le_of_eq start) high rfl,
        ?_⟩
      rintro t ⟨⟩
      exact ⟨Nat.le_of_eq start, high, List.forall_mem_singleton.2 (Nat.le_refl _)⟩
    · have right : lx.top.wrongWith l = [] := if_neg unknown
      refine ⟨[], onward_of_mark_le steady ?_ (Nat.le_trans (Nat.le_of_eq start) high), ?_⟩
      · exact (congrArg (lx.errors ++ ·) right).trans (List.append_nil _)
      · rintro t ⟨⟩
        exact makes_of_no_error (Nat.le_of_eq start) high

theorem Steady.turn (h : lx.Steady) (alone : lx.below = []) (alone' : lx.turn.2.below = []) :
    GoesOn lx lx.turn.1 lx.turn.2 := by
  cases lx.meets with
  | directive d under turned =>
    rw [turned]
    obtain ⟨index, phases⟩ := d
    have within := h.phases _ under
    simp only [List.suffix_cons_iff, List.suffix_nil] at within
    obtain rfl | rfl | rfl := within
    · exact h.blanks index (h.idle under (List.cons_ne_nil _ _))
    · exact h.argument index (h.idle under (List.cons_ne_nil _ _))
    · exact h.passed
  | request p through asked turned =>
    rw [turned] at alone' ⊢
    exact h.request through asked alone alone'
  | exhausted f below through idle empty stack turned => exact nomatch alone.symm.trans stack
  | lexeme through idle root turned =>
    rw [turned]
    exact h.scan through idle

/-! ### To the end of the text -/

/-- What comes to the next token. -/
theorem Steady.nextRaw (h : lx.Steady) (alone : lx.Alone) : lx.nextRaw.2.Alone ∧
    ∃ new, Onward lx lx.nextRaw.2 new ∧ Makes lx lx.nextRaw.2 new lx.nextRaw.1 := by
  induction bound : lx.silence using Nat.strong_induction_on generalizing lx with
  | _ k ih =>
    subst bound
    have alone' : lx.turn.2.Alone := fun n => alone (n + 1)
    obtain ⟨new, onward, makes⟩ := h.turn (alone 0) (alone 1)
    have token := lx.nextRaw_eq_turn
    cases first : lx.turn.1 with
    | made t =>
      rw [first, Turn.token?] at token
      rw [token]
      exact ⟨alone', new, onward, makes t first⟩
    | faulted _ _ _ | entered _ | left | passed =>
      have silent : lx.turn.1.token? = none := by rw [first]; rfl
      rw [silent] at token
      rw [token]
      obtain ⟨alone'', new', onward', makes'⟩ := ih _ (turn_silence silent) onward.steady alone' rfl
      exact ⟨alone'', new ++ new', onward.trans onward', makes'.behind onward⟩

theorem Alone.forget (alone : lx.Alone) : Alone { lx with errors := [] } := fun n => by
  have noted : lx = noting lx.errors { lx with errors := [] } := by rw [noting, List.append_nil]
  have stack := alone n
  rw [noted, after_noting] at stack
  exact stack

/-- The byte of the last token. -/
def stop (ts : List (Token × List LexError)) : Nat :=
  ((ts.getLast?.map Prod.fst).getD default).location.index

theorem stop_cons {ts : List (Token × List LexError)} (some : ts ≠ []) (p : Token × List LexError) :
    stop (p :: ts) = stop ts := by
  rw [stop, List.getLast?_cons_of_ne_nil some, stop]

/-- The errors that are kept for the next token. -/
structure Carries (lx : Lexer) (low : Nat) : Prop where
  le : low ≤ lx.mark
  sorted : lx.errors.Pairwise fun e e' => e.location.index ≤ e'.location.index
  within : ∀ e ∈ lx.errors, low ≤ e.location.index ∧ e.location.index ≤ lx.mark
  own : ∀ e ∈ lx.errors, e.isUnexpected = false

theorem Carries.onward {low : Nat} (h : lx.Carries low) (onward : Onward lx next new) :
    next.Carries low where
  le := Nat.le_trans h.le onward.mark_le
  sorted := by
    rw [onward.errors, List.pairwise_append]
    exact ⟨h.sorted, onward.sorted, fun e mem e' mem' =>
      Nat.le_trans (h.within e mem).2 (onward.within e' mem').1⟩
  within e mem := by
    rw [onward.errors, List.mem_append] at mem
    obtain mem | mem := mem
    · exact ⟨(h.within e mem).1, Nat.le_trans (h.within e mem).2 onward.mark_le⟩
    · exact ⟨Nat.le_trans h.le (onward.within e mem).1, (onward.within e mem).2⟩
  own e mem := by
    rw [onward.errors, List.mem_append] at mem
    exact mem.elim (h.own e) (onward.own e)

/-- The next token with all errors before it. -/
theorem Carries.inOrder {low bound : Nat} {t : Token} {rest : List (Token × List LexError)}
    (h : lx.Carries low) (onward : Onward lx next new) (makes : Makes lx next new t)
    (later : InOrder bound t.location.index rest) : InOrder bound low ((t, next.errors) :: rest) := by
  have carries := h.onward onward
  refine .next (Nat.le_trans h.le makes.low) carries.sorted (fun e mem => ?_) carries.own later
  refine ⟨(carries.within e mem).1, ?_⟩
  rw [onward.errors, List.mem_append] at mem
  obtain mem | mem := mem
  · exact Nat.le_trans (h.within e mem).2 makes.low
  · exact makes.errors e mem

theorem Steady.drain_inOrder (h : lx.Steady) (alone : lx.Alone) {low : Nat} (carries : lx.Carries low) :
    InOrder (stop lx.drain.1) low lx.drain.1 := by
  induction lx using drain.induct generalizing low with
  | case1 lx t next raw ended =>
    obtain ⟨-, new, onward, makes⟩ := h.nextRaw alone
    rw [raw] at onward makes
    rw [drain_of_end raw ended]
    exact carries.inOrder onward makes (.done (Nat.le_refl _))
  | case2 lx t next raw more kept tokens final drained ih =>
    obtain ⟨alone', new, onward, makes⟩ := h.nextRaw alone
    rw [raw] at alone' onward makes
    have steady := onward.steady
    rw [drain_of_kept raw more kept, stop_cons (Syntax.drain_ne_nil _)]
    refine carries.inOrder onward makes ?_
    exact ih ⟨steady.profile, steady.phases, steady.behind, steady.last⟩ alone'.forget
      ⟨makes.high, .nil, List.forall_mem_nil _, List.forall_mem_nil _⟩
  | case3 lx t next raw more skipped ih =>
    obtain ⟨alone', new, onward, -⟩ := h.nextRaw alone
    rw [raw] at alone' onward
    rw [drain_of_skipped raw more skipped]
    exact ih onward.steady alone' (carries.onward onward)

theorem steady_ofText (name text : String) (r : Option Resolver) (options : LexerOptions) :
    Steady { ofText .language name text with resolver := r, options } :=
  ⟨rfl, fun _ under => (nomatch under), fun _ asked => (nomatch asked), fun _ _ asked => nomatch asked⟩

/-- All that is read of a text is read in its order, if no other source is entered. -/
theorem drain_inOrder {r : Option Resolver} {options : LexerOptions} {s : SourceText}
    (alone : (toRead r options s).Alone) :
    InOrder (stop (toRead r options s).drain.1) 0 (toRead r options s).drain.1 :=
  (steady_ofText s.name s.text r options).drain_inOrder alone
    ⟨Nat.zero_le _, .nil, fun _ mem => (nomatch mem), fun _ mem => nomatch mem⟩

end Lexer

end ScriptLang
