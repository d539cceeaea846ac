import ScriptLang.Proofs.IncludeExpansion

/-!
# Reading, turn by turn

`Lexer.nextRaw` makes a whole token.  A turn does less: one phase of a directive, one source entered
or left, or one lexeme (`Lexer.turn`), and a token is what the turns up to the first that makes one
come to (`nextRaw_eq_turn`).  No turn takes the sources beyond the limit or enters one that is being
read (`Lexer.Bounded.turn`), and after finitely many turns the root is at its end, whatever the
sources include (`reading_ends`).
-/

namespace ScriptLang

/-- What a turn of the lexer does. -/
inductive Turn where
  /-- A token is made. -/
  | made (t : Token)
  /-- Text of a directive is skipped with an error. -/
  | faulted (message : String) (place : Location) (width : Nat)
  /-- A source is put on top. -/
  | entered (s : SourceText)
  /-- The source on top is left at its end. -/
  | left
  /-- Nothing is read: a phase or a directive is through, or an include is refused. -/
  | passed

namespace Turn

def token? : Turn → Option Token
  | .made t => some t
  | _ => none

end Turn

namespace Lexer

/-- A turn inside a directive: its next phase looks at the text. -/
def turnPhase (lx : Lexer) (index : Nat) : List DirectivePhase → Turn × Lexer
  | [] => (.passed, { lx with directive := none })
  | phase :: phases =>
    let start := lx.top.location
    match phase lx.top.rest with
    | .pass => (.passed, { lx with directive := some ⟨index, phases⟩ })
    | .finish => (.passed, { lx with directive := none })
    | .produce kind width =>
      if width = 0 then (.passed, { lx with directive := none })
      else
        let (cs, top) := lx.top.read width
        (.made ⟨kind, 0, String.ofList cs, start, width, true⟩,
          { lx with top, directive := some ⟨index, phases⟩ })
    | .request width name =>
      (.made ⟨.directiveArg, index, name, start, width, true⟩,
        { lx with
          top := lx.top.advance width
          directive := some ⟨index, phases⟩
          pending := some (name, start) })
    | .reject width message =>
      (.faulted message start width,
        { ({ lx with top := lx.top.advance width }.fail (.directive message start width)) with
          directive := if width = 0 then none else some ⟨index, phases⟩ })

/-- A turn that meets a request: the source is put on top, unless the include is refused. -/
def turnRequest (lx : Lexer) : Turn × Lexer :=
  let next := lx.enterPending
  (if lx.below.length < next.below.length then .entered ⟨next.top.name, String.ofList next.top.rest⟩
    else .passed, next)

/-- One turn: a directive goes first, then a request, then the end of a source that is not the root;
otherwise a lexeme is read. -/
def turn (lx : Lexer) : Turn × Lexer :=
  match lx.directive with
  | some d => lx.turnPhase d.index d.phases
  | none =>
    if lx.pending.isSome then lx.turnRequest
    else
      match lx.top.rest, lx.below with
      | [], f :: below => (.left, { lx with top := f, below })
      | _, _ => (.made lx.scan.1, lx.scan.2)

/-- What the first `n` turns do. -/
def turns : Nat → Lexer → List Turn
  | 0, _ => []
  | n + 1, lx => lx.turn.1 :: turns n lx.turn.2

/-- The lexer after `n` turns. -/
def after : Nat → Lexer → Lexer
  | 0, lx => lx
  | n + 1, lx => after n lx.turn.2

variable {lx : Lexer}

attribute [local simp] turns after

/-! ### The kinds of turn -/

theorem turn_of_directive {d : ActiveDirective} (h : lx.directive = some d) :
    lx.turn = lx.turnPhase d.index d.phases := by
  rw [turn, h]

theorem turn_of_request (through : lx.directive = none) {p : String × Location}
    (h : lx.pending = some p) : lx.turn = lx.turnRequest := by
  rw [turn, through, h]
  rfl

theorem turn_of_exhausted (through : lx.directive = none) (idle : lx.pending = none) {f : Frame}
    {below : List Frame} (exhausted : lx.top.rest = []) (h : lx.below = f :: below) :
    lx.turn = (.left, { lx with top := f, below }) := by
  rw [turn, through, idle, exhausted, h]
  rfl

theorem turn_of_lexeme (through : lx.directive = none) (idle : lx.pending = none)
    (h : lx.top.rest = [] → lx.below = []) : lx.turn = (.made lx.scan.1, lx.scan.2) := by
  rw [turn, through, idle]
  dsimp only [Option.isSome]
  rw [if_neg nofun]
  split
  · next exhausted below => exact absurd ((h exhausted).symm.trans below) nofun
  · rfl

theorem scan_of_end (h : lx.top.rest = []) : lx.scan = (.endOfFile lx.top.location, lx) := by
  rw [scan, h]

/-- The lexer behind a lexeme. -/
def behind (lx : Lexer) (l : Lexeme) : Lexer :=
  { lx with
    top := lx.top.advance l.width
    directive := if l.kind = .directive then some ⟨l.code, l.phases⟩ else lx.directive
    errors := lx.errors ++ lx.top.wrongWith l }

theorem scan_of_lexeme {c : Char} {cs : List Char} (h : lx.top.rest = c :: cs) :
    lx.scan = (lx.top.tokenOf (Lexeme.scan lx.profile c cs),
      lx.behind (Lexeme.scan lx.profile c cs)) := by
  rw [scan, h]
  dsimp only
  generalize Lexeme.scan lx.profile c cs = l
  rw [behind, Frame.wrongWith]
  by_cases begins : l.kind = .directive
  · have known : l.kind ≠ .unknown := by rw [begins]; decide
    rw [if_pos begins, if_pos begins, if_neg known, if_neg known, List.append_nil]
    rfl
  · rw [if_neg begins, if_neg begins]
    split
    · rfl
    · rw [List.append_nil]
      rfl

/-- What a turn meets, and so what it is. -/
inductive Meets (lx : Lexer) : Prop where
  | directive (d : ActiveDirective) (under : lx.directive = some d)
      (turned : lx.turn = lx.turnPhase d.index d.phases)
  | request (p : String × Location) (through : lx.directive = none) (asked : lx.pending = some p)
      (turned : lx.turn = lx.turnRequest)
  | exhausted (f : Frame) (below : List Frame) (through : lx.directive = none)
      (idle : lx.pending = none) (empty : lx.top.rest = []) (stack : lx.below = f :: below)
      (turned : lx.turn = (.left, { lx with top := f, below }))
  | lexeme (through : lx.directive = none) (idle : lx.pending = none)
      (root : lx.top.rest = [] → lx.below = []) (turned : lx.turn = (.made lx.scan.1, lx.scan.2))

theorem meets (lx : Lexer) : lx.Meets := by
  obtain through | ⟨d, under⟩ := Option.eq_none_or_eq_some lx.directive
  · obtain idle | ⟨p, asked⟩ := Option.eq_none_or_eq_some lx.pending
    · by_cases exhausted : lx.top.rest = [] ∧ lx.below ≠ []
      · obtain ⟨f, below, stack⟩ := List.exists_cons_of_ne_nil exhausted.2
        exact .exhausted f below through idle exhausted.1 stack
          (turn_of_exhausted through idle exhausted.1 stack)
      · have root : lx.top.rest = [] → lx.below = [] := by
          intro rest
          by_contra stack
          exact exhausted ⟨rest, stack⟩
        exact .lexeme through idle root (turn_of_lexeme through idle root)
    · exact .request p through asked (turn_of_request through asked)
  · exact .directive d under (turn_of_directive under)

/-- A request that has been met is gone. -/
theorem enterPending_idle (through : lx.directive = none) {p : String × Location}
    (asked : lx.pending = some p) :
    lx.enterPending.directive = none ∧ lx.enterPending.pending = none := by
  rw [enterPending, asked]
  exact (enter_idle { lx with pending := none } p.1 p.2).imp (·.trans through) id

/-! ### A token is what some turns come to -/

/-- The phases overwrite the directive that they are phases of. -/
theorem runPhases_withDirective (index : Nat) (phases : List DirectivePhase) (lx : Lexer)
    (d : Option ActiveDirective) :
    runPhases index phases { lx with directive := d } = runPhases index phases lx := by
  induction phases generalizing lx with
  | nil => rfl
  | cons phase phases ih =>
    rw [runPhases, runPhases]
    cases phase lx.top.rest with
    | pass => exact ih lx
    | finish => rfl
    | produce kind width => rfl
    | request width name => rfl
    | reject width message =>
      dsimp only [fail]
      split
      · rfl
      · exact ih { lx with
          top := lx.top.advance width
          errors := lx.errors ++ [.directive message lx.top.location width] }

/-- The phases do the first turn, and go on unless that makes a token. -/
theorem runPhases_eq_turn (index : Nat) (phases : List DirectivePhase) (lx : Lexer) :
    runPhases index phases lx =
      match (lx.turnPhase index phases).1.token? with
      | some t => (some t, (lx.turnPhase index phases).2)
      | none => (lx.turnPhase index phases).2.runDirective := by
  cases phases with
  | nil => rfl
  | cons phase phases =>
    rw [runPhases, turnPhase]
    cases phase lx.top.rest with
    | pass => exact (runPhases_withDirective index phases lx _).symm
    | finish => rfl
    | produce kind width =>
      dsimp only
      split <;> rfl
    | request width name => rfl
    | reject width message =>
      by_cases narrow : width = 0
      · dsimp only
        rw [if_pos narrow, if_pos narrow]
        rfl
      · dsimp only
        rw [if_neg narrow, if_neg narrow]
        exact (runPhases_withDirective index phases _ _).symm

/-- A token is made by the first turn, or by those behind it. -/
theorem nextRaw_eq_turn (lx : Lexer) :
    lx.nextRaw =
      match lx.turn.1.token? with
      | some t => (t, lx.turn.2)
      | none => lx.turn.2.nextRaw := by
  cases lx.meets with
  | directive d under turned =>
    have first := runPhases_eq_turn d.index d.phases lx
    have phases : lx.runDirective = runPhases d.index d.phases lx := by rw [runDirective, under]
    rw [turned, nextRaw, phases, first]
    cases (lx.turnPhase d.index d.phases).1.token? with
    | some t => rfl
    | none => rfl
  | request p through asked turned =>
    have entered : lx.turn.2 = lx.enterPending := by rw [turned, turnRequest]
    have silent : lx.turn.1.token? = none := by
      rw [turned, turnRequest]
      dsimp only
      split <;> rfl
    have after := enterPending_idle through asked
    have idle : lx.runDirective = (none, lx) := by rw [runDirective, through]
    rw [silent, entered, nextRaw, idle]
    exact (nextRaw_of_idle after.1 after.2).symm
  | exhausted f below through idle empty stack turned =>
    rw [turned]
    have next : nextRaw { lx with top := f, below } = scanSources { lx with top := f, below } :=
      nextRaw_of_idle through idle
    have leaves : leaveExhausted lx.top lx.below = leaveExhausted f below := by
      rw [stack, leaveExhausted, empty]
      rfl
    rw [nextRaw_of_idle through idle, scanSources, leaves]
    exact next.symm
  | lexeme through idle root turned =>
    rw [turned, nextRaw_of_idle through idle]
    cases rest : lx.top.rest with
    | nil => exact scanSources_eq_scan (root rest)
    | cons c cs => exact scanSources_of_rest (by rw [rest]; exact List.cons_ne_nil c cs)

/-! ### Finitely many turns -/

/-- The turns that can follow before a token is made. -/
def silence (lx : Lexer) : Nat :=
  (lx.directive.elim 0 fun d => d.phases.length + 1) + (if lx.pending.isSome then 2 else 0)
    + lx.below.length

theorem turnPhase_silence (index : Nat) (phases : List DirectivePhase) (lx : Lexer)
    (silent : (lx.turnPhase index phases).1.token? = none) :
    (lx.turnPhase index phases).2.silence ≤
      phases.length + (if lx.pending.isSome then 2 else 0) + lx.below.length := by
  have through (lx' : Lexer) (h : lx'.directive = none) :
      lx'.silence = (if lx'.pending.isSome then 2 else 0) + lx'.below.length := by
    rw [silence, h, Option.elim, Nat.zero_add]
  cases phases with
  | nil =>
    rw [through _ rfl]
    exact Nat.le_of_eq (by rw [List.length_nil, Nat.zero_add]; rfl)
  | cons phase phases =>
    have ended : ({ lx with directive := none } : Lexer).silence ≤
        (phase :: phases).length + (if lx.pending.isSome then 2 else 0) + lx.below.length := by
      rw [through _ rfl]
      dsimp only
      omega
    rw [turnPhase] at silent ⊢
    cases found : phase lx.top.rest with
    | pass => exact Nat.le_refl _
    | finish => exact ended
    | produce kind width =>
      rw [found] at silent
      dsimp only at silent ⊢
      split
      · exact ended
      · next wide =>
        rw [if_neg wide] at silent
        cases silent
    | request width name =>
      rw [found] at silent
      cases silent
    | reject width message =>
      dsimp only [fail]
      split
      · exact ended
      · exact Nat.le_refl _

/-- A turn without a token leaves fewer such turns. -/
theorem turn_silence {lx : Lexer} (silent : lx.turn.1.token? = none) :
    lx.turn.2.silence < lx.silence := by
  cases lx.meets with
  | directive d under turned =>
    rw [turned] at silent ⊢
    have fewer := turnPhase_silence d.index d.phases lx silent
    have now : lx.silence = d.phases.length + 1 + (if lx.pending.isSome then 2 else 0)
        + lx.below.length := by
      rw [silence, under, Option.elim]
    omega
  | request p through asked turned =>
    have entered : lx.turn.2 = lx.enterPending := by rw [turned, turnRequest]
    have after := enterPending_idle through asked
    have height : lx.enterPending.below.length ≤ lx.below.length + 1 := by
      rcases lx.enterPending_stack with ⟨_, same⟩ | ⟨pushed, _⟩
      · rw [same]
        exact Nat.le_succ _
      · rw [pushed, List.length_cons]
    rw [entered, silence, silence, after.1, after.2, through, asked]
    dsimp only [Option.elim, Option.isSome]
    rw [if_neg nofun, if_pos rfl]
    omega
  | exhausted f below through idle empty stack turned =>
    rw [turned, silence, silence, stack, List.length_cons]
    dsimp only
    omega
  | lexeme through idle root turned =>
    rw [turned] at silent
    cases silent

/-- The tokens that the first `n` turns make. -/
def made (n : Nat) (lx : Lexer) : List Token := (turns n lx).filterMap Turn.token?

theorem made_succ (n : Nat) (lx : Lexer) :
    lx.made (n + 1) = lx.turn.1.token?.toList ++ lx.turn.2.made n := by
  rw [made, turns, List.filterMap_cons]
  cases lx.turn.1.token? <;> rfl

/-- Some turns without a token, and then the one that makes the next token. -/
theorem exists_turns_nextRaw (lx : Lexer) :
    ∃ n, lx.made n = [] ∧ (lx.after n).turn = (.made lx.nextRaw.1, lx.nextRaw.2) := by
  induction bound : lx.silence using Nat.strong_induction_on generalizing lx with
  | _ k ih =>
    subst bound
    have token := lx.nextRaw_eq_turn
    cases first : lx.turn.1 with
    | made t =>
      rw [first, Turn.token?] at token
      exact ⟨0, rfl, Prod.ext (first.trans (congrArg _ (congrArg Prod.fst token).symm))
        (congrArg Prod.snd token).symm⟩
    | faulted _ _ _ | entered _ | left | passed =>
      have silent : lx.turn.1.token? = none := by rw [first]; rfl
      obtain ⟨n, none, last⟩ := ih _ (turn_silence silent) lx.turn.2 rfl
      rw [silent] at token
      refine ⟨n + 1, ?_, ?_⟩
      · rw [made_succ, silent, none]
        rfl
      · rw [token]
        exact last

/-! ### What turns do not look at -/

/-- What a lexer may have besides: errors noted before its own, a resolver made of its own, other
tokens kept in advance, and other trivia to be given out. -/
structure Outfit where
  errors : List LexError := []
  resolver : Option Resolver → Option Resolver := id
  lookahead : List Token → List Token := id
  trivia : LexerOptions → LexerOptions := id

def outfitted (w : Outfit) (lx : Lexer) : Lexer :=
  { lx with
    errors := w.errors ++ lx.errors
    resolver := w.resolver lx.resolver
    lookahead := w.lookahead lx.lookahead
    options := { w.trivia lx.options with maxIncludeDepth := lx.options.maxIncludeDepth } }

section

variable {w : Outfit}

theorem fail_outfitted (w : Outfit) (lx : Lexer) (e : LexError) :
    (lx.outfitted w).fail e = (lx.fail e).outfitted w := by
  simp [fail, outfitted]

theorem enter_outfitted (lx : Lexer) {name : String} (place : Location)
    (same : lx.below.length < lx.options.maxIncludeDepth →
      (lx.outfitted w).search name = lx.search name) :
    (lx.outfitted w).enter name place = (lx.enter name place).outfitted w := by
  rw [enter, enter]
  change (if lx.options.maxIncludeDepth ≤ lx.below.length then _ else _) = _
  split
  · exact fail_outfitted w lx _
  · next room =>
    have remarked := fail_outfitted w { lx with remarks := lx.remarks ++ (lx.search name).remarks }
    rw [same (Nat.lt_of_not_le room)]
    dsimp only
    cases (lx.search name).source with
    | none => exact remarked _
    | some s =>
      dsimp only
      rw [apply_ite (outfitted w)]
      exact if_congr Iff.rfl (remarked _) rfl

theorem turnPhase_outfitted (lx : Lexer) (index : Nat) (phases : List DirectivePhase) :
    (lx.outfitted w).turnPhase index phases =
      ((lx.turnPhase index phases).1, (lx.turnPhase index phases).2.outfitted w) := by
  cases phases with
  | nil => rfl
  | cons phase phases =>
    have same : (lx.outfitted w).top = lx.top := rfl
    rw [turnPhase, turnPhase, same]
    cases phase lx.top.rest with
    | pass => rfl
    | finish => rfl
    | produce kind width =>
      dsimp only
      split <;> rfl
    | request width name => rfl
    | reject width message =>
      have failed := fail_outfitted w { lx with top := lx.top.advance width }
        (.directive message lx.top.location width)
      exact Prod.ext rfl (congrArg (fun lx' : Lexer =>
        { lx' with directive := if width = 0 then none else some ⟨index, phases⟩ }) failed)

theorem turnRequest_outfitted {lx : Lexer} {p : String × Location} (asked : lx.pending = some p)
    (same : lx.below.length < lx.options.maxIncludeDepth →
      (lx.outfitted w).search p.1 = lx.search p.1) :
    (lx.outfitted w).turnRequest = (lx.turnRequest.1, lx.turnRequest.2.outfitted w) := by
  have entered : (lx.outfitted w).enterPending = lx.enterPending.outfitted w := by
    have asked' : (lx.outfitted w).pending = some p := asked
    rw [enterPending, enterPending, asked, asked']
    exact enter_outfitted { lx with pending := none } p.2 same
  rw [turnRequest, turnRequest, entered]
  rfl

theorem scan_outfitted (lx : Lexer) :
    (lx.outfitted w).scan = (lx.scan.1, lx.scan.2.outfitted w) := by
  cases rest : lx.top.rest with
  | nil =>
    have rest' : (lx.outfitted w).top.rest = [] := rest
    rw [scan_of_end rest, scan_of_end rest']
    rfl
  | cons c cs =>
    have rest' : (lx.outfitted w).top.rest = c :: cs := rest
    rw [scan_of_lexeme rest, scan_of_lexeme rest', behind, outfitted, List.append_assoc]
    rfl

/-- A turn sees of the resolver the answer to the request that it meets, and nothing else of what a
lexer has besides. -/
theorem turn_outfitted (w : Outfit) (lx : Lexer)
    (same : ∀ p, lx.directive = none → lx.pending = some p →
      lx.below.length < lx.options.maxIncludeDepth →
        (lx.outfitted w).search p.1 = lx.search p.1) :
    (lx.outfitted w).turn = (lx.turn.1, lx.turn.2.outfitted w) := by
  cases lx.meets with
  | directive d under turned =>
    have under' : (lx.outfitted w).directive = some d := under
    rw [turned, turn_of_directive under']
    exact turnPhase_outfitted lx d.index d.phases
  | request p through asked turned =>
    have through' : (lx.outfitted w).directive = none := through
    rw [turned, turn_of_request through' asked]
    exact turnRequest_outfitted asked (same p through asked)
  | exhausted g below through idle empty stack turned =>
    have through' : (lx.outfitted w).directive = none := through
    rw [turned, turn_of_exhausted through' idle empty stack]
    rfl
  | lexeme through idle root turned =>
    have through' : (lx.outfitted w).directive = none := through
    rw [turned, turn_of_lexeme through' idle root, scan_outfitted]

end

/-- The lexer with some errors noted before its own, and with a resolver made of its own. -/
def beside (es : List LexError) (f : Option Resolver → Option Resolver) (lx : Lexer) : Lexer :=
  { lx with errors := es ++ lx.errors, resolver := f lx.resolver }

theorem turn_beside (es : List LexError) (f : Option Resolver → Option Resolver) (lx : Lexer)
    (same : ∀ p, lx.directive = none → lx.pending = some p →
      lx.below.length < lx.options.maxIncludeDepth →
        (lx.beside es f).search p.1 = lx.search p.1) :
    (lx.beside es f).turn = (lx.turn.1, lx.turn.2.beside es f) :=
  turn_outfitted { errors := es, resolver := f } lx same

/-- The lexer with some errors noted before its own. -/
def noting (es : List LexError) (lx : Lexer) : Lexer := { lx with errors := es ++ lx.errors }

theorem turn_noting (es : List LexError) (lx : Lexer) :
    (lx.noting es).turn = (lx.turn.1, lx.turn.2.noting es) :=
  turn_beside es id lx fun _ _ _ _ => rfl

theorem after_noting (es : List LexError) (n : Nat) (lx : Lexer) :
    (lx.noting es).after n = (lx.after n).noting es := by
  induction n generalizing lx with
  | zero => rfl
  | succ n ih => rw [after, after, turn_noting, ih]

theorem made_noting (es : List LexError) (n : Nat) (lx : Lexer) :
    (lx.noting es).made n = lx.made n := by
  induction n generalizing lx with
  | zero => rfl
  | succ n ih => rw [made_succ, made_succ, turn_noting, ih]

/-! ### To the end of the root -/

theorem after_add (n m : Nat) (lx : Lexer) : lx.after (n + m) = (lx.after n).after m := by
  induction n generalizing lx with
  | zero => rw [Nat.zero_add, after]
  | succ n ih => rw [Nat.succ_add, after, after, ih]

theorem made_add (n m : Nat) (lx : Lexer) : lx.made (n + m) = lx.made n ++ (lx.after n).made m := by
  induction n generalizing lx with
  | zero => rw [Nat.zero_add]; rfl
  | succ n ih => rw [Nat.succ_add, made_succ, made_succ, ih, after, List.append_assoc]

theorem exists_turns_of_raw {lx next : Lexer} {t : Token} (raw : lx.nextRaw = (t, next)) :
    ∃ n, lx.made n = [] ∧ (lx.after n).turn = (.made t, next) := by
  have found := lx.exists_turns_nextRaw
  rwa [raw] at found

/-- The turns up to the one that makes the next token, and then some others. -/
theorem made_nextRaw {lx next : Lexer} {n : Nat} {t : Token} (none : lx.made n = [])
    (step : (lx.after n).turn = (.made t, next)) (m : Nat) :
    lx.after (n + (m + 1)) = next.after m ∧ lx.made (n + (m + 1)) = t :: next.made m := by
  rw [after_add, made_add, none, made_succ, after, step]
  exact ⟨rfl, rfl⟩

theorem options_of_raw {lx next : Lexer} {t : Token} (raw : lx.nextRaw = (t, next)) :
    next.options = lx.options := by
  have same := lx.nextRaw_options
  rwa [raw] at same

/-- Some turns without an end of file, and then one that makes it: the tokens of a text are those of
the turns that the options keep, and its errors all that are noted by then. -/
theorem tokenize_eq_turns (lx : Lexer) :
    ∃ n e last, (lx.after n).turn = (.made e, last) ∧ e.kind = .endOfFile ∧
      (∀ t ∈ lx.made n, t.kind ≠ .endOfFile) ∧
      lx.tokenize = ((lx.made n).filter (lx.options.keeps ·.kind) ++ [e], last.errors) := by
  induction lx using drain.induct with
  | case1 lx t next raw ended =>
    obtain ⟨n, none, step⟩ := exists_turns_of_raw raw
    refine ⟨n, t, next, step, ended, by rw [none]; exact List.forall_mem_nil _, ?_⟩
    rw [tokenize, drain_of_end raw ended, none]
    exact Prod.ext rfl (List.append_nil _)
  | case2 lx t next raw more kept tokens final drained ih =>
    obtain ⟨n, none, step⟩ := exists_turns_of_raw raw
    obtain ⟨m, e, last, ends, ended, before, whole⟩ := ih
    obtain ⟨place, grown⟩ := made_nextRaw none step m
    have options := options_of_raw raw
    -- the errors found so far are put aside while the rest is read
    have noted : next = noting next.errors { next with errors := [] } := by
      rw [noting, List.append_nil]
    have rest : next.made m = made m { next with errors := [] } := by
      rw [noted, made_noting]
      rfl
    rw [rest] at grown
    refine ⟨n + (m + 1), e, last.noting next.errors, ?_, ended, ?_, ?_⟩
    · rw [place]
      exact (congrArg (fun lx' => (after m lx').turn) noted).trans
        (by rw [after_noting, turn_noting, ends])
    · rw [grown]
      exact List.forall_mem_cons.2 ⟨more, before⟩
    · rw [tokenize_keep raw more kept, whole, grown, List.filter_cons, if_pos kept, ← options]
      rfl
  | case3 lx t next raw more skipped ih =>
    obtain ⟨n, none, step⟩ := exists_turns_of_raw raw
    obtain ⟨m, e, last, ends, ended, before, whole⟩ := ih
    obtain ⟨place, grown⟩ := made_nextRaw none step m
    have options := options_of_raw raw
    refine ⟨n + (m + 1), e, last, by rw [place, ends], ended, ?_, ?_⟩
    · rw [grown]
      exact List.forall_mem_cons.2 ⟨more, before⟩
    · rw [tokenize_skip raw more skipped, whole, grown, List.filter_cons, if_neg skipped, options]

/-! ### The stack of sources -/

/-- The names of the sources being read, the one on top first. -/
def names (lx : Lexer) : List String := (lx.top :: lx.below).map Frame.name

/-- No more sources than the limit allows beside the root, and none of them twice. -/
structure Bounded (lx : Lexer) : Prop where
  depth : lx.depth ≤ lx.options.maxIncludeDepth + 1
  distinct : lx.names.Nodup

/-- What a turn may do to the stack: the sources stay, one that is not being read is put on top,
below the limit, or the one on top is left. -/
inductive Stacks (lx next : Lexer) : Prop where
  | same (depth : next.depth = lx.depth) (names : next.names = lx.names)
  | pushed (name : String) (new : name ∉ lx.names) (room : lx.depth ≤ lx.options.maxIncludeDepth)
      (depth : next.depth = lx.depth + 1) (names : next.names = name :: lx.names)
  | popped (depth : next.depth ≤ lx.depth) (names : next.names = lx.names.tail)

theorem turnPhase_same (lx : Lexer) (index : Nat) (phases : List DirectivePhase) :
    (lx.turnPhase index phases).2.options = lx.options ∧
      (lx.turnPhase index phases).2.below = lx.below ∧
      (lx.turnPhase index phases).2.top.name = lx.top.name := by
  cases phases with
  | nil => exact ⟨rfl, rfl, rfl⟩
  | cons phase phases =>
    rw [turnPhase]
    cases phase lx.top.rest with
    | pass | finish => exact ⟨rfl, rfl, rfl⟩
    | produce kind width =>
      dsimp only
      split
      · exact ⟨rfl, rfl, rfl⟩
      · exact ⟨rfl, rfl, lx.top.advance_name width⟩
    | request width name => exact ⟨rfl, rfl, lx.top.advance_name width⟩
    | reject width message => exact ⟨rfl, rfl, lx.top.advance_name width⟩

theorem scan_same (lx : Lexer) : lx.scan.2.top.name = lx.top.name := by
  cases rest : lx.top.rest with
  | nil => rw [scan_of_end rest]
  | cons c cs =>
    rw [scan_of_lexeme rest]
    exact lx.top.advance_name _

theorem turn_options (lx : Lexer) : lx.turn.2.options = lx.options := by
  cases lx.meets with
  | directive d under turned =>
    rw [turned]
    exact (turnPhase_same lx d.index d.phases).1
  | request p through asked turned =>
    rw [turned]
    exact lx.enterPending_options
  | exhausted f below through idle empty stack turned =>
    rw [turned]
  | lexeme through idle root turned =>
    rw [turned]
    exact lx.scan_options

/-- A source that is entered is not being read. -/
theorem enter_stacks (lx : Lexer) (name : String) (place : Location) :
    Stacks lx (lx.enter name place) := by
  rw [enter]
  split
  · exact .same rfl rfl
  · next room =>
    dsimp only
    cases (lx.search name).source with
    | none => exact .same rfl rfl
    | some s =>
      dsimp only
      split
      · exact .same rfl rfl
      · next new =>
        refine .pushed s.name ?_ (Nat.lt_of_not_le room) rfl rfl
        intro reading
        obtain ⟨f, stacked, named⟩ := List.mem_map.1 reading
        exact new (List.any_eq_true.2 ⟨f, stacked, beq_iff_eq.2 named⟩)

theorem turn_stacks (lx : Lexer) : Stacks lx lx.turn.2 := by
  cases lx.meets with
  | directive d under turned =>
    obtain ⟨-, below, top⟩ := turnPhase_same lx d.index d.phases
    rw [turned]
    exact .same (by rw [depth, below, depth]) (by rw [names, below, List.map_cons, top]; rfl)
  | request p through asked turned =>
    have entered : lx.turn.2 = lx.enterPending := by rw [turned, turnRequest]
    rw [entered, enterPending, asked]
    cases enter_stacks { lx with pending := none } p.1 p.2 with
    | same depth names => exact .same depth names
    | pushed name new room depth names => exact .pushed name new room depth names
    | popped depth names => exact .popped depth names
  | exhausted f below through idle empty stack turned =>
    rw [turned]
    refine .popped ?_ ?_
    · rw [depth, depth, stack, List.length_cons]
      exact Nat.le_succ _
    · rw [names, names, stack]
      rfl
  | lexeme through idle root turned =>
    rw [turned]
    refine .same (by rw [depth, scan_below, depth]) ?_
    rw [names, scan_below, List.map_cons, scan_same]
    rfl

/-- No turn takes the stack beyond its bounds. -/
theorem Bounded.turn {lx : Lexer} (h : lx.Bounded) : lx.turn.2.Bounded := by
  have options := lx.turn_options
  cases lx.turn_stacks with
  | same depth names =>
    exact ⟨by rw [depth, options]; exact h.depth, by rw [names]; exact h.distinct⟩
  | pushed name new room depth names =>
    refine ⟨?_, ?_⟩
    · rw [depth, options]
      exact Nat.succ_le_succ room
    · rw [names]
      exact List.nodup_cons.2 ⟨new, h.distinct⟩
  | popped depth names =>
    refine ⟨?_, ?_⟩
    · rw [options]
      exact Nat.le_trans depth h.depth
    · rw [names]
      exact h.distinct.tail

theorem Bounded.after {lx : Lexer} (h : lx.Bounded) (n : Nat) : (lx.after n).Bounded := by
  induction n generalizing lx with
  | zero => exact h
  | succ n ih => exact ih h.turn

theorem after_options (n : Nat) (lx : Lexer) : (lx.after n).options = lx.options := by
  induction n generalizing lx with
  | zero => rfl
  | succ n ih => rw [after, ih, turn_options]

/-- The lexer of the language that has a source to read. -/
def toRead (r : Option Resolver) (options : LexerOptions) (s : SourceText) : Lexer :=
  { ofText .language s.name s.text with resolver := r, options }

/-- Reading comes to an end, whatever is included: never are there more sources on the stack than
the limit and the root, nor two of one name, and after finitely many turns one makes an end of file,
the first and the only one that is given out. -/
theorem reading_ends (r : Option Resolver) (options : LexerOptions) (s : SourceText) :
    (∀ n, ((toRead r options s).after n).depth ≤ options.maxIncludeDepth + 1 ∧
        ((toRead r options s).after n).names.Nodup) ∧
      ∃ n e, ((toRead r options s).after n).turn.1 = .made e ∧ e.kind = .endOfFile ∧
        (∀ t ∈ (toRead r options s).made n, t.kind ≠ .endOfFile) ∧
        (toRead r options s).tokenize.1 =
          ((toRead r options s).made n).filter (options.keeps ·.kind) ++ [e] := by
  have bounded : (toRead r options s).Bounded := by
    refine ⟨?_, List.pairwise_singleton _ _⟩
    exact Nat.succ_le_succ (Nat.zero_le _)
  constructor
  · intro n
    have held := bounded.after n
    have depth := held.depth
    rw [after_options] at depth
    exact ⟨depth, held.distinct⟩
  · obtain ⟨n, e, last, ends, ended, inside, whole⟩ := (toRead r options s).tokenize_eq_turns
    exact ⟨n, e, by rw [ends], ended, inside, by rw [whole]; rfl⟩

end Lexer

end ScriptLang
