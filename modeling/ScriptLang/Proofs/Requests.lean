import ScriptLang.Lexer.Keyword
import ScriptLang.Proofs.TextReading

/-!
# The includes of a text

The tokens of a text tell which sources its includes ask for (`Token.asked`).  A lexer without a
resolver notes for each of them that it cannot be found, unless includes may not nest at all, and
never for anything else (`notFound_drain`).  A text whose includes are all left alone reads the same
wherever it stands and whatever could be found (`drain_like`).
-/

namespace ScriptLang

/-! ### Lexemes -/

namespace Lexeme

/-- No argument of a directive; and a directive only if the profile has it. -/
def Ordinary (p : Profile) (l : Lexeme) : Prop :=
  l.kind ≠ .directiveArg ∧ (l.kind = .directive → ∃ d ∈ p.directives, l.phases = d.phases)

variable {p : Profile}

theorem ordinary_of_kind {l : Lexeme} (harg : l.kind ≠ .directiveArg) (hd : l.kind ≠ .directive) :
    l.Ordinary p := ⟨harg, fun h => absurd h hd⟩

theorem ordinary_plain {kind : TokenKind} (code : Nat) (cs : List Char)
    (harg : kind ≠ .directiveArg) (hd : kind ≠ .directive) : (plain kind code cs).Ordinary p :=
  ordinary_of_kind harg hd

theorem findDirective_mem {name : String} {d : Directive} {i : Nat} :
    ∀ {index : Nat} {ds : List Directive}, findDirective name index ds = some (i, d) → d ∈ ds
  | _, [], h => nomatch h
  | index, d' :: ds, h => by
    unfold findDirective at h
    split at h
    · obtain ⟨-, rfl⟩ := Prod.mk.inj (Option.some.inj h)
      exact List.mem_cons_self
    · exact List.mem_cons_of_mem _ (findDirective_mem h)

theorem ordinary_scanOperator (c : Char) (cs : List Char) : (scanOperator p c cs).Ordinary p := by
  unfold scanOperator
  split <;> exact ordinary_plain _ _ nofun nofun

theorem ordinary_scanDirective (c : Char) (cs : List Char) : (scanDirective p c cs).Ordinary p := by
  unfold scanDirective
  dsimp only
  split
  · next h =>
    split
    · exact ordinary_scanOperator c cs
    · exact ⟨nofun, fun _ => ⟨_, findDirective_mem h, rfl⟩⟩
  · exact ordinary_scanOperator c cs

theorem ordinary_scanNumber (c : Char) (cs : List Char) : (scanNumber c cs).Ordinary p := by
  have decimal : (scanDecimal c cs).Ordinary p := by
    unfold scanDecimal
    dsimp only
    split
    · split <;> exact ordinary_plain _ _ nofun nofun
    · exact ordinary_plain _ _ nofun nofun
  have radix (form : Notation) (mark digits : List Char) :
      (scanRadix form mark digits).Ordinary p := by
    unfold scanRadix
    split
    · exact ordinary_plain _ _ nofun nofun
    · exact ordinary_of_kind nofun nofun
  unfold scanNumber
  split
  · split
    · exact radix ..
    · split
      · exact radix ..
      · exact decimal
  · exact decimal

theorem ordinary_scanOther (c : Char) (cs : List Char) : (scanOther p c cs).Ordinary p := by
  have blanks : (scanBlanks c cs).Ordinary p := by
    unfold scanBlanks
    split <;> exact ordinary_plain _ _ nofun nofun
  have word : (scanWord p c cs).Ordinary p := by
    unfold scanWord
    dsimp only
    split <;> exact ordinary_plain _ _ nofun nofun
  unfold scanOther
  repeat' split
  · exact blanks
  · exact ordinary_scanDirective c cs
  · exact ordinary_scanNumber c cs
  · exact ordinary_of_kind nofun nofun
  · exact word
  · exact ordinary_scanOperator c cs

theorem ordinary_scan (c : Char) (cs : List Char) : (scan p c cs).Ordinary p := by
  unfold scan
  split
  · exact ordinary_plain _ _ nofun nofun
  · exact ordinary_of_kind nofun nofun
  · exact ordinary_of_kind nofun nofun
  · unfold scanBlockComment
    split <;> exact ordinary_of_kind nofun nofun
  · exact ordinary_scanOther c cs

end Lexeme

/-- The source that the argument of an include asks for, and where. -/
def Token.asked (t : Token) : List (String × Location) :=
  if t.kind = .directiveArg then [(t.text, t.location)] else []

theorem Token.asked_of_ne {t : Token} (h : t.kind ≠ .directiveArg) : t.asked = [] := if_neg h

/-! ### The phases of an include -/

theorem includeBlanks_cases (rest : List Char) :
    includeBlanks rest = .pass ∨ ∃ width, includeBlanks rest = .produce .whitespace width := by
  unfold includeBlanks
  dsimp only
  split
  · exact .inl rfl
  · exact .inr ⟨_, rfl⟩

theorem includeArgument_cases (rest : List Char) :
    (∃ width name, includeArgument rest = .request width name) ∨
      ∃ width message, includeArgument rest = .reject width message := by
  have named (close : Char) (rest : List Char) :
      (∃ width name, includeName close rest = .request width name) ∨
        ∃ width message, includeName close rest = .reject width message := by
    unfold includeName
    dsimp only
    split
    · exact .inl ⟨_, _, rfl⟩
    · exact .inr ⟨_, _, rfl⟩
  unfold includeArgument
  split
  · exact named '"' _
  · exact named '>' _
  · exact .inr ⟨_, _, rfl⟩

namespace Lexer

/-- How far an include has been read, and the source that it asks for. -/
inductive Including : Option ActiveDirective → Option (String × Location) → Prop where
  | outside : Including none none
  | name (index : Nat) : Including (some ⟨index, [includeBlanks, includeArgument]⟩) none
  | blanks (index : Nat) : Including (some ⟨index, [includeArgument]⟩) none
  | argument (index : Nat) (p : String × Location) : Including (some ⟨index, []⟩) (some p)

variable {lx lx₂ : Lexer} {t : Token}

/-- A step of an include makes blanks or the argument, which asks for the source. -/
def IncludeStep (lx lx' : Lexer) (t : Token) : Prop :=
  Including lx'.directive lx'.pending ∧ t.kind ≠ .endOfFile ∧
    lx'.pending.toList = lx.pending.toList ++ t.asked

theorem step_argument {index : Nat} (hp : lx.pending = none)
    (ht : (runPhases index [includeArgument] lx).1 = some t) :
    IncludeStep lx (runPhases index [includeArgument] lx).2 t := by
  unfold runPhases at ht ⊢
  rcases includeArgument_cases lx.top.rest with ⟨width, name, h⟩ | ⟨width, message, h⟩
  · rw [h] at ht ⊢
    obtain rfl := Option.some.inj ht
    exact ⟨.argument index _, TokenKind.noConfusion, by rw [hp]; rfl⟩
  · rw [h] at ht
    dsimp only at ht
    split at ht <;> cases ht

theorem Including.step (h : Including lx.directive lx.pending)
    (ht : lx.runDirective.1 = some t) : IncludeStep lx lx.runDirective.2 t := by
  unfold runDirective at ht ⊢
  generalize hd : lx.directive = d at h ht ⊢
  generalize hp : lx.pending = p at h
  cases h with
  | outside => cases ht
  | name index =>
    dsimp only at ht ⊢
    unfold runPhases at ht ⊢
    rcases includeBlanks_cases lx.top.rest with h | ⟨width, h⟩
    · rw [h] at ht ⊢
      exact step_argument hp ht
    · rw [h] at ht ⊢
      dsimp only at ht ⊢
      split at ht
      · cases ht
      · next hwidth =>
        rw [if_neg hwidth]
        obtain rfl := Option.some.inj ht
        refine ⟨?_, TokenKind.noConfusion, (List.append_nil _).symm⟩
        dsimp only
        rw [hp]
        exact .blanks index
  | blanks index => exact step_argument hp ht
  | argument index p => cases ht

/-- What follows an include, or stands where there is none, asks for no source. -/
theorem including_scan (hprofile : lx.profile = .language) (hd : lx.directive = none)
    (hp : lx.pending = none) :
    Including lx.scan.2.directive lx.scan.2.pending ∧ lx.scan.1.kind ≠ .directiveArg ∧
      lx.scan.2.pending = none := by
  unfold scan
  split
  · rw [hd, hp]
    exact ⟨.outside, nofun, rfl⟩
  · next c cs hrest =>
    dsimp only
    obtain ⟨harg, hphases⟩ := Lexeme.ordinary_scan (p := lx.profile) c cs
    generalize Lexeme.scan lx.profile c cs = l at harg hphases ⊢
    by_cases hkind : l.kind = .directive
    · obtain ⟨d, hmem, hphases⟩ := hphases hkind
      rw [hprofile] at hmem
      obtain rfl := List.mem_singleton.1 hmem
      have hu : l.kind ≠ .unknown := by rw [hkind]; nofun
      rw [if_pos hkind, if_neg hu, hp, hphases]
      exact ⟨.name _, harg, rfl⟩
    · rw [if_neg hkind]
      split
      · refine ⟨?_, harg, hp⟩
        change Including lx.directive lx.pending
        rw [hd, hp]
        exact .outside
      · refine ⟨?_, harg, hp⟩
        rw [hd, hp]
        exact .outside

/-! ### Steps -/

/-- A lexer of the language that is in no included source and can find none. -/
structure Lone (lx : Lexer) : Prop where
  profile : lx.profile = .language
  resolver : lx.resolver = none
  below : lx.below = []
  including : Including lx.directive lx.pending

/-- The sources looked for, when some are asked for. -/
def lookedFor (lx : Lexer) (asked : List (String × Location)) : List (String × Location) :=
  if lx.options.maxIncludeDepth = 0 then [] else asked

/-- The sources noted as missing, and the one that will be. -/
def missing (lx : Lexer) : List (String × Location) :=
  lx.errors.filterMap LexError.notFound? ++ lx.lookedFor lx.pending.toList

theorem Lone.like (lone : lx.Lone) : Like id lx lx where
  profile := rfl
  depth := rfl
  top := rfl
  below := lone.below
  below₂ := lone.below
  directive := rfl
  pending := by cases lx.pending <;> rfl

theorem Lone.shut (lone : lx.Lone) : lx.Shut := .inr (.inr lone.resolver)

theorem lookedFor_append (as bs : List (String × Location)) :
    lx.lookedFor (as ++ bs) = lx.lookedFor as ++ lx.lookedFor bs := by
  unfold lookedFor
  split <;> rfl

theorem lookedFor_nil : lx.lookedFor [] = [] := by
  unfold lookedFor
  split <;> rfl

theorem runDirective_directive (h : lx.runDirective.1 = none) :
    lx.runDirective.2.directive = none := by
  unfold runDirective at h ⊢
  split at h
  · next hd => exact hd
  · exact (runPhases_none _ _ _ h).1

theorem enterPending_shut (below : lx.below = []) (shut : lx.Shut) :
    lx.enterPending.directive = lx.directive ∧ lx.enterPending.pending = none := by
  unfold enterPending
  split
  · next hp => exact ⟨rfl, hp⟩
  · next name l hp =>
    have closed := shut.resolve_left (by rw [hp]; exact Option.some_ne_none _)
    rw [enter_shut { lx with pending := none } below closed]
    exact ⟨rfl, rfl⟩

theorem notFound_refusal (p : Option (String × Location)) :
    (p.toList.map fun q => lx.refusal q.1 q.2).filterMap LexError.notFound? =
      lx.lookedFor p.toList := by
  cases p with
  | none => exact lookedFor_nil.symm
  | some p =>
    unfold lookedFor
    change [lx.refusal p.1 p.2].filterMap LexError.notFound? = _
    unfold refusal
    split <;> rfl

/-- A step asks for what its token asks for, and what is asked for is noted as missing. -/
theorem Lone.nextRaw (lone : lx.Lone) :
    lx.nextRaw.2.Lone ∧ lx.nextRaw.2.missing = lx.missing ++ lx.lookedFor lx.nextRaw.1.asked ∧
      (lx.nextRaw.1.kind = .endOfFile → lx.nextRaw.2.pending = none) := by
  obtain ⟨new, -, hacts, hnew⟩ := acts_runDirective along_id lone.like
  have hstep := @Including.step lx
  have hpending := @runDirective_pending lx
  have hdirective := @runDirective_directive lx
  unfold Lexer.nextRaw
  generalize lx.runDirective = r at hacts hstep hpending hdirective ⊢
  obtain ⟨t, lx₁⟩ := r
  cases t with
  | some t =>
    obtain ⟨hincluding, hkind, hasked⟩ := hstep lone.including rfl
    refine ⟨⟨hacts.grows.profile.trans lone.profile, hacts.grows.resolver.trans lone.resolver,
      hacts.like.below, hincluding⟩, ?_, fun h => absurd h hkind⟩
    dsimp only at hasked ⊢
    rw [missing, missing, hacts.grows.errors, hasked, List.filterMap_append, hnew,
      List.append_nil, List.append_assoc, ← lookedFor_append]
    unfold lookedFor
    rw [hacts.grows.options]
  | none =>
    have shut : lx₁.Shut := hacts.grows.shut (hpending rfl) lone.shut
    have entered := acts_enterPending hacts.like shut shut
    obtain ⟨hdirective₂, hpending₂⟩ := enterPending_shut hacts.like.below shut
    obtain ⟨new', -, hacts', hnew'⟩ := acts_scanSources along_id entered.like
    have grows := ((hacts.trans entered).trans hacts').grows
    have hscan := scanSources_eq_scan entered.like.below
    obtain ⟨hincluding, hkind, hpending'⟩ := including_scan
      (entered.grows.profile.trans (hacts.grows.profile.trans lone.profile))
      (hdirective₂.trans (hdirective rfl)) hpending₂
    rw [← hscan] at hincluding hkind hpending'
    refine ⟨⟨grows.profile.trans lone.profile, grows.resolver.trans lone.resolver,
      hacts'.like.below, hincluding⟩, ?_, fun _ => hpending'⟩
    dsimp only
    rw [missing, missing, Token.asked_of_ne hkind, grows.errors, hpending', List.filterMap_append,
      List.filterMap_append, List.filterMap_append, hnew, hnew', notFound_refusal, hpending rfl]
    have none_asked (lx : Lexer) : lx.lookedFor (none : Option (String × Location)).toList = [] :=
      lookedFor_nil
    have same : lx₁.lookedFor lx.pending.toList = lx.lookedFor lx.pending.toList := by
      unfold lookedFor
      rw [hacts.grows.options]
    rw [none_asked, lookedFor_nil, same]
    simp only [List.append_nil, List.nil_append]

/-! ### To the end of the text -/

/-- All sources asked for by some tokens. -/
def asked (ts : List (Token × List LexError)) : List (String × Location) :=
  ts.flatMap fun p => p.1.asked

theorem Lone.withErrors (lone : lx.Lone) (errors : List LexError) :
    Lone { lx with errors } := ⟨lone.profile, lone.resolver, lone.below, lone.including⟩

theorem drain_of_end {lx' : Lexer} (h : lx.nextRaw = (t, lx')) (hend : t.kind = .endOfFile) :
    lx.drain = ([(t, lx'.errors)], lx') := by
  rw [drain]
  split
  next u lx'' h' =>
    obtain ⟨rfl, rfl⟩ := Prod.mk.inj (h.symm.trans h')
    rw [dif_pos hend]

theorem drain_of_kept {lx' : Lexer} (h : lx.nextRaw = (t, lx')) (hend : t.kind ≠ .endOfFile)
    (kept : lx.options.keeps t.kind = true) :
    lx.drain = ((t, lx'.errors) :: (drain { lx' with errors := [] }).1,
      (drain { lx' with errors := [] }).2) := by
  rw [drain]
  split
  next u lx'' h' =>
    obtain ⟨rfl, rfl⟩ := Prod.mk.inj (h.symm.trans h')
    rw [dif_neg hend, if_pos kept]

theorem drain_of_skipped {lx' : Lexer} (h : lx.nextRaw = (t, lx')) (hend : t.kind ≠ .endOfFile)
    (skipped : ¬ lx.options.keeps t.kind = true) : lx.drain = lx'.drain := by
  rw [drain]
  split
  next u lx'' h' =>
    obtain ⟨rfl, rfl⟩ := Prod.mk.inj (h.symm.trans h')
    rw [dif_neg hend, if_neg skipped]

/-- What reading comes to, if it takes at most `n` steps. -/
def drainWithin : (n : Nat) → Lexer → Option (List (Token × List LexError) × Lexer)
  | 0, _ => none
  | n + 1, lx =>
    match lx.nextRaw with
    | (t, lx') =>
      if t.kind = .endOfFile then some ([(t, lx'.errors)], lx')
      else if lx.options.keeps t.kind then
        (drainWithin n { lx' with errors := [] }).map fun r => ((t, lx'.errors) :: r.1, r.2)
      else drainWithin n lx'

theorem drain_of_drainWithin {n : Nat} {r : List (Token × List LexError) × Lexer}
    (h : drainWithin n lx = some r) : lx.drain = r := by
  induction n generalizing lx r with
  | zero => exact nomatch h
  | succ n ih =>
    unfold drainWithin at h
    obtain ⟨t, lx', hraw⟩ : ∃ t lx', lx.nextRaw = (t, lx') := ⟨_, _, rfl⟩
    rw [hraw] at h
    dsimp only at h
    split at h
    · next hend => rw [drain_of_end hraw hend, Option.some.inj h]
    · next hend =>
      split at h
      · next kept =>
        obtain ⟨r', hr', rfl⟩ := Option.map_eq_some_iff.1 h
        rw [drain_of_kept hraw hend kept, ih hr']
      · next skipped => rw [drain_of_skipped hraw hend skipped, ih h]

/-- A lexer that gives out directives asks for what its next token does, and then for the rest. -/
theorem asked_drain {lx' : Lexer} (all : lx.options.directives = true) (h : lx.nextRaw = (t, lx'))
    (hend : t.kind ≠ .endOfFile) :
    ∃ errors, asked lx.drain.1 = t.asked ++ asked (drain { lx' with errors }).1 := by
  by_cases kept : lx.options.keeps t.kind = true
  · exact ⟨[], by rw [drain_of_kept h hend kept]; rfl⟩
  · refine ⟨lx'.errors, ?_⟩
    have harg : t.kind ≠ .directiveArg := by
      intro harg
      rw [harg] at kept
      exact kept all
    rw [drain_of_skipped h hend kept, Token.asked_of_ne harg]
    rfl

theorem lookedFor_congr {lx' : Lexer} (h : lx'.options = lx.options)
    (asked : List (String × Location)) : lx'.lookedFor asked = lx.lookedFor asked := by
  unfold lookedFor
  rw [h]

/-- Two lexers that can find no source take a step together. -/
theorem Lone.step {lx' : Lexer} (h : lx.nextRaw = (t, lx')) (lone : lx.Lone) (lone₂ : lx₂.Lone)
    (like : Like id lx lx₂) :
    ∃ lx₂', lx₂.nextRaw = (t, lx₂') ∧ lx'.Lone ∧ lx₂'.Lone ∧ Like id lx' lx₂' ∧
      lx'.options = lx.options ∧ lx₂'.options = lx₂.options ∧
        lx'.missing = lx.missing ++ lx.lookedFor t.asked := by
  obtain ⟨new, htoken, hacts⟩ := acts_nextRaw along_id like lone.shut lone₂.shut
  obtain ⟨lone', hmissing, -⟩ := lone.nextRaw
  obtain ⟨lone₂', -, -⟩ := lone₂.nextRaw
  rw [h] at htoken hacts lone' hmissing
  exact ⟨lx₂.nextRaw.2, Prod.ext htoken rfl, lone', lone₂', hacts.like, hacts.grows.options,
    hacts.grows₂.options, hmissing⟩

/-- Reading with directives given out asks for all sources, and reading in any way notes them as
missing. -/
theorem notFound_drain (lone : lx.Lone) (lone₂ : lx₂.Lone) (like : Like id lx lx₂)
    (all : lx₂.options.directives = true) :
    (lx.drain.1.flatMap Prod.snd).filterMap LexError.notFound? =
      lx.missing ++ lx.lookedFor (asked lx₂.drain.1) := by
  induction lx using drain.induct generalizing lx₂ with
  | case1 lx t lx' h hend =>
    obtain ⟨lx₂', h₂, -, -, -, -, -, hmissing⟩ := lone.step h lone₂ like
    have hpending := lone.nextRaw.2.2
    rw [h] at hpending
    rw [drain_of_end h hend, drain_of_end h₂ hend]
    change (lx'.errors ++ []).filterMap _ = lx.missing ++ lx.lookedFor (t.asked ++ [])
    rw [List.append_nil, List.append_nil, ← hmissing, missing, hpending hend]
    exact (List.append_nil _).symm.trans (congrArg _ lookedFor_nil.symm)
  | case2 lx t lx' h hend kept tokens last hdrain ih =>
    obtain ⟨lx₂', h₂, lone', lone₂', like', hoptions, hoptions₂, hmissing⟩ :=
      lone.step h lone₂ like
    obtain ⟨errors, hasked⟩ := asked_drain (by rw [all]) h₂ hend
    have rest := ih (lone'.withErrors []) (lone₂'.withErrors errors) { like' with }
      (by rw [hoptions₂, all])
    have parts : lx'.missing =
        lx'.errors.filterMap LexError.notFound? ++ missing { lx' with errors := [] } := rfl
    rw [drain_of_kept h hend kept, hasked, lookedFor_append, ← List.append_assoc, ← hmissing]
    change (lx'.errors ++ (drain { lx' with errors := [] }).1.flatMap Prod.snd).filterMap _ = _
    rw [List.filterMap_append, rest, ← lookedFor_congr hoptions, parts, List.append_assoc]
    rfl
  | case3 lx t lx' h hend skipped ih =>
    obtain ⟨lx₂', h₂, lone', lone₂', like', hoptions, hoptions₂, hmissing⟩ :=
      lone.step h lone₂ like
    obtain ⟨errors, hasked⟩ := asked_drain (by rw [all]) h₂ hend
    have rest := ih lone' (lone₂'.withErrors errors) { like' with } (by rw [hoptions₂, all])
    rw [drain_of_skipped h hend skipped, rest, hasked, lookedFor_append, ← List.append_assoc,
      ← hmissing, lookedFor_congr hoptions]

/-- What is missing already is among what is missing in the end. -/
theorem Lone.missing_eq_nil (lone : lx.Lone)
    (h : (lx.drain.1.flatMap Prod.snd).filterMap LexError.notFound? = []) : lx.missing = [] := by
  let marked : Lexer := { lx with options := { lx.options with directives := true } }
  have like : Like id lx marked := { lone.like with }
  have lone₂ : marked.Lone := ⟨lone.profile, lone.resolver, lone.below, lone.including⟩
  rw [notFound_drain lone lone₂ like rfl] at h
  exact (List.append_eq_nil_iff.1 h).1

/-- Where nothing is missing no source is entered, whatever could be found. -/
theorem Like.shut {f : Location → Location} (like : Like f lx lx₂) (h : lx.missing = []) :
    lx₂.Shut := by
  have hpending := (List.append_eq_nil_iff.1 h).2
  unfold lookedFor at hpending
  split at hpending
  · next hdepth => exact .inr (.inl (like.depth.trans hdepth))
  · refine .inl ?_
    rw [like.pending, Option.toList_eq_nil_iff.1 hpending]
    rfl

/-- A lexer to which nothing is missing takes a step with any lexer before the same text. -/
theorem Lone.step_elsewhere {f : Location → Location} {lx' : Lexer} (along : Along f)
    (h : lx.nextRaw = (t, lx')) (lone : lx.Lone) (like : Like f lx lx₂)
    (options : lx₂.options = lx.options) (errors : lx₂.errors = relocate f lx.errors)
    (found : (lx.drain.1.flatMap Prod.snd).filterMap LexError.notFound? = []) :
    ∃ lx₂', lx₂.nextRaw = (relocate f t, lx₂') ∧ lx'.Lone ∧ Like f lx' lx₂' ∧
      lx₂'.options = lx'.options ∧ lx'.options = lx.options ∧ lx₂'.errors = relocate f lx'.errors ∧
        lx₂'.remarks = lx₂.remarks := by
  obtain ⟨new, htoken, hacts⟩ :=
    acts_nextRaw along like lone.shut (like.shut (lone.missing_eq_nil found))
  have lone' := lone.nextRaw.1
  rw [h] at htoken hacts lone'
  refine ⟨lx₂.nextRaw.2, Prod.ext htoken rfl, lone', hacts.like, ?_, hacts.grows.options, ?_,
    hacts.grows₂.remarks⟩
  · rw [hacts.grows₂.options, hacts.grows.options, options]
  · rw [hacts.grows₂.errors, hacts.grows.errors, errors, relocate_append]

/-- If a lexer without a resolver notes no source as missing, then every lexer before the same text
makes of it what that one does, whatever it could find. -/
theorem drain_like {f : Location → Location} (along : Along f) (lone : lx.Lone)
    (like : Like f lx lx₂) (options : lx₂.options = lx.options)
    (errors : lx₂.errors = relocate f lx.errors)
    (found : (lx.drain.1.flatMap Prod.snd).filterMap LexError.notFound? = []) :
    lx₂.drain.1 = relocate f lx.drain.1 ∧ lx₂.drain.2.remarks = lx₂.remarks := by
  induction lx using drain.induct generalizing lx₂ with
  | case1 lx t lx' h hend =>
    obtain ⟨lx₂', h₂, -, -, -, -, errors', remarks'⟩ :=
      lone.step_elsewhere along h like options errors found
    rw [drain_of_end h hend, drain_of_end h₂ hend, errors']
    exact ⟨rfl, remarks'⟩
  | case2 lx t lx' h hend kept tokens last hdrain ih =>
    obtain ⟨lx₂', h₂, lone', like', options', -, errors', remarks'⟩ :=
      lone.step_elsewhere along h like options errors found
    have kept₂ : lx₂.options.keeps (relocate f t).kind = true := by rw [options]; exact kept
    rw [drain_of_kept h hend kept] at found ⊢
    rw [drain_of_kept h₂ hend kept₂]
    have later : ((drain { lx' with errors := [] }).1.flatMap Prod.snd).filterMap
        LexError.notFound? = [] := by
      rw [List.flatMap_cons, List.filterMap_append] at found
      exact (List.append_eq_nil_iff.1 found).2
    have like'' : Like f { lx' with errors := [] } { lx₂' with errors := [] } := { like' with }
    obtain ⟨htokens, hremarks⟩ := ih (lone'.withErrors []) like'' options' rfl later
    refine ⟨?_, hremarks.trans remarks'⟩
    rw [errors', htokens]
    rfl
  | case3 lx t lx' h hend skipped ih =>
    obtain ⟨lx₂', h₂, lone', like', options', -, errors', remarks'⟩ :=
      lone.step_elsewhere along h like options errors found
    have skipped₂ : ¬ lx₂.options.keeps (relocate f t).kind = true := by rw [options]; exact skipped
    rw [drain_of_skipped h hend skipped] at found ⊢
    rw [drain_of_skipped h₂ hend skipped₂]
    obtain ⟨htokens, hremarks⟩ := ih lone' like' options' errors' found
    exact ⟨htokens, hremarks.trans remarks'⟩

end Lexer

end ScriptLang
