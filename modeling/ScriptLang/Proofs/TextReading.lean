import ScriptLang.Lexer
import ScriptLang.Proofs.Relocation

/-!
# Reading a text without entering others

Two lexers before the same text at different places, neither of them inside an included source, make
the same tokens and the same errors, at different places (`acts_nextRaw`), as long as neither has to
look for another source or neither can find any.
-/

namespace ScriptLang

/-- The source that could not be found, and where it was asked for. -/
def LexError.notFound? : LexError → Option (String × Location)
  | .includeNotFound name l => some (name, l)
  | _ => none

/-! ### Frames -/

instance : Placed Frame where
  relocate f frame := ⟨frame.rest, f frame.location⟩

/-- Places are moved in one way before and after every character. -/
def Along (f : Location → Location) : Prop := ∀ l c, f (l.after c) = (f l).after c

theorem along_id : Along id := fun _ _ => rfl

theorem along_inFile (file : String) : Along (Location.inFile file) := by
  intro l c
  unfold Location.after
  split <;> rfl

section

variable {f : Location → Location}

theorem Along.locationAfter (along : Along f) (l : Location) (cs : List Char) :
    f (Frame.locationAfter l cs) = Frame.locationAfter (f l) cs := by
  induction cs generalizing l with
  | nil => rfl
  | cons c cs ih =>
    change f (Frame.locationAfter (l.after c) cs) = Frame.locationAfter ((f l).after c) cs
    rw [ih, along]

theorem Along.read (along : Along f) (frame : Frame) (n : Nat) :
    (relocate f frame).read n = ((frame.read n).1, relocate f (frame.read n).2) := by
  change (_, Frame.mk _ (Frame.locationAfter (f frame.location) _)) = _
  rw [← along.locationAfter]
  rfl

theorem Along.advance (along : Along f) (frame : Frame) (n : Nat) :
    (relocate f frame).advance n = relocate f (frame.advance n) := by
  rw [Frame.advance, along.read]
  rfl

end

namespace Lexer

/-! ### Lexers that do the same -/

/-- Two lexers before the same text at different places, in no included source. -/
structure Like (f : Location → Location) (lx lx₂ : Lexer) : Prop where
  profile : lx₂.profile = lx.profile
  depth : lx₂.options.maxIncludeDepth = lx.options.maxIncludeDepth
  top : lx₂.top = relocate f lx.top
  below : lx.below = []
  below₂ : lx₂.below = []
  directive : lx₂.directive = lx.directive
  pending : lx₂.pending = relocate f lx.pending

/-- A lexer that has gone on, with new errors and in no other source. -/
structure Grows (lx lx' : Lexer) (new : List LexError) : Prop where
  profile : lx'.profile = lx.profile := by rfl
  options : lx'.options = lx.options := by rfl
  resolver : lx'.resolver = lx.resolver := by rfl
  remarks : lx'.remarks = lx.remarks := by rfl
  errors : lx'.errors = lx.errors ++ new

theorem Grows.refl (lx : Lexer) : Grows lx lx [] where
  errors := (List.append_nil _).symm

theorem Grows.trans {lx lx' lx'' : Lexer} {new new' : List LexError} (h : Grows lx lx' new)
    (h' : Grows lx' lx'' new') : Grows lx lx'' (new ++ new') where
  profile := h'.profile.trans h.profile
  options := h'.options.trans h.options
  resolver := h'.resolver.trans h.resolver
  remarks := h'.remarks.trans h.remarks
  errors := by rw [h'.errors, h.errors, List.append_assoc]

/-- Two lexers that have gone on and are alike, with the same new errors at different places. -/
structure Acts (f : Location → Location) (lx lx₂ lx' lx₂' : Lexer) (new : List LexError) : Prop where
  like : Like f lx' lx₂'
  grows : Grows lx lx' new
  grows₂ : Grows lx₂ lx₂' (relocate f new)

variable {f : Location → Location} {lx lx₂ lx' lx₂' lx'' lx₂'' : Lexer} {new new' : List LexError}

theorem Acts.trans (h : Acts f lx lx₂ lx' lx₂' new) (h' : Acts f lx' lx₂' lx'' lx₂'' new') :
    Acts f lx lx₂ lx'' lx₂'' (new ++ new') where
  like := h'.like
  grows := h.grows.trans h'.grows
  grows₂ := by
    rw [relocate_append]
    exact h.grows₂.trans h'.grows₂

theorem Like.acts (h : Like f lx lx₂) : Acts f lx lx₂ lx lx₂ [] := ⟨h, .refl lx, .refl lx₂⟩

/-! ### The parts of a step -/

/-- The source requested last is read on. -/
theorem Acts.advance (along : Along f) (h : Acts f lx lx₂ lx' lx₂' new) (width : Nat) :
    Acts f lx lx₂ { lx' with top := lx'.top.advance width }
      { lx₂' with top := lx₂'.top.advance width } new where
  like := { h.like with
    top := by
      change lx₂'.top.advance width = relocate f (lx'.top.advance width)
      rw [h.like.top, along.advance] }
  grows := { h.grows with }
  grows₂ := { h.grows₂ with }

theorem Acts.withDirective (h : Acts f lx lx₂ lx' lx₂' new) (d : Option ActiveDirective) :
    Acts f lx lx₂ { lx' with directive := d } { lx₂' with directive := d } new where
  like := { h.like with directive := rfl }
  grows := { h.grows with }
  grows₂ := { h.grows₂ with }

theorem Acts.withPending (h : Acts f lx lx₂ lx' lx₂' new) (p : Option (String × Location)) :
    Acts f lx lx₂ { lx' with pending := p } { lx₂' with pending := relocate f p } new where
  like := { h.like with pending := rfl }
  grows := { h.grows with }
  grows₂ := { h.grows₂ with }

theorem Acts.fail (h : Acts f lx lx₂ lx' lx₂' new) (e : LexError) :
    Acts f lx lx₂ (lx'.fail e) (lx₂'.fail (relocate f e)) (new ++ [e]) where
  like := { h.like with }
  grows := { h.grows with errors := by rw [Lexer.fail, h.grows.errors, List.append_assoc] }
  grows₂ := { h.grows₂ with
    errors := by
      rw [Lexer.fail, h.grows₂.errors, List.append_assoc, relocate_append]
      rfl }

/-- Phases of a directive look only at the text, and no source is missing for them. -/
theorem acts_runPhases (along : Along f) (index : Nat) (phases : List DirectivePhase) :
    ∀ {lx lx₂ : Lexer}, Like f lx lx₂ → ∃ new,
      (runPhases index phases lx₂).1 = relocate f (runPhases index phases lx).1 ∧
        Acts f lx lx₂ (runPhases index phases lx).2 (runPhases index phases lx₂).2 new ∧
          new.filterMap LexError.notFound? = [] := by
  induction phases with
  | nil => exact fun h => ⟨[], rfl, h.acts.withDirective none, rfl⟩
  | cons phase phases ih =>
    intro lx lx₂ h
    have hrest : lx₂.top.rest = lx.top.rest := by rw [h.top]; rfl
    have hlocation : lx₂.top.location = f lx.top.location := by rw [h.top]; rfl
    unfold runPhases
    rw [hrest, hlocation]
    cases phase lx.top.rest with
    | pass => exact ih h
    | finish => exact ⟨[], rfl, h.acts.withDirective none, rfl⟩
    | produce kind width =>
      dsimp only
      split
      · exact ⟨[], rfl, h.acts.withDirective none, rfl⟩
      · have htext : (lx₂.top.read width).1 = (lx.top.read width).1 := by
          rw [h.top, along.read]
        rw [htext]
        exact ⟨[], rfl, (h.acts.advance along width).withDirective _, rfl⟩
    | request width name =>
      exact ⟨[], rfl, ((h.acts.advance along width).withDirective _).withPending _, rfl⟩
    | reject width message =>
      have skipped := (h.acts.advance along width).fail
        (.directive message lx.top.location width)
      dsimp only
      split
      · exact ⟨_, rfl, skipped.withDirective none, rfl⟩
      · obtain ⟨new, htoken, hacts, hnew⟩ := ih skipped.like
        exact ⟨_, htoken, skipped.trans hacts, hnew⟩

theorem acts_runDirective (along : Along f) (h : Like f lx lx₂) : ∃ new,
    lx₂.runDirective.1 = relocate f lx.runDirective.1 ∧
      Acts f lx lx₂ lx.runDirective.2 lx₂.runDirective.2 new ∧
        new.filterMap LexError.notFound? = [] := by
  unfold runDirective
  rw [h.directive]
  cases lx.directive with
  | none => exact ⟨[], rfl, h.acts, rfl⟩
  | some d => exact acts_runPhases along d.index d.phases h

/-- Whether no other source can be entered: none is asked for or looked for, or there is no
resolver. -/
def Shut (lx : Lexer) : Prop :=
  lx.pending = none ∨ lx.options.maxIncludeDepth = 0 ∨ lx.resolver = none

theorem Grows.shut (h : Grows lx lx' new) (pending : lx'.pending = lx.pending)
    (shut : lx.Shut) : lx'.Shut := by
  rw [Shut, pending, h.options, h.resolver]
  exact shut

/-- The error that a request ends with. -/
def refusal (lx : Lexer) (name : String) (l : Location) : LexError :=
  if lx.options.maxIncludeDepth = 0 then .includeTooDeep name 0 l else .includeNotFound name l

theorem refusal_relocate (h : Like f lx lx₂) (name : String) (l : Location) :
    lx₂.refusal name (f l) = relocate f (lx.refusal name l) := by
  unfold refusal
  rw [h.depth]
  split <;> rfl

theorem enter_shut (lx : Lexer) {name : String} {l : Location} (below : lx.below = [])
    (shut : lx.options.maxIncludeDepth = 0 ∨ lx.resolver = none) :
    lx.enter name l = lx.fail (lx.refusal name l) := by
  have hlength : lx.below.length = 0 := by rw [below, List.length_nil]
  unfold enter refusal
  rw [hlength]
  by_cases hdepth : lx.options.maxIncludeDepth = 0
  · rw [if_pos hdepth, if_pos (Nat.le_of_eq hdepth), hdepth]
  · have missing : lx.search name = { source := none } := by
      rw [search, shut.resolve_left hdepth]
    rw [if_neg hdepth, if_neg (by omega), missing]
    simp only [List.append_nil]

theorem acts_enterPending (h : Like f lx lx₂) (shut : lx.Shut) (shut₂ : lx₂.Shut) :
    Acts f lx lx₂ lx.enterPending lx₂.enterPending
      (lx.pending.toList.map fun p => lx.refusal p.1 p.2) := by
  unfold enterPending
  rw [h.pending]
  cases hpending : lx.pending with
  | none => exact h.acts
  | some p =>
    obtain ⟨name, l⟩ := p
    have closed : lx.options.maxIncludeDepth = 0 ∨ lx.resolver = none :=
      shut.resolve_left (by rw [hpending]; exact Option.some_ne_none _)
    have closed₂ : lx₂.options.maxIncludeDepth = 0 ∨ lx₂.resolver = none :=
      shut₂.resolve_left (by rw [h.pending, hpending]; exact Option.some_ne_none _)
    change Acts f lx lx₂ (enter { lx with pending := none } name l)
      (enter { lx₂ with pending := none } name (f l)) [lx.refusal name l]
    rw [enter_shut { lx with pending := none } h.below closed,
      enter_shut { lx₂ with pending := none } h.below₂ closed₂]
    have refused := (h.acts.withPending none).fail (lx.refusal name l)
    rw [← refusal_relocate h] at refused
    exact refused

theorem acts_scan (along : Along f) (h : Like f lx lx₂) : ∃ new,
    lx₂.scan.1 = relocate f lx.scan.1 ∧ Acts f lx lx₂ lx.scan.2 lx₂.scan.2 new ∧
      new.filterMap LexError.notFound? = [] := by
  have hrest : lx₂.top.rest = lx.top.rest := by rw [h.top]; rfl
  have hlocation : lx₂.top.location = f lx.top.location := by rw [h.top]; rfl
  unfold scan
  rw [hrest, hlocation]
  cases lx.top.rest with
  | nil => exact ⟨[], rfl, h.acts, rfl⟩
  | cons c cs =>
    have hlexeme : Lexeme.scan lx₂.profile c cs = Lexeme.scan lx.profile c cs := by rw [h.profile]
    dsimp only
    rw [hlexeme]
    generalize Lexeme.scan lx.profile c cs = l
    have begun : Acts f lx lx₂
        (if l.kind = .directive then { lx with directive := some ⟨l.code, l.phases⟩ } else lx)
        (if l.kind = .directive then { lx₂ with directive := some ⟨l.code, l.phases⟩ } else lx₂)
        [] := by
      split
      · exact h.acts.withDirective _
      · exact h.acts
    split
    · refine ⟨_, rfl, (begun.fail (.invalidToken l.text lx.top.location l.width)).advance along _, ?_⟩
      rfl
    · exact ⟨_, rfl, begun.advance along _, rfl⟩

theorem scanSources_eq_scan (below : lx.below = []) : lx.scanSources = lx.scan := by
  obtain ⟨profile, resolver, options, top, _, lookahead, directive, pending, errors, remarks⟩ := lx
  subst below
  rfl

theorem acts_scanSources (along : Along f) (h : Like f lx lx₂) : ∃ new,
    lx₂.scanSources.1 = relocate f lx.scanSources.1 ∧
      Acts f lx lx₂ lx.scanSources.2 lx₂.scanSources.2 new ∧
        new.filterMap LexError.notFound? = [] := by
  rw [scanSources_eq_scan h.below, scanSources_eq_scan h.below₂]
  exact acts_scan along h

/-! ### The whole step -/

/-- Two lexers before the same text make the same token, if neither enters another source. -/
theorem acts_nextRaw (along : Along f) (h : Like f lx lx₂) (shut : lx.Shut) (shut₂ : lx₂.Shut) :
    ∃ new, lx₂.nextRaw.1 = relocate f lx.nextRaw.1 ∧
      Acts f lx lx₂ lx.nextRaw.2 lx₂.nextRaw.2 new := by
  obtain ⟨new, htoken, hacts, -⟩ := acts_runDirective along h
  have hpending := @runDirective_pending lx
  have hpending₂ := @runDirective_pending lx₂
  unfold nextRaw
  generalize lx.runDirective = r at htoken hacts hpending ⊢
  generalize lx₂.runDirective = r₂ at htoken hacts hpending₂ ⊢
  obtain ⟨t, lx'⟩ := r
  obtain ⟨t₂, lx₂'⟩ := r₂
  obtain rfl : t₂ = relocate f t := htoken
  cases t with
  | some t => exact ⟨new, rfl, hacts⟩
  | none =>
    have entered := acts_enterPending hacts.like (hacts.grows.shut (hpending rfl) shut)
      (hacts.grows₂.shut (hpending₂ rfl) shut₂)
    obtain ⟨new', htoken', hacts', -⟩ := acts_scanSources along entered.like
    exact ⟨_, htoken', (hacts.trans entered).trans hacts'⟩

end Lexer

end ScriptLang
