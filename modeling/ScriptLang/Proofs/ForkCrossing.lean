import ScriptLang.Proofs.Endings

/-!
# Reading through a fork

Statements and items can consume the closing token at which two sources fork.  From there the runs
go different ways, so that it matters what the first one makes of its own source (`Fork.Met`): either
it is content with having come so far, and then the second one is so too and with the same result; or
it goes on, and then it fails or consumes more.  A statement or an item that is complete by itself does
not go on, so it is read alike in the midst of others (`Fork.statement_through`,
`Fork.item_through`).
-/

namespace ScriptLang.Syntax

/-- A failure is reported, and then something is skipped. -/
theorem run_recover {α : Type} (p : Parser α) (skip : Parser Unit) (s : ParserState) :
    (Parser.recover p skip).run.run s =
      match p.run.run s with
      | (.ok a, t) => (.ok (some a), t)
      | (.error e, t) =>
        (do
          Parser.report e
          skip
          return none : Parser (Option α)).run.run t := by
  unfold Parser.recover
  rw [run_bind, show (tryCatch _ _ : Parser _).run.run s = _ from run_tryCatch _ _ s, run_bind]
  cases p.run.run s with
  | mk r t =>
    cases r with
    | ok a => rfl
    | error e =>
      dsimp only
      rw [run_bind, run_bind]
      cases (Parser.report e).run.run t with
      | mk r u =>
        cases r with
        | error e => rfl
        | ok _ =>
          dsimp only
          rw [run_bind, run_bind]
          cases skip.run.run u with
          | mk r v => cases r <;> rfl
theorem run_report (e : ParseError) (s : ParserState) :
    (Parser.report e).run.run s =
      (.ok (), { s with
        reader := s.reader.takeFound.2
        errors := s.errors ++ s.reader.found.map .ofLex ++ [e] }) := rfl

theorem slides_skipStatement (fuel depth : Nat) : Slides (Parser.skipStatement fuel depth) :=
  .of_kept fun _ kept => .of_mirrors (kept.stable.skipStatement fuel depth)

namespace Fork

variable {k : Fork} {loose loose' : Prop} {n m : Nat}

/-- The first run has come to the end of its own, or has reported an error. -/
structure Spent (k : Fork) (s : ParserState) : Prop where
  wide : k.wide
  last : s.reader.last.isEndOfFile = true
  spent : s.errors ≠ [] ∨ s.reader.toList.length ≤ k.near.length

/-- The first run has consumed some of its own, or has reported an error. -/
def Past (k : Fork) (s : ParserState) : Prop :=
  s.errors ≠ [] ∨ s.reader.toList.length < k.near.length

/-- How two runs can end that have met the fork: before it, right behind it, or anyhow after the first
one has gone on behind it. -/
inductive Met {α β : Type} (k : Fork) (loose : Prop) (n : Nat) (Q : α → β → Prop) :
    Except ParseError α × ParserState → Except ParseError β × ParserState → Prop where
  | together {r r' s s'} (results : Alike id Q r r') (states : k.Abreast n s s') :
    Met k loose n Q (r, s) (r', s')
  | through {a b s s'} (results : Q a b) (states : k.Behind s s') :
    Met k loose n Q (.ok a, s) (.ok b, s')
  | failed {e s r'} (spent : k.Spent s) : Met k loose n Q (.error e, s) r'
  | lost {a s r'} (spent : k.Spent s) (further : loose ∨ k.Past s) : Met k loose n Q (.ok a, s) r'

/-- From states that `I` relates the runs end in one of these ways. -/
def StepsFrom {α β : Type} (k : Fork) (loose : Prop) (n : Nat) (I : ParserState → ParserState → Prop)
    (Q : α → β → Prop) (p : Parser α) (q : Parser β) : Prop :=
  ∀ s s', I s s' → k.Met loose n Q (p.run.run s) (q.run.run s')

/-- From before the fork the runs end in one of these ways. -/
def Steps {α β : Type} (k : Fork) (loose : Prop) (n : Nat) (Q : α → β → Prop) (p : Parser α)
    (q : Parser β) : Prop := k.StepsFrom loose n (k.Abreast n) Q p q

section Rules

variable {α β γ δ : Type} {Q : α → β → Prop} {Q' : γ → δ → Prop} {p : Parser α} {q : Parser β}
  {f : α → Parser γ} {g : β → Parser δ} {I : ParserState → ParserState → Prop}

theorem Spent.after {s t : ParserState} (h : k.Spent s) (after : After s t) : k.Spent t where
  wide := h.wide
  last := after.last.symm ▸ h.last
  spent := h.spent.imp (fun errors none => errors (List.prefix_nil.1 (none ▸ after.errors)))
    (Nat.le_trans after.tokens.length_le)

theorem Past.after {s t : ParserState} (h : k.Past s) (after : After s t) : k.Past t :=
  h.imp (fun errors none => errors (List.prefix_nil.1 (none ▸ after.errors)))
    (Nat.lt_of_le_of_lt after.tokens.length_le)

/-- Behind the fork the first run has nothing left but its own. -/
theorem Behind.spent {s s' : ParserState} (h : k.Behind s s') (wide : k.wide) : k.Spent s :=
  ⟨wide, h.last, .inr (Nat.le_of_eq (congrArg _ h.tokens))⟩

/-- Whatever is done when the first run has spent its own. -/
theorem Spent.met {s : ParserState} (h : k.Spent s) (hp : Slides p) (further : loose ∨ k.Past s)
    (r' : Except ParseError β × ParserState) : k.Met loose n Q (p.run.run s) r' := by
  have after := hp s
  generalize p.run.run s = r at after
  obtain ⟨r, t⟩ := r
  cases r with
  | ok a => exact .lost (h.after after) (further.imp_right fun past => past.after after)
  | error e => exact .failed (h.after after)

/-- Who consumes a closing token after all has gone past its own. -/
theorem Spent.met_closes {s : ParserState} (h : k.Spent s) (slides : Slides p) (hp : Closes p)
    (r' : Except ParseError β × ParserState) : k.Met loose n Q (p.run.run s) r' := by
  have after := slides s
  cases run : p.run.run s with
  | mk r t =>
    rw [run] at after
    cases r with
    | error e => exact .failed (h.after after)
    | ok a =>
      refine .lost (h.after after) (.inr ?_)
      rcases h.spent with errors | short
      · exact Past.after (.inl errors) after
      · exact .inr (Nat.lt_of_lt_of_le (hp s a t h.last run).length_lt short)

theorem Met.weaken {r : Except ParseError α × ParserState} {r' : Except ParseError β × ParserState}
    (h : k.Met loose m Q r r') (le : m ≤ n) (weaker : loose → loose') : k.Met loose' n Q r r' := by
  cases h with
  | together results states => exact .together results (states.mono le)
  | through results states => exact .through results states
  | failed spent => exact .failed spent
  | lost spent further => exact .lost spent (further.imp_left weaker)

theorem StepsFrom.imp {Q₂ : α → β → Prop} (h : k.StepsFrom loose n I Q p q)
    (results : ∀ a b, Q a b → Q₂ a b) : k.StepsFrom loose n I Q₂ p q := by
  intro s s' hs
  have met := h s s' hs
  generalize p.run.run s = r at met
  generalize q.run.run s' = r' at met
  cases met with
  | together alike states => exact .together (alike.imp results) states
  | through hab states => exact .through (results _ _ hab) states
  | failed spent => exact .failed spent
  | lost spent further => exact .lost spent further

theorem Steps.strict (h : k.Steps False n Q p q) : k.Steps loose n Q p q :=
  fun s s' abreast => (h s s' abreast).weaken (Nat.le_refl n) False.elim

/-- Parsers that stay before the fork. -/
theorem StepsFrom.of_mirrors (h : MirrorsFrom id I (k.Abreast n) Q p q) :
    k.StepsFrom loose n I Q p q := fun s s' hs => .together (h s s' hs).1 (h s s' hs).2

theorem Steps.of_mirrors (h : Mirrors id (k.Abreast n) Q p q) : k.Steps loose n Q p q :=
  StepsFrom.of_mirrors h

/-- After a parser that stays before the fork. -/
theorem StepsFrom.after {J : ParserState → ParserState → Prop} (hp : MirrorsFrom id I J Q p q)
    (between : ∀ s s', J s s' → k.Abreast n s s')
    (hf : ∀ a b, Q a b → k.StepsFrom loose n J Q' (f a) (g b)) :
    k.StepsFrom loose n I Q' (p >>= f) (q >>= g) := by
  intro s s' hs
  obtain ⟨results, states⟩ := hp s s' hs
  rw [run_bind, run_bind]
  generalize p.run.run s = r at results states
  generalize q.run.run s' = r' at results states
  obtain ⟨r, t⟩ := r
  obtain ⟨r', t'⟩ := r'
  cases results with
  | ok h => exact hf _ _ h t t' states
  | error own => exact .together (.error own) (between _ _ states)

theorem Steps.after (hp : Mirrors id (k.Abreast n) Q p q)
    (hf : ∀ a b, Q a b → k.Steps loose n Q' (f a) (g b)) : k.Steps loose n Q' (p >>= f) (q >>= g) :=
  StepsFrom.after hp (fun _ _ => id) hf

/-- After a parser that may have gone through the fork. -/
theorem StepsFrom.bind (hp : k.StepsFrom loose n I Q p q)
    (hf : ∀ a b, Q a b → k.Steps loose n Q' (f a) (g b))
    (behind : ∀ a b, Q a b → k.StepsFrom loose n k.Behind Q' (f a) (g b))
    (slides : ∀ a, Slides (f a)) : k.StepsFrom loose n I Q' (p >>= f) (q >>= g) := by
  intro s s' hs
  have met := hp s s' hs
  rw [run_bind, run_bind]
  generalize p.run.run s = r at met
  generalize q.run.run s' = r' at met
  cases met with
  | together results states =>
    cases results with
    | ok h => exact hf _ _ h _ _ states
    | error own => exact .together (.error own) states
  | through h states => exact behind _ _ h _ _ states
  | failed spent => exact .failed spent
  | lost spent further => exact spent.met (slides _) further _

/-- After a parser that may have gone through the fork, up to a closing token. -/
theorem StepsFrom.bind_closes (wide : k.wide) (hp : k.StepsFrom True n I Q p q)
    (hf : ∀ a b, Q a b → k.Steps loose n Q' (f a) (g b)) (slides : ∀ a, Slides (f a))
    (closes : ∀ a, Closes (f a)) : k.StepsFrom loose n I Q' (p >>= f) (q >>= g) := by
  intro s s' hs
  have met := hp s s' hs
  rw [run_bind, run_bind]
  generalize p.run.run s = r at met
  generalize q.run.run s' = r' at met
  cases met with
  | together results states =>
    cases results with
    | ok h => exact hf _ _ h _ _ states
    | error own => exact .together (.error own) states
  | through h states => exact (states.spent wide).met_closes (slides _) (closes _) _
  | failed spent => exact .failed spent
  | lost spent further => exact spent.met_closes (slides _) (closes _) _

theorem StepsFrom.pure {a : α} {b : β} (h : Q a b) :
    k.StepsFrom loose n k.Behind Q (Pure.pure a : Parser α) (Pure.pure b) :=
  fun _ _ behind => .through h behind

/-- After a parser that may have gone through the fork nothing more is consumed. -/
theorem StepsFrom.pure_after {make : α → γ} {make' : β → δ} (hp : k.StepsFrom loose n I Q p q)
    (h : ∀ a b, Q a b → Q' (make a) (make' b)) :
    k.StepsFrom loose n I Q' (do return make (← p)) (do return make' (← q)) :=
  hp.bind (fun a b hab => .of_mirrors (.pure (h a b hab))) (fun a b hab => .pure (h a b hab))
    fun _ => .pure _

theorem peek_facing {t : Token} {f : Token → Parser α} {g : Token → Parser β}
    (h : k.StepsFrom loose n (k.Facing n t) Q (f t) (g t)) :
    k.StepsFrom loose n (k.Facing n t) Q (Parser.peek >>= f) (Parser.peek >>= g) := by
  intro s s' facing
  obtain ⟨first, second⟩ := facing.peek_eq
  rw [run_bind, run_bind, run_peek, run_peek, first, second]
  exact h _ _ (facing.peekNth 0)

theorem peek_steps {f : Token → Parser α} {g : Token → Parser β}
    (h : ∀ t, k.StepsFrom loose n (k.Facing n t) Q (f t) (g t)) :
    k.Steps loose n Q (Parser.peek >>= f) (Parser.peek >>= g) := by
  intro s s' abreast
  obtain ⟨t, facing⟩ := abreast.facing
  exact peek_facing (h t) s s' facing

theorem steps_from_abreast (t : Token) (h : k.Steps loose n Q p q) :
    k.StepsFrom loose n (k.Facing n t) Q p q := fun s s' facing => h s s' facing.abreast

theorem StepsFrom.ite {c : Prop} [Decidable c] {p₂ : Parser α} {q₂ : Parser β}
    (hp : c → k.StepsFrom loose n I Q p q) (hp₂ : ¬c → k.StepsFrom loose n I Q p₂ q₂) :
    k.StepsFrom loose n I Q (if c then p else p₂) (if c then q else q₂) := by
  split
  · next yes => exact hp yes
  · next no => exact hp₂ no

/-- The next token is consumed, also if it is the one at the fork. -/
theorem next_steps (t : Token) :
    k.StepsFrom loose n (k.Facing n t) (fun a b => a = t ∧ b = t) Parser.next Parser.next := by
  rintro s s' ⟨us, before, head⟩
  cases us with
  | nil =>
    cases head
    have first := TokenReader.next_spec before.stands.tokens before.stands.clean
    have second := TokenReader.next_spec before.stands.tokens' before.stands.clean'
    exact .through ⟨first.1, second.1⟩ before.stands.next
  | cons u us =>
    cases head
    have first := TokenReader.next_spec before.stands.tokens before.stands.clean
    have second := TokenReader.next_spec before.stands.tokens' before.stands.clean'
    refine .together (.ok ⟨first.1, second.1⟩) ⟨us, ?_, ?_, before.stands.next⟩
    · exact Nat.lt_of_succ_lt before.few
    · exact before.narrow.imp_right fun narrow u hu => narrow u (List.mem_cons_of_mem _ hu)

theorem expectSymbol_steps (c : Char) :
    k.Steps loose n Eq (Parser.expectSymbol c) (Parser.expectSymbol c) := by
  refine peek_steps fun t => .ite (fun _ => (next_steps t).imp ?_) fun _ =>
    .of_mirrors (throws trivial)
  rintro _ _ ⟨rfl, rfl⟩
  rfl

/-- What is done after a yes, with a token less to come, and what after a no. -/
theorem acceptWord_steps (w : Keyword) {p₂ : Parser α} {q₂ : Parser β}
    (hp : k.StepsFrom loose n (k.Abreast (n - 1)) Q p q) (hp₂ : k.Steps loose n Q p₂ q₂) :
    k.Steps loose n Q (do if ← Parser.acceptWord w then p else p₂)
      (do if ← Parser.acceptWord w then q else q₂) := by
  rw [Parser.acceptWord, Parser.acceptIf_branch_eq, Parser.acceptIf_branch_eq]
  refine peek_steps fun t => .ite (fun yes s s' facing => ?_) fun _ => steps_from_abreast t hp₂
  cases n with
  | zero =>
    obtain ⟨us, before, -⟩ := facing
    exact absurd before.few (Nat.not_lt_zero _)
  | succ n =>
    obtain ⟨results, states⟩ := next_lt (not_isCloser_of_isWord yes) s s' facing
    rw [run_bind, run_bind]
    exact hp _ _ states

/-- A repetition is allowed as many rounds as tokens are left, and that is enough on both sides. -/
theorem remaining_steps {f : Nat → Parser α} {g : Nat → Parser β}
    (h : ∀ m a b, m ≤ a → m ≤ b → k.Steps loose m Q (f a) (g b)) :
    k.Steps loose n Q (Parser.remaining >>= f) (Parser.remaining >>= g) := by
  rintro s s' ⟨us, before⟩
  obtain ⟨size, size', short⟩ := before.exactly
  exact (h (us.length + 1) _ _ size size' s s' short).weaken before.few id

end Rules

/-! ### Statements -/

section

variable {t : Token} (levels : Nat)

theorem nodeAt_behind (t : Token) :
    k.StepsFrom loose n k.Behind k.Counted (Parser.nodeAt t) (Parser.nodeAt t) := by
  intro s s' behind
  refine .through ?_ (Stands.freshId behind)
  change (⟨s'.nextId, t⟩ : Node) = ⟨s.nextId + k.shift, t⟩
  rw [behind.ids]

/-- At the end a statement gets its node. -/
theorem made_steps {I : ParserState → ParserState → Prop} {α : Type} [Numbered α]
    {p q : Parser (Node → α)} (hp : k.StepsFrom loose n I k.CountedAt p q) (t : Token) :
    k.StepsFrom loose n I k.Counted (do
      let make ← p
      return make (← Parser.nodeAt t)) (do
      let make ← q
      return make (← Parser.nodeAt t)) := by
  have node {make make' : Node → α} (h : k.CountedAt make make') (a b : Node)
      (hab : k.Counted a b) : k.Counted (make a) (make' b) := by
    rw [Counted, hab]
    exact h a
  refine hp.bind (fun make make' h => ?_) (fun make make' h => ?_) fun make =>
    (slides_nodeAt t).bind fun _ => .pure _
  · exact .of_mirrors ((nodeAt t).bind fun a b hab => .pure (node h a b hab))
  · exact (nodeAt_behind t).pure_after (node h)

/-- A part that may be left out. -/
theorem optionally_steps {α β γ δ : Type} {Q : α → β → Prop} {Q' : γ → δ → Prop} {p : Parser α}
    {q : Parser β} {f : Option α → Parser γ} {g : Option β → Parser δ} {c : Char}
    (plain : isPlain c = true) (hp : Mirrors id (k.Abreast n) Q p q)
    (hf : ∀ a b, Option.Rel Q a b → k.Steps loose n Q' (f a) (g b)) :
    k.Steps loose n Q' (do if ← Parser.acceptSymbol c then f (← some <$> p) else f (← pure none))
      (do if ← Parser.acceptSymbol c then g (← some <$> q) else g (← pure none)) := by
  refine Steps.after (acceptIf fun _ => not_isCloser_of_isSymbol plain) ?_
  rintro given _ rfl
  refine StepsFrom.ite (fun _ => ?_) fun _ => hf none none .none
  exact Steps.after (hp.map fun _ _ h => Option.Rel.some h) hf

theorem varDecl_steps (plain : isCloser t = false) :
    k.StepsFrom loose n (k.Facing n t) k.Counted (Parser.varDecl (Parser.expression levels))
      (Parser.varDecl (Parser.expression levels)) := by
  unfold Parser.varDecl
  refine StepsFrom.after (next plain) (fun _ _ => id) ?_
  rintro _ _ ⟨rfl, rfl⟩
  refine StepsFrom.ite (fun _ => ?_) fun _ => Steps.after (nodeAt _) ?_
  · exact Steps.after (Q := fun _ _ => False) (.throw trivial (ParseError.relocate_id _).symm) nofun
  rintro node _ rfl
  refine Steps.after ident ?_
  rintro name _ rfl
  refine optionally_steps rfl typeName fun type type' htype => ?_
  refine optionally_steps rfl (expression levels) fun init init' hinit => ?_
  refine (expectSymbol_steps ';').pure_after fun _ _ _ => ?_
  have types : type' = type := by
    cases htype with
    | some h => exact congrArg some h.symm
    | none => rfl
  have values : init' = renumber k.shift init := by
    cases hinit with
    | some h => exact congrArg some h
    | none => rfl
  rw [types, values]
  rfl

/-- The next token of both runs is `t` and the one behind it `u`. -/
def FacingBoth (k : Fork) (n : Nat) (t u : Token) (s s' : ParserState) : Prop :=
  ∃ us rest, k.Before n us s s' ∧ us ++ [k.stop] = t :: u :: rest

theorem FacingBoth.facing {u : Token} {s s' : ParserState} (h : k.FacingBoth n t u s s') :
    k.Facing n t s s' := by
  obtain ⟨us, rest, before, same⟩ := h
  exact ⟨us, before, by rw [same]; rfl⟩

/-- The token behind the next one is the same for both runs if the next one does not close anything. -/
theorem peekNth_one_steps {α β : Type} {Q : α → β → Prop} {f : Token → Parser α}
    {g : Token → Parser β} (plain : isCloser t = false)
    (h : ∀ u, k.StepsFrom loose n (k.FacingBoth n t u) Q (f u) (g u)) :
    k.StepsFrom loose n (k.Facing n t) Q (Parser.peekNth 1 >>= f) (Parser.peekNth 1 >>= g) := by
  rintro s s' ⟨us, before, head⟩
  have run (s : ParserState) : (Parser.peekNth 1).run.run s =
    (.ok (s.reader.peekNth 1).1, { s with reader := (s.reader.peekNth 1).2 }) := rfl
  have go (u : Token) (rest : List Token) (same : us ++ [k.stop] = t :: u :: rest) :
      k.Met loose n Q ((Parser.peekNth 1 >>= f).run.run s) ((Parser.peekNth 1 >>= g).run.run s') := by
    have split (ts : List Token) : us ++ k.stop :: ts = t :: u :: (rest ++ ts) := by
      rw [List.append_cons, same]
      rfl
    have peek {s : ParserState} {ts : List Token} (h : s.reader.toList = t :: u :: ts) :
        (s.reader.peekNth 1).1 = u := by
      rw [TokenReader.peekNth_eq, h]
      rfl
    have first := peek (before.stands.tokens.trans (split k.near))
    have second := peek (before.stands.tokens'.trans (split k.far))
    rw [run_bind, run_bind, run, run, first, second]
    exact h u _ _ ⟨us, rest, ⟨before.few, before.narrow, before.stands.peekNth 1⟩, same⟩
  cases us with
  | nil =>
    cases head
    cases plain.symm.trans k.stops
  | cons v us =>
    cases head
    cases us with
    | nil => exact go k.stop [] rfl
    | cons u us => exact go u (us ++ [k.stop]) rfl

/-- After the name of a statement that is an assignment comes what makes it one. -/
theorem ident_facing {u : Token} (named : t.kind = .identifier) :
    MirrorsFrom id (k.FacingBoth n t u) (k.Facing n u) Eq Parser.ident Parser.ident := by
  rintro s s' h
  have run (s : ParserState) (first : (s.reader.peekNth 0).1 = t) : Parser.ident.run.run s =
      (.ok ⟨(s.reader.peekNth 0).2.next.1.text, (s.reader.peekNth 0).2.next.1⟩,
        { s with reader := (s.reader.peekNth 0).2.next.2 }) := by
    rw [Parser.ident, Parser.expectKind, Parser.expectIf, run_bind, run_bind, run_peek]
    dsimp only
    rw [first, if_pos (by rw [named]; rfl)]
    rfl
  obtain ⟨first, second⟩ := h.facing.peek_eq
  obtain ⟨us, rest, before, same⟩ := h
  cases us with
  | nil => cases same
  | cons v us =>
    obtain ⟨rfl, behind⟩ := List.cons.inj same
    have stands := before.stands.peekNth 0
    have next := TokenReader.next_spec stands.tokens stands.clean
    have next' := TokenReader.next_spec stands.tokens' stands.clean'
    rw [run s first, run s' second]
    refine ⟨.ok ?_, us, ⟨Nat.lt_of_succ_lt before.few, ?_, stands.next⟩, ?_⟩
    · rw [next.1, next'.1]
    · exact before.narrow.imp_right fun narrow u hu => narrow u (List.mem_cons_of_mem _ hu)
    · rw [show us ++ [k.stop] = u :: rest from behind]
      rfl

/-- What makes a statement an assignment closes nothing. -/
theorem not_isCloser_of_assigns {u : Token}
    (h : ¬(!u.isSymbol '=' && (compoundAssignment? u).isNone &&
      (Parser.stepOperator? u).isNone) = true) : isCloser u = false := by
  refine Bool.eq_false_iff.2 fun closer => h ?_
  have kind := kind_of_isCloser closer
  have other (w : Keyword) : u.isWord w = false :=
    Bool.eq_false_iff.2 fun word => nomatch kind.symm.trans (kind_of_isWord word)
  have equals : u.isSymbol '=' = false := Bool.eq_false_iff.2 fun equals => by
    cases (not_isCloser_of_isSymbol rfl equals).symm.trans closer
  simp [Parser.stepOperator?, compoundAssignment?, kind, other, equals]

/-- What is done after an assignment, or without one. -/
theorem assignment?_steps {α β : Type} {Q : α → β → Prop} {f : Option (Node → Stmt) → Parser α}
    {g : Option (Node → Stmt) → Parser β} (named : t.kind = .identifier)
    (none : k.StepsFrom loose n (k.Facing n t) Q (f none) (g none))
    (abreast : ∀ make make', k.CountedAt make make' →
      k.Steps loose n Q (f (some make)) (g (some make')))
    (behind : ∀ make make', k.CountedAt make make' →
      k.StepsFrom loose n k.Behind Q (f (some make)) (g (some make')))
    (slides : ∀ a, Slides (f a)) :
    k.StepsFrom loose n (k.Facing n t) Q (Parser.assignment? (Parser.expression levels) >>= f)
      (Parser.assignment? (Parser.expression levels) >>= g) := by
  have assigned (target : Ident) (op : Option BinaryOp) {value value' : Expr}
      (hvalue : k.Counted value value') : k.Steps loose n
        (fun a b => ∃ make make', a = some make ∧ b = some make' ∧ k.CountedAt make make')
        (do
          let _ ← Parser.expectSymbol ';'
          return some fun node => Stmt.assign node target op value)
        (do
          let _ ← Parser.expectSymbol ';'
          return some fun node => Stmt.assign node target op value') := by
    refine (expectSymbol_steps ';').pure_after fun _ _ _ => ⟨_, _, rfl, rfl, fun node => ?_⟩
    rw [hvalue]
    rfl
  unfold Parser.assignment?
  rw [bind_assoc, bind_assoc]
  refine peekNth_one_steps (not_isCloser_of_kind (by rw [named]; decide)) fun u => ?_
  dsimp only
  split
  · exact fun s s' facing => none s s' facing.facing
  next assigns =>
  refine StepsFrom.bind (Q := fun a b => ∃ make make', a = some make ∧ b = some make' ∧
    k.CountedAt make make') (StepsFrom.after (ident_facing named) (fun _ _ => Facing.abreast) ?_)
    ?_ ?_ slides
  · rintro target _ rfl
    refine StepsFrom.after (next (not_isCloser_of_assigns assigns)) (fun _ _ => id) ?_
    rintro _ _ ⟨rfl, rfl⟩
    split
    · refine Steps.after (nodeAt _) ?_
      rintro node _ rfl
      exact Steps.after (Q := k.Counted) (.pure rfl) fun _ _ => assigned target _
    · exact Steps.after (expression levels) fun _ _ => assigned target _
  · rintro _ _ ⟨make, make', rfl, rfl, h⟩
    exact abreast make make' h
  · rintro _ _ ⟨make, make', rfl, rfl, h⟩
    exact behind make make' h

theorem expressionStatement_steps :
    k.Steps loose n k.CountedAt (Parser.expressionStatement (Parser.expression levels))
      (Parser.expressionStatement (Parser.expression levels)) := by
  refine Steps.after (expression levels) ?_
  rintro e _ rfl
  exact (expectSymbol_steps ';').pure_after fun _ _ _ _ => rfl

/-- Where no branch follows none is read. -/
theorem run_branches {s : ParserState} (h : Unbranched s.reader.toList) (fuel : Nat) : ∃ u,
    (Parser.branches (Parser.expression levels) (Parser.block levels) fuel).run.run s =
      (.ok .none, u) ∧ Looked s u := by
  obtain ⟨t, ts, tokens, elif, else'⟩ := h
  cases fuel with
  | zero => exact ⟨s, rfl, .refl s⟩
  | succ fuel =>
    refine ⟨_, ?_, looked_peekNth s 0⟩
    unfold Parser.branches
    rw [Parser.acceptWord, Parser.acceptIf_branch_eq, run_bind, run_peek]
    dsimp only
    rw [TokenReader.peek_eq tokens, if_neg (by rw [elif]; exact Bool.false_ne_true),
      Parser.acceptWord, Parser.acceptIf_branch_eq, run_bind, run_peek]
    dsimp only
    rw [TokenReader.peek_again, TokenReader.peek_eq tokens,
      if_neg (by rw [else']; exact Bool.false_ne_true)]
    rfl

theorem branches_behind (wide : k.wide) (a b : Nat) :
    k.StepsFrom k.loose n k.Behind k.Counted
      (Parser.branches (Parser.expression levels) (Parser.block levels) a)
      (Parser.branches (Parser.expression levels) (Parser.block levels) b) := by
  intro s s' behind
  rcases k.follows with loose | ⟨near, far⟩
  · exact (behind.spent wide).met (slides_branches levels a) (.inl loose) _
  · obtain ⟨u, run, looked⟩ := run_branches levels (behind.tokens.symm ▸ near) a
    obtain ⟨u', run', looked'⟩ := run_branches levels (behind.tokens'.symm ▸ far) b
    rw [run, run']
    exact .through rfl (Stands.looked behind looked looked')

section

variable (hblock : ∀ n, k.Steps False n (fun a b => k.wide ∧ k.Counted a b) (Parser.block levels)
  (Parser.block levels))

include hblock

/-- After a block that ends a statement. -/
theorem block_after {α β : Type} {Q : α → β → Prop} {make : Block → α} {make' : Block → β}
    (h : ∀ body, Q (make body) (make' (renumber k.shift body))) :
    k.Steps loose n Q (do return make (← Parser.block levels))
      (do return make' (← Parser.block levels)) := by
  refine (hblock n).strict.pure_after ?_
  rintro body _ ⟨-, rfl⟩
  exact h body

/-- A branch with a condition, and then what `rest` and `rest'` read. -/
theorem branch_steps {rest rest' : Parser Branches} (slides : Slides rest)
    (hrest : k.Steps k.loose n k.Counted rest rest')
    (behind : k.wide → k.StepsFrom k.loose n k.Behind k.Counted rest rest') :
    k.Steps k.loose n k.Counted
      (do
        let cond ← Parser.expression levels
        let body ← Parser.block levels
        return Branches.branch cond body (← rest))
      (do
        let cond ← Parser.expression levels
        let body ← Parser.block levels
        return Branches.branch cond body (← rest')) := by
  refine Steps.after (expression levels) ?_
  rintro cond _ rfl
  refine StepsFrom.bind (hblock n).strict ?_ ?_ fun _ => slides.bind fun _ => .pure _
  · rintro body _ ⟨-, rfl⟩
    refine hrest.pure_after ?_
    rintro others _ rfl
    rfl
  · rintro body _ ⟨wide, rfl⟩
    refine (behind wide).pure_after ?_
    rintro others _ rfl
    rfl

theorem branches_steps : ∀ m a b, m ≤ a → m ≤ b → k.Steps k.loose m k.Counted
    (Parser.branches (Parser.expression levels) (Parser.block levels) a)
    (Parser.branches (Parser.expression levels) (Parser.block levels) b)
  | 0, _, _, _, _ => fun s s' ⟨us, before⟩ => absurd before.few (Nat.not_lt_zero _)
  | m + 1, a + 1, b + 1, ha, hb => by
    have further := branch_steps levels hblock (slides_branches levels a)
      (branches_steps m a b (Nat.le_of_succ_le_succ ha) (Nat.le_of_succ_le_succ hb))
      fun wide => branches_behind levels wide a b
    unfold Parser.branches
    refine acceptWord_steps .elif (fun s s' abreast => ?_) (acceptWord_steps .else
      (fun s s' abreast => ?_) (.of_mirrors (.pure rfl)))
    · exact (further s s' abreast).weaken (Nat.le_succ m) id
    · refine (acceptWord_steps .if (fun t t' fewer => ?_) ?_ s s' abreast).weaken (Nat.le_succ m) id
      · exact further t t' (fewer.mono (Nat.sub_le m 1))
      · exact block_after levels hblock fun _ => rfl

theorem keywordStatement_steps (keyword : t.kind = .keyword) (w : Option Keyword) :
    k.StepsFrom k.loose n (k.Facing n t) k.CountedAt
      (Parser.keywordStatement (Parser.expression levels) (Parser.block levels) w)
      (Parser.keywordStatement (Parser.expression levels) (Parser.block levels) w) := by
  have plain : isCloser t = false := not_isCloser_of_kind (by rw [keyword]; decide)
  have consumed {α β : Type} {Q : α → β → Prop} {p : Token → Parser α} {q : Token → Parser β}
      (h : ∀ t, k.Steps k.loose n Q (p t) (q t)) :
      k.StepsFrom k.loose n (k.Facing n t) Q (Parser.next >>= p) (Parser.next >>= q) := by
    refine StepsFrom.after (next plain) (fun _ _ => id) fun u v both => ?_
    rw [both.1, both.2]
    exact h t
  unfold Parser.keywordStatement
  split
  · refine (varDecl_steps levels plain).pure_after ?_
    rintro decl _ rfl
    exact fun _ => rfl
  · refine (varDecl_steps levels plain).pure_after ?_
    rintro decl _ rfl
    exact fun _ => rfl
  · refine consumed fun _ => Steps.after (expression levels) ?_
    rintro cond _ rfl
    refine StepsFrom.bind (hblock n).strict ?_ ?_ fun _ => slides_remaining.bind fun fuel =>
      (slides_branches levels fuel).bind fun _ => .pure _
    · rintro body _ ⟨-, rfl⟩
      refine remaining_steps fun m a b ha hb => ?_
      refine (branches_steps levels hblock m a b ha hb).pure_after ?_
      rintro rest _ rfl
      exact fun _ => rfl
    · rintro body _ ⟨wide, rfl⟩ s s' behind
      have after (a b : Nat) : k.StepsFrom k.loose n k.Behind k.CountedAt
          (do
            let rest ← Parser.branches (Parser.expression levels) (Parser.block levels) a
            return fun node => Stmt.cond node (.branch cond body rest))
          (do
            let rest ← Parser.branches (Parser.expression levels) (Parser.block levels) b
            return fun node => Stmt.cond node
              (.branch (renumber k.shift cond) (renumber k.shift body) rest)) := by
        refine (branches_behind levels wide a b).pure_after ?_
        rintro rest _ rfl
        exact fun _ => rfl
      exact after s.reader.size s'.reader.size s s' behind
  · refine consumed fun _ => Steps.after (expression levels) ?_
    rintro cond _ rfl
    exact block_after levels hblock fun _ _ => rfl
  · exact consumed fun _ => block_after levels hblock fun _ _ => rfl
  · refine consumed fun _ => Steps.after ident ?_
    rintro v _ rfl
    refine Steps.after (expectWord .in) fun _ _ _ => Steps.after (expression levels) ?_
    rintro start _ rfl
    refine Steps.after (expectWord .range) fun _ _ _ => Steps.after (expression levels) ?_
    rintro stop _ rfl
    exact block_after levels hblock fun _ _ => rfl
  · have returned {value value' : Option Expr} (h : k.Counted value value') :
        k.Steps k.loose n k.CountedAt
          (do
            let _ ← Parser.expectSymbol ';'
            return fun node => Stmt.ret node value)
          (do
            let _ ← Parser.expectSymbol ';'
            return fun node => Stmt.ret node value') :=
      (expectSymbol_steps ';').pure_after fun _ _ _ _ => by rw [h]; rfl
    refine consumed fun _ => peek_steps fun u => .ite (fun _ => ?_) fun _ => ?_
    · exact steps_from_abreast u (Steps.after (Q := k.Counted) (.pure rfl) fun _ _ => returned)
    · refine steps_from_abreast u (Steps.after (Q := k.Counted) ((expression levels).map ?_)
        fun _ _ => returned)
      rintro e _ rfl
      rfl
  · exact consumed fun _ => (expectSymbol_steps ';').pure_after fun _ _ _ _ => rfl
  · exact consumed fun _ => (expectSymbol_steps ';').pure_after fun _ _ _ _ => rfl
  · exact steps_from_abreast t (expressionStatement_steps levels)

theorem statement_steps_of_block : k.Steps k.loose n k.Counted
    (Parser.statement (Parser.expression levels) (Parser.block levels))
    (Parser.statement (Parser.expression levels) (Parser.block levels)) := by
  have made (t : Token) (make : Node → Stmt) : Slides (do return make (← Parser.nodeAt t)) :=
    (slides_nodeAt t).bind fun _ => .pure _
  unfold Parser.statement
  have abreast {make make' : Node → Stmt} (h : k.CountedAt make make') (t : Token) :
      k.Steps k.loose n k.Counted (do return make (← Parser.nodeAt t))
        (do return make' (← Parser.nodeAt t)) := made_steps (Steps.of_mirrors (.pure h)) t
  have behind {make make' : Node → Stmt} (h : k.CountedAt make make') (t : Token) :
      k.StepsFrom k.loose n k.Behind k.Counted (do return make (← Parser.nodeAt t))
        (do return make' (← Parser.nodeAt t)) := made_steps (StepsFrom.pure h) t
  have block (body : Block) : k.CountedAt (fun node => Stmt.block node body)
      (fun node => Stmt.block node (renumber k.shift body)) := fun _ => rfl
  refine peek_steps fun t => .ite (fun _ => ?_) fun _ => .ite (fun keyword => ?_) fun _ =>
    .ite (fun named => ?_) fun _ => ?_
  · refine steps_from_abreast t (StepsFrom.bind (hblock n).strict ?_ ?_ fun body =>
      made t fun node => .block node body)
    · rintro body _ ⟨-, rfl⟩
      exact abreast (block body) t
    · rintro body _ ⟨-, rfl⟩
      exact behind (block body) t
  · exact made_steps (keywordStatement_steps levels hblock keyword _) t
  · refine assignment?_steps levels named ?_ (fun _ _ h => abreast h t) (fun _ _ h => behind h t) ?_
    · exact made_steps (steps_from_abreast t (expressionStatement_steps levels)) t
    · intro found
      cases found with
      | some make => exact made t make
      | none => exact (slides_expressionStatement levels).bind (made t)
  · exact made_steps (steps_from_abreast t (expressionStatement_steps levels)) t

omit hblock in
/-- After a failure the first run has reported an error. -/
theorem spent_recover {α : Type} {p : Parser α} {skip : Parser Unit} (wide : k.wide)
    (slides : Slides skip) {s u : ParserState} {e : ParseError} (run : p.run.run s = (.error e, u))
    (last : u.reader.last.isEndOfFile = true) :
    k.Spent ((Parser.recover p skip).run.run s).2 := by
  rw [run_recover, run]
  dsimp only
  rw [run_bind, run_report]
  have reported : k.Spent { u with
      reader := u.reader.takeFound.2
      errors := u.errors ++ u.reader.found.map .ofLex ++ [e] } :=
    ⟨wide, last, .inl (List.append_ne_nil_of_right_ne_nil _ (List.cons_ne_nil e []))⟩
  exact reported.after ((slides.bind fun _ => .pure none) _)

omit hblock in
/-- What is done when the first run has spent its own does not matter. -/
theorem Spent.met_bind {α β γ : Type} {Q : γ → β → Prop} {p : Parser α} {f : α → Parser γ}
    {s : ParserState} (h : k.Spent (p.run.run s).2) (slides : ∀ a, Slides (f a))
    (r' : Except ParseError β × ParserState) : k.Met True n Q ((p >>= f).run.run s) r' := by
  rw [run_bind]
  generalize p.run.run s = r at h
  obtain ⟨r, t⟩ := r
  cases r with
  | ok a => exact h.met (slides a) (.inl trivial) r'
  | error e => exact .failed h

/-- The statements of a block.  What comes behind the fork does not matter: the brace that ends the
block is still to come. -/
theorem statements_steps (wide : k.wide) : ∀ m a b, m ≤ a → m ≤ b → k.Steps True m k.Counted
    (Parser.statements (Parser.statement (Parser.expression levels) (Parser.block levels)) a)
    (Parser.statements (Parser.statement (Parser.expression levels) (Parser.block levels)) b)
  | 0, _, _, _, _ => fun s s' ⟨us, before⟩ => absurd before.few (Nat.not_lt_zero _)
  | m + 1, a + 1, b + 1, ha, hb => by
    have further (found : Option Stmt) : Slides (do
        return found.toList ++ (← Parser.statements
          (Parser.statement (Parser.expression levels) (Parser.block levels)) a)) :=
      (slides_statements levels a).bind fun _ => .pure _
    have skip : Slides (do Parser.skipStatement (← Parser.remaining) 0) :=
      slides_remaining.bind fun fuel => slides_skipStatement fuel 0
    unfold Parser.statements
    refine peek_steps fun t => .ite (fun _ => .of_mirrors (from_abreast t (.pure rfl))) fun _ => ?_
    intro s s' facing
    obtain ⟨us, before⟩ := facing.abreast
    have met := statement_steps_of_block levels hblock s s' ⟨us, before⟩
    cases run : (Parser.statement (Parser.expression levels) (Parser.block levels)).run.run s with
    | mk r u =>
    cases run' : (Parser.statement (Parser.expression levels) (Parser.block levels)).run.run s' with
    | mk r' u' =>
    rw [run, run'] at met
    cases met with
    | together results states =>
      obtain ⟨us', before'⟩ := states
      cases results with
      | error own =>
        exact Spent.met_bind (spent_recover wide skip run before'.stands.last) further _
      | @ok stmt stmt' h =>
        -- the statement took a token, so the fuel is still enough
        have shorter := (closes_statement levels s stmt u before.stands.last run).length_lt
        rw [before.stands.tokens, before'.stands.tokens, List.length_append,
          List.length_append] at shorter
        have fewer : k.Abreast m u u' := by
          refine ⟨us', ?_, before'.narrow, before'.stands⟩
          have := before.few
          omega
        have rest : k.Steps True m k.Counted
            (do return [stmt] ++ (← Parser.statements
              (Parser.statement (Parser.expression levels) (Parser.block levels)) a))
            (do return [stmt'] ++ (← Parser.statements
              (Parser.statement (Parser.expression levels) (Parser.block levels)) b)) := by
          refine (statements_steps wide m a b (Nat.le_of_succ_le_succ ha)
            (Nat.le_of_succ_le_succ hb)).pure_after ?_
          rintro stmts _ rfl
          rw [h]
          rfl
        rw [run_bind, run_bind, run_recover, run_recover, run, run']
        exact (rest u u' fewer).weaken (Nat.le_succ m) id
    | through h states =>
      rw [run_bind, run_recover, run]
      exact (states.spent wide).met (further _) (.inl trivial) _
    | failed spent => exact Spent.met_bind (spent_recover wide skip run spent.last) further _
    | lost spent _ =>
      rw [run_bind, run_recover, run]
      exact spent.met (further _) (.inl trivial) _

end

/-- A block begins only where one may. -/
theorem opening_brace : Mirrors id (k.Abreast n) (fun a b => a = b ∧ k.wide)
    (Parser.expectSymbol '{') (Parser.expectSymbol '{') := by
  refine peek_bind fun t => .ite (fun brace s s' facing => ?_) fun _ => throws trivial
  have wide : k.wide := by
    obtain ⟨us, before, head⟩ := facing
    refine before.narrow.resolve_right fun narrow => ?_
    cases (narrow t (List.mem_of_mem_head? head)).symm.trans brace
  have plain : isCloser t = false := not_isCloser_of_isSymbol rfl brace
  refine ((next plain).imp ?_) s s' facing
  rintro _ _ ⟨rfl, rfl⟩
  exact ⟨rfl, wide⟩

theorem block_steps : ∀ levels n, k.Steps False n (fun a b => k.wide ∧ k.Counted a b)
    (Parser.block levels) (Parser.block levels)
  | 0, _ => .of_mirrors failTooDeep
  | levels + 1, n => by
    unfold Parser.block
    refine Steps.after opening_brace ?_
    rintro t _ ⟨rfl, wide⟩
    refine Steps.after (nodeAt t) ?_
    rintro node _ rfl
    refine remaining_steps fun m a b ha hb => ?_
    refine StepsFrom.bind_closes wide (statements_steps levels (block_steps levels) wide m a b ha hb)
      ?_ ?_ ?_
    · rintro stmts _ rfl
      refine (expectSymbol_steps '}').pure_after fun _ _ _ => ⟨wide, ?_⟩
      rw [Counted, ← Stmt.allRenumbered_eq]
      rfl
    · exact fun _ => (slides_expectSymbol _).bind fun _ => .pure _
    · exact fun _ => closes_brace.bind (slides_expectSymbol _) fun _ => settles_pure _

/-- A statement, as read by two runs that may go through the fork. -/
theorem statement_steps (levels n : Nat) : k.Steps k.loose n k.Counted
    (Parser.statement (Parser.expression levels) (Parser.block levels))
    (Parser.statement (Parser.expression levels) (Parser.block levels)) :=
  statement_steps_of_block levels (block_steps levels)

end

/-! ### Items -/

section

variable {t : Token} (levels : Nat)

theorem outsideName_steps : k.Steps loose n Eq Parser.outsideName Parser.outsideName := by
  refine Steps.after (expectKind .quotedString nofun) ?_
  rintro t _ rfl
  exact (expectSymbol_steps ';').pure_after fun _ _ _ => rfl

theorem functionBody_steps : k.Steps loose n k.Counted (Parser.functionBody levels)
    (Parser.functionBody levels) := by
  have plain (w : Keyword) : ∀ t : Token, t.isWord w = true → isCloser t = false :=
    fun _ => not_isCloser_of_isWord
  have outside {make : String → FunctionBody} (h : ∀ name, renumber k.shift (make name) = make name) :
      k.Steps loose n k.Counted (do return make (← Parser.outsideName))
        (do return make (← Parser.outsideName)) := by
    refine outsideName_steps.pure_after ?_
    rintro name _ rfl
    exact (h name).symm
  unfold Parser.functionBody
  refine peek_steps fun t => .ite (fun _ => ?_) fun _ => ?_
  · exact steps_from_abreast t (block_after levels (block_steps levels) fun _ => rfl)
  · refine steps_from_abreast t (Steps.after (acceptIf (plain _)) ?_)
    rintro native _ rfl
    refine StepsFrom.ite (fun _ => outside fun _ => rfl) fun _ => Steps.after (acceptIf (plain _)) ?_
    rintro intrinsic _ rfl
    exact StepsFrom.ite (fun _ => outside fun _ => rfl) fun _ => .of_mirrors (failExpected _)

theorem function_steps : k.Steps loose n k.Counted (Parser.function levels)
    (Parser.function levels) := by
  have ended (name : Ident) (params : List Param) (n : Nat) : k.Steps loose n k.Counted
      (do
        let ret ← if ← Parser.acceptSymbol ':' then some <$> Parser.typeName else pure none
        let body ← Parser.functionBody levels
        return (⟨name, params, ret, body⟩ : Function))
      (do
        let ret ← if ← Parser.acceptSymbol ':' then some <$> Parser.typeName else pure none
        let body ← Parser.functionBody levels
        return (⟨name, params, ret, body⟩ : Function)) := by
    refine optionally_steps rfl typeName fun ret ret' hret => ?_
    refine (functionBody_steps levels).pure_after ?_
    rintro body _ rfl
    have types : ret' = ret := by
      cases hret with
      | some h => exact congrArg some h.symm
      | none => rfl
    rw [types]
    rfl
  unfold Parser.function
  refine Steps.after (expectWord .func) fun _ _ _ => Steps.after ident ?_
  rintro name _ rfl
  refine Steps.after (expectSymbol rfl) fun _ _ _ =>
    Steps.after (acceptIf fun _ => not_isCloser_of_isSymbol rfl) ?_
  rintro none _ rfl
  refine StepsFrom.ite (fun _ => ?_) fun _ => remaining_steps fun m a b ha hb => ?_
  · exact Steps.after (Q := Eq) (.pure rfl) (by rintro params _ rfl; exact ended name params n)
  · refine Steps.after (paramList m a b ha hb) ?_
    rintro params _ rfl
    exact ended name params m

/-- The name behind `import` closes nothing. -/
theorem importName : Mirrors id (k.Abreast n) Eq Parser.importName Parser.importName := by
  refine peek_bind fun t => .ite (fun quoted => ?_) fun _ => from_abreast t (ident.bind ?_)
  · exact next_bind (not_isCloser_of_kind (by rw [quoted]; decide)) (.pure rfl)
  · rintro name _ rfl
    exact .pure rfl

/-- Before the first token the identity of an item is taken. -/
theorem nodeAt_facing (t : Token) :
    MirrorsFrom id (k.Facing n t) (k.Facing n t) k.Counted (Parser.nodeAt t) (Parser.nodeAt t) := by
  rintro s s' ⟨us, before, head⟩
  refine ⟨.ok ?_, us, ⟨before.few, before.narrow, before.stands.freshId⟩, head⟩
  change (⟨s'.nextId, t⟩ : Node) = ⟨s.nextId + k.shift, t⟩
  rw [before.stands.ids]

theorem kind_of_isItemStart (h : Parser.isItemStart t = true) : t.kind = .keyword := by
  simp only [Parser.isItemStart, Bool.or_eq_true] at h
  rcases h with ((h | h) | h) | h <;> exact kind_of_isWord h

/-- An item, as read by two runs that may go through the fork. -/
theorem item_steps (starts : Parser.isItemStart t = true) :
    k.StepsFrom loose n (k.Facing n t) k.Counted (Parser.item levels) (Parser.item levels) := by
  have plain : isCloser t = false := not_isCloser_of_kind (by rw [kind_of_isItemStart starts]; decide)
  unfold Parser.item
  refine peek_facing ?_
  refine StepsFrom.after (nodeAt_facing t) (fun _ _ => Facing.abreast) ?_
  rintro node _ rfl
  refine .ite (fun _ => ?_) fun _ => .ite (fun _ => ?_) fun _ => ?_
  · refine steps_from_abreast t ((function_steps levels).pure_after ?_)
    rintro f _ rfl
    rfl
  · refine StepsFrom.after (next plain) (fun _ _ => id) fun _ _ _ => Steps.after importName ?_
    rintro name _ rfl
    exact (expectSymbol_steps ';').pure_after fun _ _ _ => rfl
  · refine (varDecl_steps levels plain).pure_after ?_
    rintro decl _ rfl
    rfl

end

/-! ### What is complete by itself -/

/-- What the first run reads up to the fork without an error, the second one reads just so. -/
theorem through_of_complete {α β : Type} {Q : α → β → Prop} {I : ParserState → ParserState → Prop}
    {p : Parser α} {q : Parser β} (steps : k.StepsFrom False n I Q p q) {s s' t : ParserState} {a : α}
    (begins : I s s') (run : p.run.run s = (.ok a, t)) (errors : t.errors = [])
    (tokens : t.reader.toList = k.near) :
    ∃ b t', q.run.run s' = (.ok b, t') ∧ Q a b ∧ k.Behind t t' := by
  have met := steps s s' begins
  rw [run] at met
  cases run' : q.run.run s' with
  | mk r' t' =>
    rw [run'] at met
    cases met with
    | together results states =>
      obtain ⟨us, before⟩ := states
      have lengths := congrArg List.length (tokens.symm.trans before.stands.tokens)
      rw [List.length_append, List.length_cons] at lengths
      omega
    | through h states => exact ⟨_, t', rfl, h, states⟩
    | lost _ further =>
      rcases further with loose | reported | fewer
      · exact loose.elim
      · exact absurd errors reported
      · rw [tokens] at fewer
        exact absurd fewer (Nat.lt_irrefl _)

/-- Where no block begins, the second run fails where the first one does. -/
theorem together_of_fails {α β : Type} {Q : α → β → Prop} {I : ParserState → ParserState → Prop}
    {p : Parser α} {q : Parser β} (steps : k.StepsFrom loose n I Q p q) (narrow : ¬k.wide)
    {s s' t : ParserState} {e : ParseError} (begins : I s s') (run : p.run.run s = (.error e, t)) :
    ∃ t', q.run.run s' = (.error e, t') ∧ k.Abreast n t t' := by
  have met := steps s s' begins
  rw [run] at met
  cases run' : q.run.run s' with
  | mk r' t' =>
    rw [run'] at met
    cases met with
    | together results states =>
      cases results with
      | error own => exact ⟨t', by rw [ParseError.relocate_id], states⟩
    | failed spent => exact absurd spent.wide narrow

end Fork

end ScriptLang.Syntax
