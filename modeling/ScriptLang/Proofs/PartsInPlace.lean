import ScriptLang.Proofs.ForkCrossing

/-!
# Parts of a source

A part of a source that the parser makes something of by itself becomes the same among other tokens,
its identities counted on (`Whole.in_place`), whatever stands behind it.  What has to be known of the
parser is that it only ends behind a closing token, and how it steps through a fork.
-/

namespace ScriptLang.Syntax

/-! ### Tokens by themselves -/

/-- The parser before tokens by themselves, and nothing wrong with them. -/
def byItself (limit : Nat) (ts : List Token) : ParserState :=
  { reader := { rest := ts.map fun t => (t, []), last := (ts.getLast?).getD default }, limit }

/-- By themselves the tokens become `a`: all of them are taken, and nothing is wrong. -/
def Whole {α : Type} (p : Parser α) (limit : Nat) (eof : Token) (ts : List Token) (a : α) : Prop :=
  ∃ t, p.run.run (byItself limit (ts ++ [eof])) = (.ok a, t) ∧ t.reader.toList = [eof] ∧ t.errors = []

theorem toList_byItself (limit : Nat) (ts : List Token) : (byItself limit ts).reader.toList = ts := by
  change [] ++ (ts.map fun t => (t, ([] : List LexError))).map Prod.fst = ts
  rw [List.nil_append, List.map_map]
  exact List.map_id ts

theorem clean_byItself (limit : Nat) (ts : List Token) : (byItself limit ts).reader.Clean where
  rest p hp := by
    obtain ⟨t, -, rfl⟩ := List.mem_map.1 hp
    rfl
  found := rfl

theorem last_byItself (limit : Nat) (ts : List Token) (t : Token) :
    (byItself limit (ts ++ [t])).reader.last = t := by
  change ((ts ++ [t]).getLast?).getD default = t
  rw [List.getLast?_concat]
  rfl

/-- Between the states the parser has gone on to the tokens `ts` and has reported `es`. -/
structure Went (s u : ParserState) (ts : List Token) (es : List ParseError) : Prop where
  tokens : u.reader.toList = ts
  clean : u.reader.Clean
  last : u.reader.last = s.reader.last
  limit : u.limit = s.limit
  errors : u.errors = s.errors ++ es

section

variable {α β : Type} {limit : Nat} {eof t : Token} {ts us far : List Token} {s u v : ParserState}
  {es es' : List ParseError} {p : Parser α}

theorem Went.trans (h : Went s u ts es) (h' : Went u v us es') : Went s v us (es ++ es') where
  tokens := h'.tokens
  clean := h'.clean
  last := h'.last.trans h.last
  limit := h'.limit.trans h.limit
  errors := by rw [h'.errors, h.errors, List.append_assoc]

theorem Went.of_looked (looked : Looked s u) (tokens : s.reader.toList = ts)
    (clean : s.reader.Clean) : Went s u ts [] where
  tokens := looked.tokens.trans tokens
  clean := looked.clean clean
  last := looked.last
  limit := looked.limit
  errors := looked.errors.trans (List.append_nil _).symm

theorem run_next (tokens : s.reader.toList = t :: ts) (clean : s.reader.Clean) :
    ∃ u, Parser.next.run.run s = (.ok t, u) ∧ Went s u ts [] := by
  obtain ⟨token, list, clean'⟩ := TokenReader.next_spec tokens clean
  refine ⟨_, congrArg (fun t => (Except.ok t, _)) token, list, clean', TokenReader.last_next _, rfl,
    (List.append_nil _).symm⟩

/-! ### What fails at once -/

theorem fails_bind {f : α → Parser β} (h : ∃ e u, p.run.run s = (.error e, u)) :
    ∃ e u, (p >>= f).run.run s = (.error e, u) := by
  obtain ⟨e, u, run⟩ := h
  exact ⟨e, u, by rw [run_bind, run]⟩

theorem fails_peek {f : Token → Parser α} (tokens : s.reader.toList = t :: ts)
    (h : ∀ u : ParserState, u.reader.toList = t :: ts → ∃ e v, (f t).run.run u = (.error e, v)) :
    ∃ e u, (Parser.peek >>= f).run.run s = (.error e, u) := by
  rw [run_bind, run_peek, TokenReader.peek_eq tokens]
  exact h _ ((TokenReader.toList_reach _ _).trans tokens)

/-- What a parser makes something of has a first token, and the parser does not fail before it. -/
theorem Whole.begins {a : α} (whole : Whole p limit eof ts a) (bad : Token → Bool)
    (fails : ∀ (t : Token) (us : List Token) (s : ParserState), bad t = true →
      s.reader.toList = t :: us → ∃ e u, p.run.run s = (.error e, u)) (final : bad eof = true) :
    ∃ t us, ts = t :: us ∧ bad t = false := by
  obtain ⟨u, run, -⟩ := whole
  have begun (t : Token) (us : List Token) (tokens : ts ++ [eof] = t :: us) : bad t = false := by
    refine Bool.eq_false_iff.2 fun unbegun => ?_
    obtain ⟨e, v, failed⟩ := fails t us _ unbegun ((toList_byItself limit _).trans tokens)
    cases run.symm.trans failed
  cases ts with
  | nil => exact nomatch (begun eof [] rfl).symm.trans final
  | cons t us => exact ⟨t, us, rfl, begun t (us ++ [eof]) rfl⟩

/-! ### Parts among others -/

/-- The end of the source is no keyword. -/
theorem isWord_of_isEndOfFile (final : eof.isEndOfFile = true) (w : Keyword) : eof.isWord w = false :=
  Bool.eq_false_iff.2 fun word => by
    cases (kind_of_isWord word).symm.trans (beq_iff_eq.1 final)

/-- The end of the source is no branch of a conditional. -/
theorem unbranched_end (final : eof.isEndOfFile = true) : Unbranched [eof] :=
  ⟨eof, [], rfl, isWord_of_isEndOfFile final _, isWord_of_isEndOfFile final _⟩

/-- By itself and among others the parser stands before the same tokens up to the fork. -/
theorem Fork.before_byItself {k : Fork} (near : k.near = [eof]) (final : eof.isEndOfFile = true)
    (errors : k.errors = s.errors) (shift : k.shift = s.nextId)
    (narrow : k.wide ∨ ∀ t ∈ us ++ [k.stop], t.isSymbol '{' = false)
    (tokens : s.reader.toList = us ++ k.stop :: k.far) (clean : s.reader.Clean)
    (limits : s.limit = limit) :
    k.Before (us.length + 1) us (byItself limit (us ++ [k.stop] ++ [eof])) s where
  few := Nat.lt_succ_self _
  narrow := narrow
  stands :=
    { tokens := by
        rw [toList_byItself, near, List.append_assoc]
        rfl
      tokens' := tokens
      clean := clean_byItself _ _
      clean' := clean
      last := by
        rw [last_byItself]
        exact final
      limit := limits.symm
      ids := by
        rw [shift]
        exact (Nat.zero_add _).symm
      silent := rfl
      errors := errors.symm }

/-- A part that is whole ends with a closing token. -/
theorem Whole.closed {a : α} (whole : Whole p limit eof ts a) (closes : Closes p)
    (final : eof.isEndOfFile = true) : ∃ us stop, ts = us ++ [stop] ∧ isCloser stop = true := by
  obtain ⟨t, run, left, -⟩ := whole
  obtain ⟨us, stop, split, closer⟩ := closes _ a t (by rwa [last_byItself]) run
  rw [toList_byItself, left] at split
  have together : ts ++ [eof] = us ++ [stop] ++ [eof] := by
    rw [split, List.append_assoc]
    rfl
  exact ⟨us, stop, List.append_cancel_right together, closer⟩

/-- What is whole by itself is the same among others. -/
theorem Whole.in_place [Numbered α] {a : α} {first : Token} {loose : Prop}
    (whole : Whole p limit eof ts a) (begins : ts.head? = some first)
    (closes : Closes p) (slides : Slides p)
    (steps : ∀ (k : Fork) (n : Nat), (k.loose ↔ loose) →
      k.StepsFrom False n (k.Facing n first) k.Counted p p)
    (final : eof.isEndOfFile = true) (follows : loose ∨ Unbranched far)
    (tokens : s.reader.toList = ts ++ far) (clean : s.reader.Clean) (limits : s.limit = limit) :
    ∃ u, p.run.run s = (.ok (renumber s.nextId a), u) ∧ Went s u far [] := by
  obtain ⟨us, stop, rfl, closer⟩ := whole.closed closes final
  obtain ⟨t, run, left, silent⟩ := whole
  let k : Fork :=
    { stop, near := [eof], far, shift := s.nextId, errors := s.errors, loose, stops := closer
      follows := follows.imp_right fun unbranched => ⟨unbranched_end final, unbranched⟩ }
  have facing : k.Facing (us.length + 1) first (byItself limit (us ++ [stop] ++ [eof])) s :=
    ⟨us, Fork.before_byItself rfl final rfl rfl (.inl trivial)
      (by rw [tokens, List.append_assoc]; rfl) clean limits, begins⟩
  obtain ⟨b, u, run', same, behind⟩ :=
    k.through_of_complete (steps k _ Iff.rfl) facing run silent left
  have after := slides s
  rw [run'] at after
  rw [Fork.Counted] at same
  refine ⟨u, by rw [← same]; exact run', behind.tokens', behind.clean', after.last, after.limit, ?_⟩
  exact behind.errors.trans (List.append_nil _).symm

end

/-! ### Computing with parts -/

/-- What a parser makes of tokens by themselves, if it takes all of them and nothing is wrong. -/
def whole? {α : Type} (p : Parser α) (limit : Nat) (eof : Token) (ts : List Token) : Option α :=
  match p.run.run (byItself limit (ts ++ [eof])) with
  | (.ok a, t) => if t.reader.toList = [eof] ∧ t.errors = [] then some a else none
  | _ => none

theorem whole_of_whole? {α : Type} {p : Parser α} {limit : Nat} {eof : Token} {ts : List Token}
    {a : α} (h : whole? p limit eof ts = some a) : Whole p limit eof ts a := by
  unfold whole? at h
  split at h
  · next found t run =>
    split at h
    · next done =>
      cases h
      exact ⟨t, run, done⟩
    · cases h
  · cases h

end ScriptLang.Syntax
