import Mathlib.Data.List.Forall2
import ScriptLang.Syntax.Parser

/-!
# Parsers that accept tokens

`Accepts p ts ts' Q` says that the parser `p`, before the tokens `ts` and with nothing wrong so far,
succeeds, stands before `ts'` afterwards, still with nothing wrong, and has a result as `Q` tells.
There is a rule for putting parsers one after the other (`Accepts.bind`) and one for each operation
on tokens.  `Refuses p ts e` says that it fails there with the error `e`.
-/

namespace ScriptLang.Syntax

/-! ### Readers -/

namespace TokenReader

/-- No lexical error is known or comes up. -/
structure Clean (r : TokenReader) : Prop where
  rest : ∀ p ∈ r.rest, p.2 = []
  found : r.found = []

variable {r : TokenReader} {t : Token} {ts : List Token}

theorem toList_reach (n : Nat) (r : TokenReader) : (reach n r).toList = r.toList := by
  fun_induction reach n r with
  | case1 => rfl
  | case2 => rfl
  | case3 n r t es rest hrest ih =>
    rw [ih, toList, toList, hrest, List.map_cons, List.append_assoc]
    rfl

/-- A reader with a token left reaches it. -/
theorem ahead_reach (h : r.toList = t :: ts) :
    ∃ ahead, (reach (1 - r.ahead.length) r).ahead = t :: ahead := by
  obtain ⟨ahead, rest, found, last, remarks⟩ := r
  cases ahead with
  | cons a as =>
    obtain ⟨rfl, _⟩ := List.cons.inj h
    exact ⟨as, by rw [show 1 - (a :: as).length = 0 by rw [List.length_cons]; omega]; rfl⟩
  | nil =>
    cases rest with
    | nil => cases h
    | cons p rest =>
      obtain ⟨rfl, _⟩ := List.cons.inj h
      exact ⟨[], rfl⟩

theorem clean_reach (n : Nat) {r : TokenReader} (clean : r.Clean) : (reach n r).Clean := by
  fun_induction reach n r with
  | case1 => exact clean
  | case2 => exact clean
  | case3 n r t es rest hrest ih =>
    have hes : es = [] := clean.rest (t, es) (by rw [hrest]; exact List.mem_cons_self)
    refine ih ⟨fun p hp => clean.rest p (by rw [hrest]; exact List.mem_cons_of_mem _ hp), ?_⟩
    rw [hes, List.append_nil, clean.found]

theorem peek_eq (h : r.toList = t :: ts) : (r.peekNth 0).1 = t := by
  obtain ⟨ahead, hahead⟩ := ahead_reach h
  change (reach (1 - r.ahead.length) r).ahead[0]?.getD (reach (1 - r.ahead.length) r).last = t
  rw [hahead]
  rfl

/-- Who looks again sees the same. -/
theorem peek_again (r : TokenReader) : (r.peekNth 0).2.peekNth 0 = r.peekNth 0 := by
  obtain ⟨ahead, rest, found, last, remarks⟩ := r
  cases ahead with
  | cons a as => simp [peekNth, reach]
  | nil =>
    cases rest with
    | nil => rfl
    | cons p rest => rfl

theorem next_eq (h : r.toList = t :: ts) : r.next.1 = t ∧ r.next.2.toList = ts := by
  obtain ⟨ahead, hahead⟩ := ahead_reach h
  have hlist := (toList_reach (1 - r.ahead.length) r).trans h
  unfold next
  rw [hahead]
  refine ⟨rfl, ?_⟩
  rw [toList, hahead] at hlist
  exact (List.cons.inj hlist).2

theorem peek_spec (h : r.toList = t :: ts) (clean : r.Clean) :
    (r.peekNth 0).1 = t ∧ (r.peekNth 0).2.toList = t :: ts ∧ (r.peekNth 0).2.Clean :=
  ⟨peek_eq h, (toList_reach _ r).trans h, clean_reach _ clean⟩

theorem clean_next (clean : r.Clean) : r.next.2.Clean := by
  unfold next
  split
  · exact ⟨(clean_reach _ clean).rest, (clean_reach _ clean).found⟩
  · exact clean

theorem next_spec (h : r.toList = t :: ts) (clean : r.Clean) :
    r.next.1 = t ∧ r.next.2.toList = ts ∧ r.next.2.Clean :=
  ⟨(next_eq h).1, (next_eq h).2, clean_next clean⟩

theorem last_reach (n : Nat) (r : TokenReader) : (reach n r).last = r.last := by
  fun_induction reach n r with
  | case1 => rfl
  | case2 => rfl
  | case3 n r t es rest hrest ih => exact ih

theorem last_next (r : TokenReader) : r.next.2.last = r.last := by
  unfold next
  split
  · exact last_reach _ r
  · rfl

theorem size_eq (r : TokenReader) : r.size = r.toList.length := by
  rw [size, toList, List.length_append, List.length_map]

end TokenReader

/-! ### Acceptance -/

/-- The parser stands before these tokens, and nothing was wrong so far. -/
structure ParserState.Before (s : ParserState) (ts : List Token) : Prop where
  tokens : s.reader.toList = ts
  clean : s.reader.Clean
  errors : s.errors = []

/-- The parser takes the tokens `ts` up to `ts'` and has a result as `Q` tells. -/
def Accepts {α : Type} (p : Parser α) (ts ts' : List Token) (Q : α → Prop) : Prop :=
  ∀ s : ParserState, s.Before ts → ∃ a s', p.run.run s = (.ok a, s') ∧ s'.Before ts' ∧ Q a

section

variable {α β : Type} {p : Parser α} {f : α → Parser β} {ts ts' ts'' : List Token} {Q : α → Prop}
  {R : β → Prop} {t : Token}

theorem run_bind (p : Parser α) (f : α → Parser β) (s : ParserState) :
    (p >>= f).run.run s =
      match p.run.run s with
      | (.ok a, s') => (f a).run.run s'
      | (.error e, s') => (.error e, s') := by
  change (match p.run.run s with | (r, s') => (ExceptT.bindCont f r).run s') = _
  cases p.run.run s with
  | mk r s' => cases r <;> rfl

theorem Accepts.bind (hp : Accepts p ts ts' Q) (hf : ∀ a, Q a → Accepts (f a) ts' ts'' R) :
    Accepts (p >>= f) ts ts'' R := by
  intro s hs
  obtain ⟨a, s', hrun, hs', ha⟩ := hp s hs
  obtain ⟨b, s'', hrun', hs'', hb⟩ := hf a ha s' hs'
  exact ⟨b, s'', by rw [run_bind, hrun]; exact hrun', hs'', hb⟩

theorem Accepts.pure {a : α} (h : Q a) : Accepts (Pure.pure a : Parser α) ts ts Q :=
  fun s hs => ⟨a, s, rfl, hs, h⟩

theorem Accepts.mono {Q' : α → Prop} (hp : Accepts p ts ts' Q) (h : ∀ a, Q a → Q' a) :
    Accepts p ts ts' Q' := fun s hs => by
  obtain ⟨a, s', hrun, hs', ha⟩ := hp s hs
  exact ⟨a, s', hrun, hs', h a ha⟩

/-- Whatever the result, the parser goes on. -/
theorem Accepts.bind_eq {a : α} (hp : Accepts p ts ts' (· = a)) (hf : Accepts (f a) ts' ts'' R) :
    Accepts (p >>= f) ts ts'' R :=
  hp.bind fun _ ha => ha ▸ hf

theorem Accepts.pure_bind {a : α} (hf : Accepts (f a) ts ts' R) :
    Accepts (Pure.pure a >>= f) ts ts' R := by
  exact Accepts.bind_eq (Accepts.pure (Q := (· = a)) rfl) hf

/-- The parser does not take the tokens `ts` and fails with the error. -/
def Refuses (p : Parser α) (ts : List Token) (e : ParseError) : Prop :=
  ∀ s : ParserState, s.Before ts → ∃ s', p.run.run s = (.error e, s')

theorem Refuses.bind {e : ParseError} (hp : Refuses p ts e) : Refuses (p >>= f) ts e := by
  intro s hs
  obtain ⟨s', hrun⟩ := hp s hs
  exact ⟨s', by rw [run_bind, hrun]⟩

/-- A parser that is come to fails in place of the whole. -/
theorem Accepts.bind_refuses {a : α} {e : ParseError} (hp : Accepts p ts ts' (· = a))
    (hf : Refuses (f a) ts' e) : Refuses (p >>= f) ts e := by
  intro s hs
  obtain ⟨_, s', hrun, hs', rfl⟩ := hp s hs
  obtain ⟨s'', hrun'⟩ := hf s' hs'
  exact ⟨s'', by rw [run_bind, hrun]; exact hrun'⟩

/-! ### Tokens -/

theorem accepts_peek (t : Token) (ts : List Token) :
    Accepts Parser.peek (t :: ts) (t :: ts) (· = t) := by
  intro s hs
  obtain ⟨htoken, hlist, hclean⟩ := TokenReader.peek_spec hs.tokens hs.clean
  exact ⟨_, _, rfl, ⟨hlist, hclean, hs.errors⟩, htoken⟩

theorem accepts_next (t : Token) (ts : List Token) : Accepts Parser.next (t :: ts) ts (· = t) := by
  intro s hs
  obtain ⟨htoken, hlist, hclean⟩ := TokenReader.next_spec hs.tokens hs.clean
  exact ⟨_, _, rfl, ⟨hlist, hclean, hs.errors⟩, htoken⟩

theorem accepts_remaining (ts : List Token) :
    Accepts Parser.remaining ts ts (· = ts.length) := by
  intro s hs
  exact ⟨_, _, rfl, hs, by rw [TokenReader.size_eq, hs.tokens]⟩

theorem accepts_freshId (ts : List Token) : Accepts Parser.freshId ts ts fun _ => True :=
  fun _ hs => ⟨_, _, rfl, ⟨hs.tokens, hs.clean, hs.errors⟩, trivial⟩

theorem accepts_nodeAt (token : Token) (ts : List Token) :
    Accepts (Parser.nodeAt token) ts ts (·.token = token) :=
  (accepts_freshId ts).bind fun _ _ => .pure rfl

theorem accepts_expectIf (test : Token → Bool) (h : test t = true) (what : String)
    (ts : List Token) : Accepts (Parser.expectIf test what) (t :: ts) ts (· = t) := by
  refine (accepts_peek t ts).bind_eq ?_
  rw [if_pos h]
  exact accepts_next t ts

theorem accepts_acceptIf {test : Token → Bool} (h : test t = true) (ts : List Token) :
    Accepts (Parser.acceptIf test) (t :: ts) ts (· = true) := by
  refine (accepts_peek t ts).bind_eq ?_
  rw [if_pos h]
  exact (accepts_next t ts).bind_eq (.pure rfl)

theorem accepts_not_acceptIf {test : Token → Bool} (h : test t = false) (ts : List Token) :
    Accepts (Parser.acceptIf test) (t :: ts) (t :: ts) (· = false) := by
  refine (accepts_peek t ts).bind_eq ?_
  rw [if_neg (by rw [h]; exact Bool.false_ne_true)]
  exact .pure rfl

theorem run_peek (s : ParserState) : Parser.peek.run.run s =
    (.ok (s.reader.peekNth 0).1, { s with reader := (s.reader.peekNth 0).2 }) := rfl

/-- What is done after looking at a token can rely on seeing it again. -/
theorem peek_bind_ext {f g : Token → Parser α}
    (h : ∀ t s, Parser.peek.run.run s = (.ok t, s) → (f t).run.run s = (g t).run.run s) :
    Parser.peek >>= f = Parser.peek >>= g := by
  funext s
  change (Parser.peek >>= f).run.run s = (Parser.peek >>= g).run.run s
  rw [run_bind, run_bind, run_peek]
  refine h _ _ ?_
  rw [run_peek, TokenReader.peek_again]

end

end ScriptLang.Syntax
