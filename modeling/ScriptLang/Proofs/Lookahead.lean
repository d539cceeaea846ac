import Mathlib
import ScriptLang.Proofs.SourceTiling
import ScriptLang.Proofs.TriviaOptions

/-!
# Looking ahead

A lexer that looks ahead keeps the tokens that it has made in advance (`Stands`), and has entered and
left sources for them that the tokens given out do not tell of.  Still every call takes the token
that comes next or takes none (`Stands.perform`), so that any calls together take the tokens that
lexing alone would give out, in their order, and in the end the errors are the same
(`calls_take_in_order`).
-/

namespace ScriptLang

namespace Lexer

/-! ### Calls -/

/-- What can be asked of a lexer. -/
inductive Call where
  | lex
  | peek
  | peekNth (n : Nat)
  | location
  | expect (kind : TokenKind) (code : Nat)
  | expectKind (kind : TokenKind)
  | expectSymbol (c : Char)
  | expectKeyword (code : Nat)
  | expectIdentifier
  | accept (kind : TokenKind) (code : Nat)
  | acceptSymbol (c : Char)
  | acceptKeyword (code : Nat)

/-- What a call answers. -/
inductive Answer where
  | lexed (t : Token)
  | shown (t : Token)
  | place (l : Location)
  | expected (r : Except LexError Token)
  | accepted (t : Option Token)
  | tested (b : Bool)

/-- Answer a call. -/
def perform (lx : Lexer) : Call → Answer × Lexer
  | .lex => lx.lex.map .lexed id
  | .peek => lx.peek.map .shown id
  | .peekNth n => (lx.peekNth n).map .shown id
  | .location => lx.peek.map (fun t => .place t.location) id
  | .expect kind code => (lx.expect kind code).map .expected id
  | .expectKind kind => (lx.expectKind kind).map .expected id
  | .expectSymbol c => (lx.expectSymbol c).map .expected id
  | .expectKeyword code => (lx.expectKeyword code).map .expected id
  | .expectIdentifier => lx.expectIdentifier.map .expected id
  | .accept kind code => (lx.accept kind code).map .accepted id
  | .acceptSymbol c => (lx.acceptSymbol c).map .tested id
  | .acceptKeyword code => (lx.acceptKeyword code).map .tested id

/-- The answer that the next token is not the one asked for. -/
def Answer.Refuses : Answer → Prop
  | .expected (.error _) | .accepted none | .tested false => True
  | _ => False

/-- The token that a call takes.  A test that succeeds takes the one that a look ahead shows. -/
def taken? (lx : Lexer) (c : Call) : Option Token :=
  match (lx.perform c).1 with
  | .lexed t | .expected (.ok t) => some t
  | .accepted t => t
  | .tested true => some lx.peek.1
  | _ => none

/-- The tokens that calls take one after another, and the lexer behind them. -/
def converse : List Call → Lexer → List Token × Lexer
  | [], lx => ([], lx)
  | c :: calls, lx =>
    let (tokens, last) := converse calls (lx.perform c).2
    ((lx.taken? c).toList ++ tokens, last)

/-- The tokens that are given out by lexing `n` times and nothing else. -/
def lexTimes : Nat → Lexer → List Token × Lexer
  | 0, lx => ([], lx)
  | n + 1, lx =>
    let (tokens, last) := lexTimes n lx.lex.2
    (lx.lex.1 :: tokens, last)

/-! ### The tokens to come -/

/-- The lexer when `n` tokens have been made. -/
def past : Nat → Lexer → Lexer
  | 0, lx => lx
  | n + 1, lx => (past n lx).nextKept.2

/-- The token that comes behind `n` others. -/
def nth (lx : Lexer) (n : Nat) : Token := (lx.past n).nextKept.1

/-- The `n` tokens that come behind `i` others. -/
def tokensFrom (lx : Lexer) (i n : Nat) : List Token := (List.range' i n).map lx.nth

variable {lx fresh : Lexer} {i j k n : Nat}

theorem tokensFrom_succ (lx : Lexer) (i n : Nat) :
    lx.tokensFrom i (n + 1) = lx.nth i :: lx.tokensFrom (i + 1) n := by
  simp [tokensFrom, List.range'_succ]

theorem tokensFrom_add (lx : Lexer) (i m n : Nat) :
    lx.tokensFrom i (m + n) = lx.tokensFrom i m ++ lx.tokensFrom (i + m) n := by
  simp [tokensFrom, ← List.range'_append_1]

@[simp] theorem length_tokensFrom (lx : Lexer) (i n : Nat) : (lx.tokensFrom i n).length = n := by
  simp [tokensFrom]

theorem getElem?_tokensFrom (lx : Lexer) (h : n < k) :
    (lx.tokensFrom i k)[n]? = some (lx.nth (i + n)) := by
  simp [tokensFrom, h]

theorem mem_tokensFrom {t : Token} (h : t ∈ lx.tokensFrom i n) : ∃ m < i + n, t = lx.nth m := by
  obtain ⟨m, inside, rfl⟩ := List.mem_map.1 h
  exact ⟨m, (List.mem_range'_1.1 inside).2, rfl⟩

/-! ### Tokens kept in advance -/

theorem nextKept_of_raw {next : Lexer} {t : Token} (raw : lx.nextRaw = (t, next)) :
    lx.nextKept = if lx.options.keeps t.kind then (t, next) else next.nextKept := by
  rw [nextKept]
  split
  next token lx' found =>
    obtain ⟨rfl, rfl⟩ := Prod.mk.inj (raw.symm.trans found)
    exact dite_eq_ite

/-- The lexer with other tokens kept in advance. -/
def keeping (ahead : List Token) (lx : Lexer) : Lexer := { lx with lookahead := ahead }

theorem furnished_of_options {o : LexerOptions} (ahead : List Token) (h : lx.options = o) :
    lx.furnished [] ahead o = lx.keeping ahead := by
  subst h
  rfl

theorem nextRaw_keeping (ahead : List Token) (lx : Lexer) :
    (lx.keeping ahead).nextRaw = (lx.nextRaw.1, lx.nextRaw.2.keeping ahead) := by
  have read := @nextRaw_furnished [] ahead lx.options lx
  rwa [furnished_of_options ahead rfl, furnished_of_options ahead lx.nextRaw_options] at read

/-- What is kept in advance does not matter for the next token to be made. -/
theorem nextKept_keeping (ahead : List Token) (lx : Lexer) :
    (lx.keeping ahead).nextKept = (lx.nextKept.1, lx.nextKept.2.keeping ahead) := by
  have raw' := nextRaw_keeping ahead lx
  induction lx using nextKept.induct with
  | case1 lx t next raw kept =>
    rw [raw] at raw'
    rw [nextKept_of_raw raw, nextKept_of_raw raw', if_pos kept]
    exact if_pos kept
  | case2 lx t next raw skipped ih =>
    rw [raw] at raw'
    rw [nextKept_of_raw raw, nextKept_of_raw raw', if_neg skipped]
    exact (if_neg skipped).trans (ih (nextRaw_keeping ahead next))

/-- Looking ahead makes the tokens that come behind those made before. -/
theorem lookAhead_past (fresh : Lexer) (m : Nat) : ∀ (i : Nat) (ahead : List Token),
    lookAhead m ((fresh.past i).keeping ahead) =
      (fresh.past (i + m)).keeping (ahead ++ fresh.tokensFrom i m) := by
  induction m with
  | zero =>
    intro i ahead
    simp [lookAhead, tokensFrom]
  | succ m ih =>
    intro i ahead
    have made := ih (i + 1) (ahead ++ [fresh.nth i])
    rw [lookAhead, nextKept_keeping]
    change lookAhead m ((fresh.past (i + 1)).keeping (ahead ++ [fresh.nth i])) = _
    rw [made, tokensFrom_succ, List.append_assoc, Nat.add_right_comm]
    rfl

/-- The lexer has given out the first `j` tokens, and keeps those that it has made besides. -/
def Stands (fresh : Lexer) (j : Nat) (lx : Lexer) : Prop :=
  ∃ k, lx = (fresh.past (j + k)).keeping (fresh.tokensFrom j k)

theorem stands_fresh (none : fresh.lookahead = []) : Stands fresh 0 fresh := by
  refine ⟨0, ?_⟩
  rw [keeping, tokensFrom, List.range'_zero, List.map_nil, ← none]
  rfl

/-! ### One call -/

/-- Looking ahead shows a token to come and takes none. -/
theorem Stands.peekNth (h : Stands fresh j lx) (n : Nat) :
    (lx.peekNth n).1 = fresh.nth (j + n) ∧ Stands fresh j (lx.peekNth n).2 := by
  obtain ⟨k, rfl⟩ := h
  have looked := lookAhead_past fresh (n + 1 - k) (j + k) (fresh.tokensFrom j k)
  rw [← tokensFrom_add, Nat.add_assoc] at looked
  have count : ((fresh.past (j + k)).keeping (fresh.tokensFrom j k)).lookahead.length = k :=
    length_tokensFrom fresh j k
  have shown : n < k + (n + 1 - k) := by omega
  rw [Lexer.peekNth, count, looked]
  refine ⟨?_, _, rfl⟩
  rw [keeping, getElem?_tokensFrom fresh shown, Option.getD_some]

theorem Stands.peek (h : Stands fresh j lx) :
    lx.peek.1 = fresh.nth j ∧ Stands fresh j lx.peek.2 := h.peekNth 0

/-- Lexing takes the token that comes next. -/
theorem Stands.lex (h : Stands fresh j lx) :
    lx.lex.1 = fresh.nth j ∧ Stands fresh (j + 1) lx.lex.2 := by
  obtain ⟨k, rfl⟩ := h
  cases k with
  | zero =>
    have made : ((fresh.past (j + 0)).keeping (fresh.tokensFrom j 0)).lex =
        ((fresh.past j).nextKept.1, (fresh.past j).nextKept.2.keeping []) :=
      nextKept_keeping [] (fresh.past j)
    rw [made]
    exact ⟨rfl, 0, rfl⟩
  | succ k =>
    have given : ((fresh.past (j + (k + 1))).keeping (fresh.tokensFrom j (k + 1))).lex =
        (fresh.nth j, (fresh.past (j + (k + 1))).keeping (fresh.tokensFrom (j + 1) k)) := by
      rw [tokensFrom_succ]
      rfl
    rw [given]
    exact ⟨rfl, k, by rw [Nat.add_right_comm, Nat.add_assoc]⟩

/-- What is asked for is taken if it comes next; otherwise the error tells where the next token is. -/
theorem Stands.expectIf (h : Stands fresh j lx) (test : Token → Bool) (expected : String) :
    (∃ next, lx.expectIf test expected = (.ok (fresh.nth j), next) ∧ Stands fresh (j + 1) next) ∨
      ∃ next, lx.expectIf test expected = (.error (unexpected expected (fresh.nth j)), next) ∧
        Stands fresh j next := by
  obtain ⟨shown, ahead⟩ := h.peek
  obtain ⟨given, behind⟩ := ahead.lex
  by_cases wanted : test lx.peek.1 = true
  · refine .inl ⟨_, ?_, behind⟩
    rw [← given]
    exact if_pos wanted
  · refine .inr ⟨_, ?_, ahead⟩
    rw [← shown]
    exact if_neg wanted

theorem Stands.accept (h : Stands fresh j lx) (kind : TokenKind) (code : Nat) :
    (∃ next, lx.accept kind code = (some (fresh.nth j), next) ∧ Stands fresh (j + 1) next) ∨
      ∃ next, lx.accept kind code = (none, next) ∧ Stands fresh j next := by
  rcases h.expectIf (·.is kind code) (describeExpected lx.profile kind code) with
    ⟨next, found, behind⟩ | ⟨next, found, ahead⟩
  · have taken : lx.expect kind code = (.ok (fresh.nth j), next) := found
    exact .inl ⟨next, by rw [Lexer.accept, taken], behind⟩
  · have refused : lx.expect kind code = (.error _, next) := found
    exact .inr ⟨next, by rw [Lexer.accept, refused], ahead⟩

/-- What a call does to the tokens to come: it takes the next one, or takes none, and if it is
refused its error tells where the next one is. -/
inductive Goes (fresh : Lexer) (j : Nat) (lx : Lexer) (c : Call) : Prop where
  | takes (taken : lx.taken? c = some (fresh.nth j)) (next : Stands fresh (j + 1) (lx.perform c).2)
      (granted : ¬ (lx.perform c).1.Refuses)
  | leaves (taken : lx.taken? c = none) (next : Stands fresh j (lx.perform c).2)
      (told : ∀ e, (lx.perform c).1 = .expected (.error e) → e.location = (fresh.nth j).location)

theorem Goes.of_shown {c : Call} {a : Answer} {next : Lexer} (performed : lx.perform c = (a, next))
    (shows : (∃ t, a = .shown t) ∨ ∃ l, a = .place l) (ahead : Stands fresh j next) :
    Goes fresh j lx c := by
  rcases shows with ⟨t, rfl⟩ | ⟨l, rfl⟩ <;>
    exact .leaves (by rw [taken?, performed]) (by rwa [performed]) (by rw [performed]; nofun)

theorem Goes.of_expected {c : Call} (test : Token → Bool) {expected : String}
    (performed : lx.perform c = (lx.expectIf test expected).map .expected id)
    (h : Stands fresh j lx) : Goes fresh j lx c := by
  rcases h.expectIf test expected with ⟨next, found, behind⟩ | ⟨next, found, ahead⟩ <;>
    rw [found] at performed
  · exact .takes (by rw [taken?, performed]; rfl) (by rwa [performed]) (by rw [performed]; exact id)
  · refine .leaves (by rw [taken?, performed]; rfl) (by rwa [performed]) fun e told => ?_
    rw [performed] at told
    cases told
    rfl

theorem Goes.of_tested {c : Call} (kind : TokenKind) (code : Nat)
    (performed : lx.perform c = (lx.accept kind code).map (fun t => .tested t.isSome) id)
    (h : Stands fresh j lx) : Goes fresh j lx c := by
  rcases h.accept kind code with ⟨next, found, behind⟩ | ⟨next, found, ahead⟩ <;>
    rw [found] at performed
  · refine .takes ?_ (by rwa [performed]) (by rw [performed]; exact id)
    rw [taken?, performed, ← h.peek.1]
    rfl
  · exact .leaves (by rw [taken?, performed]; rfl) (by rwa [performed]) (by rw [performed]; nofun)

/-- Every call takes the token that comes next, or takes none. -/
theorem Stands.perform (h : Stands fresh j lx) : ∀ c : Call, Goes fresh j lx c
  | .lex => by
    obtain ⟨given, behind⟩ := h.lex
    exact .takes (congrArg some given) behind id
  | .peek => .of_shown rfl (.inl ⟨_, rfl⟩) h.peek.2
  | .peekNth n => .of_shown rfl (.inl ⟨_, rfl⟩) (h.peekNth n).2
  | .location => .of_shown rfl (.inr ⟨_, rfl⟩) h.peek.2
  | .expect kind code => .of_expected (fun t => t.is kind code) rfl h
  | .expectKind kind => .of_expected (fun t => t.kind == kind) rfl h
  | .expectSymbol c => .of_expected (fun t => t.is .symbol c.toNat) rfl h
  | .expectKeyword code => .of_expected (fun t => t.is .keyword code) rfl h
  | .expectIdentifier => .of_expected (fun t => t.kind == .identifier) rfl h
  | .accept kind code => by
    rcases h.accept kind code with ⟨next, found, behind⟩ | ⟨next, found, ahead⟩
    · have performed : lx.perform (.accept kind code) = (.accepted (some (fresh.nth j)), next) := by
        rw [Lexer.perform, found]
        rfl
      exact .takes (by rw [taken?, performed]) (by rwa [performed]) (by rw [performed]; exact id)
    · have performed : lx.perform (.accept kind code) = (.accepted none, next) := by
        rw [Lexer.perform, found]
        rfl
      exact .leaves (by rw [taken?, performed]) (by rwa [performed]) (by rw [performed]; nofun)
  | .acceptSymbol c => .of_tested .symbol c.toNat rfl h
  | .acceptKeyword code => .of_tested .keyword code rfl h

/-! ### Many calls -/

/-- Calls take tokens that follow one another, from the next one on. -/
theorem Stands.converse (h : Stands fresh j lx) (calls : List Call) :
    ∃ n, (converse calls lx).1 = fresh.tokensFrom j n ∧
      Stands fresh (j + n) (converse calls lx).2 := by
  induction calls generalizing j lx with
  | nil => exact ⟨0, rfl, h⟩
  | cons c calls ih =>
    cases h.perform c with
    | takes taken next granted =>
      obtain ⟨n, tokens, last⟩ := ih next
      refine ⟨n + 1, ?_, ?_⟩
      · rw [tokensFrom_succ, ← tokens, Lexer.converse, taken]
        rfl
      · rw [← Nat.add_assoc, Nat.add_right_comm]
        exact last
    | leaves taken next told =>
      obtain ⟨n, tokens, last⟩ := ih next
      refine ⟨n, ?_, last⟩
      rw [← tokens, Lexer.converse, taken]
      rfl

/-- Lexing alone gives out the tokens to come. -/
theorem Stands.lexTimes (h : Stands fresh j lx) (n : Nat) :
    (lexTimes n lx).1 = fresh.tokensFrom j n ∧ Stands fresh (j + n) (lexTimes n lx).2 := by
  induction n generalizing j lx with
  | zero => exact ⟨rfl, h⟩
  | succ n ih =>
    obtain ⟨given, next⟩ := h.lex
    obtain ⟨tokens, last⟩ := ih next
    refine ⟨?_, ?_⟩
    · rw [tokensFrom_succ, ← tokens, ← given]
      rfl
    · rw [← Nat.add_assoc, Nat.add_right_comm]
      exact last

/-! ### When everything has been taken -/

theorem Sound.after (h : lx.Sound) (n : Nat) : (lx.after n).Sound := by
  induction n generalizing lx with
  | zero => exact h
  | succ n ih => exact ih h.turn

theorem Sound.nextRaw (h : lx.Sound) : lx.nextRaw.2.Sound := by
  obtain ⟨n, -, turned⟩ := lx.exists_turns_nextRaw
  have last := (h.after n).turn
  rwa [turned] at last

theorem Sound.nextKept (h : lx.Sound) : lx.nextKept.2.Sound := by
  have next := h.nextRaw
  induction lx using nextKept.induct with
  | case1 lx t next raw kept =>
    rw [raw] at next
    rw [nextKept_of_raw raw, if_pos kept]
    exact next
  | case2 lx t next raw skipped ih =>
    rw [raw] at next
    rw [nextKept_of_raw raw, if_neg skipped]
    exact ih next next.nextRaw

theorem Sound.past (h : fresh.Sound) (n : Nat) : (fresh.past n).Sound := by
  induction n with
  | zero => exact h
  | succ n ih => exact ih.nextKept

/-- At its end a text goes on ending. -/
theorem Sound.nextRaw_again (h : lx.Sound) (ended : lx.nextRaw.1.kind = .endOfFile) :
    lx.nextRaw.2.nextRaw = lx.nextRaw := by
  obtain ⟨n, -, turned⟩ := lx.exists_turns_nextRaw
  have again : (lx.after n).nextRaw = lx.nextRaw := by
    rw [nextRaw_eq_turn, turned]
    rfl
  have stays : lx.nextRaw.2 = lx.after n := by
    have moved := (h.after n).moves
    rw [turned] at moved
    generalize lx.nextRaw = step at ended moved ⊢
    obtain ⟨t, next⟩ := step
    cases moved with
    | read m marked =>
      rw [Turn.mark?, if_pos ended] at marked
      cases marked
    | ended empty root same => exact same
  rw [stays, again]

theorem Sound.nextKept_again (h : lx.Sound) (ended : lx.nextKept.1.kind = .endOfFile) :
    lx.nextKept.2.nextKept = lx.nextKept := by
  have again := h.nextRaw_again
  have next := h.nextRaw
  induction lx using nextKept.induct with
  | case1 lx t next' raw kept =>
    rw [raw] at again
    rw [nextKept_of_raw raw, if_pos kept] at ended ⊢
    have kept' : next'.options.keeps t.kind = true := by rw [options_of_raw raw, kept]
    rw [nextKept_of_raw (again ended), if_pos kept']
  | case2 lx t next' raw skipped ih =>
    rw [raw] at next
    rw [nextKept_of_raw raw, if_neg skipped] at ended ⊢
    exact ih next ended next.nextRaw_again next.nextRaw

/-- Nothing is made behind an end of file. -/
theorem Sound.past_of_ended (h : fresh.Sound) (ended : (fresh.nth i).kind = .endOfFile) (n : Nat) :
    fresh.past (i + 1 + n) = fresh.past (i + 1) := by
  induction n with
  | zero => rfl
  | succ n ih =>
    change (fresh.past (i + 1 + n)).nextKept.2 = fresh.past (i + 1)
    rw [ih]
    exact congrArg Prod.snd ((h.past i).nextKept_again ended)

/-! ### All tokens and all errors -/

theorem keeps_of_mem_tokenize (lx : Lexer) : ∀ t ∈ lx.tokenize.1, lx.options.keeps t.kind = true := by
  obtain ⟨n, e, last, -, ended, -, whole⟩ := lx.tokenize_eq_turns
  intro t mem
  rw [whole] at mem
  rcases List.mem_append.1 mem with inside | last
  · exact (List.mem_filter.1 inside).2
  · rw [List.mem_singleton.1 last, ended]
    rfl

/-- The errors noted before come first. -/
theorem tokenize_noted (lx : Lexer) :
    lx.tokenize = ((tokenize { lx with errors := [] }).1,
      lx.errors ++ (tokenize { lx with errors := [] }).2) := by
  have read := @tokenize_furnished lx.lookahead lx.options
    { lx with errors := [] } lx.errors fun _ => id
  have same : furnished lx.errors lx.lookahead lx.options { lx with errors := [] } = lx := by
    rw [furnished, List.append_nil]
  rw [same, List.filter_eq_self.2 (keeps_of_mem_tokenize { lx with errors := [] })] at read
  exact read

theorem tokenize_eq_nextKept (lx : Lexer) :
    lx.tokenize =
      if lx.nextKept.1.kind = .endOfFile then ([lx.nextKept.1], lx.nextKept.2.errors)
      else (lx.nextKept.1 :: lx.nextKept.2.tokenize.1, lx.nextKept.2.tokenize.2) := by
  induction lx using nextKept.induct with
  | case1 lx t next raw kept =>
    rw [nextKept_of_raw raw, if_pos kept]
    by_cases ended : t.kind = .endOfFile
    · rw [if_pos ended, tokenize, drain_of_end raw ended]
      exact Prod.ext rfl (List.append_nil _)
    · have noted := tokenize_noted next
      rw [if_neg ended, tokenize_keep raw ended kept]
      exact Prod.ext (congrArg (t :: ·) (congrArg Prod.fst noted).symm)
        (congrArg Prod.snd noted).symm
  | case2 lx t next raw skipped ih =>
    rw [nextKept_of_raw raw, if_neg skipped, ← ih]
    refine tokenize_skip raw (fun ended => skipped ?_) skipped
    rw [ended]
    rfl

theorem past_succ (n : Nat) (lx : Lexer) : lx.past (n + 1) = lx.nextKept.2.past n := by
  induction n with
  | zero => rfl
  | succ n ih => exact congrArg (fun lx' => lx'.nextKept.2) ih

/-- Some token is an end of file, and all errors are noted by then. -/
theorem exists_ended (lx : Lexer) :
    ∃ i, (lx.nth i).kind = .endOfFile ∧ (lx.past (i + 1)).errors = lx.tokenize.2 := by
  induction count : lx.tokenize.1.length using Nat.strong_induction_on generalizing lx with
  | _ n ih =>
    subst count
    have first := lx.tokenize_eq_nextKept
    by_cases ended : lx.nextKept.1.kind = .endOfFile
    · rw [if_pos ended] at first
      exact ⟨0, ended, by rw [first]; rfl⟩
    · rw [if_neg ended] at first
      have fewer : lx.nextKept.2.tokenize.1.length < lx.tokenize.1.length := by
        rw [first]
        exact Nat.lt_succ_self _
      obtain ⟨i, last, errors⟩ := ih _ fewer lx.nextKept.2 rfl
      refine ⟨i + 1, ?_, ?_⟩
      · rw [nth, past_succ]
        exact last
      · rw [past_succ, errors, first]

/-- When an end of file has been given out, all errors are noted. -/
theorem Stands.errors (h : Stands fresh j lx) (sound : fresh.Sound)
    (ended : ∃ i < j, (fresh.nth i).kind = .endOfFile) : lx.errors = fresh.tokenize.2 := by
  obtain ⟨k, rfl⟩ := h
  obtain ⟨i, before, ended⟩ := ended
  obtain ⟨i', ended', errors⟩ := fresh.exists_ended
  -- both ends of file come before this many tokens, and nothing is made behind either
  have behind : ∀ {i}, (fresh.nth i).kind = .endOfFile → i + 1 ≤ j + k + (i' + 1) →
      fresh.past (j + k + (i' + 1)) = fresh.past (i + 1) := by
    intro i ended le
    rw [← Nat.add_sub_cancel' le]
    exact sound.past_of_ended ended _
  have here : fresh.past (j + k) = fresh.past (i + 1) := by
    have le : i + 1 ≤ j + k := by omega
    rw [← Nat.add_sub_cancel' le]
    exact sound.past_of_ended ended _
  change (fresh.past (j + k)).errors = _
  rw [← errors, here, ← behind ended (by omega), ← behind ended' (by omega)]

theorem beginning_sound (r : Option Resolver) (o : LexerOptions) (s : SourceText) :
    (beginning .language r o s).Sound := ⟨language_sound, nofun⟩

/-- Whatever is asked of a lexer, the tokens taken are those that lexing alone gives out, one after
another from the first on, and those that it gives out next are still to come, as looking ahead
shows.  A call that is refused leaves all of them to come, and its error is at the place of the next
one.  When an end of file has been taken, the errors are those of lexing alone. -/
theorem calls_take_in_order (r : Option Resolver) (o : LexerOptions) (s : SourceText)
    (calls : List Call) :
    let fresh := beginning .language r o s
    let taken := (converse calls fresh).1
    let lx := (converse calls fresh).2
    (∀ n, taken ++ (lexTimes n lx).1 = (lexTimes (taken.length + n) fresh).1) ∧
      (∀ n, (lexTimes (n + 1) lx).1[n]? = some (lx.peekNth n).1) ∧
      (∀ c : Call, (lx.perform c).1.Refuses →
        (∀ n, (lexTimes n (lx.perform c).2).1 = (lexTimes n lx).1) ∧
          ∀ e, (lx.perform c).1 = .expected (.error e) → e.location = lx.lex.1.location) ∧
      ((∃ t ∈ taken, t.kind = .endOfFile) →
        lx.errors = (lexTimes taken.length fresh).2.errors ∧ lx.errors = fresh.tokenize.2) := by
  intro fresh taken lx
  have start : Stands fresh 0 fresh := stands_fresh rfl
  obtain ⟨j, tokens, stands⟩ := start.converse calls
  rw [Nat.zero_add] at stands
  have count : taken.length = j := by
    rw [← length_tokensFrom fresh 0 j]
    exact congrArg List.length tokens
  refine ⟨fun n => ?_, fun n => ?_, fun c refused => ?_, fun ended => ?_⟩
  · rw [(stands.lexTimes n).1, (start.lexTimes _).1, count, tokensFrom_add, Nat.zero_add, ← tokens]
  · rw [(stands.lexTimes _).1, (stands.peekNth n).1, getElem?_tokensFrom fresh (Nat.lt_succ_self n)]
  · cases stands.perform c with
    | takes taken next granted => exact absurd refused granted
    | leaves taken next told =>
      refine ⟨fun n => ?_, fun e error => ?_⟩
      · rw [(next.lexTimes n).1, (stands.lexTimes n).1]
      · rw [told e error, stands.lex.1]
  · obtain ⟨t, mem, ended⟩ := ended
    have sound := beginning_sound r o s
    have mem' : t ∈ fresh.tokensFrom 0 j := by
      rw [← tokens]
      exact mem
    obtain ⟨i, inside, rfl⟩ := mem_tokensFrom mem'
    rw [Nat.zero_add] at inside
    have alone := (start.lexTimes j).2
    rw [Nat.zero_add] at alone
    rw [count, stands.errors sound ⟨i, inside, ended⟩, alone.errors sound ⟨i, inside, ended⟩]
    exact ⟨rfl, rfl⟩

/-- A number without digits, and a name behind it. -/
def digitless : Resolver := .ofTable [("digits", "0x b")]

/-- A source in the middle of which another is included. -/
def threeNames : SourceText := ⟨"t", "a $include \"digits\" c"⟩

/-- Behind the first name, which is taken when three more tokens have been looked at, no keyword is
found; and calls that go on from there take all that lexing alone gives out. -/
theorem threeNames_taken_in_order :
    (∃ e, ((converse [.peekNth 3, .expectIdentifier]
        (beginning .language digitless {} threeNames)).2.perform (.expectKind .keyword)).1 =
          .expected (.error e) ∧
      e.location = (converse [.peekNth 3, .expectIdentifier]
        (beginning .language digitless {} threeNames)).2.lex.1.location) ∧
    (converse [.peekNth 3, .expectIdentifier, .expectKind .keyword, .lex, .acceptSymbol ';', .lex,
      .lex, .lex] (beginning .language digitless {} threeNames)).2.errors =
        (beginning .language digitless {} threeNames).tokenize.2 := by
  constructor
  · have refused : ((converse [.peekNth 3, .expectIdentifier]
        (beginning .language digitless {} threeNames)).2.perform (.expectKind .keyword)).1.Refuses := by
      cbv
    obtain ⟨-, -, told, -⟩ :=
      calls_take_in_order digitless {} threeNames [.peekNth 3, .expectIdentifier]
    cases found : ((converse [.peekNth 3, .expectIdentifier]
        (beginning .language digitless {} threeNames)).2.expectKind .keyword).1 with
    | ok t =>
      have granted := congrArg (fun r => (Answer.expected r).Refuses) found
      exact (granted.mp refused).elim
    | error e =>
      have answer := congrArg Answer.expected found
      exact ⟨e, answer, (told (.expectKind .keyword) refused).2 e answer⟩
  · have kinds : (converse [.peekNth 3, .expectIdentifier, .expectKind .keyword, .lex,
        .acceptSymbol ';', .lex, .lex, .lex] (beginning .language digitless {} threeNames)).1.map
          Token.kind = [.identifier, .unknown, .identifier, .identifier, .endOfFile] := by
      cbv
    obtain ⟨-, -, -, errors⟩ := calls_take_in_order digitless {} threeNames
      [.peekNth 3, .expectIdentifier, .expectKind .keyword, .lex, .acceptSymbol ';', .lex, .lex, .lex]
    refine (errors (List.mem_map.1 ?_)).2
    rw [kinds]
    decide

end Lexer

end ScriptLang
