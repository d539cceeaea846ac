import ScriptLang.Proofs.ReadingTurns

/-!
# Options for trivia

The options of a lexer say which trivia it gives out.  No turn looks at them, nor at the tokens kept
in advance or the errors noted before (`turn_furnished`).  So the options leave out tokens and do
nothing else: the other tokens and the errors, and with them the sources that are included, are the
same under all options (`trivia_left_out`).
-/

namespace ScriptLang

/-- The kinds of the tokens that are not given out. -/
def LexerOptions.leftOut (o : LexerOptions) : List TokenKind :=
  (if o.whitespace then [] else [.whitespace, .endOfLine]) ++
    (if o.comments then [] else [.comment]) ++
    (if o.directives then [] else [.directive, .directiveArg])

theorem LexerOptions.keeps_eq (o : LexerOptions) (k : TokenKind) :
    o.keeps k = decide (k ∉ o.leftOut) := by
  obtain ⟨whitespace, comments, directives, _⟩ := o
  cases whitespace <;> cases comments <;> cases directives <;> cases k <;> rfl

namespace Lexer

/-- The lexer of a profile before a source of which nothing has been read. -/
def beginning (p : Profile) (r : Option Resolver) (o : LexerOptions) (s : SourceText) : Lexer :=
  { ofText p s.name s.text with resolver := r, options := o }

/-- The lexer with some errors noted before its own, with other tokens kept in advance, and with
other trivia to be given out. -/
def furnished (es : List LexError) (ahead : List Token) (o : LexerOptions) (lx : Lexer) : Lexer :=
  { lx with
    errors := es ++ lx.errors
    lookahead := ahead
    options := { o with maxIncludeDepth := lx.options.maxIncludeDepth } }

variable {es : List LexError} {ahead : List Token} {o : LexerOptions}

/-! ### One token -/

theorem turn_furnished (lx : Lexer) :
    (lx.furnished es ahead o).turn = (lx.turn.1, lx.turn.2.furnished es ahead o) :=
  turn_outfitted { errors := es, lookahead := fun _ => ahead, trivia := fun _ => o } lx
    fun _ _ _ _ => rfl

/-- The next token is made without a look at what a lexer is furnished with. -/
theorem nextRaw_furnished (lx : Lexer) :
    (lx.furnished es ahead o).nextRaw = (lx.nextRaw.1, lx.nextRaw.2.furnished es ahead o) := by
  induction bound : lx.silence using Nat.strong_induction_on generalizing lx with
  | _ k ih =>
    subst bound
    rw [nextRaw_eq_turn, turn_furnished, lx.nextRaw_eq_turn]
    dsimp only
    cases made : lx.turn.1.token? with
    | some t => rfl
    | none => exact ih _ (turn_silence made) lx.turn.2 rfl

/-! ### To the end of the root -/

/-- Reading with options that give out less leaves out tokens. -/
theorem tokenize_furnished (lx : Lexer) :
    ∀ es : List LexError, (∀ k, o.keeps k = true → lx.options.keeps k = true) →
      (lx.furnished es ahead o).tokenize =
        (lx.tokenize.1.filter (o.keeps ·.kind), es ++ lx.tokenize.2) := by
  induction lx using drain.induct with
  | case1 lx t next raw ended =>
    intro es _
    have raw' : (lx.furnished es ahead o).nextRaw = (t, next.furnished es ahead o) := by
      rw [nextRaw_furnished, raw]
    have kept : o.keeps t.kind = true := by rw [ended]; rfl
    rw [tokenize, tokenize, drain_of_end raw ended, drain_of_end raw' ended]
    simp [kept, furnished]
  | case2 lx t next raw more kept tokens final drained ih =>
    intro es fewer
    have raw' : (lx.furnished es ahead o).nextRaw = (t, next.furnished es ahead o) := by
      rw [nextRaw_furnished, raw]
    rw [← options_of_raw raw] at fewer
    rw [tokenize_keep raw more kept]
    by_cases given : o.keeps t.kind = true
    · have rest := ih [] fewer
      rw [tokenize_keep raw' more given, List.filter_cons, if_pos given]
      change (t :: (furnished [] ahead o { next with errors := [] }).tokenize.1,
        (es ++ next.errors) ++ (furnished [] ahead o { next with errors := [] }).tokenize.2) = _
      rw [rest, List.append_assoc]
      rfl
    · -- the errors found so far stay with the lexer, which goes on to the next token
      have noted : next.furnished es ahead o =
          furnished (es ++ next.errors) ahead o { next with errors := [] } := by
        rw [furnished, furnished, List.append_nil]
      rw [tokenize_skip raw' more given, noted, ih _ fewer, List.filter_cons, if_neg given,
        List.append_assoc]
  | case3 lx t next raw more skipped ih =>
    intro es fewer
    have raw' : (lx.furnished es ahead o).nextRaw = (t, next.furnished es ahead o) := by
      rw [nextRaw_furnished, raw]
    rw [tokenize_skip raw more skipped, tokenize_skip raw' more (mt (fewer t.kind) skipped)]
    rw [← options_of_raw raw] at fewer
    exact ih es fewer

/-- What is read under some options for trivia is what is read when all of it is given out, less the
tokens of the kinds that the options leave out; and the errors are the same. -/
theorem trivia_left_out (p : Profile) (r : Option Resolver) (o : LexerOptions) (s : SourceText) :
    (beginning p r o s).tokenize =
      let whole := (beginning p r ⟨true, true, true, o.maxIncludeDepth⟩ s).tokenize
      (whole.1.filter (·.kind ∉ o.leftOut), whole.2) := by
  have all (k : TokenKind) : (LexerOptions.mk true true true o.maxIncludeDepth).keeps k = true := by
    cases k <;> rfl
  have read := @tokenize_furnished [] o
    (beginning p r ⟨true, true, true, o.maxIncludeDepth⟩ s) [] fun k _ => all k
  have filtered : (fun t : Token => o.keeps t.kind) = fun t => decide (t.kind ∉ o.leftOut) :=
    funext fun t => o.keeps_eq t.kind
  rw [filtered] at read
  exact read

end Lexer

end ScriptLang
