import ScriptLang.Proofs.EndOfSource
import ScriptLang.Proofs.StatementRecovery

/-!
# The loops of the parser end

The items of a source and the statements of a block are read in rounds.  Whether a round succeeds or
fails, it takes the token it begins with, or it is the last one and stands where the loop stops
(`advances_round`, `advances_statementRound`).  So the rounds come to an end (`Advances.exists_loops`)
before the number of tokens that bounds them is used up (`Loops.run`), and a source is parsed up to its
end of file (`parsing_progresses`).
-/

namespace ScriptLang.Syntax

open TokenReader (EndsOnce)

/-! ### Loops -/

/-- The rounds of a loop from one state to another, and what they give; the last round gives nothing. -/
inductive Loops {α : Type} (round : Parser (Option α)) :
    ParserState → List α → ParserState → Prop where
  | last {s t : ParserState} (run : round.run.run s = (.ok none, t)) : Loops round s [] t
  | more {s t u : ParserState} {a : α} {found : List α} (run : round.run.run s = (.ok (some a), t))
    (rest : Loops round t found u) : Loops round s (a :: found) u

/-- What a round gives, and then what the rest of the loop gives; nothing after the last round. -/
def Parser.collect {α β : Type} (give : α → List β) (rest : Parser (List β)) :
    Option α → Parser (List β)
  | none => return []
  | some a => return give a ++ (← rest)

/-- The parsers make at most so many of the rounds. -/
def Bounded {α β : Type} (round : Parser (Option α)) (give : α → List β)
    (loop : Nat → Parser (List β)) : Prop :=
  ∀ n, loop (n + 1) = round >>= Parser.collect give (loop n)

/-- Before the end of the source a round succeeds, and the end stays ahead.  If it is the last one, the
next token stops the loop; otherwise the next token is one that does not, and it has been taken. -/
def Advances {α : Type} (round : Parser (Option α)) (stops : Token → Bool) : Prop :=
  ∀ s, s.Ended → ∃ r t, round.run.run s = (.ok r, t) ∧ t.Ended ∧
    match r with
    | none => t.reader.toList = s.reader.toList ∧ stops (s.reader.peekNth 0).1 = true
    | some _ => stops (s.reader.peekNth 0).1 = false ∧ t.reader.toList <:+ s.reader.toList.tail

section

variable {α β : Type} {round : Parser (Option α)} {stops : Token → Bool} {s t : ParserState}
  {found : List α} {give : α → List β} {loop : Nat → Parser (List β)}

/-- The rounds come to an end, and there are fewer of them than tokens. -/
theorem Advances.exists_loops (advances : Advances round stops) {s : ParserState} (h : s.Ended) :
    ∃ found t, Loops round s found t ∧ t.Ended ∧ stops (t.reader.peekNth 0).1 = true ∧
      found.length < s.reader.size := by
  -- by the number of tokens that are left
  induction size : s.reader.size using Nat.strongRecOn generalizing s with
  | ind n ih =>
    subst size
    obtain ⟨r, t, run, ended, progress⟩ := advances s h
    cases r with
    | none =>
      refine ⟨[], t, .last run, ended, ?_, h.size_pos⟩
      obtain ⟨same, stop⟩ := progress
      obtain ⟨us, tokens⟩ := h.exists_cons
      rwa [TokenReader.peek_eq (same.trans tokens)]
    | some a =>
      have fewer : t.reader.size < s.reader.size := by
        have few := progress.2.length_le
        have some := h.size_pos
        rw [TokenReader.size_eq] at some ⊢
        rw [TokenReader.size_eq]
        rw [List.length_tail] at few
        omega
      obtain ⟨found, u, loops, ended, stop, less⟩ := ih _ fewer ended rfl
      exact ⟨a :: found, u, .more run loops, ended, stop, by rw [List.length_cons]; omega⟩

/-- A bounded loop that makes these rounds makes all of them, if the bound is greater than their
number. -/
theorem Loops.run (bounded : Bounded round give loop) (loops : Loops round s found t) :
    ∀ {n}, found.length < n → (loop n).run.run s = (.ok (found.flatMap give), t) := by
  induction loops with
  | last run =>
    intro n enough
    obtain ⟨m, rfl⟩ := Nat.exists_eq_succ_of_ne_zero (Nat.ne_of_gt enough)
    rw [Nat.succ_eq_add_one, bounded, run_bind, run]
    rfl
  | @more s t u a found run rest ih =>
    intro n enough
    obtain ⟨m, rfl⟩ := Nat.exists_eq_succ_of_ne_zero (Nat.ne_zero_of_lt enough)
    rw [Nat.succ_eq_add_one, bounded, run_bind, run]
    dsimp only
    rw [Parser.collect, run_bind, ih (Nat.lt_of_succ_lt_succ enough)]
    rfl

/-- Bounds that are no less than the number of tokens make no difference. -/
theorem Advances.ample (advances : Advances round stops) (bounded : Bounded round give loop)
    (spares : ∀ n k, Spares k (loop n)) : Ample loop := by
  intro k n m hn hm s hs
  obtain ⟨found, t, loops, -, -, fewer⟩ := advances.exists_loops hs.1
  have rounds : found.length < k := Nat.lt_of_lt_of_le fewer hs.2
  rw [loops.run bounded (Nat.lt_of_lt_of_le rounds hm)]
  exact ⟨loops.run bounded (Nat.lt_of_lt_of_le rounds hn), (spares n k s hs).2⟩

theorem suffix_tail {us vs : List Token} (suffix : us <:+ vs) (shorter : us.length < vs.length) :
    us <:+ vs.tail := by
  cases vs with
  | nil => cases shorter
  | cons v vs =>
    rcases List.suffix_cons_iff.1 suffix with rfl | suffix
    · exact absurd shorter (Nat.lt_irrefl _)
    · exact suffix

end

/-! ### The items of a source -/

section

variable {levels k : Nat} {s : ParserState}

/-- A round that begins with another token than the end of file spares the end of file. -/
theorem spares_turn {t : Token} (other : t.isEndOfFile = false) :
    SparesAt k t (Parser.turn levels t) := by
  have skip {k : Nat} : Spares k (do Parser.skipItem (← Parser.remaining) 0) :=
    .counted (ample_skipItem 0).spares
  refine .ite ?_ (.reported _ (.take other fun _ => skip.bind fun _ => spares_pure _))
  exact (CoincideFrom.recover (spares_item levels other) skip).bind fun _ => spares_pure _

theorem spares_round (levels k : Nat) : Spares k (Parser.round levels) := by
  refine spares_reportFound.bind fun _ => .look fun t => ?_
  by_cases final : t.isEndOfFile = true
  · rw [if_pos final]
    exact .at (spares_pure _)
  · rw [if_neg final]
    exact (spares_turn (Bool.eq_false_iff.2 final)).bind fun _ => spares_pure _

/-- What the next token is decides whether there is another round. -/
theorem run_round_eq (levels : Nat) (s : ParserState) : ∃ u, u.reader.toList = s.reader.toList ∧
    (Parser.round levels).run.run s =
      (if (s.reader.peekNth 0).1.isEndOfFile then return none
        else return some (← Parser.turn levels (s.reader.peekNth 0).1) :
          Parser (Option (List Item))).run.run u := by
  let s' : ParserState := (Parser.reportFound.run.run s).2
  refine ⟨{ s' with reader := (s'.reader.peekNth 0).2 }, TokenReader.toList_reach _ s'.reader, ?_⟩
  have reported : Parser.reportFound.run.run s = (.ok (), s') := rfl
  have tokens : s'.reader.toList = s.reader.toList := rfl
  have same : (s'.reader.peekNth 0).1 = (s.reader.peekNth 0).1 :=
    TokenReader.peekNth_congr tokens rfl 0
  rw [Parser.round, run_bind, reported]
  dsimp only
  rw [run_bind, run_peek, same]

/-- A round takes the token it begins with, unless that is the end of file. -/
theorem advances_round (levels : Nat) : Advances (Parser.round levels) Token.isEndOfFile := by
  intro s h
  have once := h.endsOnce
  obtain ⟨n, size⟩ := Nat.exists_eq_succ_of_ne_zero (Nat.ne_of_gt h.size_pos)
  rw [TokenReader.size_eq] at size
  obtain ⟨r, t, run, fewer⟩ := passes_round levels s ⟨once, Nat.le_of_eq size⟩
  have spared := (spares_round levels _ s ⟨h, Nat.le_refl _⟩).2
  have forward := (slides_round levels s).tokens
  obtain ⟨u, tokens, decided⟩ := run_round_eq levels s
  rw [run] at spared forward
  refine ⟨r, t, run, spared.1, ?_⟩
  rw [run] at decided
  split at decided
  · next final =>
    cases decided
    exact ⟨tokens, final⟩
  · next other =>
    rw [run_bind] at decided
    cases turned : (Parser.turn levels (s.reader.peekNth 0).1).run.run u with
    | mk r' u' =>
      rw [turned] at decided
      cases r' with
      | error e => cases decided
      | ok found =>
        cases decided
        refine ⟨Bool.eq_false_iff.2 other, suffix_tail forward ?_⟩
        have few := (fewer found rfl).2
        omega

end

/-! ### The statements of a block -/

/-- Whether the token ends the statements of a block. -/
def endsBlock (t : Token) : Bool := t.isSymbol '}' || t.isEndOfFile

/-- One round: a statement, or none if it fails; nothing at the end of the block. -/
def Parser.statementRound (statement : Parser Stmt) : Parser (Option (Option Stmt)) := do
  let t ← peek
  if endsBlock t then return none
  else return some (← recover statement do skipStatement (← remaining) 0)

theorem bounded_statements (statement : Parser Stmt) :
    Bounded (Parser.statementRound statement) Option.toList (Parser.statements statement) := by
  intro n
  rw [Parser.statements, Parser.statementRound, bind_assoc]
  refine bind_congr fun t => ?_
  by_cases ends : endsBlock t = true
  · rw [if_pos ends, if_pos (show (t.isSymbol '}' || t.isEndOfFile) = true from ends)]
    rfl
  · rw [if_neg ends, if_neg (show ¬(t.isSymbol '}' || t.isEndOfFile) = true from ends)]
    simp only [bind_assoc, pure_bind]
    rfl

/-- Skipping cannot fail. -/
theorem passes_skipStatement : ∀ fuel depth,
    Passes (fun _ => True) (Parser.skipStatement fuel depth) fun _ _ => True
  | 0, _ => .pure fun _ => id
  | fuel + 1, depth => by
    have taken {p : Parser Unit} (h : Passes (fun _ => True) p fun _ _ => True) :
        Passes (fun _ => True) (do let _ ← Parser.next; p) fun _ _ => True :=
      Passes.bind (J := fun _ _ => True) (fun _ _ => ⟨_, _, rfl, trivial⟩) fun _ => h
    unfold Parser.skipStatement
    refine Passes.bind (J := fun _ _ => True) (fun s _ => ⟨_, _, run_peek s, trivial⟩) fun t => ?_
    split
    · exact .pure fun _ => id
    · split
      · cases depth with
        | zero => exact .pure fun _ => id
        | succ depth => exact taken (passes_skipStatement fuel depth)
      · refine taken ?_
        split
        · exact passes_skipStatement fuel _
        · split
          · exact .pure fun _ => id
          · exact passes_skipStatement fuel _

/-- Skipping takes a token that is not the end of the block. -/
theorem skipStatement_takes {s : ParserState} (n : Nat)
    (other : endsBlock (s.reader.peekNth 0).1 = false) :
    ((Parser.skipStatement (n + 1) 0).run.run s).2.reader.toList <:+ s.reader.toList.tail := by
  obtain ⟨brace, final⟩ := Bool.or_eq_false_iff.1 other
  let s' : ParserState := { s with reader := (s.reader.peekNth 0).2 }
  have tokens : (Parser.next.run.run s').2.reader.toList = s.reader.toList.tail := by
    refine (TokenReader.toList_next s'.reader).trans ?_
    exact congrArg List.tail (TokenReader.toList_reach _ s.reader)
  rw [Parser.skipStatement, run_bind, run_peek]
  dsimp only
  rw [final, brace, if_neg Bool.false_ne_true, if_neg Bool.false_ne_true, run_bind]
  rw [← tokens]
  exact (Slides.ite (slides_skipStatement _ _)
    (.ite (.pure _) (slides_skipStatement _ _)) _).tokens

/-- After an attempt, wherever that has led, skipping gets past the token the attempt began with. -/
theorem skip_gets_past {s t : ParserState} (h : s.Ended)
    (other : endsBlock (s.reader.peekNth 0).1 = false) (after : After s t) : ∃ u,
      (do Parser.skipStatement (← Parser.remaining) 0 : Parser Unit).run.run t = (.ok (), u) ∧
        u.reader.toList <:+ s.reader.toList.tail := by
  obtain ⟨_, u, run, -⟩ := passes_skipStatement t.reader.size 0 t trivial
  refine ⟨u, run, ?_⟩
  by_cases same : t.reader.toList = s.reader.toList
  · -- the attempt has taken nothing, so that skipping has to
    have next : (t.reader.peekNth 0).1 = (s.reader.peekNth 0).1 :=
      TokenReader.peekNth_congr same after.last 0
    have some := h.size_pos
    rw [TokenReader.size_eq, ← same, ← TokenReader.size_eq] at some
    obtain ⟨n, size⟩ := Nat.exists_eq_succ_of_ne_zero (Nat.ne_of_gt some)
    have taken := skipStatement_takes n (next.symm ▸ other)
    rw [size] at run
    rw [run, same] at taken
    exact taken
  · have forward := (slides_skipStatement t.reader.size 0 t).tokens
    rw [run] at forward
    refine forward.trans (suffix_tail after.tokens ?_)
    exact Nat.lt_of_le_of_ne after.tokens.length_le fun length =>
      same (after.tokens.eq_of_length length)

/-- A failure is made up for behind the token that the attempt began with. -/
theorem recover_gets_past {p : Parser Stmt} {s t : ParserState} {e : ParseError} (h : s.Ended)
    (other : endsBlock (s.reader.peekNth 0).1 = false) (slides : Slides p)
    (spares : Spares s.reader.size p) (run : p.run.run s = (.error e, t)) : ∃ u,
      (Parser.recover p do Parser.skipStatement (← Parser.remaining) 0).run.run s = (.ok none, u) ∧
        u.Ended ∧ u.reader.toList <:+ s.reader.toList.tail := by
  have attempt := slides s
  have spared := (spares s ⟨h, Nat.le_refl _⟩).2
  rw [run] at attempt spared
  let t' : ParserState := ((Parser.report e).run.run t).2
  have report : (Parser.report e).run.run t = (.ok (), t') := rfl
  have after : After s t' := attempt.trans (slides_report e t)
  have ended : t'.Ended := ⟨spared.1.tokens, spared.1.last⟩
  obtain ⟨u, skipped, past⟩ := skip_gets_past h other after
  have skip : Spares t'.reader.size (do Parser.skipStatement (← Parser.remaining) 0) :=
    .counted (ample_skipStatement 0).spares
  have left := (skip t' ⟨ended, Nat.le_refl _⟩).2
  rw [skipped] at left
  refine ⟨u, ?_, left.1, past⟩
  rw [run_recover, run]
  dsimp only
  rw [run_bind, report]
  dsimp only
  rw [run_bind, skipped]
  rfl

theorem spares_statementIn (levels k : Nat) : Spares k (Parser.statementIn levels) :=
  spares_statement (spares_expression levels) (spares_block levels)

/-- A round of the statements in a block takes the token it begins with, unless that ends the block. -/
theorem advances_statementRound (levels : Nat) :
    Advances (Parser.statementRound (Parser.statementIn levels)) endsBlock := by
  intro s h
  let s' : ParserState := { s with reader := (s.reader.peekNth 0).2 }
  have tokens : s'.reader.toList = s.reader.toList := TokenReader.toList_reach _ _
  have ended : s'.Ended := h.of_tokens tokens (TokenReader.last_reach _ _)
  have next : (s'.reader.peekNth 0).1 = (s.reader.peekNth 0).1 :=
    congrArg Prod.fst (TokenReader.peek_again s.reader)
  have looked : (Parser.statementRound (Parser.statementIn levels)).run.run s =
      (if endsBlock (s.reader.peekNth 0).1 then return none
        else return some (← Parser.recover (Parser.statementIn levels) do
          Parser.skipStatement (← Parser.remaining) 0) :
            Parser (Option (Option Stmt))).run.run s' := by
    rw [Parser.statementRound, run_bind, run_peek]
  by_cases ends : endsBlock (s.reader.peekNth 0).1 = true
  · rw [if_pos ends] at looked
    exact ⟨none, s', looked, ended, tokens, ends⟩
  · have other := Bool.eq_false_iff.2 ends
    rw [if_neg ends, run_bind] at looked
    cases run : (Parser.statementIn levels).run.run s' with
    | mk r t =>
      cases r with
      | ok stmt =>
        have forward := slides_statement levels s'
        have spared := (spares_statementIn levels _ s' ⟨ended, Nat.le_refl _⟩).2
        have closed := closes_statement levels s' stmt t ended.last run
        rw [run] at forward spared
        rw [run_recover, run] at looked
        refine ⟨some (some stmt), t, looked, spared.1, other, ?_⟩
        rw [← tokens]
        exact suffix_tail forward.tokens closed.length_lt
      | error e =>
        obtain ⟨u, recovered, left, past⟩ := recover_gets_past ended (next.symm ▸ other)
          (slides_statement levels) (spares_statementIn levels _) run
        rw [recovered] at looked
        exact ⟨some none, u, looked, left, other, tokens ▸ past⟩

/-! ### Whole loops -/

section

variable {s : ParserState}

theorem spares_items (levels : Nat) : ∀ n k, Spares k (Parser.items levels n)
  | 0, _ => spares_pure _
  | n + 1, k => by
    rw [Parser.items_succ]
    refine (spares_round levels k).bind fun r => ?_
    cases r with
    | none => exact spares_pure _
    | some found => exact (spares_items levels n k).bind fun _ => spares_pure _

theorem bounded_items (levels : Nat) :
    Bounded (Parser.round levels) (fun found => found) (Parser.items levels) := by
  intro n
  rw [Parser.items_succ]
  refine bind_congr fun r => ?_
  cases r <;> rfl

theorem ample_items (levels : Nat) : Ample (Parser.items levels) :=
  (advances_round levels).ample (bounded_items levels) (spares_items levels)

theorem ample_statements (levels : Nat) : Ample (Parser.statements (Parser.statementIn levels)) :=
  (advances_statementRound levels).ample (bounded_statements _)
    (spares_statements (spares_statementIn levels))

/-- The parser before the text of a source. -/
theorem ended_startOf (options : ParseOptions) (name text : String) (id : Nat) :
    ({ startOf options name text with nextId := id } : ParserState).Ended := by
  obtain ⟨ts, eof, tokens, final⟩ := exists_last_drain (lexerOf options name text)
  have once : EndsOnce (ts ++ [eof]) := tokens ▸ endsOnce_drain _
  refine ⟨⟨ts, eof, tokens, final, once.not_isEndOfFile (List.cons_ne_nil _ _)⟩, ?_⟩
  change (((lexerOf options name text).drain.1.getLast?.map Prod.fst).getD default).isEndOfFile = true
  rw [← List.getLast?_map, tokens, List.getLast?_concat]
  exact final

/-- A source is parsed in rounds, up to its end of file. -/
theorem exists_run_module_loops (h : s.Ended) (name : String) : ∃ found t eof,
    Loops (Parser.round s.limit) s found t ∧ t.reader.toList = [eof] ∧ eof.isEndOfFile = true ∧
      (Parser.module name).run.run s =
        (.ok ⟨name, found.flatten⟩, (Parser.reportFound.run.run t).2) := by
  obtain ⟨found, t, loops, ended, final, fewer⟩ := (advances_round s.limit).exists_loops h
  refine ⟨found, t, _, loops, ended.eq_singleton final, final, ?_⟩
  have items : (Parser.items s.limit s.reader.size).run.run s = (.ok found.flatten, t) := by
    rw [loops.run (bounded_items s.limit) fewer, List.flatMap_id']
  have get : (get : Parser ParserState).run.run s = (.ok s, s) := rfl
  have remaining : Parser.remaining.run.run s = (.ok s.reader.size, s) := rfl
  rw [Parser.module, run_bind, get]
  dsimp only
  rw [run_bind, remaining]
  dsimp only
  rw [run_bind, items]
  rfl

/-- The beginning of a block: its opening brace. -/
def Parser.opening : Parser Node := do nodeAt (← expectSymbol '{')

/-- The end of a block with these statements. -/
def Parser.closing (node : Node) (stmts : List Stmt) : Parser Block := do
  let _ ← expectSymbol '}'
  return .mk node stmts

/-- Between its braces a block is read in rounds, up to a brace or to the end of the source. -/
theorem exists_run_block_loops {levels : Nat} {t : ParserState} {node : Node} (h : s.Ended)
    (opened : Parser.opening.run.run s = (.ok node, t)) : ∃ found u,
      Loops (Parser.statementRound (Parser.statementIn levels)) t found u ∧
      endsBlock (u.reader.peekNth 0).1 = true ∧
      (Parser.block (levels + 1)).run.run s =
        (Parser.closing node (found.flatMap Option.toList)).run.run u := by
  have spared : Spares s.reader.size Parser.opening :=
    (spares_expectSymbol _).bind fun _ => spares_nodeAt _
  have ended := (spared s ⟨h, Nat.le_refl _⟩).2.1
  rw [opened] at ended
  obtain ⟨found, u, loops, -, final, fewer⟩ := (advances_statementRound levels).exists_loops ended
  refine ⟨found, u, loops, final, ?_⟩
  have whole : Parser.block (levels + 1) = (do
      let node ← Parser.opening
      let stmts ← Parser.statements (Parser.statementIn levels) (← Parser.remaining)
      Parser.closing node stmts) := by
    rw [Parser.block, Parser.opening, bind_assoc]
    rfl
  have remaining : Parser.remaining.run.run t = (.ok t.reader.size, t) := rfl
  rw [whole, run_bind, opened]
  dsimp only
  rw [run_bind, remaining]
  dsimp only
  rw [run_bind, loops.run (bounded_statements _) fewer]

/-- So it is with every source of a program. -/
theorem exists_parseModule_loops (p : ProgramParser) (name text : String) : ∃ found t eof,
    Loops (Parser.round p.options.maxNesting)
      { startOf p.options name text with nextId := p.nextId } found t ∧
      t.reader.toList = [eof] ∧ eof.isEndOfFile = true ∧
      (p.parseModule name text).1.modules = p.modules ++ [⟨name, found.flatten⟩] := by
  obtain ⟨found, t, eof, loops, tokens, final, run⟩ :=
    exists_run_module_loops (ended_startOf p.options name text p.nextId) name
  refine ⟨found, t, eof, loops, tokens, final, ?_⟩
  unfold startOf lexerOf at run
  unfold ProgramParser.parseModule
  dsimp only at run ⊢
  rw [run]

/-- The parser always makes progress.  A source of a program is parsed in rounds that come to an end,
where exactly the end of file is left, whatever the limit of nesting and whatever the resolver; and
between its braces a block is parsed in rounds up to a brace or the end of the source.  Each round of
either loop takes the token it begins with, or it is the last one, before the token that stops the loop.
In between no parser takes the end of file, and none of the numbers of tokens that bound the repetitions
cuts one of them short. -/
theorem parsing_progresses :
    (∀ (p : ProgramParser) (name text : String),
      let start := { startOf p.options name text with nextId := p.nextId }
      start.Ended ∧ ∃ found t eof, Loops (Parser.round p.options.maxNesting) start found t ∧
        t.reader.toList = [eof] ∧ eof.isEndOfFile = true ∧
        (p.parseModule name text).1.modules = p.modules ++ [⟨name, found.flatten⟩]) ∧
    (∀ levels (s t : ParserState) node, s.Ended → Parser.opening.run.run s = (.ok node, t) →
      ∃ found u, Loops (Parser.statementRound (Parser.statementIn levels)) t found u ∧
        endsBlock (u.reader.peekNth 0).1 = true ∧
        (Parser.block (levels + 1)).run.run s =
          (Parser.closing node (found.flatMap Option.toList)).run.run u) ∧
    (∀ levels, Advances (Parser.round levels) Token.isEndOfFile ∧
      Advances (Parser.statementRound (Parser.statementIn levels)) endsBlock) ∧
    (∀ levels k, Spares k (Parser.expression levels) ∧ Spares k (Parser.block levels) ∧
      Spares k (Parser.statementIn levels) ∧
      ∀ t, t.isEndOfFile = false → SparesAt k t (Parser.item levels)) ∧
    (∀ levels, Ample (Parser.items levels) ∧ Ample (Parser.statements (Parser.statementIn levels)) ∧
      Ample (Parser.branches (Parser.expression levels) (Parser.block levels)) ∧
      ∀ closing, Ample (Parser.argumentList (Parser.expression levels) closing)) ∧
    Ample Parser.paramList ∧
    ∀ depth, Ample (Parser.skipStatement · depth) ∧ Ample (Parser.skipItem · depth) := by
  refine ⟨fun p name text => ⟨ended_startOf _ _ _ _, exists_parseModule_loops p name text⟩,
    fun levels s t node => exists_run_block_loops,
    fun levels => ⟨advances_round levels, advances_statementRound levels⟩, fun levels k => ?spare,
    fun levels => ?ample, ample_paramList,
    fun depth => ⟨ample_skipStatement depth, ample_skipItem depth⟩⟩
  case spare =>
    exact ⟨spares_expression levels k, spares_block levels k, spares_statementIn levels k,
      fun t => spares_item levels⟩
  case ample =>
    exact ⟨ample_items levels, ample_statements levels,
      ample_branches (spares_expression levels) (spares_block levels),
      ample_argumentList (spares_expression levels)⟩

/-- A source in which nothing can be read, since nothing may nest. -/
def flatText : String := "func f() \x7b x; \x7d \x7d var y = 1;"

/-- A block in which nothing can be read either, and which is not closed. -/
def openText : String := "\x7b x; \x7b y"

/-- The end of the source is reached all the same, without an item, and so is the end of the block. -/
theorem flatText_ends :
    let options : ParseOptions := { maxNesting := 0 }
    (∃ found t eof, Loops (Parser.round 0) (startOf options "t" flatText) found t ∧
      t.reader.toList = [eof] ∧ eof.isEndOfFile = true ∧ found.flatten = []) ∧
    ∃ node t found u,
      Parser.opening.run.run (startOf options "t" openText) = (.ok node, t) ∧
        Loops (Parser.statementRound (Parser.statementIn 0)) t found u ∧
        endsBlock (u.reader.peekNth 0).1 = true := by
  intro options
  obtain ⟨sources, blocks, -⟩ := parsing_progresses
  refine ⟨?source, ?block⟩
  case source =>
    obtain ⟨-, found, t, eof, loops, tokens, final, modules⟩ := sources { options } "t" flatText
    refine ⟨found, t, eof, loops, tokens, final, ?_⟩
    have known : (startWithin 40 options "t" flatText).any (fun r =>
        ((Parser.module "t").run.run r.2).1.toOption.any (·.items.isEmpty)) = true := by
      decide +kernel
    obtain ⟨⟨drained, s⟩, started, empty⟩ := (Option.any_eq_true _ _).1 known
    have start := (startOf_of_startWithin started).2
    obtain ⟨m, made, empty⟩ := (Option.any_eq_true _ _).1 empty
    cases run : (Parser.module "t").run.run s with
    | mk r s' =>
      rw [run] at made
      cases r with
      | error e => cases made
      | ok m' =>
        cases made
        rw [parseModule_of_run (start ▸ run)] at modules
        rw [← (Module.mk.inj (List.cons.inj modules).1).2]
        exact List.isEmpty_iff.1 empty
  case block =>
    obtain ⟨ended, -⟩ := sources { options } "t" openText
    have known : (startWithin 40 options "t" openText).any (fun r =>
        (Parser.opening.run.run r.2).1.isOk) = true := by
      decide +kernel
    obtain ⟨⟨drained, s⟩, started, opens⟩ := (Option.any_eq_true _ _).1 known
    have start := (startOf_of_startWithin started).2
    rw [← start] at opens
    cases run : Parser.opening.run.run (startOf options "t" openText) with
    | mk r t =>
      rw [run] at opens
      cases r with
      | error e => cases opens
      | ok node =>
        obtain ⟨found, u, loops, final, -⟩ := blocks 0 _ t node ended run
        exact ⟨node, t, found, u, rfl, loops, final⟩

end

end ScriptLang.Syntax
