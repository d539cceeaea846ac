import ScriptLang.Proofs.PartsInPlace
import ScriptLang.Proofs.TextSessions

/-!
# A source, item by item

The loop over the items of a source makes rounds: a round reads an item, or reports a token that begins
none, and then what cannot be used is skipped (`Parser.round`).  What the loop makes of a source can so
be told a round at a time (`Arrives.run_items`), and what it makes of the rest, however it came there,
is what it makes of the rest by itself (`run_rest`).
-/

namespace ScriptLang.Syntax

open ProgramParser
open TokenReader (EndsOnce)

/-! ### Sources without lexical errors -/

/-- The source is made of these tokens and then the end of file, without a lexical error. -/
def LexesTo (options : ParseOptions) (name text : String) (ts : List Token) (eof : Token) : Prop :=
  (lexerOf options name text).drain.1 = (ts ++ [eof]).map fun t => (t, [])

/-- An end of file comes last. -/
theorem exists_last_drain (lx : Lexer) :
    ∃ ts t, lx.drain.1.map Prod.fst = ts ++ [t] ∧ t.isEndOfFile = true := by
  induction lx using Lexer.drain.induct with
  | case1 lx t lx' h hend =>
    rw [Lexer.drain_of_end h hend]
    exact ⟨[], t, rfl, beq_iff_eq.2 hend⟩
  | case2 lx t lx' h hend kept tokens last hdrain ih =>
    obtain ⟨ts, u, tokens, last⟩ := ih
    rw [Lexer.drain_of_kept h hend kept]
    exact ⟨t :: ts, u, by rw [List.map_cons, tokens]; rfl, last⟩
  | case3 lx t lx' h hend skipped ih =>
    rw [Lexer.drain_of_skipped h hend skipped]
    exact ih

section

variable {options : ParseOptions} {name text : String} {ts : List Token} {eof : Token}

theorem LexesTo.tokens (h : LexesTo options name text ts eof) :
    (lexerOf options name text).drain.1.map Prod.fst = ts ++ [eof] := by
  rw [show (lexerOf options name text).drain.1 = _ from h, List.map_map]
  exact List.map_id _

theorem LexesTo.isEndOfFile (h : LexesTo options name text ts eof) : eof.isEndOfFile = true := by
  obtain ⟨us, t, tokens, last⟩ := exists_last_drain (lexerOf options name text)
  obtain ⟨-, same⟩ := List.append_inj' (h.tokens.symm.trans tokens) rfl
  cases same
  exact last

theorem LexesTo.endsOnce (h : LexesTo options name text ts eof) : EndsOnce (ts ++ [eof]) :=
  h.tokens ▸ endsOnce_drain _

theorem LexesTo.clean (h : LexesTo options name text ts eof) :
    (startOf options name text).reader.Clean where
  rest p hp := by
    have mem : p ∈ (lexerOf options name text).drain.1 := hp
    rw [show (lexerOf options name text).drain.1 = _ from h] at mem
    obtain ⟨t, -, rfl⟩ := List.mem_map.1 mem
    rfl
  found := rfl

theorem LexesTo.last (h : LexesTo options name text ts eof) :
    (startOf options name text).reader.last = eof := by
  change ((lexerOf options name text).drain.1.getLast?.map Prod.fst).getD default = eof
  rw [← List.getLast?_map, h.tokens, List.getLast?_concat]
  rfl

theorem TokenReader.EndsOnce.not_isEndOfFile : ∀ {ts us : List Token}, EndsOnce (ts ++ us) →
    us ≠ [] → ∀ t ∈ ts, t.isEndOfFile = false
  | [], _, _, _, _, mem => nomatch mem
  | u :: ts, us, h, more, t, mem => by
    rcases List.mem_cons.1 mem with rfl | mem
    · refine Bool.eq_false_iff.2 fun last => more ?_
      exact (List.append_eq_nil_iff.1 (h.1 last)).2
    · exact not_isEndOfFile h.2 more t mem

end

/-! ### Rounds -/

theorem run_reportFound {s : ParserState} (clean : s.reader.Clean) :
    Parser.reportFound.run.run s = (.ok (), s) := by
  obtain ⟨⟨ahead, rest, found, last, remarks⟩, errors, nextId, limit⟩ := s
  obtain rfl : found = [] := clean.found
  change (Except.ok (), ParserState.mk _ (errors ++ []) nextId limit) = _
  rw [List.append_nil]

theorem run_report_clean {s : ParserState} (clean : s.reader.Clean) (e : ParseError) :
    (Parser.report e).run.run s = (.ok (), { s with errors := s.errors ++ [e] }) := by
  rw [Parser.report, run_bind, run_reportFound clean]
  rfl

theorem Slides.ite {α : Type} {p q : Parser α} {c : Prop} [Decidable c] (hp : Slides p)
    (hq : Slides q) : Slides (if c then p else q) := by
  split
  · exact hp
  · exact hq

theorem slides_reportFound : Slides Parser.reportFound :=
  .of_kept fun _ kept => .of_mirrors kept.stable.reportFound

theorem slides_report (e : ParseError) : Slides (Parser.report e) := by
  intro s
  rw [run_report]
  refine ⟨List.suffix_rfl, rfl, fun clean => ⟨clean.rest, rfl⟩, ?_, rfl⟩
  rw [List.append_assoc]
  exact List.prefix_append _ _

theorem slides_skipItem (fuel depth : Nat) : Slides (Parser.skipItem fuel depth) :=
  .of_kept fun _ kept => .of_mirrors (kept.stable.skipItem fuel depth)

theorem slides_recover {α : Type} {p : Parser α} {skip : Parser Unit} (hp : Slides p)
    (hskip : Slides skip) : Slides (Parser.recover p skip) := by
  intro s
  have before := hp s
  rw [run_recover]
  generalize p.run.run s = r at before
  obtain ⟨r, t⟩ := r
  cases r with
  | ok a => exact before
  | error e =>
    have skipped : Slides (do Parser.report e; skip; return none : Parser (Option α)) :=
      (slides_report e).bind fun _ => hskip.bind fun _ => .pure none
    exact before.trans (skipped t)

/-- The error that something that cannot begin an item stands where one should. -/
def notAnItem (t : Token) : ParseError := .atToken "'func', 'var', 'const' or 'import'" t

/-- One round: an item, if its first token can begin one; none, if something is wrong. -/
def Parser.turn (levels : Nat) (t : Token) : Parser (List Item) := do
  let skip : Parser Unit := do skipItem (← remaining) 0
  if isItemStart t then return (← recover (item levels) skip).toList
  else
    report (notAnItem t)
    let _ ← next
    skip
    return []

/-- One round, if the source is not at its end. -/
def Parser.round (levels : Nat) : Parser (Option (List Item)) := do
  reportFound
  let t ← peek
  if t.isEndOfFile then return none else return some (← turn levels t)

theorem Parser.items_succ (levels fuel : Nat) :
    items levels (fuel + 1) = (do
      match ← round levels with
      | none => return []
      | some found => return found ++ (← items levels fuel)) := by
  rw [items, round]
  simp only [bind_assoc]
  refine bind_congr fun _ => bind_congr fun t => ?_
  by_cases last : t.isEndOfFile = true
  · rw [if_pos last, if_pos last]
    rfl
  · rw [if_neg last, if_neg last, turn]
    by_cases starts : isItemStart t = true
    · rw [if_pos starts, if_pos starts]
      simp only [bind_assoc, pure_bind]
    · rw [if_neg starts, if_neg starts]
      simp only [bind_assoc, pure_bind, List.nil_append, bind_pure, notAnItem]

section

variable {levels n : Nat} {s t u : ParserState} {found found' : List Item}

theorem slides_turn (t : Token) : Slides (Parser.turn levels t) := by
  have skip : Slides (do Parser.skipItem (← Parser.remaining) 0) :=
    slides_remaining.bind fun fuel => slides_skipItem fuel 0
  unfold Parser.turn
  refine Slides.ite ?_ ?_
  · exact (slides_recover (slides_item levels) skip).bind fun _ => .pure _
  · exact (slides_report _).bind fun _ => slides_next.bind fun _ => skip.bind fun _ => .pure _

theorem slides_round (levels : Nat) : Slides (Parser.round levels) :=
  slides_reportFound.bind fun _ => slides_peek.bind fun t =>
    .ite (.pure _) ((slides_turn t).bind fun _ => .pure _)

/-- A round takes at least one token. -/
theorem passes_round (levels : Nat) : Passes (Left (n + 1)) (Parser.round levels) fun r s =>
    ∀ found, r = some found → Left n s := by
  refine passes_reportFound.bind fun _ => passes_peek.bind fun t => ?_
  split
  · exact .pure fun _ _ _ => nofun
  · refine Passes.from (I := Left (n + 1)) (Passes.bind (J := fun _ => Left n) ?_ fun found =>
      .pure fun s hs _ _ => hs) fun _ hs => hs.1
    unfold Parser.turn
    split
    · exact (passes_recover (fun s hs => hs.item levels) passes_skip).bind fun _ => .pure fun _ => id
    · exact (passes_report _).bind fun _ => passes_next.bind fun _ =>
        passes_skip.bind fun _ => .pure fun _ => id

/-- The parser makes some rounds, and they give these items. -/
inductive Arrives (levels : Nat) : ParserState → List Item → ParserState → Prop where
  | refl (s : ParserState) : Arrives levels s [] s
  | round {s t u : ParserState} {found found' : List Item}
    (run : (Parser.round levels).run.run s = (.ok (some found), t))
    (rest : Arrives levels t found' u) : Arrives levels s (found ++ found') u

theorem Arrives.trans (h : Arrives levels s found t) (h' : Arrives levels t found' u) :
    Arrives levels s (found ++ found') u := by
  induction h with
  | refl s => exact h'
  | round run rest ih =>
    rw [List.append_assoc]
    exact .round run (ih h')

theorem Arrives.after (h : Arrives levels s found t) : After s t := by
  induction h with
  | refl s => exact .refl s
  | @round s t u found found' run rest ih =>
    have first := slides_round levels s
    rw [run] at first
    exact first.trans ih

/-- At the end of the source there is no round. -/
theorem run_round_end (levels : Nat) {t : Token} (last : t.isEndOfFile = true) (clean : s.reader.Clean)
    (peek : (s.reader.peekNth 0).1 = t) : ∃ u, Looked s u ∧
      (Parser.round levels).run.run s = (.ok none, u) := by
  refine ⟨_, looked_peekNth s 0, ?_⟩
  rw [Parser.round, run_bind, run_reportFound clean]
  dsimp only
  rw [run_bind, run_peek, peek]
  dsimp only
  rw [if_pos last]
  rfl

/-- A round before a token that is left. -/
theorem run_round (levels : Nat) {t : Token} (last : t.isEndOfFile = false) (clean : s.reader.Clean)
    (peek : (s.reader.peekNth 0).1 = t) : ∃ u, Looked s u ∧ (Parser.round levels).run.run s =
      (do return some (← Parser.turn levels t) : Parser (Option (List Item))).run.run u := by
  refine ⟨_, looked_peekNth s 0, ?_⟩
  rw [Parser.round, run_bind, run_reportFound clean]
  dsimp only
  rw [run_bind, run_peek, peek]
  dsimp only
  rw [if_neg (by rw [last]; exact Bool.false_ne_true)]

/-- The loop makes the rounds and goes on from there. -/
theorem Arrives.run_items (h : Arrives levels s found t) (last : s.reader.last.isEndOfFile = true)
    (clean : s.reader.Clean) : ∀ fuel, Left fuel s → ∃ fuel', Left fuel' t ∧ ∀ rest u,
      (Parser.items levels fuel').run.run t = (.ok rest, u) →
      (Parser.items levels fuel).run.run s = (.ok (found ++ rest), u) := by
  induction h with
  | refl s => exact fun fuel left => ⟨fuel, left, fun rest u run => run⟩
  | @round s t u found found' run rest ih =>
    intro fuel left
    have after := slides_round levels s
    rw [run] at after
    cases fuel with
    | zero =>
      have none := List.length_eq_zero_iff.1 (Nat.le_zero.1 left.2)
      obtain ⟨u', -, run'⟩ :=
        run_round_end levels last clean (TokenReader.peek_nil none)
      cases run.symm.trans run'
    | succ fuel =>
      obtain ⟨r, t', run', left'⟩ := passes_round levels s left
      rw [run] at run'
      cases run'
      obtain ⟨fuel', left', further⟩ :=
        ih (after.last.symm ▸ last) (after.clean clean) fuel (left' found rfl)
      refine ⟨fuel', left', fun more v runs => ?_⟩
      rw [Parser.items_succ, run_bind, run]
      dsimp only
      rw [run_bind, further more v runs, List.append_assoc]
      rfl

theorem slides_items (levels fuel : Nat) : Slides (Parser.items levels fuel) :=
  .of_kept fun _ kept => .of_mirrors (kept.stable.items levels fuel)

/-- More rounds than tokens make no difference. -/
theorem run_items_fuel (levels : Nat) : ∀ n {s : ParserState}, Left n s →
    s.reader.last.isEndOfFile = true → s.reader.Clean → ∀ m, n ≤ m → ∃ found t t', (Parser.items levels n).run.run s = (.ok found, t) ∧
      (Parser.items levels m).run.run s = (.ok found, t') ∧ t'.errors = t.errors
  | 0, s, left, last, clean, m, _ => by
    have none := List.length_eq_zero_iff.1 (Nat.le_zero.1 left.2)
    obtain ⟨u, looked, run⟩ :=
      run_round_end levels last clean (TokenReader.peek_nil none)
    cases m with
    | zero => exact ⟨[], s, s, rfl, rfl, rfl⟩
    | succ m =>
      refine ⟨[], s, u, rfl, ?_, looked.errors⟩
      rw [Parser.items_succ, run_bind, run]
      rfl
  | n + 1, s, left, last, clean, m + 1, le => by
    obtain ⟨r, t, run, left'⟩ := passes_round levels s left
    have after := slides_round levels s
    rw [run] at after
    rw [Parser.items_succ, Parser.items_succ, run_bind, run_bind, run]
    cases r with
    | none => exact ⟨[], t, t, rfl, rfl, rfl⟩
    | some found =>
      obtain ⟨rest, u, u', run', run'', errors⟩ := run_items_fuel levels n (left' found rfl)
        (after.last.symm ▸ last) (after.clean clean) m (Nat.le_of_succ_le_succ le)
      refine ⟨found ++ rest, u, u', ?_, ?_, errors⟩
      · dsimp only
        rw [run_bind, run']
        rfl
      · dsimp only
        rw [run_bind, run'']
        rfl

end

/-! ### The rest by itself -/

/-- The states differ in the errors `es` reported before, and in how they came to their tokens. -/
structure Anew (es : List ParseError) (s s' : ParserState) : Prop where
  tokens : s.reader.toList = s'.reader.toList
  last : s.reader.last = s'.reader.last
  clean : s.reader.Clean
  clean' : s'.reader.Clean
  errors : s.errors = es ++ s'.errors
  ids : s.nextId = s'.nextId
  limit : s.limit = s'.limit

theorem stable_anew (es : List ParseError) : Stable id (Anew es) where
  peekNth n s s' h := by
    refine ⟨.ok ?_, ?_⟩
    · change (s'.reader.peekNth n).1 = (s.reader.peekNth n).1
      rw [TokenReader.peekNth_eq, TokenReader.peekNth_eq, h.tokens, h.last]
    · have looked := looked_peekNth s n
      have looked' := looked_peekNth s' n
      exact
        { tokens := looked.tokens.trans (h.tokens.trans looked'.tokens.symm)
          last := looked.last.trans (h.last.trans looked'.last.symm)
          clean := looked.clean h.clean
          clean' := looked'.clean h.clean'
          errors := h.errors
          ids := h.ids
          limit := h.limit }
  next s s' h := by
    refine ⟨.ok ?_, ?_, ?_, TokenReader.clean_next h.clean, TokenReader.clean_next h.clean', h.errors,
      h.ids, h.limit⟩
    · change s'.reader.next.1 = s.reader.next.1
      rw [TokenReader.next_val, TokenReader.next_val, h.tokens, h.last]
    · change s.reader.next.2.toList = s'.reader.next.2.toList
      rw [TokenReader.toList_next, TokenReader.toList_next, h.tokens]
    · change s.reader.next.2.last = s'.reader.next.2.last
      rw [TokenReader.last_next, TokenReader.last_next, h.last]
  remaining s s' h := by
    refine ⟨.ok ?_, h⟩
    rw [TokenReader.size_eq, TokenReader.size_eq, h.tokens]
  freshId s s' h := ⟨.ok h.ids, h.tokens, h.last, h.clean, h.clean', h.errors,
    congrArg (· + 1) h.ids, h.limit⟩
  limit s s' h := ⟨.ok h.limit, h⟩
  reportFound s s' h := by
    rw [run_reportFound h.clean, run_reportFound h.clean']
    exact ⟨.ok trivial, h⟩
  record e own s s' h := by
    rw [ParseError.relocate_id]
    refine ⟨.ok trivial, h.tokens, h.last, h.clean, h.clean', ?_, h.ids, h.limit⟩
    change s.errors ++ [e] = es ++ (s'.errors ++ [e])
    rw [h.errors, List.append_assoc]

/-- Nothing stands elsewhere, so the results are the same. -/
theorem run_anew {α : Type} [Placed α] {p : Parser α}
    (mirrors : ∀ es, Mirrors id (Anew es) (Moved id) p p) {es : List ParseError}
    {s s' t : ParserState} {a : α} (h : Anew es s s') (run : p.run.run s = (.ok a, t)) :
    ∃ t', p.run.run s' = (.ok a, t') ∧ Anew es t t' := by
  obtain ⟨results, states⟩ := mirrors es s s' h
  obtain ⟨itself, -⟩ := mirrors [] s s ⟨rfl, rfl, h.clean, h.clean, rfl, rfl, rfl⟩
  rw [run] at results states itself
  generalize p.run.run s' = r at results states
  obtain ⟨r, t'⟩ := r
  cases itself with
  | ok same =>
    cases results with
    | ok moved => exact ⟨t', by rw [moved, ← same], states⟩

/-- What is left of a source is parsed as if it was a source by itself, its identities counted on. -/
theorem run_rest {fuel : Nat} {s : ParserState} {ts : List Token} {eof : Token} (left : Left fuel s)
    (tokens : s.reader.toList = ts ++ [eof]) (last : s.reader.last = eof)
    (final : eof.isEndOfFile = true) (clean : s.reader.Clean) (name : String) :
    ∃ found t u, (Parser.items s.limit fuel).run.run s = (.ok found, t) ∧
      (Parser.module name).run.run { byItself s.limit (ts ++ [eof]) with nextId := s.nextId } =
        (.ok ⟨name, found⟩, u) ∧ t.errors = s.errors ++ u.errors := by
  have all : Left s.reader.size s := ⟨left.1, Nat.le_of_eq (TokenReader.size_eq s.reader).symm⟩
  have most : s.reader.size ≤ fuel := by
    rw [TokenReader.size_eq]
    exact left.2
  obtain ⟨found, t, t', run, run', errors⟩ :=
    run_items_fuel s.limit s.reader.size all (last.symm ▸ final) clean fuel most
  let s' : ParserState := { byItself s.limit (ts ++ [eof]) with nextId := s.nextId }
  have anew : Anew s.errors s s' :=
    { tokens := tokens.trans (toList_byItself s.limit _).symm
      last := last.trans (last_byItself s.limit ts eof).symm
      clean := clean
      clean' := clean_byItself s.limit _
      errors := (List.append_nil _).symm
      ids := rfl
      limit := rfl }
  have size : s'.reader.size = s.reader.size := by
    rw [TokenReader.size_eq, TokenReader.size_eq, anew.tokens]
  obtain ⟨u, run'', anew'⟩ :=
    run_anew (fun es => (stable_anew es).items s.limit s.reader.size) anew run
  refine ⟨found, t', u, run', ?_, errors.trans anew'.errors⟩
  have get : (get : Parser ParserState).run.run s' = (.ok s', s') := rfl
  have remaining : Parser.remaining.run.run s' = (.ok s'.reader.size, s') := rfl
  change (Parser.module name).run.run s' = _
  rw [Parser.module, run_bind, get]
  dsimp only
  rw [run_bind, remaining, size]
  dsimp only
  rw [run_bind, show s'.limit = s.limit from rfl, run'']
  dsimp only
  rw [run_bind, run_reportFound anew'.clean']
  rfl

/-! ### Programs -/

namespace ProgramParser

/-- Modules and errors have been added to those there were. -/
structure Further (p p' : ProgramParser) : Prop where
  modules : p.modules <+: p'.modules
  errors : p.errors <+: p'.errors

theorem Further.refl (p : ProgramParser) : Further p p := ⟨List.prefix_rfl, List.prefix_rfl⟩

theorem Further.trans {p p' p'' : ProgramParser} (h : Further p p') (h' : Further p' p'') :
    Further p p'' := ⟨h.modules.trans h'.modules, h.errors.trans h'.errors⟩

theorem further_parseModule (p : ProgramParser) (name text : String) :
    Further p (p.parseModule name text).1 := ⟨List.prefix_append _ _, List.prefix_append _ _⟩

theorem further_followWith (r : Resolver) (p : ProgramParser) (queue : List PendingImport) :
    Further p (followWith r p queue) := by
  fun_induction followWith r p queue with
  | case1 p => exact .refl p
  | case2 p₀ i queue remarks p _ _ ih =>
    have same : Further p₀ p := ⟨List.prefix_rfl, List.prefix_rfl⟩
    have missed : Further p
        { p with errors := p.errors ++ [.importNotFound i.name i.location] } :=
      ⟨List.prefix_rfl, List.prefix_append _ _⟩
    exact same.trans (missed.trans ih)
  | case3 p₀ i queue remarks p s _ old _ ih =>
    have same : Further p₀ p := ⟨List.prefix_rfl, List.prefix_rfl⟩
    exact same.trans ih
  | case4 p₀ i queue remarks p s _ new parsed _ ih =>
    have same : Further p₀ p := ⟨List.prefix_rfl, List.prefix_rfl⟩
    exact same.trans ((further_parseModule p s.name s.text).trans ih)

theorem further_follow (p : ProgramParser) (queue : List PendingImport) :
    Further p (p.follow queue) := by
  unfold follow
  cases p.options.resolver with
  | some r => exact further_followWith r p queue
  | none => exact ⟨List.prefix_rfl, List.prefix_append _ _⟩

end ProgramParser

/-- The root of a program comes first, and so do its errors. -/
theorem parseText_of_module {options : ParseOptions} {name text : String} {m : Module}
    {s : ParserState} (run : (Parser.module name).run.run (startOf options name text) = (.ok m, s)) :
    (parseText options name text).program.modules.head? = some m ∧
      s.errors <+: (parseText options name text).errors ∧
      (ProgramParser.importsOf m = [] → (parseText options name text).errors = s.errors) := by
  let p : ProgramParser := { options }
  have parsed : (p.parseModule name text).1.modules = [m] ∧
      (p.parseModule name text).1.errors = s.errors ∧
      (p.parseModule name text).2 = ProgramParser.importsOf m := by
    unfold startOf lexerOf at run
    unfold ProgramParser.parseModule
    dsimp only [p] at run ⊢
    rw [run]
    exact ⟨rfl, rfl, rfl⟩
  obtain ⟨modules, errors, imports⟩ := parsed
  have root : parseText options name text =
      ((p.parseModule name text).1.follow (p.parseModule name text).2).outcome := by
    rw [parseText, ProgramParser.parseRoot, if_neg (by exact List.not_mem_nil)]
  have further := further_follow (p.parseModule name text).1 (p.parseModule name text).2
  rw [root]
  refine ⟨?_, errors ▸ further.errors, fun nothing => ?_⟩
  · obtain ⟨more, same⟩ := further.modules
    change ((p.parseModule name text).1.follow (p.parseModule name text).2).modules.head? = some m
    rw [← same, modules]
    rfl
  · rw [imports, nothing]
    change ((p.parseModule name text).1.follow []).errors = s.errors
    unfold ProgramParser.follow
    split
    · rw [ProgramParser.followWith, errors]
    · rw [← errors]
      exact List.append_nil _

/-- What the rounds up to some place give comes first, and then what the rest of the source is parsed
to as if it was a source by itself. -/
theorem run_module_of_arrives {options : ParseOptions} {name text : String} {all ts : List Token}
    {eof : Token} {found : List Item} {s : ParserState} (lexed : LexesTo options name text all eof)
    (arrives : Arrives options.maxNesting (startOf options name text) found s)
    (tokens : s.reader.toList = ts ++ [eof]) : ∃ rest u v,
      (Parser.module name).run.run
          { byItself options.maxNesting (ts ++ [eof]) with nextId := s.nextId } =
        (.ok ⟨name, rest⟩, u) ∧
      (Parser.module name).run.run (startOf options name text) = (.ok ⟨name, found ++ rest⟩, v) ∧
      v.errors = s.errors ++ u.errors := by
  let start := startOf options name text
  have last : start.reader.last.isEndOfFile = true := lexed.last.symm ▸ lexed.isEndOfFile
  have left : Left start.reader.size start :=
    ⟨endsOnce_drain _, Nat.le_of_eq (TokenReader.size_eq start.reader).symm⟩
  obtain ⟨fuel, left', further⟩ := arrives.run_items last lexed.clean _ left
  have after := arrives.after
  obtain ⟨rest, t, u, items, module, errors⟩ := run_rest left' tokens
    (after.last.trans lexed.last) lexed.isEndOfFile (after.clean lexed.clean) name
  have limit : s.limit = options.maxNesting := after.limit
  have clean : t.reader.Clean := by
    have more := slides_items s.limit fuel s
    rw [items] at more
    exact more.clean (after.clean lexed.clean)
  rw [limit] at items module
  refine ⟨rest, u, t, module, ?_, errors⟩
  have get : (get : Parser ParserState).run.run start = (.ok start, start) := rfl
  have remaining : Parser.remaining.run.run start = (.ok start.reader.size, start) := rfl
  rw [Parser.module, run_bind, get]
  dsimp only
  rw [run_bind, remaining]
  dsimp only
  rw [run_bind, show start.limit = options.maxNesting from rfl, further rest t items]
  dsimp only
  rw [run_bind, run_reportFound clean]
  rfl

/-- Nothing is made of the end of a source. -/
theorem run_module_end {eof : Token} (final : eof.isEndOfFile = true) (name : String)
    (limit id : Nat) : ∃ u, (Parser.module name).run.run { byItself limit [eof] with nextId := id } =
      (.ok ⟨name, []⟩, u) ∧ u.errors = [] := by
  let s : ParserState := { byItself limit [eof] with nextId := id }
  have peek : (s.reader.peekNth 0).1 = eof := TokenReader.peek_eq (toList_byItself limit [eof])
  have clean : s.reader.Clean := clean_byItself limit [eof]
  obtain ⟨u, looked, round⟩ := run_round_end limit final clean peek
  refine ⟨u, ?_, looked.errors⟩
  have get : (get : Parser ParserState).run.run s = (.ok s, s) := rfl
  have remaining : Parser.remaining.run.run s = (.ok 1, s) := rfl
  change (Parser.module name).run.run s = _
  rw [Parser.module, run_bind, get]
  dsimp only
  rw [run_bind, remaining]
  dsimp only
  rw [run_bind, Parser.items_succ, run_bind, show s.limit = limit from rfl, round]
  dsimp only
  rw [show (pure [] : Parser (List Item)).run.run u = (.ok [], u) from rfl]
  dsimp only
  rw [run_bind, run_reportFound (looked.clean clean)]
  rfl

/-! ### Short sources -/

/-- The tokens of a source, if they are made in at most `n` steps, and the parser before them. -/
def startWithin (n : Nat) (options : ParseOptions) (name text : String) :
    Option (List (Token × List LexError) × ParserState) :=
  (Lexer.drainWithin n (lexerOf options name text)).map fun r =>
    (r.1,
      { reader := { rest := r.1, last := (r.1.getLast?.map Prod.fst).getD default
                    remarks := r.2.remarks }
        limit := options.maxNesting })

theorem startOf_of_startWithin {n : Nat} {options : ParseOptions} {name text : String}
    {ts : List (Token × List LexError)} {s : ParserState}
    (h : startWithin n options name text = some (ts, s)) :
    (lexerOf options name text).drain.1 = ts ∧ startOf options name text = s := by
  obtain ⟨r, drained, same⟩ := Option.map_eq_some_iff.1 h
  cases same
  rw [startOf, TokenReader.ofLexer, Lexer.drain_of_drainWithin drained]
  exact ⟨rfl, rfl⟩

/-- The tokens of a short source from one place up to another. -/
def sliceOf (text : String) (i j : Nat) : List Token :=
  let tokens := (startWithin 40 {} "t" text).elim [] fun r => r.1.map Prod.fst
  (tokens.drop i).take (j - i)

def tokenOf (text : String) (i : Nat) : Token := (sliceOf text i (i + 1)).headD default

end ScriptLang.Syntax
