import ScriptLang.Proofs.ImportSearch
import ScriptLang.Proofs.SourceTiling

/-!
# Where requests stand

While a source is read, each request of a resolver is made for the source that is on top of the others
then, and this is the one that the argument of the directive was read of (`include_written`).  The
imports of a module wait until its source is at its end.  They are all made for that source, also those
that were read of a source that it includes (`import_written`).
-/

namespace ScriptLang

open Text

/-- What is asked of a resolver: the source `name`, for the source `including`.  It is asked for at a
place. -/
structure SourceRequest where
  name : String
  including : String
  place : Location
deriving DecidableEq

/-- The token stands in the text of the source. -/
def Token.StandsIn (t : Token) (s : SourceText) : Prop :=
  ∃ before inside behind, s.text.toList = before ++ inside ++ behind ∧
    t.location = placeAfter s.name before ∧ t.width = byteLength inside

/-- The token was read of the source that was entered as the `k`-th, and stands in its text. -/
structure Journal.Shows (j : Journal) (k : Nat) (s : SourceText) (t : Token) : Prop where
  entered : j.entered[k]? = some s
  marked : (k, .token t) ∈ j.marks
  stands : t.StandsIn s

/-! ### Requests in reading -/

namespace Lexer

/-- What the next turn asks of the resolver; nothing if the sources would nest too deep. -/
def request? (lx : Lexer) : Option SourceRequest :=
  match lx.directive, lx.pending with
  | none, some (name, place) =>
    if lx.below.length < lx.options.maxIncludeDepth then some ⟨name, lx.top.name, place⟩ else none
  | _, _ => none

variable {lx next : Lexer} {q : SourceRequest}

theorem request?_eq_some (h : lx.request? = some q) : lx.directive = none ∧
    lx.pending = some (q.name, q.place) ∧ q.including = lx.top.name := by
  unfold request? at h
  split at h
  · next name place through asked =>
    split at h
    · cases h
      exact ⟨through, asked, rfl⟩
    · cases h
  · cases h

/-- The phase of a directive leaves the request there is, or makes the argument that asks. -/
theorem turnPhase_pending (lx : Lexer) (index : Nat) (phases : List DirectivePhase) :
    (lx.turnPhase index phases).2.pending = lx.pending ∨
      ∃ t p, (lx.turnPhase index phases).1 = .made t ∧ t.kind ≠ .endOfFile ∧ t.asked = [p] ∧
        (lx.turnPhase index phases).2.pending = some p := by
  cases phases with
  | nil => exact .inl rfl
  | cons phase phases =>
    rw [turnPhase]
    cases phase lx.top.rest with
    | pass | finish => exact .inl rfl
    | produce kind width =>
      dsimp only
      split <;> exact .inl rfl
    | request width name => exact .inr ⟨_, _, rfl, by simp, rfl, rfl⟩
    | reject width message => exact .inl rfl

theorem turns_concat (n : Nat) (lx : Lexer) :
    lx.turns (n + 1) = lx.turns n ++ [(lx.after n).turn.1] := by
  induction n generalizing lx with
  | zero => rfl
  | succ n ih => exact congrArg (lx.turn.1 :: ·) (ih lx.turn.2)

theorem scan_pending (lx : Lexer) : lx.scan.2.pending = lx.pending := by
  cases rest : lx.top.rest with
  | nil => rw [scan_of_end rest]
  | cons c cs =>
    rw [scan_of_lexeme rest]
    rfl

end Lexer

namespace Journal

variable {j : Journal} {lx next : Lexer} {r : Option Resolver} {s : SourceText}

/-- What is noted of a turn that neither enters a source nor leaves one. -/
theorem note_of_reading (j : Journal) {a : Turn} (stays : ∀ s, a ≠ .entered s) (goes : a ≠ .left) :
    ∃ ms, j.note a = { j with marks := j.marks ++ ms } := by
  have plain : ∃ ms, a.mark?.elim j j.mark = { j with marks := j.marks ++ ms } := by
    cases a.mark? with
    | none => exact ⟨[], by rw [List.append_nil]; rfl⟩
    | some m => exact ⟨_, rfl⟩
  cases a with
  | entered s => exact absurd rfl (stays s)
  | left => exact absurd rfl goes
  | _ => exact plain

theorem note_turnPhase (j : Journal) (lx : Lexer) (index : Nat) (phases : List DirectivePhase) :
    ∃ ms, j.note (lx.turnPhase index phases).1 = { j with marks := j.marks ++ ms } := by
  suffices h : (∀ s, (lx.turnPhase index phases).1 ≠ .entered s) ∧
      (lx.turnPhase index phases).1 ≠ .left from j.note_of_reading h.1 h.2
  cases phases with
  | nil => simp [Lexer.turnPhase]
  | cons phase phases =>
    rw [Lexer.turnPhase]
    cases phase lx.top.rest with
    | produce kind width =>
      dsimp only
      split <;> simp
    | _ => simp

/-- A token that is made is shown as read of the source on top. -/
theorem Keeps.shows (h : j.Keeps lx) {t : Token} (moves : Lexer.Moves lx next (.made t))
    (inside : t.kind ≠ .endOfFile) :
    ∃ k ks s, j.reading = k :: ks ∧ s.name = lx.top.name ∧ (j.note (.made t)).Shows k s t := by
  obtain ⟨k, ks, reading, ⟨s, front, entered, text, place, -⟩, -⟩ := h.top
  have marked : j.note (.made t) = j.mark (.token t) := note_of_mark (Turn.mark?_made inside)
  refine ⟨k, ks, s, reading, ?_, ?_⟩
  · rw [Frame.name, place]
    rfl
  · rw [marked]
    refine ⟨entered, ?_, ?_⟩
    · rw [Journal.mark, reading]
      exact List.mem_append_right _ (List.mem_singleton_self _)
    · cases moves with
      | read m made here spans =>
        obtain rfl := Option.some.inj (made.symm.trans (Turn.mark?_made inside))
        obtain ⟨word, ⟨behind, rest⟩, width⟩ := spans
        refine ⟨front, word, behind, ?_, here.trans place, width⟩
        rw [text, ← rest, List.append_assoc]
      | ended => exact absurd rfl inside

/-- The request there is was made by a token of the source on top. -/
def Pends (j : Journal) (lx : Lexer) : Prop :=
  ∀ p, lx.pending = some p →
    ∃ k s t, j.reading.head? = some k ∧ j.Shows k s t ∧ t.asked = [p]

theorem Pends.turn (h : j.Pends lx) (recounts : Recounts r s j lx) :
    (j.note lx.turn.1).Pends lx.turn.2 := by
  intro p asked
  have moves := recounts.sound.moves
  cases lx.meets with
  | directive d under turned =>
    rw [turned] at asked moves ⊢
    obtain ⟨ms, noted⟩ := j.note_turnPhase lx d.index d.phases
    rcases lx.turnPhase_pending d.index d.phases with same | ⟨t, p', made, inside, asks, found⟩
    · obtain ⟨k, s, t, top, shows, asks⟩ := h p (same.symm.trans asked)
      rw [noted]
      exact ⟨k, s, t, top, ⟨shows.entered, List.mem_append_left _ shows.marked, shows.stands⟩, asks⟩
    · obtain rfl := Option.some.inj (found.symm.trans asked)
      rw [made] at moves
      obtain ⟨k, ks, s, reading, -, shows⟩ := recounts.toKeeps.shows moves inside
      refine ⟨k, s, t, ?_, made ▸ shows, asks⟩
      rw [noted, reading]
      rfl
  | request p through pending turned =>
    rw [turned] at asked
    cases (Lexer.enterPending_idle through pending).2.symm.trans asked
  | exhausted f below through idle empty stack turned =>
    rw [turned] at asked
    cases idle.symm.trans asked
  | lexeme through idle root turned =>
    rw [turned] at asked
    cases (lx.scan_pending.trans idle).symm.trans asked

theorem Pends.after (h : j.Pends lx) (recounts : Recounts r s j lx) (n : Nat) :
    ((lx.turns n).foldl note j).Pends (lx.after n) := by
  induction n generalizing j lx with
  | zero => exact h
  | succ n ih => exact ih (h.turn recounts) recounts.turn

/-- The journal of the first turns in which a source is read. -/
def ofTurns (r : Option Resolver) (options : LexerOptions) (s : SourceText) (n : Nat) : Journal :=
  of s ((Lexer.toRead r options s).turns n)

theorem recounts_ofTurns (r : Option Resolver) (options : LexerOptions) (s : SourceText) (n : Nat) :
    Recounts r s (ofTurns r options s n) ((Lexer.toRead r options s).after n) :=
  (recounts_start r options s).after n

theorem ofTurns_succ (r : Option Resolver) (options : LexerOptions) (s : SourceText) (n : Nat) :
    ofTurns r options s (n + 1) =
      (ofTurns r options s n).note ((Lexer.toRead r options s).after n).turn.1 := by
  rw [ofTurns, ofTurns, of, of, Lexer.turns_concat, List.foldl_append]
  rfl

end Journal

/-- The request is made for the source on top, of which the token was read that makes it. -/
def SourceRequest.Written (q : SourceRequest) (j : Journal) : Prop :=
  ∃ k s t, j.reading.head? = some k ∧ j.Shows k s t ∧ t.asked = [(q.name, q.place)] ∧
    q.including = s.name

theorem include_written {r : Option Resolver} {options : LexerOptions} {s : SourceText} {n : Nat}
    {q : SourceRequest} (h : ((Lexer.toRead r options s).after n).request? = some q) :
    q.Written (Journal.ofTurns r options s n) := by
  obtain ⟨-, asked, top⟩ := Lexer.request?_eq_some h
  have start : Journal.Pends { entered := [s] } (Lexer.toRead r options s) := nofun
  obtain ⟨k, src, t, reading, shows, asks⟩ :=
    start.after (Journal.recounts_start r options s) n _ asked
  obtain ⟨k', ks, reading', ⟨src', front, entered, -, place, -⟩, -⟩ :=
    (Journal.recounts_ofTurns r options s n).toKeeps.top
  refine ⟨k, src, t, reading, shows, asks, ?_⟩
  have same : k' = k := by
    rw [Journal.ofTurns, Journal.of] at reading'
    rw [reading'] at reading
    exact Option.some.inj reading
  have source : src' = src := Option.some.inj (entered.symm.trans (same ▸ shows.entered))
  rw [top, ← source, Frame.name, place]
  rfl

/-! ### The tokens of imports -/

namespace Lexer

variable {lx next : Lexer}

theorem Stacks.root (h : Stacks lx next) : next.names.getLast? = lx.names.getLast? := by
  have some_name (lx : Lexer) : lx.names ≠ [] := List.cons_ne_nil _ _
  cases h with
  | same depth names => rw [names]
  | pushed name new room depth names =>
    rw [names]
    exact List.getLast?_cons_of_ne_nil (some_name lx)
  | popped depth names =>
    have more : lx.names.tail ≠ [] := names ▸ some_name next
    obtain ⟨name, rest, stack⟩ := List.exists_cons_of_ne_nil (some_name lx)
    rw [stack, List.tail_cons] at more
    rw [names, stack, List.tail_cons, List.getLast?_cons_of_ne_nil more]

theorem root_after (n : Nat) : (lx.after n).names.getLast? = lx.names.getLast? := by
  induction n generalizing lx with
  | zero => rfl
  | succ n ih => exact ih.trans lx.turn_stacks.root

/-- The source on top has the name of the root only if it is the root. -/
theorem below_of_names (distinct : lx.names.Nodup) {name : String}
    (root : lx.names.getLast? = some name) (top : lx.top.name = name) : lx.below = [] := by
  by_contra stack
  have others : lx.below.map Frame.name ≠ [] := by rwa [Ne, List.map_eq_nil_iff]
  have last : (lx.below.map Frame.name).getLast? = some name := by
    rw [← root, names, List.map_cons, List.getLast?_cons_of_ne_nil others]
  rw [names, List.map_cons] at distinct
  exact (List.nodup_cons.1 distinct).1 (top ▸ List.mem_of_getLast? last)

theorem exists_turn_of_made {t : Token} {n : Nat} (h : t ∈ lx.made n) :
    ∃ k, (lx.after k).turn.1 = .made t := by
  induction n generalizing lx with
  | zero => cases h
  | succ n ih =>
    rw [made_succ] at h
    rcases List.mem_append.1 h with first | later
    · refine ⟨0, ?_⟩
      rw [after]
      cases made : lx.turn.1 with
      | made t' =>
        rw [made] at first
        rw [List.mem_singleton.1 first]
      | _ =>
        rw [made] at first
        cases first
    · obtain ⟨k, made⟩ := ih later
      exact ⟨k + 1, made⟩

end Lexer

namespace Syntax

section

variable {α β : Type} {I : ParserState → Prop} {p : Parser α} {f : α → Parser β} {Q : α → Prop}
  {R : β → Prop}

theorem GivesFrom.bind (hp : GivesFrom I p Q) (kept : Preserves I p)
    (hf : ∀ a, Q a → GivesFrom I (f a) R) : GivesFrom I (p >>= f) R := by
  intro s b s' hs hrun
  have hs' := kept s hs
  rw [run_bind] at hrun
  generalize hfirst : p.run.run s = first at hrun hs'
  obtain ⟨r, t⟩ := first
  cases r with
  | error e => cases hrun
  | ok a => exact hf a (hp s a t hs hfirst) t b s' hs' hrun

theorem GivesFrom.behind (kept : Preserves I p) (hf : ∀ a, GivesFrom I (f a) R) :
    GivesFrom I (p >>= f) R := (gives_any p).from.bind kept fun a _ => hf a

theorem GivesFrom.ite {c : Prop} [Decidable c] {q : Parser α} (hp : GivesFrom I p Q)
    (hq : GivesFrom I q Q) : GivesFrom I (if c then p else q) Q := by
  split
  · exact hp
  · exact hq

end

/-- The tokens to come are among `ts`. -/
def Reading (ts : List Token) (s : ParserState) : Prop :=
  s.reader.last ∈ ts ∧ ∀ t ∈ s.reader.toList, t ∈ ts

theorem kept_reading (ts : List Token) : Kept (Reading ts) where
  peekNth n s h := by
    refine ⟨?_, ?_⟩
    · change (TokenReader.reach _ s.reader).last ∈ ts
      rw [TokenReader.last_reach]
      exact h.1
    · change ∀ t ∈ (TokenReader.reach _ s.reader).toList, t ∈ ts
      rw [TokenReader.toList_reach]
      exact h.2
  next s h := by
    refine ⟨?_, ?_⟩
    · change s.reader.next.2.last ∈ ts
      rw [TokenReader.last_next]
      exact h.1
    · change ∀ t ∈ s.reader.next.2.toList, t ∈ ts
      rw [TokenReader.toList_next]
      exact fun t ht => h.2 t (List.mem_of_mem_tail ht)
  freshId _ h := h
  reportFound _ h := h
  record _ _ _ h := h

theorem gives_peek (ts : List Token) : GivesFrom (Reading ts) Parser.peek (· ∈ ts) := by
  intro s t s' reading hrun
  cases hrun
  obtain ⟨last, more⟩ := (kept_reading ts).peekNth 0 s reading
  have seen (r : TokenReader) (hlast : r.last ∈ ts) (hmore : ∀ t ∈ r.toList, t ∈ ts) :
      (r.ahead[0]?).getD r.last ∈ ts := by
    cases ahead : r.ahead with
    | nil => exact hlast
    | cons t ahead' => exact hmore t (List.mem_append_left _ (ahead ▸ List.mem_cons_self))
  exact seen _ last more

/-- An import begins with one of the tokens, the keyword. -/
def ImportsAmong (ts : List Token) (i : Item) : Prop :=
  ∀ name, i.kind = .imported name → i.node.token ∈ ts ∧ i.node.token.isWord .import = true

theorem gives_itemAt (levels : Nat) {ts : List Token} {t : Token} (mem : t ∈ ts) (id : Nat) :
    Gives (Parser.itemAt levels t ⟨id, t⟩) (ImportsAmong ts) := by
  unfold Parser.itemAt
  split
  · exact .behind fun f => .pure nofun
  · split
    · next keyword =>
      exact .behind fun _ => .behind fun _ => .behind fun _ => .pure fun _ _ => ⟨mem, keyword⟩
    · exact .behind fun decl => .pure nofun

theorem gives_importItem (levels : Nat) (ts : List Token) :
    GivesFrom (Reading ts) (Parser.item levels) (ImportsAmong ts) := by
  have made (t : Token) : Gives (Parser.nodeAt t) fun node => ∃ id, node = ⟨id, t⟩ :=
    .behind fun id => .pure ⟨id, rfl⟩
  rw [Parser.item_eq]
  refine (gives_peek ts).andThen fun t mem => (made t).bind ?_
  rintro _ ⟨id, rfl⟩
  exact gives_itemAt levels mem id

theorem gives_importItems (levels : Nat) (ts : List Token) : ∀ fuel,
    GivesFrom (Reading ts) (Parser.items levels fuel) fun is => ∀ i ∈ is, ImportsAmong ts i
  | 0 => Gives.from (.pure fun _ h => absurd h List.not_mem_nil)
  | fuel + 1 => by
    have st := (kept_reading ts).stable
    have skip := st.skipping fun fuel => st.skipItem fuel 0
    unfold Parser.items
    refine .behind (.of_mirrors st.reportFound) fun _ => .behind (.of_mirrors st.peek) fun t =>
      .ite (Gives.from (.pure fun _ h => absurd h List.not_mem_nil)) (.ite ?_ ?_)
    · refine (gives_importItem levels ts).recover.bind
        (.of_mirrors (st.recover (st.item levels) skip)) fun found hfound => ?_
      refine (gives_importItems levels ts fuel).andThen fun rest hrest => .pure fun i hi => ?_
      obtain hi | hi := List.mem_append.1 hi
      · exact hfound i (Option.mem_toList.1 hi)
      · exact hrest i hi
    · exact .behind (.of_mirrors (st.report (.atToken _ t) trivial)) fun _ =>
        .behind (.of_mirrors st.next) fun _ => .behind (.of_mirrors skip) fun _ =>
          gives_importItems levels ts fuel

/-- The imports of a module begin with keywords among the tokens of its source. -/
theorem imports_among {ts : List Token} {name : String} {s s' : ParserState} {m : Module}
    (h : (Parser.module name).run.run s = (.ok m, s')) (reading : Reading ts s) :
    ∀ i ∈ m.items, ImportsAmong ts i := by
  have limit : (get : Parser ParserState).run.run s = (.ok s, s) := rfl
  have remaining : Parser.remaining.run.run s = (.ok s.reader.size, s) := rfl
  unfold Parser.module at h
  rw [run_bind, limit] at h
  dsimp only at h
  rw [run_bind, remaining] at h
  refine GivesFrom.andThen (I := Reading ts) (gives_importItems s.limit ts s.reader.size)
    (R := fun m : Module => ∀ i ∈ m.items, ImportsAmong ts i) (fun found hfound => ?_) s m s' reading
    h
  exact .behind fun _ => .pure hfound

/-- The import was read of a source, by way of the source `s` that it is made for: of `s` itself, unless
they have different names. -/
def PendingImport.Written (i : PendingImport) (s : SourceText) (j : Journal) : Prop :=
  ∃ k src t, j.Shows k src t ∧ t.isWord .import = true ∧ t.location = i.location ∧
    i.including = s.name ∧ (i.including = src.name ↔ k = 0)

theorem reading_startOf (options : ParseOptions) (s : SourceText) (id : Nat) :
    Reading ((lexerOf options s.name s.text).drain.1.map Prod.fst)
      { startOf options s.name s.text with nextId := id } := by
  refine ⟨?_, fun t ht => ht⟩
  have some_token := drain_ne_nil (lexerOf options s.name s.text)
  change (((lexerOf options s.name s.text).drain.1.getLast?.map Prod.fst).getD default) ∈ _
  rw [List.getLast?_eq_some_getLast some_token]
  exact List.mem_map_of_mem (List.getLast_mem some_token)

/-- A token that is not an end of file is made by some turn. -/
theorem exists_turn_of_drain {lx : Lexer} {t : Token} (h : t ∈ lx.drain.1.map Prod.fst)
    (inside : t.kind ≠ .endOfFile) : ∃ n, (lx.after n).turn.1 = .made t := by
  obtain ⟨n, e, last, -, ended, -, whole⟩ := lx.tokenize_eq_turns
  have tokens : lx.drain.1.map Prod.fst = _ := congrArg Prod.fst whole
  rw [tokens] at h
  rcases List.mem_append.1 h with made | final
  · exact Lexer.exists_turn_of_made (List.mem_filter.1 made).1
  · rw [List.mem_singleton.1 final] at inside
    exact absurd ended inside

/-- Of the sources being read, only the one that reading began with has its name. -/
theorem root_of_name {r : Option Resolver} {options : LexerOptions} {s : SourceText} {n k : Nat}
    {ks : List Nat} (reading : (Journal.ofTurns r options s n).reading = k :: ks)
    (top : ((Lexer.toRead r options s).after n).top.name = s.name) : k = 0 := by
  have bounded : (Lexer.toRead r options s).Bounded :=
    ⟨Nat.succ_le_succ (Nat.zero_le _), List.pairwise_singleton _ _⟩
  have alone := Lexer.below_of_names (bounded.after n).distinct (Lexer.root_after n) top
  have recounts := Journal.recounts_ofTurns r options s n
  have upTo := recounts.upTo
  have bottom := recounts.root
  rw [reading, alone] at upTo
  rw [reading, List.forall₂_nil_right_iff.1 (List.forall₂_cons.1 upTo).2] at bottom
  exact Option.some.inj bottom

theorem import_written {options : ParseOptions} {s : SourceText} {m : Module}
    (h : ProgramParser.ModuleOf options s m) :
    ∀ i ∈ ProgramParser.importsOf m, ∃ n,
      i.Written s (Journal.ofTurns options.resolver options.lexer s n) := by
  intro i hi
  have name := h.name_eq
  obtain ⟨id, s', run⟩ := h
  obtain ⟨item, mem, found⟩ := List.mem_filterMap.1 hi
  split at found
  · next imported kind =>
    obtain rfl := Option.some.inj found
    obtain ⟨among, keyword⟩ := imports_among run (reading_startOf options s id) item mem _ kind
    have inside : item.node.token.kind ≠ .endOfFile := by
      rw [beq_iff_eq.1 (Bool.and_eq_true_iff.1 keyword).1]
      nofun
    obtain ⟨n, made⟩ := exists_turn_of_drain among inside
    have recounts := Journal.recounts_ofTurns options.resolver options.lexer s n
    have moves := recounts.sound.moves
    have made' : ((Lexer.toRead options.resolver options.lexer s).after n).turn.1 =
      .made item.node.token := made
    rw [made'] at moves
    obtain ⟨k, ks, src, reading, top, shows⟩ := recounts.toKeeps.shows moves inside
    rw [← made', ← Journal.ofTurns_succ] at shows
    refine ⟨n + 1, k, src, item.node.token, shows, keyword, rfl, name, ?_, ?_⟩
    · intro same
      exact root_of_name reading (top ▸ same ▸ name)
    · rintro rfl
      obtain ⟨others, entered, -⟩ :=
        (Journal.recounts_ofTurns options.resolver options.lexer s (n + 1)).found
      have first := shows.entered
      rw [entered] at first
      rw [← Option.some.inj first]
      exact name
  · cases found

end Syntax

end ScriptLang
