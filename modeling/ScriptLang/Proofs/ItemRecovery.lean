import ScriptLang.Proofs.ItemRounds

/-!
# Recovery between items

What is wrong between items is reported once, and then the parser goes on at the next item: a source
made of items and of junk between them becomes just the items, with one error for each stretch of junk
(`items_recovered`).  Braces in junk are skipped as a whole, but for one case: the first token of junk
is skipped before any braces are counted, so that junk that begins with a brace must not have the
keyword of an item directly in that pair of braces (`IsSkippable`); otherwise the parser goes on there,
in the midst of the junk (`skipped_of_keyword`).
-/

namespace ScriptLang.Syntax

/-! ### Items and junk -/

/-- The tokens are an item, by themselves. -/
def IsItem (limit : Nat) (eof : Token) (ts : List Token) (i : Item) : Prop :=
  Whole (Parser.item limit) limit eof ts i

/-- How many braces are open behind a token; those that open nothing do not count. -/
def depthAfter (depth : Nat) (t : Token) : Nat :=
  if t.isSymbol '{' then depth + 1 else if t.isSymbol '}' then depth - 1 else depth

/-- Every brace that is opened is closed, and the other way round. -/
def Balanced : (depth : Nat) → List Token → Prop
  | depth, [] => depth = 0
  | depth, t :: ts => (t.isSymbol '}' = true → depth ≠ 0) ∧ Balanced (depthAfter depth t) ts

/-- Outside braces there is no keyword with which an item begins. -/
def NoneOutside : (depth : Nat) → List Token → Prop
  | _, [] => True
  | depth, t :: ts =>
    (depth = 0 → Parser.isItemStart t = false) ∧ NoneOutside (depthAfter depth t) ts

instance Balanced.decide : ∀ depth ts, Decidable (Balanced depth ts)
  | depth, [] => inferInstanceAs (Decidable (depth = 0))
  | depth, t :: ts =>
    have := Balanced.decide (depthAfter depth t) ts
    inferInstanceAs (Decidable (_ ∧ Balanced (depthAfter depth t) ts))

instance NoneOutside.decide : ∀ depth ts, Decidable (NoneOutside depth ts)
  | _, [] => .isTrue trivial
  | depth, t :: ts =>
    have := NoneOutside.decide (depthAfter depth t) ts
    inferInstanceAs (Decidable (_ ∧ NoneOutside (depthAfter depth t) ts))

/-- A stretch of tokens with balanced braces, and outside them no keyword of an item. -/
structure IsJunk (ts : List Token) : Prop where
  balanced : Balanced 0 ts
  outside : NoneOutside 0 ts

/-- There is no keyword of an item outside braces also if the first token is not counted. -/
def IsSkippable (ts : List Token) : Prop := NoneOutside 0 ts.tail

instance (ts : List Token) : Decidable (IsSkippable ts) :=
  inferInstanceAs (Decidable (NoneOutside 0 ts.tail))

/-- Whatever begins with another token than a brace can be skipped. -/
theorem isSkippable_of_junk {t : Token} {ts : List Token} (junk : IsJunk (t :: ts))
    (brace : t.isSymbol '{' = false) : IsSkippable (t :: ts) := by
  have closing : t.isSymbol '}' = false := Bool.eq_false_iff.2 fun closing =>
    junk.balanced.1 closing rfl
  have outside := junk.outside.2
  rw [depthAfter, brace, closing, if_neg Bool.false_ne_true, if_neg Bool.false_ne_true] at outside
  exact outside

/-- A source made of items and of junk between them, no stretch of junk next to another one: the items,
and for each stretch of junk the error at its first token. -/
inductive Regions (limit : Nat) (eof : Token) :
    (first : Bool) → List Token → List Item → List ParseError → Prop where
  | nil : Regions limit eof false [] [] []
  | item {first : Bool} {ts rest : List Token} {i : Item} {is : List Item} {es : List ParseError}
    (whole : IsItem limit eof ts i) (others : Regions limit eof first rest is es) :
    Regions limit eof false (ts ++ rest) (i :: is) es
  | junk {t : Token} {ts rest : List Token} {is : List Item} {es : List ParseError}
    (junk : IsJunk (t :: ts)) (skippable : IsSkippable (t :: ts))
    (others : Regions limit eof false rest is es) :
    Regions limit eof true (t :: ts ++ rest) is (notAnItem t :: es)

/-- The second item is the first one with its identities counted from elsewhere. -/
def Item.SameAs (a b : Item) : Prop := ∃ m, b = renumber m a

section

variable {limit : Nat} {eof : Token} {ts far : List Token} {i : Item} {s : ParserState}

/-! ### Items among others -/

/-- Without its keyword an item is none. -/
theorem fails_item {t : Token} (other : Parser.isItemStart t = false)
    (tokens : s.reader.toList = t :: ts) (levels : Nat) :
    ∃ e u, (Parser.item levels).run.run s = (.error e, u) := by
  simp only [Parser.isItemStart, Bool.or_eq_false_iff] at other
  obtain ⟨⟨⟨func, var⟩, const⟩, importing⟩ := other
  unfold Parser.item
  refine fails_peek tokens fun u tokens => ?_
  rw [run_bind,
    show (Parser.nodeAt t).run.run u = (.ok ⟨u.nextId, t⟩, { u with nextId := u.nextId + 1 }) from rfl]
  dsimp only
  rw [func, importing, if_neg Bool.false_ne_true, if_neg Bool.false_ne_true]
  refine fails_bind ?_
  have next : Parser.next.run.run { u with nextId := u.nextId + 1 } =
      (.ok t, { u with nextId := u.nextId + 1, reader := u.reader.next.2 }) :=
    congrArg (fun t => (Except.ok t, _)) (TokenReader.next_eq tokens).1
  rw [Parser.varDecl, run_bind, next]
  dsimp only
  rw [const, var]
  exact fails_bind ⟨_, _, rfl⟩

/-- An item begins with its keyword. -/
theorem IsItem.begins (whole : IsItem limit eof ts i) (final : eof.isEndOfFile = true) :
    ∃ t us, ts = t :: us ∧ Parser.isItemStart t = true := by
  have last : Parser.isItemStart eof = false := by
    simp [Parser.isItemStart, isWord_of_isEndOfFile final]
  obtain ⟨t, us, split, starts⟩ := Whole.begins whole (fun t => !Parser.isItemStart t)
    (fun t us s other tokens => fails_item (Bool.not_eq_true' _ ▸ other) tokens limit)
    (by rw [last]; rfl)
  exact ⟨t, us, split, Bool.not_eq_false' _ ▸ starts⟩

/-- What is an item by itself is the same item among others. -/
theorem item_in_place (whole : IsItem limit eof ts i) (final : eof.isEndOfFile = true)
    (tokens : s.reader.toList = ts ++ far) (clean : s.reader.Clean) (limits : s.limit = limit) :
    ∃ u, (Parser.item limit).run.run s = (.ok (renumber s.nextId i), u) ∧ Went s u far [] := by
  obtain ⟨first, us, rfl, starts⟩ := whole.begins final
  have follows : True ∨ Unbranched far := .inl trivial
  exact Whole.in_place whole rfl (closes_item limit) (slides_item limit)
    (fun k _ _ => k.item_steps limit starts) final follows tokens clean limits

/-- The round in which an item is read. -/
theorem round_of_item (whole : IsItem limit eof ts i) (final : eof.isEndOfFile = true)
    (tokens : s.reader.toList = ts ++ far) (clean : s.reader.Clean) (limits : s.limit = limit) :
    ∃ u, (Parser.round limit).run.run s = (.ok (some [renumber s.nextId i]), u) ∧ Went s u far [] := by
  obtain ⟨t, us, rfl, starts⟩ := whole.begins final
  have begun : t.isEndOfFile = false := Bool.eq_false_iff.2 fun last => by
    cases (Fork.kind_of_isItemStart starts).symm.trans (beq_iff_eq.1 last)
  obtain ⟨v, looked, round⟩ := run_round limit begun clean (TokenReader.peek_eq tokens)
  obtain ⟨u, run, went⟩ := item_in_place whole final (looked.tokens.trans tokens)
    (looked.clean clean) (looked.limit.trans limits)
  refine ⟨u, ?_, (Went.of_looked looked tokens clean).trans went⟩
  rw [looked.ids] at run
  rw [round, run_bind, Parser.turn, if_pos starts, run_bind, run_recover, run]
  rfl

/-! ### What is skipped -/

/-- What is left when tokens have been skipped up to the next item. -/
def skipped : (depth : Nat) → List Token → List Token
  | _, [] => []
  | depth, t :: ts =>
    if t.isEndOfFile || (depth == 0 && Parser.isItemStart t) then t :: ts
    else skipped (depthAfter depth t) ts

theorem run_skipItem : ∀ (ts : List Token) (fuel depth : Nat) (s : ParserState), ts.length ≤ fuel →
    s.reader.toList = ts → s.reader.Clean → s.reader.last.isEndOfFile = true → ∃ u,
      (Parser.skipItem fuel depth).run.run s = (.ok (), u) ∧ Went s u (skipped depth ts) [] := by
  intro ts
  induction ts with
  | nil =>
    intro fuel depth s _ tokens clean last
    cases fuel with
    | zero => exact ⟨s, rfl, Went.of_looked (.refl s) tokens clean⟩
    | succ fuel =>
      refine ⟨_, ?_, Went.of_looked (looked_peekNth s 0) tokens clean⟩
      rw [Parser.skipItem, run_bind, run_peek, TokenReader.peek_nil tokens]
      dsimp only
      rw [last]
      rfl
  | cons t ts ih =>
    intro fuel depth s enough tokens clean last
    obtain ⟨fuel, rfl⟩ := Nat.exists_eq_succ_of_ne_zero (Nat.ne_of_gt (Nat.zero_lt_of_lt enough))
    have looked := looked_peekNth s 0
    by_cases stops : (t.isEndOfFile || (depth == 0 && Parser.isItemStart t)) = true
    · refine ⟨{ s with reader := (s.reader.peekNth 0).2 }, ?_, ?_⟩
      · rw [Parser.skipItem, run_bind, run_peek, TokenReader.peek_eq tokens]
        dsimp only
        rw [if_pos stops]
        rfl
      · rw [skipped, if_pos stops]
        exact Went.of_looked looked tokens clean
    · obtain ⟨u, run, went⟩ := run_next (looked.tokens.trans tokens) (looked.clean clean)
      obtain ⟨v, run', went'⟩ := ih fuel (depthAfter depth t) u (Nat.le_of_succ_le_succ enough)
        went.tokens went.clean (went.last.symm ▸ looked.last.symm ▸ last)
      refine ⟨v, ?_, ?_⟩
      · rw [Parser.skipItem, run_bind, run_peek, TokenReader.peek_eq tokens]
        dsimp only
        rw [if_neg stops, run_bind, run]
        dsimp only
        rw [← run', depthAfter]
        split
        · rfl
        · split <;> rfl
      · rw [skipped, if_neg stops]
        exact (Went.of_looked looked tokens clean).trans (went.trans went')

/-- Skippable junk is skipped as far as the next item or the end of the source. -/
theorem skipped_junk (stops : ∀ t ∈ far.head?, (t.isEndOfFile || Parser.isItemStart t) = true) :
    ∀ (ts : List Token) (depth : Nat), (∀ t ∈ ts, t.isEndOfFile = false) → NoneOutside depth ts →
      ts.foldl depthAfter depth = 0 → skipped depth (ts ++ far) = far
  | [], depth, _, _, closed => by
    obtain rfl : depth = 0 := closed
    cases far with
    | nil => rfl
    | cons t far =>
      have stop := stops t rfl
      rw [List.nil_append, skipped, beq_self_eq_true, Bool.true_and, if_pos stop]
  | t :: ts, depth, more, outside, closed => by
    have goes : ¬(t.isEndOfFile || (depth == 0 && Parser.isItemStart t)) = true := by
      rw [more t List.mem_cons_self, Bool.false_or, Bool.and_eq_true, beq_iff_eq]
      rintro ⟨none, starts⟩
      exact nomatch (outside.1 none).symm.trans starts
    rw [List.cons_append, skipped, if_neg goes]
    exact skipped_junk stops ts (depthAfter depth t)
      (fun t mem => more t (List.mem_cons_of_mem _ mem)) outside.2 closed

/-- The first keyword of an item outside braces stops the skipping, wherever it stands. -/
theorem skipped_of_keyword {word : Token} (starts : Parser.isItemStart word = true) :
    ∀ (ts : List Token) (depth : Nat), (∀ t ∈ ts, t.isEndOfFile = false) → NoneOutside depth ts →
      ts.foldl depthAfter depth = 0 → skipped depth (ts ++ word :: far) = word :: far :=
  skipped_junk fun t mem => by
    cases mem
    rw [starts, Bool.or_true]

/-- The first of the keywords that stand outside braces. -/
theorem exists_keyword : ∀ {ts : List Token} {depth : Nat}, ¬NoneOutside depth ts →
    ∃ us word vs, ts = us ++ word :: vs ∧ Parser.isItemStart word = true ∧ NoneOutside depth us ∧
      us.foldl depthAfter depth = 0
  | [], _, within => (within trivial).elim
  | t :: ts, depth, within => by
    by_cases here : depth = 0 ∧ Parser.isItemStart t = true
    · exact ⟨[], t, ts, rfl, here.2, trivial, here.1⟩
    · have first : depth = 0 → Parser.isItemStart t = false := fun none =>
        Bool.eq_false_iff.2 fun starts => here ⟨none, starts⟩
      obtain ⟨us, word, vs, rfl, starts, outside, closed⟩ :=
        exists_keyword fun later => within ⟨first, later⟩
      exact ⟨t :: us, word, vs, rfl, starts, ⟨first, outside⟩, closed⟩

theorem foldl_of_balanced : ∀ (ts : List Token) (depth : Nat), Balanced depth ts →
    ts.foldl depthAfter depth = 0
  | [], _, balanced => balanced
  | _ :: ts, _, balanced => foldl_of_balanced ts _ balanced.2

theorem depthAfter_mono {d d' : Nat} (le : d ≤ d') (t : Token) : depthAfter d t ≤ depthAfter d' t := by
  unfold depthAfter
  split
  · omega
  · split <;> omega

theorem foldl_mono : ∀ (ts : List Token) {d d' : Nat}, d ≤ d' →
    ts.foldl depthAfter d ≤ ts.foldl depthAfter d'
  | [], _, _, le => le
  | t :: ts, _, _, le => foldl_mono ts (depthAfter_mono le t)

/-- In junk all braces are closed also if the first token is not counted. -/
theorem IsJunk.closed {t : Token} (junk : IsJunk (t :: ts)) : ts.foldl depthAfter 0 = 0 := by
  have whole : ts.foldl depthAfter (depthAfter 0 t) = 0 :=
    foldl_of_balanced (t :: ts) 0 junk.balanced
  have least := foldl_mono ts (Nat.zero_le (depthAfter 0 t))
  rw [whole] at least
  exact Nat.le_zero.1 least

/-- The round in which junk is reported and skipped. -/
theorem round_of_junk {t : Token} (tokens : s.reader.toList = t :: (ts ++ far))
    (other : Parser.isItemStart t = false) (more : ∀ u ∈ t :: ts, u.isEndOfFile = false)
    (clean : s.reader.Clean) (last : s.reader.last.isEndOfFile = true)
    (left : skipped 0 (ts ++ far) = far) :
    ∃ u, (Parser.round limit).run.run s = (.ok (some []), u) ∧ Went s u far [notAnItem t] := by
  obtain ⟨v, looked, round⟩ :=
    run_round limit (more t List.mem_cons_self) clean (TokenReader.peek_eq tokens)
  let reported : ParserState := { v with errors := v.errors ++ [notAnItem t] }
  obtain ⟨w, next, went⟩ :=
    run_next (s := reported) (looked.tokens.trans tokens) (looked.clean clean)
  obtain ⟨u, skip, went'⟩ := run_skipItem (ts ++ far) w.reader.size 0 w
    (Nat.le_of_eq (by rw [TokenReader.size_eq, went.tokens])) went.tokens went.clean
    (went.last.symm ▸ looked.last.symm ▸ last)
  rw [left] at went'
  refine ⟨u, ?_, went'.tokens, went'.clean, ?_, ?_, ?_⟩
  · rw [round, run_bind, Parser.turn, if_neg (by rw [other]; exact Bool.false_ne_true), run_bind,
      run_report_clean (looked.clean clean)]
    dsimp only
    rw [run_bind, show Parser.next.run.run
      { v with errors := v.errors ++ [notAnItem t] } = _ from next]
    dsimp only
    rw [run_bind, show (do Parser.skipItem (← Parser.remaining) 0 : Parser Unit).run.run w = _ from skip]
    rfl
  · exact went'.last.trans (went.last.trans looked.last)
  · exact went'.limit.trans (went.limit.trans looked.limit)
  · rw [went'.errors, went.errors, show reported.errors = s.errors ++ [notAnItem t] from
      congrArg (· ++ _) looked.errors, List.append_nil, List.append_nil]

/-- Junk that is not skippable is reported, and then the parser goes on inside it: the next round
begins at a keyword within the braces. -/
theorem round_of_unskippable {t : Token} (junk : IsJunk (t :: ts))
    (unskippable : ¬IsSkippable (t :: ts)) (tokens : s.reader.toList = t :: ts ++ far)
    (more : ∀ u ∈ t :: ts, u.isEndOfFile = false) (clean : s.reader.Clean)
    (last : s.reader.last.isEndOfFile = true) : ∃ us word vs u, ts = us ++ word :: vs ∧
      Parser.isItemStart word = true ∧
      (Parser.round limit).run.run s = (.ok (some []), u) ∧
      Went s u (word :: vs ++ far) [notAnItem t] := by
  obtain ⟨us, word, vs, rfl, starts, outside, closed⟩ := exists_keyword unskippable
  have inside : ∀ v ∈ t :: us, v.isEndOfFile = false := fun v mem =>
    more v (List.mem_append_left (word :: vs) mem)
  have left : skipped 0 (us ++ (word :: vs ++ far)) = word :: vs ++ far :=
    skipped_of_keyword starts us 0 (fun v mem => inside v (List.mem_cons_of_mem _ mem)) outside closed
  obtain ⟨u, round, went⟩ := round_of_junk (by rw [tokens, ← List.append_assoc]; rfl)
    (junk.outside.1 rfl) inside clean last left
  exact ⟨us, word, vs, u, rfl, starts, round, went⟩

example : let ts := sliceOf "{ var x = 1; }" 0 7
    Balanced 0 ts ∧ NoneOutside 0 ts ∧ ¬IsSkippable ts := by decide +kernel

/-! ### Sources -/

/-- Behind junk there is an item or the end of the source. -/
theorem Regions.stops {is : List Item} {es : List ParseError}
    (regions : Regions limit eof false ts is es) (final : eof.isEndOfFile = true) :
    ∀ t ∈ (ts ++ [eof]).head?, (t.isEndOfFile || Parser.isItemStart t) = true := by
  intro t mem
  cases regions with
  | nil =>
    cases mem
    rw [final, Bool.true_or]
  | item whole others =>
    obtain ⟨u, us, rfl, starts⟩ := whole.begins final
    cases mem
    rw [starts, Bool.or_true]

/-- The rounds over a source made of items and junk. -/
theorem arrives_of_regions {first : Bool} {is : List Item} {es : List ParseError}
    (regions : Regions limit eof first ts is es) (final : eof.isEndOfFile = true) :
    ∀ s : ParserState, s.reader.toList = ts ++ [eof] → s.reader.Clean → s.limit = limit →
      s.reader.last.isEndOfFile = true → (∀ t ∈ ts, t.isEndOfFile = false) →
      ∃ found u, Arrives limit s found u ∧ List.Forall₂ Item.SameAs is found ∧ Went s u [eof] es := by
  induction regions with
  | nil =>
    intro s tokens clean _ _ _
    exact ⟨[], s, .refl s, .nil, Went.of_looked (.refl s) tokens clean⟩
  | @item first ts rest i is es whole others ih =>
    intro s tokens clean limits last more
    rw [List.append_assoc] at tokens
    obtain ⟨u, round, went⟩ := round_of_item whole final tokens clean limits
    obtain ⟨found, v, arrives, same, went'⟩ := ih u went.tokens went.clean (went.limit.trans limits)
      (went.last.symm ▸ last) fun t mem => more t (List.mem_append_right _ mem)
    exact ⟨_, v, .round round arrives, .cons ⟨_, rfl⟩ same, went.trans went'⟩
  | @junk t ts rest is es junk skippable others ih =>
    intro s tokens clean limits last more
    rw [List.append_assoc] at tokens
    have inside : ∀ u ∈ t :: ts, u.isEndOfFile = false := fun u mem =>
      more u (List.mem_append_left _ mem)
    have left : skipped 0 (ts ++ (rest ++ [eof])) = rest ++ [eof] :=
      skipped_junk (others.stops final) ts 0 (fun u mem => inside u (List.mem_cons_of_mem _ mem))
        skippable junk.closed
    obtain ⟨u, round, went⟩ :=
      round_of_junk tokens (junk.outside.1 rfl) inside clean last left
    obtain ⟨found, v, arrives, same, went'⟩ := ih u went.tokens went.clean (went.limit.trans limits)
      (went.last.symm ▸ last) fun t mem => more t (List.mem_append_right _ mem)
    exact ⟨_, v, .round round arrives, same, went.trans went'⟩

end

/-- Recovery between items.  Of a source without lexical errors that is made of items and of skippable
junk between them the parser makes just the items, in their order, and reports each stretch of junk
once, at its first token. -/
theorem items_recovered {options : ParseOptions} {name text : String} {ts : List Token} {eof : Token}
    {first : Bool} {is : List Item} {es : List ParseError}
    (lexed : LexesTo options name text ts eof)
    (regions : Regions options.maxNesting eof first ts is es) :
    ∃ found s, (Parser.module name).run.run (startOf options name text) = (.ok ⟨name, found⟩, s) ∧
      List.Forall₂ Item.SameAs is found ∧ s.errors = es := by
  have more : ∀ t ∈ ts, t.isEndOfFile = false :=
    lexed.endsOnce.not_isEndOfFile (List.cons_ne_nil _ _)
  obtain ⟨found, u, arrives, same, went⟩ := arrives_of_regions regions lexed.isEndOfFile
    (startOf options name text) lexed.tokens lexed.clean rfl (lexed.last.symm ▸ lexed.isEndOfFile) more
  have left : u.reader.toList = [] ++ [eof] := went.tokens
  obtain ⟨rest, v, w, alone, run, errors⟩ := run_module_of_arrives lexed arrives left
  obtain ⟨x, nothing, silent⟩ :=
    run_module_end lexed.isEndOfFile name options.maxNesting u.nextId
  cases alone.symm.trans nothing
  refine ⟨found ++ [], w, run, by rwa [List.append_nil], ?_⟩
  rw [errors, silent, List.append_nil, went.errors]
  rfl

/-! ### Two items around junk -/

/-- A stretch of junk that has the keyword of an item in braces. -/
def junkText : String := "var x = 1; oops { var y; } func f() { }"

/-- Its tokens, junk from the fifth one on. -/
def junkTokens : List Token :=
  sliceOf junkText 0 5 ++
    (tokenOf junkText 5 :: sliceOf junkText 6 11 ++ (sliceOf junkText 11 17 ++ []))

theorem junk_regions : ∃ i j, Regions 128 (tokenOf junkText 17) false junkTokens [i, j]
    [notAnItem (tokenOf junkText 5)] := by
  let item? (ts : List Token) : Option Item := whole? (Parser.item 128) 128 (tokenOf junkText 17) ts
  obtain ⟨i, first⟩ : ∃ i, item? (sliceOf junkText 0 5) = some i :=
    Option.isSome_iff_exists.1 (by decide +kernel)
  obtain ⟨j, last⟩ : ∃ j, item? (sliceOf junkText 11 17) = some j :=
    Option.isSome_iff_exists.1 (by decide +kernel)
  have junk : IsJunk (tokenOf junkText 5 :: sliceOf junkText 6 11) :=
    ⟨by decide +kernel, by decide +kernel⟩
  exact ⟨i, j, .item (whole_of_whole? first)
    (.junk junk (by decide +kernel) (.item (whole_of_whole? last) .nil))⟩

theorem junkText_lexes : LexesTo {} "t" junkText junkTokens (tokenOf junkText 17) := by
  have known : (startWithin 40 {} "t" junkText).any (fun r =>
      decide (r.1 = (junkTokens ++ [tokenOf junkText 17]).map fun t => (t, []))) = true := by
    decide +kernel
  obtain ⟨⟨drained, s⟩, started, tokens⟩ := (Option.any_eq_true _ _).1 known
  exact (startOf_of_startWithin started).1.trans (of_decide_eq_true tokens)

/-- Both items are there, and one error at the first token between them. -/
theorem junkText_recovered : ∃ found s,
    (Parser.module "t").run.run (startOf {} "t" junkText) = (.ok ⟨"t", found⟩, s) ∧
      found.length = 2 ∧ s.errors = [notAnItem (tokenOf junkText 5)] := by
  obtain ⟨i, j, regions⟩ := junk_regions
  obtain ⟨found, s, run, same, errors⟩ := items_recovered junkText_lexes regions
  exact ⟨found, s, run, same.length_eq.symm, errors⟩

end ScriptLang.Syntax
