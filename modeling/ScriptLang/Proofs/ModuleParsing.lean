import ScriptLang.Proofs.Mirroring

/-!
# What parsing a source makes of its tokens

The parser of a source goes on to the last token whatever it meets (`rest_module`).  So no error
found in making the tokens is lost: all of them are reported in their order, among errors of the
parser's own (`errors_module`).  And of tokens that stand elsewhere it makes the same
(`run_module_relocate`).
-/

namespace ScriptLang.Syntax

/-! ### Readers -/

namespace TokenReader

variable {r : TokenReader}

/-- The errors not yet reported. -/
def unreported (r : TokenReader) : List LexError := r.found ++ r.rest.flatMap Prod.snd

theorem unreported_reach (n : Nat) (r : TokenReader) : (reach n r).unreported = r.unreported := by
  fun_induction reach n r with
  | case1 => rfl
  | case2 => rfl
  | case3 n r t es rest hrest ih =>
    rw [ih, unreported, unreported, hrest, List.flatMap_cons, List.append_assoc]

theorem unreported_next (r : TokenReader) : r.next.2.unreported = r.unreported := by
  unfold next
  split
  · exact unreported_reach _ r
  · rfl

theorem toList_eq_nil (h : r.toList = []) : r.ahead = [] ∧ r.rest = [] := by
  rw [toList, List.append_eq_nil_iff, List.map_eq_nil_iff] at h
  exact h

theorem toList_next (r : TokenReader) : r.next.2.toList = r.toList.tail := by
  cases h : r.toList with
  | cons t ts => exact (next_eq h).2
  | nil =>
    obtain ⟨hahead, hrest⟩ := toList_eq_nil h
    have hreach : reach (1 - r.ahead.length) r = r := by
      rw [hahead]
      change reach 1 r = r
      unfold reach
      rw [hrest]
    rw [next, hreach, hahead]
    exact h

/-- No token follows an end of file. -/
def EndsOnce : List Token → Prop
  | [] => True
  | t :: ts => (t.isEndOfFile = true → ts = []) ∧ EndsOnce ts

theorem EndsOnce.tail {ts : List Token} (h : EndsOnce ts) : EndsOnce ts.tail := by
  cases ts with
  | nil => exact h
  | cons t ts => exact h.2

/-- Who looks at the end of file has reached all tokens. -/
theorem rest_of_endOfFile (ends : EndsOnce r.toList)
    (h : (r.peekNth 0).1.isEndOfFile = true) : (r.peekNth 0).2.rest = [] := by
  have hlist : (r.peekNth 0).2.toList = r.toList := toList_reach _ r
  cases hr : r.toList with
  | nil => exact (toList_eq_nil (hlist.trans hr)).2
  | cons t ts =>
    obtain ⟨ahead, hahead⟩ := ahead_reach hr
    rw [peek_eq hr] at h
    rw [hr] at ends
    rw [hr, ends.1 h] at hlist
    change (reach (1 - r.ahead.length) r).ahead ++ _ = [t] at hlist
    rw [hahead, List.cons_append, List.cons_eq_cons, List.append_eq_nil_iff,
      List.map_eq_nil_iff] at hlist
    exact hlist.2.2

end TokenReader

open TokenReader (EndsOnce)

/-! ### No error is lost -/

section

variable {β : Type} {g : ParseError → Option β}

/-- What is reported and what still has to be, as far as it is not the parser's own. -/
theorem kept_errors (own : ∀ e, ParseError.IsSyntactic e → g e = none) (bs : List β) :
    Kept fun s => (s.errors ++ s.reader.unreported.map ParseError.ofLex).filterMap g = bs where
  peekNth n s h := by
    change (s.errors ++ (TokenReader.reach _ s.reader).unreported.map ParseError.ofLex).filterMap g = bs
    rw [TokenReader.unreported_reach]
    exact h
  next s h := by
    change (s.errors ++ s.reader.next.2.unreported.map ParseError.ofLex).filterMap g = bs
    rw [TokenReader.unreported_next]
    exact h
  freshId _ h := h
  reportFound s h := by
    change ((s.errors ++ s.reader.found.map ParseError.ofLex) ++
      ([] ++ s.reader.rest.flatMap Prod.snd).map ParseError.ofLex).filterMap g = bs
    rw [List.nil_append, List.append_assoc, ← List.map_append]
    exact h
  record s e he h := by
    change ((s.errors ++ [e]) ++ s.reader.unreported.map ParseError.ofLex).filterMap g = bs
    rw [List.filterMap_append, List.filterMap_append, List.filterMap_cons_none (own e he),
      List.filterMap_nil, List.append_nil, ← List.filterMap_append]
    exact h

end

/-! ### To the last token -/

/-- What holds of the tokens that are left also when the first is gone. -/
theorem kept_tokens {P : List Token → Prop} (tail : ∀ ts, P ts → P ts.tail) :
    Kept fun s => P s.reader.toList where
  peekNth n s h := by
    change P (TokenReader.reach _ s.reader).toList
    rw [TokenReader.toList_reach]
    exact h
  next s h := by
    change P s.reader.next.2.toList
    rw [TokenReader.toList_next]
    exact tail _ h
  freshId _ h := h
  reportFound _ h := h
  record _ _ _ h := h

/-- At most `n` tokens are left, and only the last of them is an end of file. -/
def Left (n : Nat) (s : ParserState) : Prop :=
  EndsOnce s.reader.toList ∧ s.reader.toList.length ≤ n

theorem kept_left (n : Nat) : Kept (Left n) :=
  kept_tokens (P := fun ts => EndsOnce ts ∧ ts.length ≤ n) fun ts h =>
    ⟨h.1.tail, by rw [List.length_tail]; omega⟩

theorem Left.next {n : Nat} {s : ParserState} (h : Left (n + 1) s) :
    Left n (Parser.next.run.run s).2 := by
  have hlist : (Parser.next.run.run s).2.reader.toList = s.reader.toList.tail :=
    TokenReader.toList_next s.reader
  rw [Left, hlist, List.length_tail]
  exact ⟨h.1.tail, by have := h.2; omega⟩

/-- An item takes at least the token it begins with. -/
theorem Left.item {n : Nat} {s : ParserState} (h : Left (n + 1) s) (levels : Nat) :
    Left n ((Parser.item levels).run.run s).2 := by
  let t := (s.reader.peekNth 0).1
  -- behind its node the item still stands before the token it was looked up by
  let Before : ParserState → ParserState → Prop := fun s s' =>
    s = s' ∧ Left (n + 1) s ∧ (s.reader.peekNth 0).1 = t
  let After : ParserState → ParserState → Prop := fun s s' => s = s' ∧ Left n s
  have hnext : MirrorsFrom id Before After (Moved id) Parser.next Parser.next := by
    rintro s _ ⟨rfl, hs, -⟩
    exact ⟨.ok rfl, rfl, hs.next⟩
  have hfunc (func : t.isWord .func = true) :
      MirrorsFrom id Before After (Moved id) (Parser.expectWord .func) (Parser.expectWord .func) := by
    rintro s _ ⟨rfl, hs, ht⟩
    have run : (Parser.expectWord .func).run.run s =
        Parser.next.run.run { s with reader := (s.reader.peekNth 0).2 } := by
      rw [Parser.expectWord, Parser.expectIf, run_bind, run_peek]
      dsimp only
      rw [ht, if_pos func]
    rw [run]
    exact ⟨.ok rfl, rfl, ((kept_left _).peekNth 0 s hs).next⟩
  let s' : ParserState := { s with reader := (s.reader.peekNth 0).2, nextId := s.nextId + 1 }
  have hs' : Before s' s' := by
    refine ⟨rfl, (kept_left _).freshId _ ((kept_left _).peekNth 0 s h), ?_⟩
    change ((s.reader.peekNth 0).2.peekNth 0).1 = t
    rw [TokenReader.peek_again]
  exact ((kept_left n).stable.itemAt_from levels t ⟨s.nextId, t⟩ hfunc hnext s' s' hs').2.2

/-- Before a state of `I` the parser succeeds, and comes to a result and a state of `J`. -/
def Passes {α : Type} (I : ParserState → Prop) (p : Parser α) (J : α → ParserState → Prop) : Prop :=
  ∀ s, I s → ∃ a s', p.run.run s = (.ok a, s') ∧ J a s'

section

variable {α β : Type} {I : ParserState → Prop} {J : α → ParserState → Prop}
  {K : β → ParserState → Prop} {p : Parser α} {n : Nat}

theorem Passes.bind {k : α → Parser β} (hp : Passes I p J) (hk : ∀ a, Passes (J a) (k a) K) :
    Passes I (p >>= k) K := by
  intro s hs
  obtain ⟨a, s', hrun, hs'⟩ := hp s hs
  obtain ⟨b, s'', hrun', hs''⟩ := hk a s' hs'
  exact ⟨b, s'', by rw [run_bind, hrun]; exact hrun', hs''⟩

theorem Passes.pure {a : α} (h : ∀ s, I s → J a s) : Passes I (Pure.pure a) J :=
  fun s hs => ⟨a, s, rfl, h s hs⟩

theorem Passes.from {I' : ParserState → Prop} (hp : Passes I p J) (h : ∀ s, I' s → I s) :
    Passes I' p J := fun s hs => hp s (h s hs)

theorem passes_reportFound : Passes (Left n) Parser.reportFound fun _ => Left n :=
  fun s hs => ⟨(), _, rfl, (kept_left n).reportFound s hs⟩

theorem passes_report (e : ParseError) : Passes (Left n) (Parser.report e) fun _ => Left n :=
  passes_reportFound.bind fun _ _ hs => ⟨(), _, rfl, hs⟩

theorem passes_peek : Passes (Left n) Parser.peek fun t s =>
    Left n s ∧ (t.isEndOfFile = true → s.reader.rest = []) :=
  fun s hs => ⟨_, _, run_peek s, (kept_left n).peekNth 0 s hs,
    TokenReader.rest_of_endOfFile hs.1⟩

theorem passes_next : Passes (Left n) Parser.next fun _ => Left (n - 1) := by
  intro s hs
  refine ⟨_, _, rfl, ?_⟩
  cases n with
  | zero => exact (kept_left 0).next s hs
  | succ n => exact hs.next

theorem Left.mono {m : Nat} {s : ParserState} (h : Left n s) (hm : n ≤ m) : Left m s :=
  ⟨h.1, Nat.le_trans h.2 hm⟩

theorem passes_skipItem : ∀ fuel depth,
    Passes (Left n) (Parser.skipItem fuel depth) fun _ => Left n
  | 0, _ => .pure fun _ => id
  | fuel + 1, depth => by
    refine passes_peek.bind fun t => ?_
    split
    · exact .pure fun _ hs => hs.1
    · refine (passes_next.bind fun _ => .from (I := Left n) ?_ fun _ hs => hs.mono ?_).from
        fun _ hs => hs.1
      · split
        · exact passes_skipItem fuel _
        · split
          · exact passes_skipItem fuel _
          · exact passes_skipItem fuel _
      · exact Nat.sub_le n 1

/-- What is skipped behind an item that failed. -/
theorem passes_skip :
    Passes (Left n) (do Parser.skipItem (← Parser.remaining) 0) fun _ => Left n := by
  intro s hs
  exact passes_skipItem s.reader.size 0 s hs

/-- An attempt that leaves at most `n` tokens, and skipping after its failure. -/
theorem passes_recover {skip : Parser Unit} (hp : ∀ s, I s → Left n (p.run.run s).2)
    (hskip : Passes (Left n) skip fun _ => Left n) :
    Passes I (Parser.recover p skip) fun _ => Left n := by
  refine Passes.bind (J := fun _ => Left n) ?_ fun r => ?_
  · intro s hs
    have hs' := hp s hs
    change ∃ r s', (tryCatchThe ParseError _ _ : Parser _).run.run s = _ ∧ _
    rw [run_tryCatch, run_bind]
    generalize p.run.run s = r at hs' ⊢
    obtain ⟨r, t⟩ := r
    cases r with
    | ok a => exact ⟨_, _, rfl, hs'⟩
    | error e =>
      have caught : Passes (Left n)
          (do Parser.report e; skip; return .error none : Parser (Except (Option α) (Option α)))
          fun _ => Left n :=
        (passes_report e).bind fun _ => hskip.bind fun _ => .pure fun _ => id
      exact caught t hs'
  · cases r <;> exact .pure fun _ => id

/-- With fuel for all tokens that are left the items reach to the last of them. -/
theorem passes_items (levels : Nat) : ∀ fuel,
    Passes (Left fuel) (Parser.items levels fuel) fun _ s => s.reader.rest = []
  | 0 => .pure fun _ hs =>
    (TokenReader.toList_eq_nil (List.length_eq_zero_iff.1 (Nat.le_zero.1 hs.2))).2
  | fuel + 1 => by
    refine passes_reportFound.bind fun _ => passes_peek.bind fun t => ?_
    split
    · next last => exact .pure fun _ hs => hs.2 last
    · refine Passes.from (I := Left (fuel + 1)) ?_ fun _ hs => hs.1
      split
      · refine (passes_recover (fun s hs => hs.item levels) passes_skip).bind fun found => ?_
        exact (passes_items levels fuel).bind fun rest => .pure fun _ => id
      · exact (passes_report _).bind fun _ => passes_next.bind fun _ =>
          passes_skip.bind fun _ => passes_items levels fuel

end

/-- The parser of a source succeeds, and then no token and no error is left. -/
theorem exists_run_module {s : ParserState} (h : EndsOnce s.reader.toList) (name : String) :
    ∃ m s', (Parser.module name).run.run s = (.ok m, s') ∧ s'.reader.unreported = [] := by
  have hleft : Left s.reader.size s := ⟨h, Nat.le_of_eq (TokenReader.size_eq s.reader).symm⟩
  obtain ⟨found, s', hitems, hrest⟩ := passes_items s.limit s.reader.size s hleft
  have hget : (get : Parser ParserState).run.run s = (.ok s, s) := rfl
  have hremaining : Parser.remaining.run.run s = (.ok s.reader.size, s) := rfl
  refine ⟨⟨name, found⟩, (Parser.reportFound.run.run s').2, ?_, ?_⟩
  · rw [Parser.module, run_bind, hget]
    dsimp only
    rw [run_bind, hremaining]
    dsimp only
    rw [run_bind, hitems]
    rfl
  · change [] ++ s'.reader.rest.flatMap Prod.snd = []
    rw [hrest]
    rfl

/-- As far as they are not the parser's own, the errors reported are those there were before and
those found in making the tokens. -/
theorem errors_module {β : Type} {g : ParseError → Option β}
    (own : ∀ e, ParseError.IsSyntactic e → g e = none) {s : ParserState}
    (h : EndsOnce s.reader.toList) (name : String) :
    ((Parser.module name).run.run s).2.errors.filterMap g =
      (s.errors ++ s.reader.unreported.map ParseError.ofLex).filterMap g := by
  have preserved : Preserves _ (Parser.module name) :=
    .of_mirrors ((kept_errors own ((s.errors ++ s.reader.unreported.map ParseError.ofLex).filterMap
      g)).stable.module name name)
  have kept := preserved s rfl
  obtain ⟨m, s', hrun, hdone⟩ := exists_run_module h name
  rw [hrun] at kept ⊢
  rw [hdone] at kept
  rw [← kept, List.map_nil, List.append_nil]

/-! ### Tokens that stand elsewhere -/

namespace TokenReader

/-- The reader of tokens that stand elsewhere. -/
instance : Placed TokenReader where
  relocate f r :=
    { r with
      ahead := relocate f r.ahead, rest := relocate f r.rest, found := relocate f r.found
      last := relocate f r.last }

variable (f : Location → Location)

theorem reach_relocate (n : Nat) (r : TokenReader) :
    reach n (relocate f r) = relocate f (reach n r) := by
  induction n generalizing r with
  | zero => rfl
  | succ n ih =>
    obtain ⟨ahead, rest, found, last, remarks⟩ := r
    cases rest with
    | nil => rfl
    | cons p rest =>
      have step := ih ⟨ahead ++ [p.1], rest, found ++ p.2, last, remarks⟩
      rw [show reach (n + 1) ⟨ahead, p :: rest, found, last, remarks⟩ =
        reach n ⟨ahead ++ [p.1], rest, found ++ p.2, last, remarks⟩ from rfl, ← step]
      change reach n ⟨relocate f ahead ++ [relocate f p.1], relocate f rest,
        relocate f found ++ relocate f p.2, relocate f last, remarks⟩ = reach n
          ⟨relocate f (ahead ++ [p.1]), relocate f rest, relocate f (found ++ p.2),
            relocate f last, remarks⟩
      rw [relocate_append, relocate_append]
      rfl

theorem length_ahead_relocate (r : TokenReader) :
    (relocate f r).ahead.length = r.ahead.length := List.length_map _

theorem peekNth_relocate (n : Nat) (r : TokenReader) :
    (relocate f r).peekNth n = relocate f (r.peekNth n) := by
  have token : ∀ r : TokenReader, ((relocate f r).ahead[n]?).getD (relocate f r).last =
      relocate f ((r.ahead[n]?).getD r.last) := by
    intro r
    change ((r.ahead.map (relocate f))[n]?).getD (relocate f r.last) = _
    rw [List.getElem?_map]
    cases r.ahead[n]? <;> rfl
  unfold peekNth
  dsimp only
  rw [length_ahead_relocate, reach_relocate, token]
  rfl

theorem next_relocate (r : TokenReader) : (relocate f r).next = relocate f r.next := by
  unfold next
  rw [length_ahead_relocate, reach_relocate]
  generalize reach (1 - r.ahead.length) r = r'
  obtain ⟨ahead, rest, found, last, remarks⟩ := r'
  cases ahead <;> rfl

theorem size_relocate (r : TokenReader) : (relocate f r).size = r.size := by
  change (r.ahead.map _).length + (r.rest.map _).length = _
  rw [List.length_map, List.length_map]
  rfl

end TokenReader

instance : Placed ParserState where
  relocate f s := { s with reader := relocate f s.reader, errors := relocate f s.errors }

/-- A state and the one with everything elsewhere are a stable relation. -/
theorem stable_relocate (f : Location → Location) : Stable f (Moved f) where
  peekNth n := by
    rintro s _ rfl
    have run (s : ParserState) : (Parser.peekNth n).run.run s =
      (.ok (s.reader.peekNth n).1, { s with reader := (s.reader.peekNth n).2 }) := rfl
    rw [run, run, show (relocate f s).reader = relocate f s.reader from rfl,
      TokenReader.peekNth_relocate]
    exact ⟨.ok rfl, rfl⟩
  next := by
    rintro s _ rfl
    have run (s : ParserState) : Parser.next.run.run s =
      (.ok s.reader.next.1, { s with reader := s.reader.next.2 }) := rfl
    rw [run, run, show (relocate f s).reader = relocate f s.reader from rfl,
      TokenReader.next_relocate]
    exact ⟨.ok rfl, rfl⟩
  remaining := by
    rintro s _ rfl
    exact ⟨.ok (TokenReader.size_relocate f s.reader).symm, rfl⟩
  freshId := by
    rintro s _ rfl
    exact ⟨.ok rfl, rfl⟩
  limit := by
    rintro s _ rfl
    exact ⟨.ok rfl, rfl⟩
  reportFound := by
    rintro s _ rfl
    refine ⟨.ok trivial, ?_⟩
    have errors : relocate f s.errors ++ (relocate f s.reader.found).map ParseError.ofLex =
        relocate f (s.errors ++ s.reader.found.map ParseError.ofLex) := by
      rw [relocate_append]
      congr 1
      change (s.reader.found.map (relocate f)).map ParseError.ofLex =
        (s.reader.found.map ParseError.ofLex).map (relocate f)
      rw [List.map_map, List.map_map]
      exact List.map_congr_left fun e _ => ParseError.relocate_ofLex f e
    exact congrArg (fun es => ({ relocate f s with
      reader := (relocate f s.reader).takeFound.2, errors := es } : ParserState)) errors
  record e own := by
    rintro s _ rfl
    refine ⟨.ok trivial, ?_⟩
    exact congrArg (fun es => ({ relocate f s with errors := es } : ParserState))
      (relocate_append f s.errors [e]).symm

/-- Of tokens that stand elsewhere the parser of a source makes the same, standing elsewhere. -/
theorem run_module_relocate (f : Location → Location) {s : ParserState} {m : Module}
    {s' : ParserState} {name : String} (h : (Parser.module name).run.run s = (.ok m, s'))
    (name' : String) :
    (Parser.module name').run.run (relocate f s) =
      (.ok ⟨name', relocate f m.items⟩, relocate f s') := by
  obtain ⟨hresult, hstate⟩ := (stable_relocate f).module name name' s _ rfl
  rw [h] at hresult hstate
  generalize (Parser.module name').run.run (relocate f s) = r at hresult hstate ⊢
  obtain ⟨r, t⟩ := r
  cases hresult with
  | ok hm =>
    rw [hm.2, show t = relocate f s' from hstate]

end ScriptLang.Syntax
