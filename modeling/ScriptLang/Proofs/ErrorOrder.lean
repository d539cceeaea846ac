import ScriptLang.Proofs.Mirroring
import ScriptLang.Proofs.ReadingOrder

/-!
# The order of reported errors

The errors of a source are reported from its front to its end, except that two kinds of errors are found
late (`ParseError.isLate`): what cannot be called is known by the bracket behind it, and that a statement
is too deep may be found when the token behind its first one has been looked at.  Lexical errors that
looking ahead has brought up come before them, wherever they stand.  No other two errors are out of order
(`errors_in_order`).

The parser keeps the tokens that are left behind everything that it has reported (`Settled`).  Only
between looking two tokens ahead and consuming the first of them that may fail (`Overlooks`); there
nothing is reported but that the statement is too deep, and whatever follows consumes that token first.
-/

namespace ScriptLang.Syntax

namespace ParseError

/-- The byte that an error is reported at. -/
def byte (e : ParseError) : Nat := (e.location?.map Location.index).getD 0

def isLexical : ParseError → Bool
  | lex _ => true
  | _ => false

/-- Whether an error may be found behind the place that it is reported at. -/
def isLate : ParseError → Bool
  | notCallable .. | tooDeep .. => true
  | _ => false

/-- The errors may be reported in this order: they stand in it, or a late error follows a lexical one. -/
def Precedes (e e' : ParseError) : Prop :=
  e.byte ≤ e'.byte ∨ e.isLexical = true ∧ e'.isLate = true

theorem isLexical_ofLex {e : LexError} (own : e.isUnexpected = false) : (ofLex e).isLexical = true := by
  cases e with
  | unexpected => cases own
  | _ => rfl

theorem byte_ofLex (e : LexError) : (ofLex e).byte = e.location.index := by
  cases e <;> rfl

end ParseError

/-! ### What is left -/

/-- Nothing that is left to be consumed stands before the byte `n`. -/
structure TokenReader.From (r : TokenReader) (n : Nat) : Prop where
  ahead : ∀ t ∈ r.ahead, n ≤ t.location.index
  rest : InOrder r.last.location.index n r.rest

namespace TokenReader

variable {r : TokenReader} {n m : Nat} {t : Token}

/-- The reader without the next token, if that has been looked at. -/
def skip (r : TokenReader) : TokenReader := { r with ahead := r.ahead.tail }

theorem From.skip (h : r.From n) : r.skip.From n :=
  ⟨fun t mem => h.ahead t (List.mem_of_mem_tail mem), h.rest⟩

theorem From.reach (h : r.From n) (k : Nat) : (reach k r).From n := by
  fun_induction TokenReader.reach k r with
  | case1 => exact h
  | case2 => exact h
  | case3 k r t es rest hrest ih =>
    have stream := h.rest
    rw [hrest, inOrder_cons] at stream
    refine ih ⟨fun u mem => ?_, stream.2.2.2.2.of_le stream.1⟩
    obtain mem | mem := List.mem_append.1 mem
    · exact h.ahead u mem
    · rw [List.mem_singleton.1 mem]
      exact stream.1

/-- The next token is what is left first. -/
theorem From.le_next (h : r.From n) : n ≤ (r.peekNth 0).1.location.index := by
  obtain ⟨ahead, rest, found, last, remarks⟩ := r
  cases ahead with
  | cons t ts =>
    refine h.ahead _ ?_
    simp [peekNth, TokenReader.reach]
  | nil =>
    cases rest with
    | nil => exact h.rest.le_stop
    | cons p rest => exact (inOrder_cons.1 h.rest).1

theorem next_eq_skip (r : TokenReader) : r.next = ((r.peekNth 0).1, (r.peekNth 0).2.skip) := by
  obtain ⟨ahead, rest, found, last, remarks⟩ := r
  cases ahead with
  | cons t ts => simp [next, peekNth, TokenReader.reach, skip]
  | nil =>
    cases rest with
    | nil => rfl
    | cons p rest => rfl

end TokenReader

/-! ### Where parsers stand -/

namespace ParserState

/-- The errors reported, and those found and not yet reported. -/
def known (s : ParserState) : List ParseError := s.errors ++ s.reader.found.map .ofLex

/-- The state when the next token has been looked at. -/
def look (s : ParserState) : ParserState := { s with reader := (s.reader.peekNth 0).2 }

/-- The state without the next token, if that has been looked at. -/
def skip (s : ParserState) : ParserState := { s with reader := s.reader.skip }

end ParserState

/-- All that is known is in order and stands before what is left; syntactic errors that were reported do
not stand behind the byte `low`. -/
structure Settled (low : Nat) (s : ParserState) : Prop where
  ordered : s.known.Pairwise ParseError.Precedes
  passed : ∀ e ∈ s.known, s.reader.From e.byte
  syntactic : ∀ e ∈ s.errors, e.isLexical = false → e.byte ≤ low
  found : ∀ e ∈ s.reader.found, e.isUnexpected = false
  low : s.reader.From low
  one : s.reader.ahead.length ≤ 1
  next : ∀ t ∈ s.reader.ahead, InOrder s.reader.last.location.index t.location.index s.reader.rest

/-- The token is the next one, and all that is known stands before it. -/
structure Faces (t : Token) (s : ParserState) : Prop where
  latest : ∀ e ∈ s.known, e.byte ≤ t.location.index
  stands : s.reader.ahead = [t] ∨ s.reader.ahead = [] ∧ s.reader.rest = []

/-- The name `t` is the next token, and tokens behind it have been looked at; only what was found on the
way to these may stand behind it. -/
structure Overlooks (low : Nat) (t : Token) (s : ParserState) : Prop where
  first : ∃ more, s.reader.ahead = t :: more
  kind : t.kind = .identifier
  behind : Settled low s.skip
  low_le : low ≤ t.location.index
  left : s.skip.reader.From t.location.index

/-- The parser stands behind all that it knows, or it has looked ahead too far to tell. -/
def Ready (low : Nat) (s : ParserState) : Prop := Settled low s ∨ ∃ t, Overlooks low t s

/-- Whatever the parser knows, it can go on with what consumes a name that is next first. -/
def Able (s : ParserState) : Prop := ∃ low, Ready low s

/-- The error may be reported now. -/
structure Fails (e : ParseError) (s : ParserState) : Prop where
  able : Able s
  follows : ∀ k ∈ s.known, k.Precedes e
  left : s.reader.From e.byte

variable {s : ParserState} {low : Nat} {t : Token} {held : List Token}

theorem Settled.skip (h : Settled low s) : Settled low s.skip where
  ordered := h.ordered
  passed e mem := (h.passed e mem).skip
  syntactic := h.syntactic
  found := h.found
  low := h.low.skip
  one := Nat.le_trans (by rw [ParserState.skip, TokenReader.skip, List.length_tail]; exact Nat.sub_le _ _)
    h.one
  next t mem := h.next t (List.mem_of_mem_tail mem)

/-- Reaching a token brings up what was found on the way to it. -/
theorem Settled.reach (h : Settled low s) {es : List LexError} {rest : List (Token × List LexError)}
    (empty : s.reader.ahead = []) (more : s.reader.rest = (t, es) :: rest) :
    let s' := { s with reader := { s.reader with
      ahead := s.reader.ahead ++ [t], rest, found := s.reader.found ++ es } }
    Settled low s' ∧ Faces t s' ∧ s'.reader.From t.location.index := by
  intro s'
  have stream (n : Nat) (left : s.reader.From n) := inOrder_cons.1 (more ▸ left.rest)
  have only : s'.reader.ahead = [t] := congrArg (· ++ [t]) empty
  have known : s'.known = s.known ++ es.map .ofLex := by
    rw [ParserState.known, ParserState.known, List.append_assoc, ← List.map_append]
  obtain ⟨-, sorted, within, own, later⟩ := stream low h.low
  have from_of (n : Nat) (le : n ≤ t.location.index) : s'.reader.From n := by
    refine ⟨fun u mem => ?_, later.of_le le⟩
    rw [only] at mem
    rwa [List.mem_singleton.1 mem]
  have latest : ∀ e ∈ s'.known, e.byte ≤ t.location.index := by
    intro e mem
    rw [known] at mem
    obtain mem | mem := List.mem_append.1 mem
    · exact (stream e.byte (h.passed e mem)).1
    · obtain ⟨l, new, rfl⟩ := List.mem_map.1 mem
      rw [ParseError.byte_ofLex]
      exact (within l new).2
  refine ⟨⟨?_, fun e mem => from_of _ (latest e mem), h.syntactic, ?_, from_of low (stream low h.low).1,
    ?_, ?_⟩, ⟨latest, .inl only⟩, from_of _ (Nat.le_refl _)⟩
  · rw [known, List.pairwise_append, List.pairwise_map]
    refine ⟨h.ordered, sorted.imp fun le => ?_, fun e mem e' mem' => ?_⟩
    · rw [ParseError.Precedes, ParseError.byte_ofLex, ParseError.byte_ofLex]
      exact .inl le
    · obtain ⟨l, new, rfl⟩ := List.mem_map.1 mem'
      rw [ParseError.Precedes, ParseError.byte_ofLex]
      exact .inl ((stream e.byte (h.passed e mem)).2.2.1 l new).1
  · exact fun e mem => (List.mem_append.1 mem).elim (h.found e) (own e)
  · rw [only]
    exact Nat.le_refl _
  · rw [only]
    exact List.forall_mem_singleton.2 later

/-- Looking at the next token brings up what was found on the way to it, and nothing behind it. -/
theorem Settled.look (h : Settled low s) :
    Settled low s.look ∧ Faces (s.reader.peekNth 0).1 s.look ∧
      s.look.reader.From (s.reader.peekNth 0).1.location.index := by
  obtain ⟨⟨ahead, rest, found, last, remarks⟩, errors, nextId, limit⟩ := s
  cases ahead with
  | cons t ts =>
    cases ts with
    | cons t' ts => exact absurd h.one (by simp)
    | nil =>
      refine ⟨h, ⟨fun e mem => (h.passed e mem).ahead t List.mem_cons_self, .inl rfl⟩, ?_,
        h.next t List.mem_cons_self⟩
      exact List.forall_mem_singleton.2 (Nat.le_refl _)
  | nil =>
    cases rest with
    | cons p rest => exact h.reach rfl rfl
    | nil =>
      refine ⟨h, ⟨fun e mem => (h.passed e mem).rest.le_stop, .inr ⟨rfl, rfl⟩⟩, ?_, .done (Nat.le_refl _)⟩
      exact fun _ mem => nomatch mem

/-- Nothing is found by looking again at the name that is next. -/
theorem Overlooks.look (h : Overlooks low t s) : (s.reader.peekNth 0).1 = t ∧ s.look = s := by
  obtain ⟨more, first⟩ := h.first
  obtain ⟨⟨ahead, rest, found, last, remarks⟩, errors, nextId, limit⟩ := s
  obtain rfl : ahead = t :: more := first
  simp [TokenReader.peekNth, ParserState.look, TokenReader.reach]

theorem Ready.ordered (h : Ready low s) : s.known.Pairwise ParseError.Precedes := by
  obtain settled | ⟨t, overlooks⟩ := h
  · exact settled.ordered
  · exact overlooks.behind.ordered

/-- A name is next, and the token behind it is looked at. -/
theorem Settled.lookBehind (h : Settled low s) (faces : Faces t s) (kind : t.kind = .identifier)
    (low_le : low ≤ t.location.index) (left : s.reader.From t.location.index) :
    Ready low { s with reader := (s.reader.peekNth 1).2 } := by
  obtain ⟨⟨ahead, rest, found, last, remarks⟩, errors, nextId, limit⟩ := s
  obtain only | ⟨none, ended⟩ := faces.stands
  · obtain rfl : ahead = [t] := only
    cases rest with
    | nil => exact .inl h
    | cons p rest =>
      refine .inr ⟨t, ⟨_, rfl⟩, kind, ?_, low_le, ?_⟩
      · exact (h.skip.reach rfl rfl).1
      · exact left.skip.reach 1
  · obtain rfl : ahead = [] := none
    obtain rfl : rest = [] := ended
    exact .inl h

/-! ### Failing -/

/-- An error at the token behind which nothing is known. -/
theorem Settled.fails {e : ParseError} (h : Settled low s) (left : s.reader.From e.byte)
    (latest : ∀ k ∈ s.known, k.byte ≤ e.byte) : Fails e s :=
  ⟨⟨low, .inl h⟩, fun k mem => .inl (latest k mem), left⟩

theorem precedes_late {e : ParseError} (late : e.isLate = true)
    (syntactic : ∀ k ∈ s.errors, k.isLexical = false → k.byte ≤ low)
    (found : ∀ k ∈ s.reader.found, k.isUnexpected = false) (low_le : low ≤ e.byte) :
    ∀ k ∈ s.known, k.Precedes e := by
  intro k mem
  obtain mem | mem := List.mem_append.1 mem
  · cases lexical : k.isLexical with
    | true => exact .inr ⟨lexical, late⟩
    | false => exact .inl (Nat.le_trans (syntactic k mem lexical) low_le)
  · obtain ⟨l, own, rfl⟩ := List.mem_map.1 mem
    exact .inr ⟨ParseError.isLexical_ofLex (found l own), late⟩

/-- A late error need not stand behind lexical ones. -/
theorem Settled.fails_late {e : ParseError} (h : Settled low s) (late : e.isLate = true)
    (low_le : low ≤ e.byte) (left : s.reader.From e.byte) : Fails e s :=
  ⟨⟨low, .inl h⟩, precedes_late late h.syntactic h.found low_le, left⟩

theorem Overlooks.fails {e : ParseError} (h : Overlooks low t s) (late : e.isLate = true)
    (place : e.byte = t.location.index) : Fails e s := by
  refine ⟨⟨low, .inr ⟨t, h⟩⟩, precedes_late late h.behind.syntactic h.behind.found ?_, ?_⟩
  · rw [place]
    exact h.low_le
  · rw [place]
    obtain ⟨more, first⟩ := h.first
    refine ⟨fun u mem => ?_, h.left.rest⟩
    rw [first] at mem
    obtain rfl | mem := List.mem_cons.1 mem
    · exact Nat.le_refl _
    · refine h.left.ahead u ?_
      rw [ParserState.skip, TokenReader.skip, first]
      exact mem

namespace ParserState

/-- The state when the lexical errors found so far have been reported. -/
def told (s : ParserState) : ParserState :=
  { s with reader := s.reader.takeFound.2, errors := s.known }

/-- The state when one more error has been reported. -/
def noting (e : ParseError) (s : ParserState) : ParserState := { s with errors := s.errors ++ [e] }

theorem known_told (s : ParserState) : s.told.known = s.known := List.append_nil _

end ParserState

theorem Settled.told (h : Settled low s) : Settled low s.told where
  ordered := by rw [s.known_told]; exact h.ordered
  passed e mem := by
    rw [s.known_told] at mem
    exact ⟨(h.passed e mem).ahead, (h.passed e mem).rest⟩
  syntactic k mem own := by
    obtain mem | mem := List.mem_append.1 mem
    · exact h.syntactic k mem own
    · obtain ⟨l, found, rfl⟩ := List.mem_map.1 mem
      rw [ParseError.isLexical_ofLex (h.found l found)] at own
      cases own
  found := fun _ mem => nomatch mem
  low := ⟨h.low.ahead, h.low.rest⟩
  one := h.one
  next := h.next

/-- An error is reported when no other is left to be reported. -/
theorem Settled.noting {e : ParseError} (h : Settled low s) (told : s.reader.found = [])
    (follows : ∀ k ∈ s.known, k.Precedes e) (left : s.reader.From e.byte) :
    Settled (max low e.byte) (s.noting e) := by
  have known : (s.noting e).known = s.known ++ [e] := by
    rw [ParserState.known, ParserState.known, ParserState.noting, told, List.map_nil, List.append_nil,
      List.append_nil]
  refine ⟨?_, fun k mem => ?_, fun k mem own => ?_, h.found, ?_, h.one, h.next⟩
  · rw [known, List.pairwise_append]
    exact ⟨h.ordered, List.pairwise_singleton _ _, fun k mem => List.forall_mem_singleton.2 (follows k mem)⟩
  · rw [known] at mem
    obtain mem | mem := List.mem_append.1 mem
    · exact h.passed k mem
    · rw [List.mem_singleton.1 mem]
      exact left
  · obtain mem | mem := List.mem_append.1 mem
    · exact Nat.le_trans (h.syntactic k mem own) (Nat.le_max_left _ _)
    · rw [List.mem_singleton.1 mem]
      exact Nat.le_max_right _ _
  · obtain le | le := Nat.le_total low e.byte
    · rwa [Nat.max_eq_right le]
    · rw [Nat.max_eq_left le]
      exact h.low

/-- What is reported when the parser fails is in order again. -/
theorem Fails.reported {e : ParseError} (h : Fails e s) : Able (s.told.noting e) := by
  have follows (s' : ParserState) (same : s'.known = s.known) : ∀ k ∈ s'.told.known, k.Precedes e := by
    rw [s'.known_told, same]
    exact h.follows
  obtain ⟨low, settled | ⟨t, overlooks⟩⟩ := h.able
  · exact ⟨_, .inl (settled.told.noting rfl (follows s rfl) ⟨h.left.ahead, h.left.rest⟩)⟩
  · obtain ⟨more, first⟩ := overlooks.first
    have le : e.byte ≤ t.location.index := h.left.ahead t (by rw [first]; exact List.mem_cons_self)
    have left := h.left.skip
    refine ⟨_, .inr ⟨t, ⟨more, first⟩, overlooks.kind,
      overlooks.behind.told.noting rfl (follows s.skip rfl) ⟨left.ahead, left.rest⟩,
      Nat.max_le.2 ⟨overlooks.low_le, le⟩, ⟨overlooks.left.ahead, overlooks.left.rest⟩⟩⟩

/-! ### What parsers keep -/

/-- From where `I` holds the parser comes to where `Q` holds of its result, or it fails where its error may
be reported. -/
def Parses {α : Type} (I : ParserState → Prop) (p : Parser α) (Q : α → ParserState → Prop) : Prop :=
  ∀ s, I s → match p.run.run s with
    | (.ok a, s') => Q a s'
    | (.error e, s') => Fails e s'

/-- The parser stands behind all that it knows, and tokens that it still holds stand before what is left. -/
structure Stands (low : Nat) (held : List Token) (s : ParserState) : Prop where
  settled : Settled low s
  held : ∀ t ∈ held, low ≤ t.location.index ∧ s.reader.From t.location.index

/-- The parser stands behind all that it knows. -/
def Sound (s : ParserState) : Prop := ∃ low, Settled low s

/-- The parser goes on in its source and reports nothing by itself. -/
def Keeps {α : Type} (p : Parser α) : Prop := ∀ low held, Parses (Stands low held) p fun _ => Stands low held

/-- The parser of an expression goes on, and the token of what it gives can be held. -/
def Yields (p : Parser Expr) : Prop :=
  ∀ low held, Parses (Stands low held) p fun e => Stands low (e.token :: held)

/-- The parser goes on in its source; it may report errors. -/
def Continues {α : Type} (p : Parser α) : Prop := Parses Sound p fun _ => Sound

section

variable {α β : Type} {p q : Parser α} {f : α → Parser β} {I J : ParserState → Prop}
  {Q Q' : α → ParserState → Prop} {R : β → ParserState → Prop}

theorem Settled.stands (h : Settled low s) : Stands low [] s := ⟨h, fun _ mem => nomatch mem⟩

theorem Stands.sound (h : Stands low held s) : Sound s := ⟨low, h.settled⟩

theorem Parses.mono (hp : Parses I p Q) (h : ∀ a s, Q a s → Q' a s) : Parses I p Q' := by
  intro s hs
  have run := hp s hs
  generalize p.run.run s = out at run
  obtain ⟨r, t⟩ := out
  cases r with
  | ok a => exact h a t run
  | error e => exact run

theorem Parses.from (hp : Parses I p Q) (h : ∀ s, J s → I s) : Parses J p Q := fun s hs => hp s (h s hs)

theorem Parses.pure {a : α} (h : ∀ s, I s → Q a s) : Parses I (Pure.pure a : Parser α) Q := h

theorem Parses.throw {e : ParseError} (h : ∀ s, I s → Fails e s) : Parses I (throw e : Parser α) Q := h

theorem Parses.bind (hp : Parses I p Q) (hf : ∀ a, Parses (Q a) (f a) R) : Parses I (p >>= f) R := by
  intro s hs
  have run := hp s hs
  rw [run_bind]
  generalize p.run.run s = out at run
  obtain ⟨r, t⟩ := out
  cases r with
  | ok a => exact hf a t run
  | error e => exact run

theorem Parses.ite {c : Prop} [Decidable c] (hp : c → Parses I p Q) (hq : ¬c → Parses I q Q) :
    Parses I (if c then p else q) Q := by
  split
  · next h => exact hp h
  · next h => exact hq h

theorem Parses.tryCatch {handle : ParseError → Parser α} (hp : Parses I p Q)
    (hhandle : ∀ e, Parses (Fails e) (handle e) Q) : Parses I (tryCatchThe ParseError p handle) Q := by
  intro s hs
  have run := hp s hs
  rw [run_tryCatch]
  generalize p.run.run s = out at run
  obtain ⟨r, t⟩ := out
  cases r with
  | ok a => exact run
  | error e => exact hhandle e t run

theorem Parses.map {g : α → β} (hp : Parses I p fun a => R (g a)) : Parses I (g <$> p) R := by
  rw [map_eq_pure_bind]
  exact hp.bind fun a => .pure fun _ h => h

theorem Keeps.bind (hp : Keeps p) (hf : ∀ a, Keeps (f a)) : Keeps (p >>= f) :=
  fun low held => (hp low held).bind fun a => hf a low held

theorem Keeps.pure {a : α} : Keeps (Pure.pure a : Parser α) := fun _ _ => .pure fun _ h => h

theorem Keeps.ite {c : Prop} [Decidable c] (hp : Keeps p) (hq : Keeps q) : Keeps (if c then p else q) :=
  fun low held => .ite (fun _ => hp low held) fun _ => hq low held

theorem Keeps.continues (hp : Keeps p) : Continues p := by
  rintro s ⟨low, settled⟩
  exact (hp low []).mono (fun _ _ h => h.sound) s settled.stands

theorem Continues.bind (hp : Continues p) (hf : ∀ a, Continues (f a)) : Continues (p >>= f) :=
  Parses.bind hp hf

theorem Continues.pure {a : α} : Continues (Pure.pure a : Parser α) := Parses.pure fun _ h => h

theorem Continues.ite {c : Prop} [Decidable c] (hp : Continues p) (hq : Continues q) :
    Continues (if c then p else q) := Parses.ite (fun _ => hp) fun _ => hq

end

/-! ### Tokens -/

theorem Stands.look (h : Stands low held s) :
    Stands low ((s.reader.peekNth 0).1 :: held) s.look ∧ Faces (s.reader.peekNth 0).1 s.look := by
  obtain ⟨settled, faces, left⟩ := h.settled.look
  refine ⟨⟨settled, List.forall_mem_cons.2 ⟨⟨h.settled.low.le_next, left⟩, fun t mem => ?_⟩⟩, faces⟩
  exact ⟨(h.held t mem).1, (h.held t mem).2.reach _⟩

theorem Stands.skip (h : Stands low held s) : Stands low held s.skip :=
  ⟨h.settled.skip, fun t mem => ⟨(h.held t mem).1, (h.held t mem).2.skip⟩⟩

theorem Stands.of_subset {held' : List Token} (h : Stands low held s) (sub : held' ⊆ held) :
    Stands low held' s := ⟨h.settled, fun t mem => h.held t (sub mem)⟩

theorem parses_peek : Parses (Stands low held) Parser.peek fun t s => Stands low (t :: held) s ∧ Faces t s :=
  fun _ h => h.look

theorem run_next_eq_skip (s : ParserState) :
    Parser.next.run.run s = (.ok (s.reader.peekNth 0).1, s.look.skip) := by
  change (Except.ok s.reader.next.1, { s with reader := s.reader.next.2 }) = _
  rw [TokenReader.next_eq_skip]
  rfl

/-- A token that is consumed stands behind all that is known. -/
theorem parses_next : Parses (Stands low held) Parser.next fun t s =>
    Stands low (t :: held) s ∧ ∀ e ∈ s.known, e.byte ≤ t.location.index := by
  intro s h
  rw [run_next_eq_skip]
  exact ⟨h.look.1.skip, h.look.2.latest⟩

theorem keeps_peek : Keeps Parser.peek := fun _ _ =>
  parses_peek.mono fun _ _ h => h.1.of_subset (List.subset_cons_self _ _)

theorem keeps_next : Keeps Parser.next := fun _ _ =>
  parses_next.mono fun _ _ h => h.1.of_subset (List.subset_cons_self _ _)

/-- A failure at a token behind which nothing is known. -/
theorem Stands.fails {e : ParseError} (h : Stands low (t :: held) s)
    (latest : ∀ k ∈ s.known, k.byte ≤ t.location.index) (place : e.byte = t.location.index) :
    Fails e s :=
  h.settled.fails (by rw [place]; exact (h.held t List.mem_cons_self).2) (by rwa [place])

/-- A late failure at a token that is held. -/
theorem Stands.fails_late {e : ParseError} (h : Stands low held s) (mem : t ∈ held)
    (late : e.isLate = true) (place : e.byte = t.location.index) : Fails e s :=
  h.settled.fails_late late (by rw [place]; exact (h.held t mem).1) (by rw [place]; exact (h.held t mem).2)

theorem keeps_get : Keeps (get : Parser ParserState) := fun _ _ _ h => h

theorem keeps_remaining : Keeps Parser.remaining := keeps_get.bind fun _ => .pure

theorem keeps_freshId : Keeps Parser.freshId := fun _ _ _ h => ⟨⟨h.settled.ordered, h.settled.passed,
  h.settled.syntactic, h.settled.found, h.settled.low, h.settled.one, h.settled.next⟩, h.held⟩

theorem parses_nodeAt (token : Token) : Parses (Stands low held) (Parser.nodeAt token)
    fun node s => node.token = token ∧ Stands low held s :=
  (keeps_freshId low held).bind fun _ => .pure fun _ h => ⟨rfl, h⟩

theorem keeps_nodeAt (token : Token) : Keeps (Parser.nodeAt token) := fun _ _ =>
  (parses_nodeAt token).mono fun _ _ h => h.2

theorem keeps_expectIf (test : Token → Bool) (what : String) : Keeps (Parser.expectIf test what) :=
  fun low held => parses_peek.bind fun _ => .ite
    (fun _ => (keeps_next low held).from fun _ h => h.1.of_subset (List.subset_cons_self _ _))
    fun _ => .throw fun _ h => h.1.fails h.2.latest rfl

theorem keeps_acceptIf (test : Token → Bool) : Keeps (Parser.acceptIf test) :=
  keeps_peek.bind fun _ => .ite (keeps_next.bind fun _ => .pure) .pure

theorem parses_failExpected {α : Type} {Q : α → ParserState → Prop} (what : String) :
    Parses (Stands low held) (Parser.failExpected what) Q :=
  parses_peek.bind fun _ => .throw fun _ h => h.1.fails h.2.latest rfl

theorem parses_failTooDeep {α : Type} {Q : α → ParserState → Prop} :
    Parses (Stands low held) (Parser.failTooDeep : Parser α) Q := by
  refine parses_peek.bind fun t => ?_
  refine Parses.bind (Q := fun _ => Stands low (t :: held)) (fun s h => h.1) fun _ => ?_
  exact .throw fun _ h => h.fails_late List.mem_cons_self rfl rfl

theorem keeps_ident : Keeps Parser.ident := (keeps_expectIf _ _).bind fun _ => .pure

theorem keeps_typeName : Keeps Parser.typeName := (keeps_expectIf _ _).bind fun _ => .pure

theorem keeps_suffix : Keeps Parser.suffix :=
  keeps_peek.bind fun _ => .ite (keeps_next.bind fun _ => .pure) .pure

/-! ### Expressions -/

/-- What makes an expression of a node gives it the token of the node. -/
def Makes (make : Node → Expr) : Prop := ∀ node, (make node).token = node.token

section

variable {expression operand : Parser Expr} {climb : Expr → Nat → Parser Expr}

theorem parses_number (t : Token) : Parses
    (fun s => Stands low (t :: held) s ∧ ∀ e ∈ s.known, e.byte ≤ t.location.index)
    (Parser.number t) fun make s => Stands low held s ∧ Makes make := by
  have invalid {reason : String} : Parses
      (fun s => Stands low (t :: held) s ∧ ∀ e ∈ s.known, e.byte ≤ t.location.index)
      (Parser.invalidLiteral t reason) fun make s => Stands low held s ∧ Makes make :=
    .throw fun _ h => h.1.fails h.2 rfl
  have sub := List.subset_cons_self t held
  unfold Parser.number
  refine .ite (fun _ => ?_) fun _ => ?_
  · split
    · exact .pure fun _ h => ⟨h.1.of_subset sub, fun _ => rfl⟩
    · exact invalid
  · split
    · exact invalid
    · refine .ite (fun _ => invalid) fun _ => ?_
      refine Parses.bind ((keeps_suffix low held).from fun _ h => h.1.of_subset sub) fun _ => ?_
      exact .pure fun _ h => ⟨h, fun _ => rfl⟩

/-- The node of a literal or a name is made at its token. -/
theorem parses_made (make : Node → Expr) :
    Parses (fun s => Stands low (t :: held) s ∧ Makes make) (do return make (← Parser.nodeAt t))
      fun e => Stands low (e.token :: held) := by
  intro s ⟨stands, makes⟩
  have made (node : Node) : Parses (fun s => node.token = t ∧ Stands low (t :: held) s)
      (Pure.pure (make node) : Parser Expr) fun e => Stands low (e.token :: held) :=
    .pure fun s h => by
      rw [makes, h.1]
      exact h.2
  exact (parses_nodeAt t).bind made s stands

theorem parses_atom : Parses (Stands low (t :: held)) (Parser.atom t)
    fun e => Stands low (e.token :: held) := by
  have plain {make : Node → Expr} (h : Makes make) : Parses (Stands low (t :: held))
      (Pure.pure make >>= fun make => do return make (← Parser.nodeAt t))
        fun e => Stands low (e.token :: held) :=
    Parses.bind (.pure fun _ hs => ⟨hs, h⟩) parses_made
  unfold Parser.atom
  split
  · exact parses_next.bind fun t' => (parses_number t').bind parses_made
  · refine parses_next.bind fun t' => .ite (fun _ => ?_) fun _ => ?_
    · exact (plain fun _ => rfl).from fun _ h => h.1.of_subset (List.subset_cons_self _ _)
    · refine Parses.bind (Q := fun make s => Stands low (t :: held) s ∧ Makes make) ?_ parses_made
      exact .throw fun _ h => h.1.fails h.2 rfl
  · exact (keeps_next _ _).bind fun _ => plain fun _ => rfl
  · refine .ite (fun _ => (keeps_next _ _).bind fun _ => plain fun _ => rfl)
      fun _ => .ite (fun _ => (keeps_next _ _).bind fun _ => plain fun _ => rfl) fun _ => ?_
    exact Parses.bind (Q := fun make s => Stands low (t :: held) s ∧ Makes make)
      (parses_failExpected _) parses_made

theorem parses_bracketed (hexpr : Yields expression) (op : Operator) : Parses (Stands low (t :: held))
    (Parser.bracketed expression op t) fun e => Stands low (e.token :: held) := by
  refine (hexpr low (t :: held)).bind fun inner => (keeps_expectIf _ _ low _).bind fun _ => ?_
  refine (keeps_peek low _).bind fun _ => ?_
  split
  · exact .throw fun _ h => h.fails_late (List.mem_cons_of_mem _ List.mem_cons_self) rfl rfl
  · refine .pure fun _ h => h.of_subset ?_
    exact List.cons_subset_cons _ (List.subset_cons_self _ _)

/-- What is done with an expression whose token is not needed any more. -/
theorem Yields.bind {α : Type} {p : Parser Expr} {f : Expr → Parser α} {Q : α → ParserState → Prop}
    (hp : Yields p) (hf : ∀ e, Parses (Stands low held) (f e) Q) : Parses (Stands low held) (p >>= f) Q :=
  (hp low held).bind fun e => (hf e).from fun _ h => h.of_subset (List.subset_cons_self _ _)

theorem keeps_argumentList (hexpr : Yields expression) (closing : Char) :
    ∀ fuel, Keeps (Parser.argumentList expression closing fuel)
  | 0 => fun _ _ => parses_failExpected _
  | fuel + 1 => by
    intro low held
    unfold Parser.argumentList
    refine hexpr.bind fun e => (keeps_acceptIf _ low held).bind fun _ => .ite (fun _ => ?_) fun _ => ?_
    · exact (keeps_argumentList hexpr closing fuel low held).bind fun _ => .pure fun _ h => h
    · exact (keeps_expectIf _ _ low held).bind fun _ => .pure fun _ h => h

theorem keeps_arguments (hexpr : Yields expression) (closing : Char) :
    Keeps (Parser.arguments expression closing) :=
  (keeps_acceptIf _).bind fun _ => .ite .pure
    (keeps_remaining.bind fun _ => keeps_argumentList hexpr closing _)

/-- What an operator makes stands at its own token or at that of the operand in front of it. -/
theorem parses_applyOperator (hexpr : Yields expression) (hoperand : Yields operand)
    (hclimb : ∀ e p low held, Parses (Stands low (e.token :: held)) (climb e p)
      fun e => Stands low (e.token :: held)) (op : Operator) (token : Token) (lhs : Expr) :
    Parses (Stands low (token :: lhs.token :: held))
      (Parser.applyOperator expression operand climb op token lhs)
      fun e => Stands low (e.token :: held) := by
  have by_operator (e : Expr) (at_token : e.token = token) : ∀ s,
      Stands low (token :: lhs.token :: held) s → Stands low (e.token :: held) s := fun s h =>
    h.of_subset (by rw [at_token]; exact List.cons_subset_cons _ (List.subset_cons_self _ _))
  have by_operand (e : Expr) (at_lhs : e.token = lhs.token) : ∀ s,
      Stands low (token :: lhs.token :: held) s → Stands low (e.token :: held) s := fun s h =>
    h.of_subset (by rw [at_lhs]; exact List.subset_cons_self _ _)
  unfold Parser.applyOperator
  refine (keeps_freshId low _).bind fun id => ?_
  split
  · split
    · next node name => exact (keeps_arguments hexpr _ low _).bind fun _ => .pure (by_operand _ rfl)
    · refine .throw fun _ h => h.fails_late (t := lhs.token) ?_ rfl rfl
      exact List.mem_cons_of_mem _ List.mem_cons_self
  · exact (keeps_typeName low _).bind fun _ => .pure (by_operator _ rfl)
  · refine hexpr.bind fun yes => (keeps_expectIf _ _ low _).bind fun _ => ?_
    refine (hoperand low _).bind fun e => (hclimb e _ low _).bind fun no => .pure fun s h => ?_
    exact by_operator _ rfl s (h.of_subset (List.subset_cons_self _ _))
  · have made (b : BinaryOp) (rhs : Expr) : Parses (Stands low (rhs.token :: token :: lhs.token :: held))
        (Pure.pure (.binary ⟨id, token⟩ b lhs rhs) : Parser Expr)
          fun e => Stands low (e.token :: held) :=
      .pure fun s h => by_operator _ rfl s (h.of_subset (List.subset_cons_self _ _))
    refine (hoperand low _).bind fun rhs => (keeps_peek low _).bind fun _ => ?_
    split
    · exact .ite (fun _ => (hclimb rhs _ low _).bind fun e => made _ e) fun _ => made _ _
    · exact made _ _
  · exact .pure (by_operand _ rfl)
  · exact .pure (by_operand _ rfl)

theorem parses_chain {apply : Operator → Token → Expr → Parser Expr} {least : Nat}
    (happly : ∀ op token lhs low held, Parses (Stands low (token :: lhs.token :: held))
      (apply op token lhs) fun e => Stands low (e.token :: held)) :
    ∀ links lhs, Parses (Stands low (lhs.token :: held)) (Parser.chain apply least links lhs)
      fun e => Stands low (e.token :: held)
  | links, lhs => by
    unfold Parser.chain
    refine parses_peek.bind fun token => ?_
    have back : ∀ s, Stands low (token :: lhs.token :: held) s ∧ Faces token s →
        Stands low (lhs.token :: held) s := fun _ h => h.1.of_subset (List.subset_cons_self _ _)
    split
    · exact .pure back
    · refine .ite (fun _ => .pure back) fun _ => ?_
      cases links with
      | zero => exact parses_failTooDeep.from fun _ h => h.1
      | succ links =>
        refine Parses.bind ((keeps_next low _).from fun _ h => h.1) fun _ => ?_
        exact (happly _ token lhs low held).bind fun e => parses_chain happly links e

/-- The parsers of expressions, with so many levels of nesting left. -/
theorem yields_levels : ∀ levels,
    Yields (Parser.expression levels) ∧ Yields (Parser.operand levels) ∧
      ∀ lhs least low held, Parses (Stands low (lhs.token :: held)) (Parser.climb levels lhs least)
        fun e => Stands low (e.token :: held)
  | 0 => by
    unfold Parser.expression Parser.operand Parser.climb
    exact ⟨fun _ _ => parses_failTooDeep, fun _ _ => parses_failTooDeep, fun _ _ _ _ => parses_failTooDeep⟩
  | levels + 1 => by
    obtain ⟨hexpr, hoperand, hclimb⟩ := yields_levels levels
    refine ⟨fun low held => ?_, fun low held => ?_, fun lhs least low held => ?_⟩
    · unfold Parser.expression
      exact (hoperand low held).bind fun lhs => hclimb lhs 0 low held
    · unfold Parser.operand
      refine parses_peek.bind fun token => Parses.from ?_ fun _ h => h.1
      split
      · exact parses_atom
      · refine (keeps_next low _).bind fun _ => ?_
        split
        · exact parses_bracketed hexpr _
        · refine (hoperand low _).bind fun inner => (hclimb inner _ low _).bind fun e => ?_
          refine (parses_nodeAt token).bind fun node => .pure fun s h => ?_
          have held' := h.2.of_subset (List.subset_cons_self _ _)
          rwa [← h.1] at held'
        · exact parses_failExpected _
    · unfold Parser.climb
      exact parses_chain
        (fun op token lhs low held => parses_applyOperator hexpr hoperand hclimb op token lhs) levels lhs

end

/-! ### Behind a name that is next -/

/-- A name begins no operator. -/
theorem not_operator_of_identifier (kind : t.kind = .identifier) : Operator.find? t .unary = none := by
  have known : ∀ o ∈ Operator.table, o.kind ≠ .identifier := by decide
  refine List.find?_eq_none.2 fun o mem found => ?_
  simp only [Token.is, Bool.and_eq_true, beq_iff_eq] at found
  exact known o mem (found.2.1.symm.trans kind)

theorem parses_peek_overlooking : Parses (Overlooks low t) Parser.peek fun u s =>
    u = t ∧ Overlooks low t s := by
  intro s h
  obtain ⟨same, stays⟩ := h.look
  rw [run_peek, same]
  exact ⟨rfl, by rw [← ParserState.look, stays]; exact h⟩

theorem parses_next_overlooking : Parses (Overlooks low t) Parser.next fun _ s => Stands low [t] s := by
  intro s h
  rw [run_next_eq_skip, h.look.2]
  exact ⟨h.behind, List.forall_mem_singleton.2 ⟨h.low_le, h.left⟩⟩

theorem parses_failTooDeep_overlooking {α : Type} {Q : α → ParserState → Prop} :
    Parses (Overlooks low t) (Parser.failTooDeep : Parser α) Q := by
  refine parses_peek_overlooking.bind fun u => ?_
  refine Parses.bind (Q := fun _ s => u = t ∧ Overlooks low t s) (fun s h => h) fun _ => ?_
  exact .throw fun _ h => h.2.fails rfl (congrArg (·.location.index) h.1)

theorem parses_atom_overlooking (kind : t.kind = .identifier) : Parses (Overlooks low t) (Parser.atom t)
    fun e => Stands low [e.token] := by
  unfold Parser.atom
  rw [kind]
  refine parses_next_overlooking.bind fun _ => ?_
  exact Parses.bind (.pure fun _ h => ⟨h, fun _ => rfl⟩) parses_made

theorem parses_expression_overlooking : ∀ levels, Parses (Overlooks low t) (Parser.expression levels)
    fun e => Stands low [e.token]
  | 0 => by
    unfold Parser.expression
    exact parses_failTooDeep_overlooking
  | levels + 1 => by
    unfold Parser.expression
    refine Parses.bind (Q := fun e => Stands low [e.token]) ?_ fun lhs =>
      (yields_levels levels).2.2 lhs 0 low []
    cases levels with
    | zero =>
      unfold Parser.operand
      exact parses_failTooDeep_overlooking
    | succ levels =>
      unfold Parser.operand
      refine parses_peek_overlooking.bind fun u s h => ?_
      obtain ⟨rfl, overlooks⟩ := h
      rw [not_operator_of_identifier overlooks.kind]
      exact parses_atom_overlooking overlooks.kind s overlooks

theorem Sound.able (h : Sound s) : Able s := h.imp fun _ settled => .inl settled

/-- What goes on both from behind all that is known and from a name that is next. -/
theorem parses_of_able {α : Type} {p : Parser α} {Q : α → ParserState → Prop} (settled : Parses Sound p Q)
    (overlooking : ∀ low t, Parses (Overlooks low t) p Q) : Parses Able p Q := by
  rintro s ⟨low, h | ⟨t, h⟩⟩
  · exact settled s ⟨low, h⟩
  · exact overlooking low t s h

theorem parses_next_able : Parses Able Parser.next fun _ => Sound :=
  parses_of_able keeps_next.continues fun _ _ => parses_next_overlooking.mono fun _ _ h => h.sound

theorem continues_of_yields {expression : Parser Expr} (h : Yields expression) : Continues expression := by
  rintro s ⟨low, settled⟩
  exact (h low []).mono (fun _ _ h => h.sound) s settled.stands

theorem parses_expression_able (levels : Nat) : Parses Able (Parser.expression levels) fun _ => Sound :=
  parses_of_able (continues_of_yields (yields_levels levels).1) fun _ _ =>
    (parses_expression_overlooking levels).mono fun _ _ h => h.sound

theorem parses_ident_able : Parses Able Parser.ident fun _ => Sound := by
  refine parses_of_able keeps_ident.continues fun low t => ?_
  refine Parses.bind (Q := fun _ => Sound) ?_ fun _ => .pure fun _ h => h
  refine parses_peek_overlooking.bind fun u s h => ?_
  obtain ⟨rfl, overlooks⟩ := h
  rw [if_pos (beq_iff_eq.2 overlooks.kind)]
  exact parses_next_overlooking.mono (fun _ _ h => h.sound) s overlooks

/-! ### Statements -/

section

variable {expression : Parser Expr} {block : Parser Block}

/-- The token is held, and behind it nothing is known. -/
structure Holds (t : Token) (s : ParserState) : Prop where
  stands : ∃ low, Stands low [t] s
  latest : ∀ e ∈ s.known, e.byte ≤ t.location.index

theorem Holds.fails {e : ParseError} (h : Holds t s) (place : e.byte = t.location.index) : Fails e s :=
  h.stands.elim fun _ stands => stands.fails h.latest place

theorem Holds.sound (h : Holds t s) : Sound s := h.stands.elim fun _ stands => stands.sound

theorem parses_peek_sound : Parses Sound Parser.peek fun t s => Holds t s ∧ Faces t s := by
  rintro s ⟨low, settled⟩
  have looked := parses_peek s settled.stands
  exact ⟨⟨⟨low, looked.1⟩, looked.2.latest⟩, looked.2⟩

theorem parses_next_sound : Parses Sound Parser.next Holds := by
  rintro s ⟨low, settled⟩
  have consumed := parses_next s settled.stands
  exact ⟨⟨low, consumed.1⟩, consumed.2⟩

theorem continues_optionally {α β : Type} {c : Parser Bool} {p : Parser α} {k : Option α → Parser β}
    (hc : Continues c) (hp : Continues p) (hk : ∀ a, Continues (k a)) :
    Continues (do if ← c then k (← some <$> p) else k (← pure none)) := by
  refine hc.bind fun _ => .ite ?_ (Continues.pure.bind hk)
  exact Parses.bind (Q := fun _ => Sound) (.map hp) hk

theorem continues_varDecl (hexpr : Continues expression) : Continues (Parser.varDecl expression) := by
  refine parses_next_sound.bind fun token => .ite (fun _ => ?_) fun _ => ?_
  · exact Parses.bind (Q := fun _ _ => False) (.throw fun _ h => h.fails rfl) fun _ _ h => h.elim
  · refine Parses.from ?_ fun _ h => h.sound
    refine (keeps_nodeAt token).continues.bind fun node => keeps_ident.continues.bind fun name => ?_
    refine continues_optionally (keeps_acceptIf _).continues keeps_typeName.continues fun type => ?_
    refine continues_optionally (keeps_acceptIf _).continues hexpr fun init => ?_
    exact (keeps_expectIf _ _).continues.bind fun _ => .pure

theorem continues_branches (hexpr : Continues expression) (hblock : Continues block) :
    ∀ fuel, Continues (Parser.branches expression block fuel)
  | 0 => .pure
  | fuel + 1 => by
    have further : Continues (do
        let cond ← expression
        let body ← block
        return Branches.branch cond body (← Parser.branches expression block fuel)) :=
      hexpr.bind fun cond => hblock.bind fun body =>
        (continues_branches hexpr hblock fuel).bind fun rest => .pure
    unfold Parser.branches
    refine (keeps_acceptIf _).continues.bind fun _ => .ite further ?_
    refine (keeps_acceptIf _).continues.bind fun _ => .ite ?_ .pure
    exact (keeps_acceptIf _).continues.bind fun _ => .ite further (hblock.bind fun _ => .pure)

/-- The token behind a name tells whether the name is assigned to; if it is not, it has been looked at in
vain. -/
theorem parses_assignment? (hexpr : Continues expression) (kind : t.kind = .identifier) :
    Parses (fun s => Holds t s ∧ Faces t s) (Parser.assignment? expression) fun found =>
      match found with
      | some _ => Sound
      | none => Able := by
  have behind : Parses (fun s => Holds t s ∧ Faces t s) (Parser.peekNth 1) fun _ => Able := by
    rintro s ⟨⟨⟨low, stands⟩, -⟩, faces⟩
    obtain ⟨low_le, left⟩ := stands.held t List.mem_cons_self
    exact ⟨low, stands.settled.lookBehind faces kind low_le left⟩
  refine behind.bind fun u => .ite (fun _ => .pure fun _ h => h) fun _ => ?_
  refine parses_ident_able.bind fun target => Parses.bind keeps_next.continues fun operator => ?_
  have assigned (op : Option BinaryOp) (value : Expr) : Parses Sound (do
      let _ ← Parser.expectSymbol ';'
      return some fun node => Stmt.assign node target op value) fun found =>
        match found with
        | some _ => Sound
        | none => Able :=
    Parses.bind (keeps_expectIf _ _).continues fun _ => .pure fun _ h => h
  cases Parser.stepOperator? u with
  | some op =>
    refine Parses.bind (keeps_nodeAt operator).continues fun node => ?_
    exact Parses.bind (Q := fun _ => Sound) (.pure fun _ h => h) fun value => assigned _ value
  | none => exact Parses.bind hexpr fun value => assigned _ value

theorem parses_expressionStatement {I : ParserState → Prop} (hexpr : Parses I expression fun _ => Sound) :
    Parses I (Parser.expressionStatement expression) fun _ => Sound :=
  hexpr.bind fun _ => (keeps_expectIf _ _).continues.bind fun _ => .pure

theorem continues_keywordStatement (hexpr : Continues expression) (hblock : Continues block)
    (k : Option Keyword) : Continues (Parser.keywordStatement expression block k) := by
  have next := keeps_next.continues
  have expect (test : Token → Bool) (what : String) := (keeps_expectIf test what).continues
  unfold Parser.keywordStatement
  split
  · exact (continues_varDecl hexpr).bind fun _ => .pure
  · exact (continues_varDecl hexpr).bind fun _ => .pure
  · refine next.bind fun _ => hexpr.bind fun cond => hblock.bind fun body => ?_
    exact keeps_remaining.continues.bind fun fuel =>
      (continues_branches hexpr hblock fuel).bind fun _ => .pure
  · exact next.bind fun _ => hexpr.bind fun cond => hblock.bind fun body => .pure
  · exact next.bind fun _ => hblock.bind fun body => .pure
  · refine next.bind fun _ => keeps_ident.continues.bind fun var => (expect _ _).bind fun _ => ?_
    refine hexpr.bind fun start => (expect _ _).bind fun _ => hexpr.bind fun stop => ?_
    exact hblock.bind fun body => .pure
  · refine next.bind fun _ => keeps_peek.continues.bind fun t => ?_
    have returned (value : Option Expr) : Continues (do
        let _ ← Parser.expectSymbol ';'
        return fun node => Stmt.ret node value) := (expect _ _).bind fun _ => .pure
    refine .ite (Continues.pure.bind returned) ?_
    exact Parses.bind (Q := fun _ => Sound) (.map hexpr) returned
  · exact next.bind fun _ => (expect _ _).bind fun _ => .pure
  · exact next.bind fun _ => (expect _ _).bind fun _ => .pure
  · exact parses_expressionStatement hexpr

theorem continues_statement (hexpr : Continues expression)
    (hable : Parses Able expression fun _ => Sound) (hblock : Continues block) :
    Continues (Parser.statement expression block) := by
  refine parses_peek_sound.bind fun t => ?_
  have made (make : Node → Stmt) : Continues (do return make (← Parser.nodeAt t)) :=
    (keeps_nodeAt t).continues.bind fun _ => .pure
  have sound : ∀ s, Holds t s ∧ Faces t s → Sound s := fun _ h => h.1.sound
  refine .ite (fun _ => ?_) fun _ => .ite (fun _ => ?_) fun _ => .ite (fun kind => ?_) fun _ => ?_
  · exact Parses.from (hblock.bind fun body => Continues.pure.bind made) sound
  · exact Parses.from ((continues_keywordStatement hexpr hblock _).bind made) sound
  · refine (parses_assignment? hexpr kind).bind fun found => ?_
    cases found with
    | some make => exact Continues.pure.bind made
    | none => exact (parses_expressionStatement hable).bind made
  · exact Parses.from (Parses.bind (parses_expressionStatement hexpr) made) sound

end

/-! ### Recovery -/

theorem continues_skipStatement : ∀ fuel depth, Continues (Parser.skipStatement fuel depth)
  | 0, _ => .pure
  | fuel + 1, depth => by
    unfold Parser.skipStatement
    refine keeps_peek.continues.bind fun t => .ite .pure (.ite ?_ (keeps_next.continues.bind fun _ => ?_))
    · cases depth with
      | zero => exact .pure
      | succ depth => exact keeps_next.continues.bind fun _ => continues_skipStatement fuel depth
    · exact .ite (continues_skipStatement fuel _) (.ite .pure (continues_skipStatement fuel _))

theorem continues_skipItem : ∀ fuel depth, Continues (Parser.skipItem fuel depth)
  | 0, _ => .pure
  | fuel + 1, depth => by
    unfold Parser.skipItem
    refine keeps_peek.continues.bind fun t => .ite .pure (keeps_next.continues.bind fun _ => ?_)
    exact .ite (continues_skipItem fuel _) (.ite (continues_skipItem fuel _) (continues_skipItem fuel _))

theorem parses_remaining_overlooking : Parses (Overlooks low t) Parser.remaining fun n s =>
    0 < n ∧ Overlooks low t s := by
  intro s h
  obtain ⟨more, first⟩ := h.first
  refine ⟨?_, h⟩
  rw [TokenReader.size, first, List.length_cons]
  omega

/-- A name is neither the end of anything nor a symbol nor a keyword. -/
theorem Overlooks.plain (h : Overlooks low t s) :
    t.isEndOfFile = false ∧ (∀ c, t.isSymbol c = false) ∧ ∀ k, t.isWord k = false := by
  simp [Token.isEndOfFile, Token.isSymbol, Token.isWord, Token.isKeyword, Token.is, h.kind]

/-- There is something to skip where a name is next. -/
theorem parses_skip_able {skip : Nat → Parser Unit} (continues : ∀ fuel, Continues (skip fuel))
    (overlooking : ∀ fuel low t, Parses (Overlooks low t) (skip (fuel + 1)) fun _ => Sound) :
    Parses Able (do skip (← Parser.remaining)) fun _ => Sound := by
  refine parses_of_able (keeps_remaining.continues.bind continues) fun low t =>
    parses_remaining_overlooking.bind fun fuel => ?_
  cases fuel with
  | zero => exact fun s h => absurd h.1 (Nat.lt_irrefl _)
  | succ fuel => exact (overlooking fuel low t).from fun _ h => h.2

theorem parses_skipStatement_able :
    Parses Able (do Parser.skipStatement (← Parser.remaining) 0) fun _ => Sound := by
  refine parses_skip_able (continues_skipStatement · 0) fun fuel low t => ?_
  unfold Parser.skipStatement
  refine parses_peek_overlooking.bind fun u s h => ?_
  obtain ⟨rfl, overlooks⟩ := h
  obtain ⟨more, symbol, -⟩ := overlooks.plain
  rw [more, symbol, symbol, symbol]
  exact parses_next_overlooking.bind
    (fun _ => (continues_skipStatement fuel 0).from fun _ h => h.sound) s overlooks

theorem parses_skipItem_able :
    Parses Able (do Parser.skipItem (← Parser.remaining) 0) fun _ => Sound := by
  refine parses_skip_able (continues_skipItem · 0) fun fuel low t => ?_
  unfold Parser.skipItem
  refine parses_peek_overlooking.bind fun u s h => ?_
  obtain ⟨rfl, overlooks⟩ := h
  obtain ⟨more, symbol, word⟩ := overlooks.plain
  rw [more, symbol, symbol, Parser.isItemStart, word, word, word, word]
  exact parses_next_overlooking.bind
    (fun _ => (continues_skipItem fuel 0).from fun _ h => h.sound) s overlooks

theorem parses_report (e : ParseError) : Parses (Fails e) (Parser.report e) fun _ => Able :=
  fun _ h => h.reported

theorem continues_reportFound : Continues Parser.reportFound := fun _ ⟨low, h⟩ => ⟨low, h.told⟩

theorem continues_recover {α : Type} {p : Parser α} {skip : Parser Unit} (hp : Continues p)
    (hskip : Parses Able skip fun _ => Sound) : Continues (Parser.recover p skip) := by
  -- the attempt and its handler both return from the whole parser
  refine Parses.bind (Q := fun (r : Except (Option α) (Option α)) s =>
    (∃ found, r = .error found) ∧ Sound s) (.tryCatch ?_ fun e => ?_) ?_
  · exact Parses.bind hp fun a => .pure fun _ h => ⟨⟨some a, rfl⟩, h⟩
  · exact (parses_report e).bind fun _ => hskip.bind fun _ => .pure fun _ h => ⟨⟨none, rfl⟩, h⟩
  · rintro r s ⟨⟨found, rfl⟩, h⟩
    exact h

theorem continues_statements {statement : Parser Stmt} (hstatement : Continues statement) :
    ∀ fuel, Continues (Parser.statements statement fuel)
  | 0 => .pure
  | fuel + 1 => by
    unfold Parser.statements
    refine keeps_peek.continues.bind fun t => .ite .pure ?_
    refine (continues_recover hstatement parses_skipStatement_able).bind fun found => ?_
    exact (continues_statements hstatement fuel).bind fun _ => .pure

theorem continues_block : ∀ levels, Continues (Parser.block levels)
  | 0 => by
    have fails : Keeps (Parser.failTooDeep : Parser Block) := fun _ _ => parses_failTooDeep
    unfold Parser.block
    exact fails.continues
  | levels + 1 => by
    have hstatement := continues_statement (continues_of_yields (yields_levels levels).1)
      (parses_expression_able levels) (continues_block levels)
    unfold Parser.block
    refine (keeps_expectIf _ _).continues.bind fun token => (keeps_nodeAt token).continues.bind fun node => ?_
    refine keeps_remaining.continues.bind fun fuel => (continues_statements hstatement fuel).bind fun _ => ?_
    exact (keeps_expectIf _ _).continues.bind fun _ => .pure

/-! ### Items -/

theorem keeps_paramList : ∀ fuel, Keeps (Parser.paramList fuel)
  | 0 => fun _ _ => parses_failExpected _
  | fuel + 1 => by
    unfold Parser.paramList
    refine keeps_ident.bind fun _ => (keeps_expectIf _ _).bind fun _ => keeps_typeName.bind fun _ => ?_
    refine (keeps_acceptIf _).bind fun _ => .ite ((keeps_paramList fuel).bind fun _ => .pure) ?_
    exact (keeps_expectIf _ _).bind fun _ => .pure

theorem keeps_outsideName : Keeps Parser.outsideName :=
  (keeps_expectIf _ _).bind fun _ => (keeps_expectIf _ _).bind fun _ => .pure

theorem keeps_importName : Keeps Parser.importName :=
  keeps_peek.bind fun _ => .ite (keeps_next.bind fun _ => .pure) (keeps_ident.bind fun _ => .pure)

theorem continues_functionBody (levels : Nat) : Continues (Parser.functionBody levels) := by
  have outside := keeps_outsideName.continues
  have fails : Keeps (Parser.failExpected "function body, '->' or '=>'" : Parser FunctionBody) :=
    fun _ _ => parses_failExpected _
  refine keeps_peek.continues.bind fun t => .ite ((continues_block levels).bind fun _ => .pure) ?_
  refine (keeps_acceptIf _).continues.bind fun _ => .ite (outside.bind fun _ => .pure) ?_
  exact (keeps_acceptIf _).continues.bind fun _ => .ite (outside.bind fun _ => .pure) fails.continues

theorem continues_function (levels : Nat) : Continues (Parser.function levels) := by
  have rest (name : Ident) (params : List Param) : Continues (do
      let ret ← if ← Parser.acceptSymbol ':' then some <$> Parser.typeName else pure none
      let body ← Parser.functionBody levels
      return (⟨name, params, ret, body⟩ : Function)) :=
    continues_optionally (keeps_acceptIf _).continues keeps_typeName.continues fun ret =>
      (continues_functionBody levels).bind fun _ => .pure
  refine (keeps_expectIf _ _).continues.bind fun _ => keeps_ident.continues.bind fun name => ?_
  refine (keeps_expectIf _ _).continues.bind fun _ => (keeps_acceptIf _).continues.bind fun _ => ?_
  refine .ite (Continues.pure.bind fun params => rest name params) ?_
  exact keeps_remaining.continues.bind fun fuel => (keeps_paramList fuel).continues.bind (rest name)

theorem continues_item (levels : Nat) : Continues (Parser.item levels) := by
  have expect (test : Token → Bool) (what : String) := (keeps_expectIf test what).continues
  refine keeps_peek.continues.bind fun token => (keeps_nodeAt token).continues.bind fun node => ?_
  refine .ite ((continues_function levels).bind fun _ => .pure) (.ite ?_ ?_)
  · exact keeps_next.continues.bind fun _ => keeps_importName.continues.bind fun _ =>
      (expect _ _).bind fun _ => .pure
  · exact (continues_varDecl (continues_of_yields (yields_levels levels).1)).bind fun _ => .pure

theorem continues_items (levels : Nat) : ∀ fuel, Continues (Parser.items levels fuel)
  | 0 => .pure
  | fuel + 1 => by
    unfold Parser.items
    refine continues_reportFound.bind fun _ => parses_peek_sound.bind fun t => ?_
    have sound : ∀ s, Holds t s ∧ Faces t s → Sound s := fun _ h => h.1.sound
    refine .ite (fun _ => .pure sound) fun _ => .ite (fun _ => ?_) fun _ => ?_
    · refine Parses.from (I := Sound) ?_ sound
      refine (continues_recover (continues_item levels) parses_skipItem_able).bind fun found => ?_
      exact (continues_items levels fuel).bind fun _ => .pure
    · refine Parses.bind ((parses_report _).from fun _ h => h.1.fails rfl) fun _ => ?_
      refine parses_next_able.bind fun _ => Parses.bind ?_ fun _ => continues_items levels fuel
      exact parses_skipItem_able.from fun _ h => h.able

theorem continues_module (name : String) : Continues (Parser.module name) := by
  refine keeps_get.continues.bind fun s => keeps_remaining.continues.bind fun fuel => ?_
  exact (continues_items _ fuel).bind fun found => continues_reportFound.bind fun _ => .pure

/-! ### Sources -/

/-- Before anything is read nothing is known. -/
theorem settled_start {lx : Lexer} (inOrder : InOrder (Lexer.stop lx.drain.1) 0 lx.drain.1)
    (nextId limit : Nat) : Settled 0 { reader := .ofLexer lx, nextId, limit } where
  ordered := .nil
  passed := fun _ mem => nomatch mem
  syntactic := fun _ mem => nomatch mem
  found := fun _ mem => nomatch mem
  low := ⟨fun _ mem => (nomatch mem), inOrder⟩
  one := Nat.zero_le _
  next := fun _ mem => nomatch mem

/-- Where a parser has come to, all that has been reported is in order. -/
theorem Able.ordered (h : Able s) : s.errors.Pairwise ParseError.Precedes :=
  h.elim fun _ ready => (List.pairwise_append.1 ready.ordered).1

/-- The errors of a source that enters no other are reported in the order of its text, but that late
errors may follow lexical ones that stand behind them. -/
theorem errors_in_order (p : ProgramParser) (name text : String)
    (alone : (lexerOf p.options name text).Alone) :
    ∃ es, (p.parseModule name text).1.errors = p.errors ++ es ∧ es.Pairwise ParseError.Precedes := by
  have inOrder : InOrder (Lexer.stop (lexerOf p.options name text).drain.1) 0
      (lexerOf p.options name text).drain.1 := Lexer.drain_inOrder (s := ⟨name, text⟩) alone
  have parsed := continues_module name _ ⟨0, settled_start inOrder p.nextId p.options.maxNesting⟩
  refine ⟨_, rfl, ?_⟩
  change ((Parser.module name).run.run
    { reader := .ofLexer (lexerOf p.options name text), nextId := p.nextId,
      limit := p.options.maxNesting }).2.errors.Pairwise ParseError.Precedes
  generalize (Parser.module name).run.run _ = out at parsed ⊢
  obtain ⟨r, s⟩ := out
  cases r with
  | ok m => exact Sound.able parsed |>.ordered
  | error e => exact Able.ordered parsed.able

/-- A call of what cannot be called, and in it a directive without a name. -/
def lateCall : String := "var v = (1 $include\n)(2);"

/-- That nothing can be called is reported behind the error in the brackets, and stands before it. -/
theorem lateCall_errors :
    let es := (ProgramParser.parseModule { options := {} } "t" lateCall).1.errors
    es.Pairwise ParseError.Precedes ∧ es.map ParseError.byte = [19, 8] := by
  intro es
  have alone : (lexerOf {} "t" lateCall).Alone := Lexer.alone_of_closed rfl rfl
  obtain ⟨es', parsed, ordered⟩ := errors_in_order { options := {} } "t" lateCall alone
  obtain rfl : es = es' := parsed
  obtain ⟨m, s, run, whole⟩ := @parseText_closed {} rfl "t" lateCall
  have facts : (parseText {} "t" lateCall).errors.map ParseError.byte = [19, 8] ∧
      (parseText {} "t" lateCall).program.modules.map (·.items.length) = [0] :=
    parseText_of_any (P := fun o => o.errors.map ParseError.byte = [19, 8] ∧
      o.program.modules.map (·.items.length) = [0]) rfl 60 (by decide +kernel)
  rw [whole] at facts
  obtain ⟨bytes, items⟩ := facts
  have imports : ProgramParser.importsOf m = [] := by
    rw [ProgramParser.importsOf, List.eq_nil_of_length_eq_zero (List.cons.inj items).1,
      List.filterMap_nil]
  rw [imports, List.map_nil, List.append_nil] at bytes
  have told : es = s.errors := congrArg (·.1.errors) (parseModule_of_run run)
  exact ⟨ordered, by rw [told]; exact bytes⟩

example : (parseText { maxNesting := 1 } "t" "func f() \x7b x $include\n; \x7d").errors.map ParseError.byte =
    [21, 11] :=
  parseText_of_any (P := fun o => o.errors.map ParseError.byte = [21, 11]) rfl 60 (by decide +kernel)

end ScriptLang.Syntax
