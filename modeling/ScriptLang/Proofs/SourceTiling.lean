import Mathlib.Data.List.Forall2
import ScriptLang.Proofs.LexemeSpans
import ScriptLang.Proofs.ReadingTurns

/-!
# Tokens tile their sources

A journal kept beside the turns of reading (`Journal.note`) tells which sources were entered and
what was read of each: tokens, and stretches that a directive skipped with an error.  At any time
the marks of a source tile what has been read of its text (`Lexer.Kept`); when reading is over all
sources are at their ends, so that everything in them is covered once, in its order, by whole
characters, and every place is what its line and its column say (`tokens_tile`).
-/

namespace ScriptLang

open Text

/-! ### Places -/

/-- The place behind the first characters of a source: its line is one more than the line feeds
among them, and its column one more than the characters behind the last of these. -/
def placeAfter (name : String) (before : List Char) : Location :=
  ⟨name, byteLength before, before.count '\n' + 1,
    (before.reverse.takeWhile (· != '\n')).length + 1⟩

theorem placeAfter_after (name : String) (before : List Char) (c : Char) :
    (placeAfter name before).after c = placeAfter name (before ++ [c]) := by
  have index : byteLength (before ++ [c]) = byteLength before + c.utf8Size := by
    rw [byteLength_append, byteLength_cons, byteLength_nil, Nat.add_zero]
  rw [placeAfter, Location.after, placeAfter, index, List.reverse_append, List.reverse_singleton,
    List.singleton_append, List.count_append]
  split
  · next feed =>
    subst feed
    rw [List.takeWhile_cons_of_neg (by decide)]
    rfl
  · next other =>
    rw [List.takeWhile_cons_of_pos (by simpa using other), List.count_singleton,
      if_neg (by simpa using other)]
    rfl

theorem locationAfter_placeAfter (name : String) (before cs : List Char) :
    Frame.locationAfter (placeAfter name before) cs = placeAfter name (before ++ cs) := by
  induction cs generalizing before with
  | nil =>
    rw [List.append_nil]
    rfl
  | cons c cs ih =>
    change Frame.locationAfter ((placeAfter name before).after c) cs = _
    rw [placeAfter_after, ih, List.append_assoc, List.singleton_append]

/-! ### Marks -/

/-- What has been read of a source: a token, or a stretch that a directive skipped with an error. -/
inductive Mark where
  | token (t : Token)
  | fault (message : String) (place : Location) (width : Nat)

namespace Mark

def place : Mark → Location
  | token t => t.location
  | fault _ place _ => place

/-- The bytes that it covers. -/
def width : Mark → Nat
  | token t => t.width
  | fault _ _ width => width

/-- The byte behind it. -/
def stop (m : Mark) : Nat := m.place.index + m.width

def token? : Mark → Option Token
  | token t => some t
  | fault .. => none

def error? : Mark → Option LexError
  | token _ => none
  | fault message place width => some (.directive message place width)

end Mark

/-- Whether an error is about a stretch that a directive skipped. -/
def LexError.isFault : LexError → Bool
  | directive .. => true
  | _ => false

/-- The end of file is no part of a text. -/
def Turn.mark? : Turn → Option Mark
  | made t => if t.kind = .endOfFile then none else some (.token t)
  | faulted message place width => some (.fault message place width)
  | _ => none

theorem Turn.mark?_made {t : Token} (h : t.kind ≠ .endOfFile) :
    (Turn.made t).mark? = some (.token t) := if_neg h

/-- The marks of a text cover it from its beginning to its end, in their order and none over
another, each whole characters, and each at the place where these begin. -/
structure Tiles (name : String) (text : List Char) (ms : List Mark) : Prop where
  ordered : ms.Pairwise fun m m' => m.stop ≤ m'.place.index
  covers : ∀ b < byteLength text, ∃ m ∈ ms, m.place.index ≤ b ∧ b < m.stop
  whole : ∀ m ∈ ms, ∃ before inside behind, text = before ++ inside ++ behind ∧
    m.place = placeAfter name before ∧ m.width = byteLength inside

theorem tiles_nil (name : String) : Tiles name [] [] := ⟨.nil, nofun, nofun⟩

theorem Tiles.stop_le {name : String} {text : List Char} {ms : List Mark} (h : Tiles name text ms)
    {m : Mark} (hm : m ∈ ms) : m.stop ≤ byteLength text := by
  obtain ⟨before, inside, behind, rfl, place, width⟩ := h.whole m hm
  rw [Mark.stop, place, width, byteLength_append, byteLength_append]
  exact Nat.le_add_right _ _

/-- What has been read grows by one mark. -/
theorem Tiles.snoc {name : String} {text inside : List Char} {ms : List Mark} {m : Mark}
    (h : Tiles name text ms) (place : m.place = placeAfter name text)
    (width : m.width = byteLength inside) : Tiles name (text ++ inside) (ms ++ [m]) where
  ordered := by
    refine List.pairwise_append.2 ⟨h.ordered, List.pairwise_singleton _ _, ?_⟩
    intro m' hm' last hlast
    rw [List.mem_singleton.1 hlast, place]
    exact h.stop_le hm'
  covers := by
    intro b inText
    rw [byteLength_append] at inText
    by_cases old : b < byteLength text
    · obtain ⟨m', hm', covered⟩ := h.covers b old
      exact ⟨m', List.mem_append_left _ hm', covered⟩
    · refine ⟨m, List.mem_append_right _ (List.mem_singleton_self m), ?_⟩
      have start : m.place.index = byteLength text := by rw [place]; rfl
      rw [Mark.stop, width, start]
      omega
  whole := by
    intro m' hm'
    rcases List.mem_append.1 hm' with old | new
    · obtain ⟨before, middle, behind, rfl, place, width⟩ := h.whole m' old
      exact ⟨before, middle, behind ++ inside, List.append_assoc _ _ _, place, width⟩
    · rw [List.mem_singleton.1 new]
      exact ⟨text, inside, [], (List.append_nil _).symm, place, width⟩

/-! ### The journal -/

/-- The sources entered, in their order; those being read, the one on top first, and the marks, each
with its source.  A source is known here by its index among those entered. -/
structure Journal where
  entered : List SourceText
  reading : List Nat := [0]
  marks : List (Nat × Mark) := []

namespace Journal

/-- The marks of one source. -/
def marksOf (j : Journal) (k : Nat) : List Mark := (j.marks.filter (·.1 == k)).map Prod.snd

/-- Note a mark of the source on top. -/
def mark (j : Journal) (m : Mark) : Journal :=
  { j with marks := j.marks ++ [(j.reading.headD 0, m)] }

/-- Note what a turn does. -/
def note (j : Journal) : Turn → Journal
  | .entered s => { j with entered := j.entered ++ [s], reading := j.entered.length :: j.reading }
  | .left => { j with reading := j.reading.tail }
  | a => a.mark?.elim j j.mark

/-- The journal of some turns that begin with reading a source. -/
def of (s : SourceText) (as : List Turn) : Journal := as.foldl note { entered := [s] }

end Journal

/-! ### What a turn does to the sources -/

/-- A phase whose steps cover whole characters of the text, and that makes no end of file. -/
def DirectivePhase.Sound (phase : DirectivePhase) : Prop :=
  ∀ cs, match phase cs with
    | .pass | .finish => True
    | .produce kind width => kind ≠ .endOfFile ∧ Spans width cs
    | .request width _ | .reject width _ => Spans width cs

/-- The directives of the profile have sound phases only. -/
def Profile.Sound (p : Profile) : Prop :=
  ∀ d ∈ p.directives, ∀ phase ∈ d.phases, DirectivePhase.Sound phase

theorem includeBlanks_sound : DirectivePhase.Sound includeBlanks := by
  intro cs
  rcases includeBlanks_cases cs with h | ⟨width, h⟩
  · rw [h]
    trivial
  · rw [h]
    exact ⟨nofun, includeBlanks_spans h⟩

theorem includeArgument_sound : DirectivePhase.Sound includeArgument := by
  intro cs
  rcases includeArgument_cases cs with ⟨width, name, h⟩ | ⟨width, message, h⟩
  · rw [h]
    exact includeArgument_spans.1 h
  · rw [h]
    exact includeArgument_spans.2 h

theorem language_sound : Profile.language.Sound := by
  intro d hd phase hphase
  rw [List.mem_singleton.1 hd] at hphase
  rcases List.mem_cons.1 hphase with rfl | last
  · exact includeBlanks_sound
  · rw [List.mem_singleton.1 last]
    exact includeArgument_sound

namespace Lexer

/-- A lexer with sound directives, also while it is inside one. -/
structure Sound (lx : Lexer) : Prop where
  profile : lx.profile.Sound
  directive : ∀ d, lx.directive = some d → ∀ phase ∈ d.phases, DirectivePhase.Sound phase

def faults (lx : Lexer) : List LexError := lx.errors.filter LexError.isFault

/-- What a turn does to the sources: a mark is read of the one on top, a source that was found is
put on top of it, it is left at its end, or nothing is read. -/
inductive Moves (lx next : Lexer) : Turn → Prop where
  | read {a : Turn} (m : Mark) (marked : a.mark? = some m) (place : m.place = lx.top.location)
      (spans : Spans m.width lx.top.rest) (top : next.top = lx.top.advance m.width)
      (below : next.below = lx.below) (faults : next.faults = lx.faults ++ m.error?.toList) :
      Moves lx next a
  | entered (s : SourceText) (name : String)
      (found : sourceIn lx.resolver name lx.top.name = some s)
      (top : next.top = .start s.name s.text) (below : next.below = lx.top :: lx.below)
      (faults : next.faults = lx.faults) : Moves lx next (.entered s)
  | left (empty : lx.top.rest = []) (stack : lx.below = next.top :: next.below)
      (faults : next.faults = lx.faults) : Moves lx next .left
  | passed (top : next.top = lx.top) (below : next.below = lx.below)
      (faults : next.faults = lx.faults) : Moves lx next .passed
  | ended (empty : lx.top.rest = []) (root : lx.below = []) (same : next = lx) :
      Moves lx next (.made (.endOfFile lx.top.location))

variable {lx : Lexer}

theorem faults_fail (lx : Lexer) (e : LexError) :
    (lx.fail e).faults = lx.faults ++ if e.isFault then [e] else [] := by
  rw [faults, fail, List.filter_append, List.filter_cons]
  rfl

theorem turnPhase_moves (index : Nat) {phases : List DirectivePhase}
    (sound : ∀ phase ∈ phases, DirectivePhase.Sound phase) :
    Moves lx (lx.turnPhase index phases).2 (lx.turnPhase index phases).1 := by
  cases phases with
  | nil => exact .passed rfl rfl rfl
  | cons phase phases =>
    have step := sound phase List.mem_cons_self lx.top.rest
    rw [turnPhase]
    cases found : phase lx.top.rest with
    | pass | finish => exact .passed rfl rfl rfl
    | produce kind width =>
      rw [found] at step
      dsimp only
      split
      · exact .passed rfl rfl rfl
      · exact .read _ (Turn.mark?_made step.1) rfl step.2 rfl rfl (List.append_nil _).symm
    | request width name =>
      rw [found] at step
      have kind : TokenKind.directiveArg ≠ .endOfFile := by decide
      exact .read _ (Turn.mark?_made kind) rfl step rfl rfl (List.append_nil _).symm
    | reject width message =>
      rw [found] at step
      exact .read _ rfl rfl step rfl rfl (faults_fail _ _)

theorem enter_moves (lx : Lexer) (name : String) (place : Location) :
    ((lx.enter name place).top = lx.top ∧ (lx.enter name place).below = lx.below ∨
        ∃ s, sourceIn lx.resolver name lx.top.name = some s ∧
          (lx.enter name place).top = .start s.name s.text ∧
          (lx.enter name place).below = lx.top :: lx.below) ∧
      (lx.enter name place).faults = lx.faults := by
  have source : (lx.search name).source = sourceIn lx.resolver name lx.top.name := by
    rw [search, sourceIn]
    cases lx.resolver <;> rfl
  have refused (lx' : Lexer) (e : LexError) (h : e.isFault = false) :
      (lx'.fail e).faults = lx'.faults := by
    rw [faults_fail, h]
    exact List.append_nil _
  rw [enter]
  split
  · exact ⟨.inl ⟨rfl, rfl⟩, refused _ _ rfl⟩
  · dsimp only
    cases found : (lx.search name).source with
    | none => exact ⟨.inl ⟨rfl, rfl⟩, refused _ _ rfl⟩
    | some s =>
      dsimp only
      split
      · exact ⟨.inl ⟨rfl, rfl⟩, refused _ _ rfl⟩
      · exact ⟨.inr ⟨s, source.symm.trans found, rfl, rfl⟩, rfl⟩

theorem turnRequest_moves {p : String × Location} (asked : lx.pending = some p) :
    Moves lx lx.turnRequest.2 lx.turnRequest.1 := by
  obtain ⟨stack, faults⟩ := enter_moves { lx with pending := none } p.1 p.2
  have entered : lx.enterPending = enter { lx with pending := none } p.1 p.2 := by
    rw [enterPending, asked]
  rw [← entered] at stack faults
  rw [turnRequest]
  dsimp only
  rcases stack with ⟨top, below⟩ | ⟨s, found, top, below⟩
  · rw [if_neg (by rw [below]; exact Nat.lt_irrefl _)]
    exact .passed top below faults
  · rw [if_pos (by rw [below]; exact Nat.lt_succ_self _)]
    have whole :
        SourceText.mk lx.enterPending.top.name (String.ofList lx.enterPending.top.rest) = s := by
      rw [top, Frame.start, String.ofList_toList]
      rfl
    rw [whole]
    exact .entered s p.1 found top below faults

theorem scan_moves (root : lx.top.rest = [] → lx.below = []) :
    Moves lx lx.scan.2 (.made lx.scan.1) := by
  cases rest : lx.top.rest with
  | nil =>
    rw [scan_of_end rest]
    exact .ended rest (root rest) rfl
  | cons c cs =>
    have unmarked (l : Lexeme) : (lx.top.wrongWith l).filter LexError.isFault = [] := by
      rw [Frame.wrongWith]
      split <;> rfl
    rw [scan_of_lexeme rest]
    refine .read _ (Turn.mark?_made (Lexeme.scan_kind_ne_endOfFile c cs)) rfl ?_ rfl rfl ?_
    · rw [rest]
      exact Lexeme.spans_scan lx.profile c cs
    · rw [faults, behind, List.filter_append, unmarked]
      rfl

theorem Sound.moves (h : lx.Sound) : Moves lx lx.turn.2 lx.turn.1 := by
  cases lx.meets with
  | directive d under turned =>
    rw [turned]
    exact turnPhase_moves d.index (h.directive d under)
  | request p through asked turned =>
    rw [turned]
    exact turnRequest_moves asked
  | exhausted f below through idle empty stack turned =>
    rw [turned]
    exact .left empty stack rfl
  | lexeme through idle root turned =>
    rw [turned]
    exact scan_moves root

/-! ### Soundness is kept -/

/-- A turn leaves the profile and the resolver. -/
def SameSetup (lx next : Lexer) : Prop := next.profile = lx.profile ∧ next.resolver = lx.resolver

theorem enter_setup (lx : Lexer) (name : String) (place : Location) :
    SameSetup lx (lx.enter name place) := by
  rw [enter]
  split
  · exact ⟨rfl, rfl⟩
  · dsimp only
    split
    · exact ⟨rfl, rfl⟩
    · split <;> exact ⟨rfl, rfl⟩

/-- A phase leaves the setup, and no phases of the directive but those behind it. -/
theorem turnPhase_setup (lx : Lexer) (index : Nat) (phases : List DirectivePhase) :
    SameSetup lx (lx.turnPhase index phases).2 ∧
      ∀ d, (lx.turnPhase index phases).2.directive = some d → d.phases = phases.tail := by
  have ended (left : List DirectivePhase) :
      ∀ d, (none : Option ActiveDirective) = some d → d.phases = left := by
    rintro d ⟨⟩
  cases phases with
  | nil => exact ⟨⟨rfl, rfl⟩, ended _⟩
  | cons phase phases =>
    have behind : ∀ d, some (ActiveDirective.mk index phases) = some d → d.phases = phases :=
      fun d h => (Option.some.inj h) ▸ rfl
    rw [turnPhase]
    cases phase lx.top.rest with
    | pass => exact ⟨⟨rfl, rfl⟩, behind⟩
    | finish => exact ⟨⟨rfl, rfl⟩, ended _⟩
    | produce kind width =>
      dsimp only
      split
      · exact ⟨⟨rfl, rfl⟩, ended _⟩
      · exact ⟨⟨rfl, rfl⟩, behind⟩
    | request width name => exact ⟨⟨rfl, rfl⟩, behind⟩
    | reject width message =>
      refine ⟨⟨rfl, rfl⟩, ?_⟩
      dsimp only
      split
      · exact ended _
      · exact behind

theorem turn_setup (lx : Lexer) : SameSetup lx lx.turn.2 := by
  cases lx.meets with
  | directive d under turned =>
    rw [turned]
    exact (turnPhase_setup lx d.index d.phases).1
  | request p through asked turned =>
    rw [turned, turnRequest]
    dsimp only
    rw [enterPending, asked]
    exact enter_setup { lx with pending := none } p.1 p.2
  | exhausted f below through idle empty stack turned =>
    rw [turned]
    exact ⟨rfl, rfl⟩
  | lexeme through idle root turned =>
    rw [turned]
    cases rest : lx.top.rest with
    | nil =>
      rw [scan_of_end rest]
      exact ⟨rfl, rfl⟩
    | cons c cs =>
      rw [scan_of_lexeme rest]
      exact ⟨rfl, rfl⟩

theorem Sound.turn (h : lx.Sound) : lx.turn.2.Sound where
  profile := by
    rw [lx.turn_setup.1]
    exact h.profile
  directive := by
    intro d next phase hphase
    cases lx.meets with
    | directive d' under turned =>
      rw [turned] at next
      rw [(turnPhase_setup lx d'.index d'.phases).2 d next] at hphase
      exact h.directive d' under phase (List.mem_of_mem_tail hphase)
    | request p through asked turned =>
      rw [turned, turnRequest] at next
      cases (enterPending_idle through asked).1.symm.trans next
    | exhausted f below through idle empty stack turned =>
      rw [turned] at next
      cases through.symm.trans next
    | lexeme through idle root turned =>
      rw [turned] at next
      cases rest : lx.top.rest with
      | nil =>
        rw [scan_of_end rest] at next
        cases through.symm.trans next
      | cons c cs =>
        rw [scan_of_lexeme rest, behind] at next
        dsimp only at next
        split at next
        · next begins =>
          obtain ⟨known, hknown, phases⟩ := (Lexeme.ordinary_scan c cs).2 begins
          obtain rfl := Option.some.inj next
          exact h.profile known hknown phase (phases ▸ hphase)
        · cases through.symm.trans next

end Lexer

/-! ### The journal keeps up -/

namespace Journal

/-- What has been read of a source, up to a frame of it, is covered by its marks. -/
def Follows (j : Journal) (k : Nat) (f : Frame) : Prop :=
  ∃ s front, j.entered[k]? = some s ∧ s.text.toList = front ++ f.rest ∧
    f.location = placeAfter s.name front ∧ Tiles s.name front (j.marksOf k)

/-- The journal of a lexer: the marks of the sources being read cover what has been read of them,
and those of the other sources everything. -/
structure Keeps (j : Journal) (lx : Lexer) : Prop where
  fresh : j.reading.Pairwise (· > ·)
  upTo : List.Forall₂ j.Follows j.reading (lx.top :: lx.below)
  closed : ∀ k s, j.entered[k]? = some s → k ∉ j.reading → Tiles s.name s.text.toList (j.marksOf k)
  known : ∀ m ∈ j.marks, m.1 < j.entered.length

variable {j : Journal} {lx next : Lexer}

theorem marksOf_append (j : Journal) (k k' : Nat) (m : Mark) :
    marksOf { j with marks := j.marks ++ [(k, m)] } k' =
      j.marksOf k' ++ if k = k' then [m] else [] := by
  rw [marksOf, List.filter_append, List.map_append, List.filter_cons]
  by_cases same : k = k'
  · rw [if_pos same, if_pos (by simpa using same)]
    rfl
  · rw [if_neg same, if_neg (by simpa using same)]
    rfl

/-- No mark is of a source that is yet to be entered. -/
theorem Keeps.marksOf_new (h : j.Keeps lx) : j.marksOf j.entered.length = [] := by
  rw [marksOf, List.map_eq_nil_iff, List.filter_eq_nil_iff]
  intro m hm
  have old := h.known m hm
  simpa using Nat.ne_of_lt old

theorem Follows.lt {k : Nat} {f : Frame} (h : j.Follows k f) : k < j.entered.length := by
  obtain ⟨s, front, source, -⟩ := h
  exact (List.getElem?_eq_some_iff.1 source).1

theorem note_of_mark {a : Turn} {m : Mark} (marked : a.mark? = some m) : j.note a = j.mark m := by
  cases a with
  | made t | faulted message place width => exact congrArg (·.elim j j.mark) marked
  | entered s | left | passed => cases marked

/-- A mark of the source on top takes it on, and is none of another source. -/
theorem Follows.read {k : Nat} {f : Frame} {m : Mark} (h : j.Follows k f)
    (place : m.place = f.location) (spans : Spans m.width f.rest) :
    Follows { j with marks := j.marks ++ [(k, m)] } k (f.advance m.width) := by
  obtain ⟨s, front, source, text, location, tiles⟩ := h
  obtain ⟨inside, ⟨behind, whole⟩, width⟩ := spans
  have split : splitBytes m.width f.rest = (inside, behind) := by
    rw [width, ← whole, splitBytes_byteLength]
  refine ⟨s, front ++ inside, source, ?_, ?_, ?_⟩
  · change _ = front ++ inside ++ (splitBytes m.width f.rest).2
    rw [split, text, ← whole, List.append_assoc]
  · change Frame.locationAfter f.location (splitBytes m.width f.rest).1 = _
    rw [split, location, locationAfter_placeAfter]
  · rw [marksOf_append, if_pos rfl]
    exact tiles.snoc (place.trans location) width

theorem Follows.of_ne {k k' : Nat} {f : Frame} (h : j.Follows k' f) (other : k' < k) (m : Mark) :
    Follows { j with marks := j.marks ++ [(k, m)] } k' f := by
  obtain ⟨s, front, source, text, location, tiles⟩ := h
  refine ⟨s, front, source, text, location, ?_⟩
  rw [marksOf_append, if_neg (Nat.ne_of_gt other), List.append_nil]
  exact tiles

theorem Follows.enter {k : Nat} {f : Frame} (h : j.Follows k f) (s : SourceText)
    (reading : List Nat) :
    Follows { j with entered := j.entered ++ [s], reading } k f := by
  have old := h.lt
  obtain ⟨source, front, here, text, location, tiles⟩ := h
  exact ⟨source, front, (List.getElem?_append_left old).trans here, text, location, tiles⟩

/-- At its end a source is covered. -/
theorem Follows.tiles {k : Nat} {f : Frame} (h : j.Follows k f) (empty : f.rest = [])
    {s : SourceText} (source : j.entered[k]? = some s) :
    Tiles s.name s.text.toList (j.marksOf k) := by
  obtain ⟨s', front, here, text, -, tiles⟩ := h
  obtain rfl := Option.some.inj (source.symm.trans here)
  rw [text, empty, List.append_nil]
  exact tiles

/-- The source on top, and those below it. -/
theorem Keeps.top (h : j.Keeps lx) : ∃ k ks, j.reading = k :: ks ∧ j.Follows k lx.top ∧
    List.Forall₂ j.Follows ks lx.below ∧ (∀ k' ∈ ks, k' < k) ∧ ks.Pairwise (· > ·) := by
  have fresh := h.fresh
  have upTo := h.upTo
  cases reading : j.reading with
  | nil =>
    rw [reading] at upTo
    cases upTo
  | cons k ks =>
    rw [reading] at upTo fresh
    obtain ⟨top, below⟩ := List.forall₂_cons.1 upTo
    obtain ⟨under, fresh⟩ := List.pairwise_cons.1 fresh
    exact ⟨k, ks, rfl, top, below, under, fresh⟩

theorem Keeps.mark {m : Mark} (h : j.Keeps lx) (place : m.place = lx.top.location)
    (spans : Spans m.width lx.top.rest) (top' : next.top = lx.top.advance m.width)
    (below' : next.below = lx.below) : (j.mark m).Keeps next := by
  obtain ⟨k, ks, reading, top, below, under, -⟩ := h.top
  have current : j.mark m = { j with marks := j.marks ++ [(k, m)] } := by
    rw [Journal.mark, reading]
    rfl
  rw [current]
  refine ⟨h.fresh, ?_, ?_, ?_⟩
  · change List.Forall₂ _ j.reading _
    rw [top', below', reading]
    refine .cons (top.read place spans) ?_
    exact ((List.forall₂_and_left _ _).2 ⟨under, below⟩).imp fun _ _ both => both.2.of_ne both.1 m
  · intro k' s source done
    have other : k ≠ k' := by
      rintro rfl
      exact done (reading.symm ▸ List.mem_cons_self)
    rw [marksOf_append, if_neg other, List.append_nil]
    exact h.closed k' s source done
  · intro m' hm'
    rcases List.mem_append.1 hm' with old | new
    · exact h.known m' old
    · rw [List.mem_singleton.1 new]
      exact top.lt

theorem Keeps.enter {s : SourceText} (h : j.Keeps lx) (top : next.top = .start s.name s.text)
    (below : next.below = lx.top :: lx.below) : (j.note (.entered s)).Keeps next := by
  have older : ∀ k ∈ j.reading, k < j.entered.length := by
    intro k hk
    obtain ⟨top, tops, reading, first, others, under, -⟩ := h.top
    rw [reading] at hk
    rcases List.mem_cons.1 hk with rfl | lower
    · exact first.lt
    · exact Nat.lt_trans (under k lower) first.lt
  refine ⟨List.pairwise_cons.2 ⟨older, h.fresh⟩, ?_, ?_, ?_⟩
  · rw [top, below]
    refine .cons ⟨s, [], List.getElem?_concat_length, rfl, rfl, ?_⟩
      (h.upTo.imp fun _ _ follows => follows.enter s _)
    change Tiles s.name [] (j.marksOf j.entered.length)
    rw [h.marksOf_new]
    exact tiles_nil s.name
  · intro k s' source done
    have old : k < j.entered.length := by
      have bound := (List.getElem?_eq_some_iff.1 source).1
      rw [note, List.length_append, List.length_singleton] at bound
      have new : k ≠ j.entered.length := fun same => done (same ▸ List.mem_cons_self)
      omega
    exact h.closed k s' ((List.getElem?_append_left old).symm.trans source)
      fun reading => done (List.mem_cons_of_mem _ reading)
  · intro m hm
    rw [note, List.length_append]
    exact Nat.lt_succ_of_lt (h.known m hm)

theorem Keeps.leave (h : j.Keeps lx) (empty : lx.top.rest = [])
    (stack : lx.below = next.top :: next.below) : (j.note .left).Keeps next := by
  obtain ⟨k, ks, reading, top, below, -, fresh⟩ := h.top
  have rest : (j.note .left).reading = ks := by rw [note, reading, List.tail_cons]
  refine ⟨rest.symm ▸ fresh, ?_, ?_, h.known⟩
  · rw [rest, ← stack]
    exact below
  · intro k' s source done
    by_cases here : k' = k
    · subst here
      exact top.tiles empty source
    · rw [rest] at done
      exact h.closed k' s source
        (reading.symm ▸ List.not_mem_cons_of_ne_of_not_mem here done)

/-- The journal is kept up by noting what each turn does. -/
theorem Keeps.note {a : Turn} (h : j.Keeps lx) (moves : Lexer.Moves lx next a) :
    (j.note a).Keeps next := by
  cases moves with
  | read m marked place spans top below =>
    rw [note_of_mark marked]
    exact h.mark place spans top below
  | entered s name found top below => exact h.enter top below
  | left empty stack => exact h.leave empty stack
  | passed top below => exact { h with upTo := by rw [top, below]; exact h.upTo }
  | ended empty root same =>
    rw [same]
    exact h

/-- The whole account of a lexer that began with the source `s`: the journal keeps up with it, the
other sources were found, and the errors of directives are those marked. -/
structure Recounts (r : Option Resolver) (s : SourceText) (j : Journal) (lx : Lexer) : Prop
    extends j.Keeps lx where
  sound : lx.Sound
  resolver : lx.resolver = r
  root : j.reading.getLast? = some 0
  found : ∃ others, j.entered = s :: others ∧
    ∀ o ∈ others, ∃ name including, Lexer.sourceIn r name including = some o
  faults : lx.faults = (j.marks.map Prod.snd).filterMap Mark.error?

variable {r : Option Resolver} {s : SourceText}

theorem recounts_start (r : Option Resolver) (options : LexerOptions) (s : SourceText) :
    Recounts r s { entered := [s] } (Lexer.toRead r options s) where
  fresh := List.pairwise_singleton _ _
  upTo := .cons ⟨s, [], rfl, rfl, rfl, tiles_nil s.name⟩ .nil
  closed := by
    intro k source entered done
    obtain ⟨bound, -⟩ := List.getElem?_eq_some_iff.1 entered
    exact absurd (List.mem_singleton.2 (Nat.lt_one_iff.1 bound)) done
  known := nofun
  sound := ⟨language_sound, nofun⟩
  resolver := rfl
  root := rfl
  found := ⟨[], rfl, nofun⟩
  faults := rfl

theorem map_marks (j : Journal) (m : Mark) :
    (j.mark m).marks.map Prod.snd = j.marks.map Prod.snd ++ [m] := by
  rw [Journal.mark, List.map_append]
  rfl

/-- The root stays at the bottom, and what a turn enters was found. -/
theorem Recounts.moves {a : Turn} (h : Recounts r s j lx) (moves : Lexer.Moves lx next a) :
    (j.note a).reading.getLast? = some 0 ∧
      (∃ others, (j.note a).entered = s :: others ∧
        ∀ o ∈ others, ∃ name including, Lexer.sourceIn r name including = some o) ∧
      next.faults = ((j.note a).marks.map Prod.snd).filterMap Mark.error? := by
  have bottom := h.root
  obtain ⟨others, entered, found⟩ := h.found
  obtain ⟨k, ks, reading, top, below, -⟩ := h.toKeeps.top
  cases moves with
  | read m marked place spans top' below' faults =>
    rw [note_of_mark marked]
    refine ⟨bottom, ⟨others, entered, found⟩, ?_⟩
    rw [faults, h.faults, map_marks, List.filterMap_append]
    cases m <;> rfl
  | entered source name here top' below' faults =>
    refine ⟨?_, ⟨others ++ [source], ?_, ?_⟩, faults.trans h.faults⟩
    · rw [note, List.getLast?_cons, bottom]
      rfl
    · rw [note, entered, List.cons_append]
    · intro o ho
      rcases List.mem_append.1 ho with old | new
      · exact found o old
      · rw [List.mem_singleton.1 new]
        exact ⟨name, lx.top.name, h.resolver ▸ here⟩
  | left empty stack faults =>
    refine ⟨?_, ⟨others, entered, found⟩, faults.trans h.faults⟩
    rw [stack] at below
    obtain ⟨k', ks', -, -, rfl⟩ := List.forall₂_cons_right_iff.1 below
    rw [note, reading, List.tail_cons]
    rw [reading, List.getLast?_cons_cons] at bottom
    exact bottom
  | passed top' below' faults => exact ⟨bottom, ⟨others, entered, found⟩, faults.trans h.faults⟩
  | ended empty root same =>
    rw [same]
    exact ⟨bottom, ⟨others, entered, found⟩, h.faults⟩

theorem Recounts.turn (h : Recounts r s j lx) : Recounts r s (j.note lx.turn.1) lx.turn.2 := by
  have moves := h.sound.moves
  obtain ⟨root, found, faults⟩ := h.moves moves
  exact { h.toKeeps.note moves with
    sound := h.sound.turn
    resolver := lx.turn_setup.2.trans h.resolver
    root, found, faults }

theorem Recounts.after (h : Recounts r s j lx) (n : Nat) :
    Recounts r s ((lx.turns n).foldl note j) (lx.after n) := by
  induction n generalizing j lx with
  | zero => exact h
  | succ n ih => exact ih h.turn

/-- What is marked is what the turns read. -/
theorem marks_foldl (as : List Turn) (j : Journal) :
    (as.foldl note j).marks.map Prod.snd = j.marks.map Prod.snd ++ as.filterMap Turn.mark? := by
  induction as generalizing j with
  | nil => exact (List.append_nil _).symm
  | cons a as ih =>
    have one : (j.note a).marks.map Prod.snd = j.marks.map Prod.snd ++ a.mark?.toList := by
      cases marked : a.mark? with
      | some m => rw [note_of_mark marked, map_marks]; rfl
      | none =>
        rw [Option.toList_none, List.append_nil]
        cases a with
        | made t =>
          exact congrArg (fun m : Option Mark => (m.elim j j.mark).marks.map Prod.snd) marked
        | entered s | left | passed => rfl
        | faulted message place width => cases marked
    rw [List.foldl_cons, ih, one, List.append_assoc, List.filterMap_cons]
    cases a.mark? <;> rfl

/-- When no end of file is made, the marked tokens are all that are made. -/
theorem tokens_marked {as : List Turn}
    (inside : ∀ t ∈ as.filterMap Turn.token?, t.kind ≠ .endOfFile) :
    (as.filterMap Turn.mark?).filterMap Mark.token? = as.filterMap Turn.token? := by
  rw [List.filterMap_filterMap]
  refine List.filterMap_congr fun a ha => ?_
  cases a with
  | made t => rw [Turn.mark?_made (inside t (List.mem_filterMap.2 ⟨_, ha, rfl⟩))]; rfl
  | faulted message place width | entered s | left | passed => rfl

/-- When the end of file is made, all sources have been read to their ends. -/
theorem Recounts.ended {e : Token} {last : Lexer} (h : Recounts r s j lx)
    (turned : lx.turn = (.made e, last)) (ended : e.kind = .endOfFile) :
    last = lx ∧ e = .endOfFile (placeAfter s.name s.text.toList) ∧
      ∀ k source, j.entered[k]? = some source →
        Tiles source.name source.text.toList (j.marksOf k) := by
  have moves := h.sound.moves
  rw [turned] at moves
  obtain ⟨k, ks, reading, top, below, -⟩ := h.toKeeps.top
  cases moves with
  | read m marked => cases (if_pos ended).symm.trans marked
  | ended empty root same =>
    rw [root] at below
    cases below
    have bottom := h.root
    rw [reading] at bottom
    obtain rfl : k = 0 := Option.some.inj bottom
    obtain ⟨others, entered, -⟩ := h.found
    obtain ⟨s', front, here, text, location, tiles⟩ := id top
    obtain rfl : s = s' := by
      rw [entered] at here
      exact Option.some.inj here
    rw [empty, List.append_nil] at text
    refine ⟨same, by rw [location, text], ?_⟩
    intro k source found
    by_cases isRoot : k = 0
    · subst isRoot
      exact top.tiles empty found
    · refine h.closed k source found ?_
      rw [reading]
      exact mt List.mem_singleton.1 isRoot

end Journal

/-- With blanks, comments and directives given out, everything that is read belongs to a source that
was entered, the root or one that was found for an include; and the tokens of each source and the
stretches that its directives skipped with an error tile its text. -/
theorem tokens_tile (r : Option Resolver) (limit : Nat) (s : SourceText) :
    let lx := Lexer.toRead r
      { whitespace := true, comments := true, directives := true, maxIncludeDepth := limit } s
    ∃ n, let j := Journal.of s (lx.turns n)
      lx.tokenize.1 = (j.marks.map Prod.snd).filterMap Mark.token? ++
          [.endOfFile (placeAfter s.name s.text.toList)] ∧
      lx.tokenize.2.filter LexError.isFault = (j.marks.map Prod.snd).filterMap Mark.error? ∧
      (∃ others, j.entered = s :: others ∧
        ∀ o ∈ others, ∃ name including, Lexer.sourceIn r name including = some o) ∧
      (∀ m ∈ j.marks, m.1 < j.entered.length) ∧
      ∀ k source, j.entered[k]? = some source →
        Tiles source.name source.text.toList (j.marksOf k) := by
  intro lx
  obtain ⟨n, e, last, ends, ended, inside, whole⟩ := lx.tokenize_eq_turns
  have account : Journal.Recounts r s (Journal.of s (lx.turns n)) (lx.after n) :=
    (Journal.recounts_start r _ s).after n
  obtain ⟨same, rfl, tiles⟩ := account.ended ends ended
  have marks : (Journal.of s (lx.turns n)).marks.map Prod.snd = (lx.turns n).filterMap Turn.mark? :=
    Journal.marks_foldl _ _
  have all : ∀ t, lx.options.keeps t = true := fun t => by cases t <;> rfl
  refine ⟨n, ?_, ?_, account.found, account.known, tiles⟩
  · rw [whole, marks, Journal.tokens_marked inside, List.filter_eq_self.2 fun t _ => all t.kind]
    rfl
  · rw [whole, same]
    exact account.faults

end ScriptLang
