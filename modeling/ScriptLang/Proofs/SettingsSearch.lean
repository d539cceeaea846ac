import Mathlib.Data.List.Infix
import Mathlib.Data.List.TakeWhile
import ScriptLang.Config.File

/-!
# The search for settings

The search cuts components off the path that it is given.  As long as names are left that leads up, a
directory at a time; but a path ends where it begins, a relative one in the working directory, and what
is cut off as a name need not be one: behind `..` the search goes down again.  So what is found is the
settings at the end of the longest part of the names that leads to any (`findAbove_answers`), and this
is the nearest file in the directories above only for paths without `..`, and only as far up as the
directory that the path is read from (`nearest_settings`).
-/

namespace ScriptLang

namespace Path

variable {path q : String} {cs xs ys : List Char}

/-! ### Names -/

/-- The components of a text that say something. -/
def namesOf (cs : List Char) : List (List Char) := (pieces cs).filter fun piece => !isIdle piece

/-- The components of a path that say something. -/
def names (path : String) : List String := (namesOf path.toList).map String.ofList

theorem isIdle_iff {piece : List Char} :
    isIdle piece = true ↔ String.ofList piece = "" ∨ String.ofList piece = "." := by
  rw [isIdle, Bool.or_eq_true, List.isEmpty_iff, beq_iff_eq, ← String.toList_inj, ← String.toList_inj,
    String.toList_ofList]
  rfl

theorem not_idle_of_mem_names {name : String} (mem : name ∈ names path) : name ≠ "" ∧ name ≠ "." := by
  obtain ⟨piece, kept, rfl⟩ := List.mem_map.1 mem
  have told := (List.mem_filter.1 kept).2
  rw [← not_or, ← isIdle_iff, Bool.not_eq_true, ← Bool.not_eq_true']
  exact told

theorem pieces_eq_splitOn : ∀ cs : List Char, pieces cs = cs.splitOn '/'
  | [] => rfl
  | c :: cs => by
    rw [pieces, pieces_eq_splitOn cs, List.splitOn_cons_eq_if_modifyHead]
    by_cases slash : c = '/'
    · rw [if_pos slash, if_pos (by rw [slash, beq_self_eq_true])]
    · rw [if_neg slash, if_neg (by rwa [beq_iff_eq])]
      cases found : cs.splitOn '/' with
      | nil => exact absurd found (List.splitOn_ne_nil _ _)
      | cons p ps => rfl

theorem pieces_ne_nil (cs : List Char) : pieces cs ≠ [] := by
  rw [pieces_eq_splitOn]
  exact List.splitOn_ne_nil _ _

theorem intercalate_pieces (cs : List Char) : [('/' : Char)].intercalate (pieces cs) = cs := by
  rw [pieces_eq_splitOn, List.intercalate_splitOn]

theorem pieces_append_slash (xs ys : List Char) :
    pieces (xs ++ '/' :: ys) = pieces xs ++ pieces ys := by
  simp only [pieces_eq_splitOn, List.splitOn_append_cons_self]

theorem slash_not_mem_of_mem_pieces : ∀ {cs piece : List Char}, piece ∈ pieces cs → '/' ∉ piece
  | [], piece, mem => by
    rw [List.mem_singleton.1 mem]
    exact List.not_mem_nil
  | c :: cs, piece, mem => by
    rw [pieces] at mem
    split at mem
    · obtain rfl | mem := List.mem_cons.1 mem
      · exact List.not_mem_nil
      · exact slash_not_mem_of_mem_pieces mem
    · next other =>
      split at mem
      · rw [List.mem_singleton.1 mem, List.mem_singleton]
        exact Ne.symm other
      · next p ps found =>
        obtain rfl | mem := List.mem_cons.1 mem
        · rw [List.mem_cons, not_or]
          exact ⟨Ne.symm other, slash_not_mem_of_mem_pieces (by rw [found]; exact List.mem_cons_self)⟩
        · exact slash_not_mem_of_mem_pieces (by rw [found]; exact List.mem_cons_of_mem _ mem)

theorem namesOf_append_slash (xs ys : List Char) :
    namesOf (xs ++ '/' :: ys) = namesOf xs ++ namesOf ys := by
  rw [namesOf, pieces_append_slash, List.filter_append]
  rfl

theorem namesOf_slash (ys : List Char) : namesOf ('/' :: ys) = namesOf ys :=
  namesOf_append_slash [] ys

theorem namesOf_dot_slash (ys : List Char) : namesOf ('.' :: '/' :: ys) = namesOf ('/' :: ys) := by
  rw [namesOf_slash, ← List.singleton_append, namesOf_append_slash]
  rfl

/-- The root or the `.` that a path begins with is not among its names. -/
theorem namesOf_splitStart (cs : List Char) : namesOf (splitStart cs).2 = namesOf cs := by
  unfold splitStart
  split
  · rw [namesOf_slash]
  · rfl
  · rw [namesOf_dot_slash]
  · rfl

theorem start_append_body (cs : List Char) : (splitStart cs).1 ++ (splitStart cs).2 = cs := by
  unfold splitStart
  split <;> rfl

theorem splitStart_cases (cs : List Char) : (splitStart cs).1 = [] ∨ (splitStart cs).1 = ['/'] ∨
    (splitStart cs).1 = ['.'] ∧ ∃ ps, pieces (splitStart cs).2 = [] :: ps := by
  unfold splitStart
  split
  · exact .inr (.inl rfl)
  · exact .inr (.inr ⟨rfl, [], rfl⟩)
  · exact .inr (.inr ⟨rfl, _, pieces_append_slash [] _⟩)
  · exact .inl rfl

theorem namesOf_intercalate {kept : List (List Char)} (free : ∀ piece ∈ kept, '/' ∉ piece) :
    namesOf ([('/' : Char)].intercalate kept) = kept.filter fun piece => !isIdle piece := by
  by_cases empty : kept = []
  · rw [empty]
    rfl
  · rw [namesOf, pieces_eq_splitOn, List.splitOn_intercalate _ free empty]

/-- Components put back together behind the start of the path that they were cut from. -/
theorem namesOf_start_append {kept more : List (List Char)}
    (cut : pieces (splitStart cs).2 = kept ++ more) :
    namesOf ((splitStart cs).1 ++ [('/' : Char)].intercalate kept) =
      kept.filter fun piece => !isIdle piece := by
  have own : namesOf ([('/' : Char)].intercalate kept) = kept.filter fun piece => !isIdle piece :=
    namesOf_intercalate fun piece mem =>
      slash_not_mem_of_mem_pieces (by rw [cut]; exact List.mem_append_left _ mem)
  obtain start | start | ⟨start, ps, first⟩ := splitStart_cases cs
  · rw [start, List.nil_append, own]
  · rw [start, List.singleton_append, namesOf_slash, own]
  · rw [start]
    rw [first] at cut
    cases kept with
    | nil => rfl
    | cons piece kept =>
      obtain rfl : [] = piece := (List.cons_eq_cons.1 cut).1
      cases kept with
      | nil => rfl
      | cons piece kept =>
        rw [← own, List.intercalate_cons_cons, List.nil_append]
        exact namesOf_dot_slash _

/-! ### The path above -/

theorem filter_takeWhile_isIdle (ps : List (List Char)) :
    ((ps.takeWhile isIdle).reverse.filter fun piece => !isIdle piece) = [] := by
  rw [List.filter_eq_nil_iff]
  intro piece mem
  rw [List.mem_takeWhile_imp (List.mem_reverse.1 mem)]
  exact Bool.false_ne_true

/-- What cutting off the last component leaves. -/
theorem exists_of_parent? (h : parent? path = some q) :
    (q = "" ∧ (splitStart path.toList).1 = ['.'] ∧ namesOf path.toList = []) ∨
    ∃ kept more name, pieces (splitStart path.toList).2 = kept ++ more ∧
      (more.filter fun piece => !isIdle piece) = [name] ∧
      q.toList = (splitStart path.toList).1 ++ [('/' : Char)].intercalate kept := by
  have cutLast (ps : List (List Char)) : ps = (dropIdle ps.reverse).reverse ++
      (ps.reverse.takeWhile isIdle).reverse := by
    rw [dropIdle, ← List.reverse_append, List.takeWhile_append_dropWhile, List.reverse_reverse]
  simp only [parent?] at h
  generalize hps : pieces (splitStart path.toList).2 = ps at h
  split at h
  · next name rest found =>
    right
    have told : isIdle name = false := by
      have := List.head?_dropWhile_not isIdle ps.reverse
      rw [show ps.reverse.dropWhile isIdle = name :: rest from found] at this
      exact this
    refine ⟨(dropIdle rest).reverse, (rest.takeWhile isIdle).reverse ++
      [name] ++ (ps.reverse.takeWhile isIdle).reverse, name, ?_, ?_, ?_⟩
    · calc ps = (name :: rest).reverse ++ (ps.reverse.takeWhile isIdle).reverse := by
            rw [← found]
            exact cutLast ps
        _ = (rest.reverse ++ [name]) ++ (ps.reverse.takeWhile isIdle).reverse := by
            rw [List.reverse_cons]
        _ = ((dropIdle rest).reverse ++ (rest.takeWhile isIdle).reverse ++ [name]) ++
              (ps.reverse.takeWhile isIdle).reverse := by
            conv_lhs => rw [cutLast rest.reverse, List.reverse_reverse]
        _ = _ := by simp only [List.append_assoc]
    · rw [List.filter_append, List.filter_append, filter_takeWhile_isIdle, filter_takeWhile_isIdle,
        List.filter_singleton, told]
      rfl
    · rw [← Option.some.inj h, String.toList_ofList]
      rfl
  · next found =>
    left
    split at h
    · next dot =>
      refine ⟨(Option.some.inj h).symm, dot, ?_⟩
      rw [← namesOf_splitStart, namesOf, hps, cutLast ps, found, List.reverse_nil, List.nil_append,
        filter_takeWhile_isIdle]
    · cases h

theorem names_parent? (h : parent? path = some q) : names q = (names path).dropLast := by
  obtain ⟨rfl, -, empty⟩ | ⟨kept, more, name, cut, one, text⟩ := exists_of_parent? h
  · rw [names, names, empty]
    rfl
  · rw [names, names, ← List.map_dropLast, text, namesOf_start_append cut, ← namesOf_splitStart path.toList,
      namesOf, cut, List.filter_append, one, List.dropLast_concat]

theorem names_eq_nil (h : parent? path = none) : names path = [] := by
  simp only [parent?] at h
  split at h
  · cases h
  · next found =>
    have idle : ∀ piece ∈ pieces (splitStart path.toList).2, isIdle piece = true := by
      intro piece mem
      exact List.dropWhile_eq_nil_iff.1 found piece (List.mem_reverse.2 mem)
    rw [names, ← namesOf_splitStart, namesOf, List.filter_eq_nil_iff.2, List.map_nil]
    intro piece mem
    rw [idle piece mem]
    exact Bool.false_ne_true

theorem intercalate_isPrefix (kept more : List (List Char)) :
    [('/' : Char)].intercalate kept <+: [('/' : Char)].intercalate (kept ++ more) := by
  induction kept with
  | nil => exact List.nil_prefix
  | cons piece kept ih =>
    cases kept with
    | nil =>
      cases more with
      | nil => exact List.prefix_rfl
      | cons next more =>
        rw [List.singleton_append, List.intercalate_cons_cons, List.append_assoc,
          List.intercalate_singleton]
        exact List.prefix_append _ _
    | cons next kept =>
      rw [List.cons_append, List.cons_append, List.intercalate_cons_cons, List.intercalate_cons_cons]
      exact (List.prefix_append_right_inj _).2 ih

/-- What is left is the beginning of the path. -/
theorem parent?_isPrefix (h : parent? path = some q) : q.toList <+: path.toList := by
  obtain ⟨rfl, -, -⟩ | ⟨kept, more, name, cut, -, text⟩ := exists_of_parent? h
  · exact List.nil_prefix
  · have longer := (List.prefix_append_right_inj (splitStart path.toList).1).2
      (intercalate_isPrefix kept more)
    rwa [← cut, intercalate_pieces, start_append_body, ← text] at longer

theorem splitStart_of_isAbsolute (h : isAbsolute path = true) : (splitStart path.toList).1 = ['/'] := by
  rw [isAbsolute, beq_iff_eq] at h
  cases text : path.toList with
  | nil => rw [text] at h; cases h
  | cons c cs =>
    rw [text, List.head?_cons, Option.some.injEq] at h
    rw [h]
    rfl

theorem isAbsolute_of_isPrefix (h : q.toList <+: path.toList) (absolute : isAbsolute q = true) :
    isAbsolute path = true := by
  rw [isAbsolute, beq_iff_eq] at absolute ⊢
  obtain ⟨more, whole⟩ := h
  rw [← whole, List.head?_append, absolute]
  rfl

theorem isAbsolute_parent? (h : parent? path = some q) : isAbsolute q = isAbsolute path := by
  rw [Bool.eq_iff_iff]
  refine ⟨isAbsolute_of_isPrefix (parent?_isPrefix h), fun absolute => ?_⟩
  have start := splitStart_of_isAbsolute absolute
  obtain ⟨-, dot, -⟩ | ⟨kept, more, name, -, -, text⟩ := exists_of_parent? h
  · rw [start] at dot
    cases dot
  · rw [isAbsolute, text, start]
    rfl

theorem length_parent?_lt (h : parent? path = some q) : q.length < path.length := by
  rw [← String.length_toList, ← String.length_toList]
  refine Nat.lt_of_le_of_ne (parent?_isPrefix h).length_le fun same => ?_
  have eq : q.toList = path.toList := (parent?_isPrefix h).eq_of_length same
  obtain ⟨rfl, dot, -⟩ | ⟨kept, more, name, cut, one, text⟩ := exists_of_parent? h
  · rw [← eq] at dot
    cases dot
  · have fewer := namesOf_start_append cut
    rw [← text, eq, ← namesOf_splitStart, namesOf, cut, List.filter_append, one] at fewer
    exact List.cons_ne_nil _ _ (List.append_right_eq_self.1 fewer)

/-- The text of a path that is read from a directory. -/
theorem toList_join (dir : String) {file : String} (relative : isAbsolute file = false) :
    (dir = "" ∧ join dir file = file) ∨
    (∃ before, dir.toList = before ++ ['/'] ∧ (join dir file).toList = before ++ '/' :: file.toList) ∨
    dir ≠ "" ∧ (join dir file).toList = dir.toList ++ '/' :: file.toList := by
  simp only [join, relative, Bool.false_or, String.isEmpty_iff]
  split
  · next empty => exact .inl ⟨empty, rfl⟩
  · next some =>
    split
    · next slash =>
      obtain ⟨before, text⟩ := List.getLast?_eq_some_iff.1 slash
      exact .inr (.inl ⟨before, text, by rw [String.toList_append, text, List.append_assoc]; rfl⟩)
    · exact .inr (.inr ⟨some, by rw [String.toList_append, String.toList_append, List.append_assoc]; rfl⟩)

theorem exists_pieces_join (dir : String) {file : String} (relative : isAbsolute file = false)
    (one : pieces file.toList = [file.toList]) :
    ∃ ps, pieces (join dir file).toList = ps ++ [file.toList] ∧
      (ps.filter fun piece => !isIdle piece) = namesOf dir.toList := by
  obtain ⟨rfl, same⟩ | ⟨before, ends, text⟩ | ⟨-, text⟩ := toList_join dir relative
  · exact ⟨[], by rw [same, one]; rfl, rfl⟩
  · refine ⟨pieces before, by rw [text, pieces_append_slash, one], ?_⟩
    rw [ends, namesOf_append_slash]
    exact (List.append_nil _).symm
  · exact ⟨pieces dir.toList, by rw [text, pieces_append_slash, one], rfl⟩

theorem isAbsolute_join {dir file : String} (relative : isAbsolute file = false) :
    isAbsolute (join dir file) = isAbsolute dir := by
  obtain ⟨rfl, same⟩ | ⟨before, ends, text⟩ | ⟨some, text⟩ := toList_join dir relative
  · rw [same, relative]
    rfl
  · rw [isAbsolute, isAbsolute, text, ends, List.head?_append, List.head?_append]
    rfl
  · rw [isAbsolute, isAbsolute, text]
    cases chars : dir.toList with
    | nil => exact absurd (String.toList_eq_nil_iff.1 chars) some
    | cons c cs => rfl

end Path

namespace FileSystem

variable {fs : FileSystem} {place base above : List String} {name : String} {names : List String}

/-! ### Walks -/

/-- Where the walk along a path starts from. -/
def origin (fs : FileSystem) (path : String) : List String :=
  if Path.isAbsolute path then [] else fs.workingDirectory

/-- Only directories stand above entries. -/
def Tidy (fs : FileSystem) : Prop :=
  ∀ e ∈ fs.entries, ∀ f ∈ fs.entries, e.1 <+: f.1 → e.1 = f.1 ∨ e.2 = .directory

theorem exists_entry (h : fs.node? place ≠ none) : place = [] ∨ ∃ e ∈ fs.entries, place <+: e.1 := by
  rw [node?] at h
  split at h
  · next e node found =>
    have stands := List.find?_some found
    rw [beq_iff_eq] at stands
    exact .inr ⟨_, List.mem_of_find?_eq_some found, by rw [stands]⟩
  · split at h
    · next led =>
      rw [Bool.or_eq_true, List.isEmpty_iff, List.any_eq_true] at led
      simpa only [List.isPrefixOf_iff_prefix] using led
    · exact absurd rfl h

/-- Directories stand above whatever there is. -/
theorem Tidy.node?_above (tidy : fs.Tidy) (there : fs.node? place ≠ none) (up : above <+: place)
    (proper : above ≠ place) : fs.node? above = some .directory := by
  obtain rfl | ⟨f, stands, below⟩ := exists_entry there
  · exact absurd (List.prefix_nil.1 up) proper
  have other : above ≠ f.1 := fun same => proper (up.eq_of_length_le (same ▸ below.length_le))
  rw [node?]
  split
  · next e node found =>
    have at_above := List.find?_some found
    rw [beq_iff_eq] at at_above
    obtain same | directory := tidy _ (List.mem_of_find?_eq_some found) f stands
      (by rw [at_above]; exact up.trans below)
    · exact absurd (at_above.symm.trans same) other
    · exact congrArg some directory
  · rw [if_pos]
    rw [Bool.or_eq_true, List.any_eq_true]
    exact .inr ⟨f, stands, List.isPrefixOf_iff_prefix.2 (up.trans below)⟩

theorem step_idle (idle : name = "" ∨ name = ".") (there : fs.node? place = some .directory) :
    fs.step place name = .ok place := by
  rw [step, there]
  exact if_pos idle

/-- What stands in the way does so whatever name comes next. -/
theorem exists_error_of_node? (blocked : fs.node? place ≠ some .directory) :
    ∃ e, ∀ name, fs.step place name = .error e := by
  cases there : fs.node? place with
  | none => exact ⟨.notFound, fun name => by rw [step, there]⟩
  | some node =>
    cases node with
    | directory => exact absurd there blocked
    | file content => exact ⟨.notADirectory, fun name => by rw [step, there]⟩

/-- Components that say nothing do not matter to a walk that goes on behind them. -/
theorem foldlM_step_filter (last : String) : ∀ (ps : List (List Char)) (base : List String),
    (ps.map String.ofList ++ [last]).foldlM fs.step base =
      ((ps.filter fun piece => !Path.isIdle piece).map String.ofList ++ [last]).foldlM fs.step base
  | [], base => rfl
  | piece :: ps, base => by
    rw [List.map_cons, List.cons_append, List.foldlM_cons, List.filter_cons]
    cases idle : Path.isIdle piece with
    | false =>
      rw [Bool.not_false, if_pos rfl, List.map_cons, List.cons_append, List.foldlM_cons]
      exact bind_congr fun place => foldlM_step_filter last ps place
    | true =>
      rw [Bool.not_true, if_neg Bool.false_ne_true, ← foldlM_step_filter last ps base]
      by_cases there : fs.node? base = some .directory
      · rw [step_idle (Path.isIdle_iff.1 idle) there]
        rfl
      · obtain ⟨e, stops⟩ := exists_error_of_node? there
        rw [stops]
        cases ps with
        | nil =>
          rw [List.map_nil, List.nil_append, List.foldlM_cons, stops]
          rfl
        | cons piece ps =>
          rw [List.map_cons, List.cons_append, List.foldlM_cons, stops]
          rfl

theorem step_down (plain : name ≠ "" ∧ name ≠ "." ∧ name ≠ "..")
    (there : fs.node? base = some .directory) : fs.step base name = .ok (base ++ [name]) := by
  obtain ⟨some, moves, down⟩ := plain
  rw [step, there]
  simp only [some, moves, down, or_self, if_false]

/-- A walk that does not go up ends at the names that say something. -/
theorem eq_of_foldlM_step : ∀ {ps : List (List Char)} {base : List String},
    ".." ∉ ps.map String.ofList → (ps.map String.ofList).foldlM fs.step base = .ok place →
    place = base ++ (ps.filter fun piece => !Path.isIdle piece).map String.ofList
  | [], base, _, h => by
    rw [List.filter_nil, List.map_nil, List.append_nil]
    exact (Except.ok.inj h).symm
  | piece :: ps, base, plain, h => by
    rw [List.map_cons, List.mem_cons, not_or] at plain
    rw [List.map_cons, List.foldlM_cons] at h
    by_cases there : fs.node? base = some .directory
    · rw [List.filter_cons]
      cases idle : Path.isIdle piece with
      | true =>
        rw [step_idle (Path.isIdle_iff.1 idle) there] at h
        exact eq_of_foldlM_step plain.2 h
      | false =>
        have told := not_or.1 (mt Path.isIdle_iff.2 (Bool.not_eq_true _ ▸ idle))
        rw [step_down ⟨told.1, told.2, Ne.symm plain.1⟩ there] at h
        rw [eq_of_foldlM_step plain.2 h, List.append_assoc]
        rfl
    · obtain ⟨e, stops⟩ := exists_error_of_node? there
      rw [stops] at h
      cases h

theorem eq_of_foldlM_step_names (down : ∀ name ∈ names, name ≠ "" ∧ name ≠ "." ∧ name ≠ "..")
    (h : names.foldlM fs.step base = .ok place) : place = base ++ names := by
  have back : (names.map String.toList).map String.ofList = names := by
    simp only [List.map_map, Function.comp_def, String.ofList_toList, List.map_id']
  have kept : ((names.map String.toList).filter fun piece => !Path.isIdle piece) =
      names.map String.toList := by
    rw [List.filter_eq_self]
    intro piece mem
    obtain ⟨name, own, rfl⟩ := List.mem_map.1 mem
    obtain ⟨some, moves, -⟩ := down name own
    rw [Bool.not_eq_true', Bool.eq_false_iff, Ne, Path.isIdle_iff, String.ofList_toList]
    exact not_or.2 ⟨some, moves⟩
  rw [← back] at h
  rw [eq_of_foldlM_step (fun mem => (down _ (back ▸ mem)).2.2 rfl) h, kept, back]

/-- A walk down to something that is there gets there. -/
theorem Tidy.foldlM_step (tidy : fs.Tidy) : ∀ {names : List String} {base : List String},
    (∀ name ∈ names, name ≠ "" ∧ name ≠ "." ∧ name ≠ "..") → fs.node? (base ++ names) ≠ none →
    names.foldlM fs.step base = .ok (base ++ names)
  | [], base, _, _ => by
    rw [List.append_nil]
    rfl
  | name :: names, base, plain, there => by
    have passed : fs.node? base = some .directory :=
      tidy.node?_above there (List.prefix_append _ _) (by simp)
    rw [List.append_cons] at there
    rw [List.foldlM_cons, step_down (plain _ List.mem_cons_self) passed, List.append_cons base name names]
    exact tidy.foldlM_step (fun name mem => plain name (List.mem_cons_of_mem _ mem)) there

theorem place_eq_foldlM (some : path ≠ "") : fs.place path =
    ((Path.pieces path.toList).map String.ofList).foldlM fs.step (fs.origin path) := by
  rw [place, if_neg (by rwa [String.isEmpty_iff])]
  rfl

theorem lookup_of_place (leads : fs.place path = .ok place) : fs.lookup path =
    match fs.node? place with
    | some node => .ok (place, node)
    | none => .error .notFound := by
  rw [lookup, leads]
  rfl

theorem isFile_iff : fs.isFile path = true ↔
    ∃ place, fs.place path = .ok place ∧ ∃ content, fs.node? place = some (.file content) := by
  cases leads : fs.place path with
  | error e =>
    rw [isFile, lookup, leads]
    exact ⟨fun h => (nomatch h), fun ⟨_, h, _⟩ => (nomatch h)⟩
  | ok place =>
    rw [isFile, lookup_of_place leads]
    constructor
    · intro h
      refine ⟨place, rfl, ?_⟩
      cases there : fs.node? place with
      | none => rw [there] at h; cases h
      | some node =>
        cases node with
        | directory => rw [there] at h; cases h
        | file content => exact ⟨content, rfl⟩
    · rintro ⟨_, same, content, there⟩
      rw [Except.ok.inj same, there]

theorem isDirectory_of_place (leads : fs.place path = .ok place) :
    fs.isDirectory path = fs.isDirectoryAt place := by
  rw [isDirectory, lookup_of_place leads, isDirectoryAt]
  cases fs.node? place with
  | none => rfl
  | some node => cases node <;> rfl

theorem ne_empty_of_place (leads : fs.place path = .ok place) : path ≠ "" := by
  rintro rfl
  cases leads

/-- Where a path without `..` leads. -/
theorem eq_of_place (plain : ".." ∉ Path.names path) (leads : fs.place path = .ok place) :
    place = fs.origin path ++ Path.names path := by
  rw [place_eq_foldlM (ne_empty_of_place leads)] at leads
  refine eq_of_foldlM_step (fun mem => plain ?_) leads
  obtain ⟨piece, mem, dots⟩ := List.mem_map.1 mem
  refine List.mem_map.2 ⟨piece, List.mem_filter.2 ⟨mem, ?_⟩, dots⟩
  rw [Bool.not_eq_true', Bool.eq_false_iff, Ne, Path.isIdle_iff, dots]
  decide

/-- A path without names leads to a directory. -/
theorem isDirectoryAt_of_names_eq_nil (empty : Path.names path = [])
    (leads : fs.place path = .ok place) : fs.isDirectoryAt place = true := by
  have stays := eq_of_place (by rw [empty]; exact List.not_mem_nil) leads
  rw [empty, List.append_nil] at stays
  by_cases there : fs.node? (fs.origin path) = some .directory
  · rw [isDirectoryAt, stays, there]
  · obtain ⟨e, stops⟩ := exists_error_of_node? there
    rw [place_eq_foldlM (ne_empty_of_place leads)] at leads
    cases cut : Path.pieces path.toList with
    | nil => exact absurd cut (Path.pieces_ne_nil _)
    | cons piece ps =>
      rw [cut, List.map_cons, List.foldlM_cons, stops] at leads
      cases leads

end FileSystem

namespace Config

variable {fs : FileSystem} {P : List String → List String → Prop} {xs ys : List String}
  {path dir : String} {found : Option String} {base names place : List String}

/-! ### The search -/

/-- The walk along some names leads to a directory with a file of settings; `place` is where the file
stands. -/
def SettingsAlong (fs : FileSystem) (base names place : List String) : Prop :=
  (names ++ [fileName]).foldlM fs.step base = .ok place ∧ ∃ content, fs.node? place = some (.file content)

/-- The longest initial part of a list that has a property. -/
structure Longest (P : List String → Prop) (ys xs : List String) : Prop where
  initial : xs <+: ys
  holds : P xs
  longest : ∀ zs, zs <+: ys → P zs → zs <+: xs

/-- What was found is at the place that the longest possible part of `ys` gives; nothing was found only
if no part gives any. -/
def Answers (fs : FileSystem) (P : List String → List String → Prop) (ys : List String) :
    (found : Option String) → Prop
  | some path => ∃ xs place, Longest (fun xs => ∃ place, P xs place) ys xs ∧ P xs place ∧
      fs.place path = .ok place
  | none => ∀ xs, xs <+: ys → ∀ place, ¬P xs place

theorem place_join : fs.place (Path.join dir fileName) =
    (Path.names dir ++ [fileName]).foldlM fs.step (fs.origin dir) := by
  have relative : Path.isAbsolute fileName = false := by decide
  obtain ⟨ps, cut, kept⟩ := Path.exists_pieces_join dir relative (by decide)
  have some : Path.join dir fileName ≠ "" := by
    intro empty
    rw [empty, show Path.pieces "".toList = [] ++ [[]] from rfl] at cut
    cases (List.append_inj' cut rfl).2
  rw [FileSystem.place_eq_foldlM some, cut, List.map_append, List.map_singleton, String.ofList_toList,
    FileSystem.foldlM_step_filter, kept, FileSystem.origin, Path.isAbsolute_join relative]
  rfl

theorem settingsAlong_names (h : fs.isFile (Path.join dir fileName) = true) :
    ∃ place, SettingsAlong fs (fs.origin dir) (Path.names dir) place ∧
      fs.place (Path.join dir fileName) = .ok place := by
  obtain ⟨place, leads, there⟩ := FileSystem.isFile_iff.1 h
  exact ⟨place, ⟨place_join.symm.trans leads, there⟩, leads⟩

theorem not_settingsAlong_names (h : ¬fs.isFile (Path.join dir fileName) = true) (place : List String) :
    ¬SettingsAlong fs (fs.origin dir) (Path.names dir) place := fun ⟨leads, there⟩ =>
  h (FileSystem.isFile_iff.2 ⟨place, place_join.trans leads, there⟩)

theorem Answers.of_dropLast (h : Answers fs P ys.dropLast found) (none_here : ∀ place, ¬P ys place) :
    Answers fs P ys found := by
  have shorter {xs : List String} (initial : xs <+: ys) : xs = ys ∨ xs <+: ys.dropLast := by
    obtain rfl | some := eq_or_ne ys []
    · exact .inl (List.prefix_nil.1 initial)
    · rw [← List.dropLast_append_getLast some, List.prefix_concat_iff] at initial
      rwa [List.dropLast_append_getLast] at initial
  cases found with
  | none =>
    intro xs initial place there
    obtain rfl | initial := shorter initial
    · exact none_here place there
    · exact h xs initial place there
  | some path =>
    obtain ⟨xs, place, ⟨initial, holds, longest⟩, there, leads⟩ := h
    refine ⟨xs, place, ⟨initial.trans (List.dropLast_prefix ys), holds, fun zs initial there => ?_⟩,
      there, leads⟩
    obtain rfl | initial := shorter initial
    · obtain ⟨place, there⟩ := there
      exact absurd there (none_here place)
    · exact longest zs initial there

theorem findAbove_answers : ∀ (fuel : Nat) (dir : String), dir.length < fuel →
    Answers fs (SettingsAlong fs (fs.origin dir)) (Path.names dir) (findAbove fs fuel dir)
  | 0, dir, short => absurd short (Nat.not_lt_zero _)
  | fuel + 1, dir, short => by
    rw [findAbove]
    split
    · next there =>
      obtain ⟨place, along, leads⟩ := settingsAlong_names there
      exact ⟨_, place, ⟨List.prefix_rfl, ⟨place, along⟩, fun zs initial _ => initial⟩, along, leads⟩
    · next missing =>
      refine Answers.of_dropLast ?_ (not_settingsAlong_names missing)
      cases up : Path.parent? dir with
      | none =>
        intro xs initial place
        rw [Path.names_eq_nil up, List.dropLast_nil, List.prefix_nil] at initial
        rw [initial, ← Path.names_eq_nil up]
        exact not_settingsAlong_names missing place
      | some q =>
        have shorter := Path.length_parent?_lt up
        have above := findAbove_answers fuel q (by omega)
        rwa [FileSystem.origin, Path.isAbsolute_parent? up, Path.names_parent? up] at above

/-- The names that the search begins with. -/
def searchNames (fs : FileSystem) (path : String) : List String :=
  if fs.isDirectory path then Path.names path else (Path.names path).dropLast

theorem findFile_answers (fs : FileSystem) (path : String) :
    Answers fs (SettingsAlong fs (fs.origin path)) (searchNames fs path) (findFile fs path) := by
  rw [findFile, searchNames]
  split
  · exact findAbove_answers _ _ (by omega)
  · cases up : Path.parent? path with
    | none =>
      rw [Path.names_eq_nil up, List.dropLast_nil, ← Path.names_eq_nil up]
      exact findAbove_answers _ _ (by rw [Option.getD_none]; omega)
    | some q =>
      rw [← Path.names_parent? up, FileSystem.origin, ← Path.isAbsolute_parent? up]
      exact findAbove_answers _ _ (by rw [Option.getD_some]; omega)

/-! ### The directories above -/

/-- A path that does not go up. -/
def Plain (path : String) : Prop := ".." ∉ Path.names path

instance (path : String) : Decidable (Plain path) := inferInstanceAs (Decidable (_ ∉ _))

/-- The directory that the search begins in. -/
def searchStart (fs : FileSystem) (path : String) : List String := fs.origin path ++ searchNames fs path

/-- A directory at or below `top` has a file of settings; `place` is where the file stands. -/
def SettingsIn (fs : FileSystem) (top dir place : List String) : Prop :=
  top <+: dir ∧ place = dir ++ [fileName] ∧ ∃ content, fs.node? place = some (.file content)

/-- What was found is at a place. -/
def Leads (fs : FileSystem) (found : Option String) (place : List String) : Prop :=
  found.map fs.place = some (.ok place)

theorem settingsAlong_iff (tidy : fs.Tidy)
    (down : ∀ name ∈ names, name ≠ "" ∧ name ≠ "." ∧ name ≠ "..") :
    SettingsAlong fs base names place ↔ SettingsIn fs base (base ++ names) place := by
  have down' : ∀ name ∈ names ++ [fileName], name ≠ "" ∧ name ≠ "." ∧ name ≠ ".." := by
    intro name mem
    obtain mem | mem := List.mem_append.1 mem
    · exact down name mem
    · rw [List.mem_singleton.1 mem]
      decide
  constructor
  · rintro ⟨leads, there⟩
    exact ⟨List.prefix_append _ _,
      (FileSystem.eq_of_foldlM_step_names down' leads).trans (List.append_assoc _ _ _).symm, there⟩
  · rintro ⟨-, rfl, content, there⟩
    rw [List.append_assoc] at there
    refine ⟨?_, content, by rwa [List.append_assoc]⟩
    rw [List.append_assoc]
    exact tidy.foldlM_step down' (by rw [there]; exact Option.some_ne_none _)

theorem searchNames_isPrefix (fs : FileSystem) (path : String) :
    searchNames fs path <+: Path.names path := by
  unfold searchNames
  split
  · exact List.prefix_rfl
  · exact List.dropLast_prefix _

theorem searchStart_of_place (plain : Plain path) (leads : fs.place path = .ok place) :
    searchStart fs path = if fs.isDirectoryAt place then place else place.dropLast := by
  have whole := FileSystem.eq_of_place plain leads
  rw [searchStart, searchNames, FileSystem.isDirectory_of_place leads]
  split
  · exact whole.symm
  · next other =>
    rw [whole, List.dropLast_append_of_ne_nil]
    exact fun empty => other (FileSystem.isDirectoryAt_of_names_eq_nil empty leads)

/-- For a path without `..`, the parts of its names are directories above. -/
theorem Answers.above (tidy : fs.Tidy) (down : ∀ name ∈ ys, name ≠ "" ∧ name ≠ "." ∧ name ≠ "..")
    (h : Answers fs (SettingsAlong fs base) ys found) :
    Answers fs (SettingsIn fs base) (base ++ ys) found := by
  have same {xs place : List String} (initial : xs <+: ys) :
      SettingsAlong fs base xs place ↔ SettingsIn fs base (base ++ xs) place :=
    settingsAlong_iff tidy fun name mem => down name (initial.subset mem)
  have below {dir place : List String} (initial : dir <+: base ++ ys)
      (there : SettingsIn fs base dir place) :
      ∃ xs, dir = base ++ xs ∧ xs <+: ys ∧ SettingsAlong fs base xs place := by
    obtain ⟨xs, rfl⟩ := there.1
    rw [List.prefix_append_right_inj] at initial
    exact ⟨xs, rfl, initial, (same initial).2 there⟩
  cases found with
  | none =>
    intro dir initial place there
    obtain ⟨xs, -, initial, along⟩ := below initial there
    exact h xs initial place along
  | some path =>
    obtain ⟨xs, place, ⟨initial, holds, longest⟩, along, leads⟩ := h
    have there := (same initial).1 along
    refine ⟨base ++ xs, place, ⟨(List.prefix_append_right_inj _).2 initial, ⟨place, there⟩, ?_⟩, there,
      leads⟩
    rintro dir initial' ⟨place', there'⟩
    obtain ⟨zs, rfl, initial', along'⟩ := below initial' there'
    exact (List.prefix_append_right_inj _).2 (longest zs initial' ⟨place', along'⟩)

theorem findFile_above (tidy : fs.Tidy) (plain : Plain path) :
    Answers fs (SettingsIn fs (fs.origin path)) (searchStart fs path) (findFile fs path) := by
  refine Answers.above tidy (fun name mem => ?_) (findFile_answers fs path)
  have mem := (searchNames_isPrefix fs path).subset mem
  have told := Path.not_idle_of_mem_names mem
  exact ⟨told.1, told.2, fun up => plain (up ▸ mem)⟩

variable {top start : List String}

theorem Answers.leads_iff (h : Answers fs (SettingsIn fs top) start found) : Leads fs found place ↔
    ∃ dir, Longest (fun dir => ∃ place, SettingsIn fs top dir place) start dir ∧
      place = dir ++ [fileName] := by
  cases found with
  | none =>
    refine ⟨fun leads => (nomatch leads), ?_⟩
    rintro ⟨dir, ⟨initial, ⟨place, there⟩, -⟩, -⟩
    exact absurd there (h dir initial place)
  | some path =>
    obtain ⟨dir, place', last, there, leads⟩ := h
    rw [Leads, Option.map_some, Option.some.injEq, leads]
    constructor
    · intro same
      exact ⟨dir, last, (Except.ok.inj same).symm.trans there.2.1⟩
    · rintro ⟨dir', last', rfl⟩
      have up := last.longest dir' last'.initial last'.holds
      have down := last'.longest dir last.initial last.holds
      rw [there.2.1, up.eq_of_length_le down.length_le]

/-- A search from the same directory that ends further down finds what the other one finds there. -/
theorem leads_iff_of_prefix {top' : List String} {found' : Option String} (further : top <+: top')
    (h : Answers fs (SettingsIn fs top) start found) (h' : Answers fs (SettingsIn fs top') start found') :
    Leads fs found' place ↔ Leads fs found place ∧ top' <+: place.dropLast := by
  rw [h.leads_iff, h'.leads_iff]
  constructor
  · rintro ⟨dir, ⟨initial, ⟨place, below, there⟩, longest⟩, rfl⟩
    rw [List.dropLast_concat]
    refine ⟨⟨dir, ⟨initial, ⟨place, further.trans below, there⟩, ?_⟩, rfl⟩, below⟩
    rintro dir' initial' ⟨place', -, there'⟩
    obtain above | above := List.prefix_or_prefix_of_prefix initial' initial
    · exact above
    · exact longest dir' initial' ⟨place', below.trans above, there'⟩
  · rintro ⟨⟨dir, ⟨initial, ⟨place, below, there⟩, longest⟩, rfl⟩, below'⟩
    rw [List.dropLast_concat] at below'
    refine ⟨dir, ⟨initial, ⟨place, below', there⟩, ?_⟩, rfl⟩
    rintro dir' initial' ⟨place', below', there'⟩
    exact longest dir' initial' ⟨place', further.trans below', there'⟩

/-- The search finds the file of settings at the end of the longest part of the path's names that leads
to one, however the path is spelled.  Without `..` this is the file in the nearest of the directories
above, as far up as the directory that the path is read from; so paths to the same file that are read
from different directories find the same file of settings if it stands below both of them. -/
theorem nearest_settings (fs : FileSystem) (path : String) :
    Answers fs (SettingsAlong fs (fs.origin path)) (searchNames fs path) (findFile fs path) ∧
    (fs.Tidy → Plain path →
      Answers fs (SettingsIn fs (fs.origin path)) (searchStart fs path) (findFile fs path) ∧
      ∀ other file, Plain other → fs.place path = .ok file → fs.place other = .ok file →
        fs.origin path <+: fs.origin other → ∀ place, Leads fs (findFile fs other) place ↔
          Leads fs (findFile fs path) place ∧ fs.origin other <+: place.dropLast) := by
  refine ⟨findFile_answers fs path, fun tidy plain => ⟨findFile_above tidy plain, ?_⟩⟩
  intro other file plain' leads leads' further place
  have same : searchStart fs other = searchStart fs path :=
    (searchStart_of_place plain' leads').trans (searchStart_of_place plain leads).symm
  exact leads_iff_of_prefix further (findFile_above tidy plain) (same ▸ findFile_above tidy plain')

/-- A program in a working directory with settings above it. -/
def sheltered : FileSystem where
  workingDirectory := ["home"]
  entries := [([fileName], .file .empty), (["home", "main"], .file .empty)]

/-- Read from the root, the path leads up to the settings; read from the working directory it does not. -/
theorem sheltered_settings : sheltered.Tidy ∧ Plain "/home/main" ∧ Plain "main" ∧
    sheltered.place "/home/main" = .ok ["home", "main"] ∧
    sheltered.place "main" = .ok ["home", "main"] ∧
    (Leads sheltered (findFile sheltered "main") [fileName] ↔
      Leads sheltered (findFile sheltered "/home/main") [fileName] ∧ ["home"] <+: []) ∧
    findFile sheltered "/home/main" = some "/scribble.toml" ∧ findFile sheltered "main" = none := by
  have tidy : sheltered.Tidy := by
    unfold FileSystem.Tidy sheltered
    simp [fileName]
  have plain : Plain "/home/main" := by decide +kernel
  have plain' : Plain "main" := by decide +kernel
  have leads : sheltered.place "/home/main" = .ok ["home", "main"] := by rfl
  have leads' : sheltered.place "main" = .ok ["home", "main"] := by rfl
  exact ⟨tidy, plain, plain', leads, leads',
    ((nearest_settings sheltered "/home/main").2 tidy plain).2 "main" ["home", "main"] plain' leads leads'
      List.nil_prefix [fileName], by decide +kernel, by decide +kernel⟩

/-- Behind `..` the search goes down into a directory that the program is not in. -/
example : findFile { entries := [(["main"], .file .empty), (["other", fileName], .file .empty)] }
    "other/../main" = some "other/scribble.toml" := by
  decide +kernel

end Config

end ScriptLang
