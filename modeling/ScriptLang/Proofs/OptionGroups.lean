import ScriptLang.Proofs.SettingsAsFlags

/-!
# Options in groups

Options are kept key by key, wherever they stood among the arguments.  That moves an option past others
with different keys only (`Options.Regrouped`).  Such options change different settings, and whether one
can be applied does not depend on the settings, so the settings are those that the arguments give one
after the other, and what is refused is refused as often (`options_in_turn`).
-/

namespace ScriptLang

namespace Options

variable {es fs gs : List (String × Option String)} {e : String × Option String} {key : String}

/-! ### Moving options -/

/-- The same options, where those with different keys may have changed places. -/
inductive Regrouped : List (String × Option String) → List (String × Option String) → Prop
  | refl (es : List (String × Option String)) : Regrouped es es
  | cons (e : String × Option String) {es fs : List (String × Option String)} :
      Regrouped es fs → Regrouped (e :: es) (e :: fs)
  | swap {e f : String × Option String} (other : e.1 ≠ f.1) (es : List (String × Option String)) :
      Regrouped (e :: f :: es) (f :: e :: es)
  | trans {es fs gs : List (String × Option String)} :
      Regrouped es fs → Regrouped fs gs → Regrouped es gs

namespace Regrouped

theorem append_left (gs : List (String × Option String)) (h : Regrouped es fs) :
    Regrouped (gs ++ es) (gs ++ fs) := by
  induction gs with
  | nil => exact h
  | cons g gs ih => exact .cons g ih

theorem append_right (h : Regrouped es fs) (gs : List (String × Option String)) :
    Regrouped (es ++ gs) (fs ++ gs) := by
  induction h with
  | refl es => exact .refl _
  | cons e _ ih => exact .cons e ih
  | swap other es => exact .swap other _
  | trans _ _ ih ih' => exact ih.trans ih'

/-- An option moves behind options with other keys. -/
theorem move_behind (others : ∀ f ∈ fs, e.1 ≠ f.1) : Regrouped (e :: fs) (fs ++ [e]) := by
  induction fs with
  | nil => exact .refl _
  | cons f fs ih =>
    have past : Regrouped (e :: f :: fs) (f :: e :: fs) := .swap (others f List.mem_cons_self) fs
    exact past.trans (.cons f (ih fun g hg => others g (List.mem_cons_of_mem f hg)))

end Regrouped

/-! ### Options kept key by key -/

/-- No key is kept twice or without a value, and none has an equals sign. -/
structure Proper (o : Options) : Prop where
  nodup : (o.groups.map Prod.fst).Nodup
  given : ∀ g ∈ o.groups, g.2 ≠ []
  plain : ∀ g ∈ o.groups, '=' ∉ g.1.toList

theorem key_of_mem_entries {groups : List (String × List (Option String))}
    (h : e ∈ (Options.mk groups).entries) : e.1 ∈ groups.map Prod.fst := by
  obtain ⟨g, hg, he⟩ := List.mem_flatMap.1 h
  obtain ⟨v, _, rfl⟩ := List.mem_map.1 he
  exact List.mem_map_of_mem hg

/-- Whatever holds of the groups and of a group that has one more value, or is new, holds of the groups
with one more value. -/
theorem mem_insertInto {value : Option String} {g : String × List (Option String)} :
    ∀ {groups : List (String × List (Option String))}, g ∈ insertInto key value groups →
      g ∈ groups ∨ g.1 = key ∧ g.2 ≠ []
  | [], h => by
    obtain rfl := List.mem_singleton.1 h
    exact .inr ⟨rfl, List.cons_ne_nil _ _⟩
  | (k, values) :: groups, h => by
    unfold insertInto at h
    split at h
    · next same =>
      obtain rfl | h := List.mem_cons.1 h
      · exact .inr ⟨same, List.append_ne_nil_of_right_ne_nil _ (List.cons_ne_nil _ _)⟩
      · exact .inl (List.mem_cons_of_mem _ h)
    · obtain rfl | h := List.mem_cons.1 h
      · exact .inl List.mem_cons_self
      · exact (mem_insertInto h).imp_left (List.mem_cons_of_mem _)

theorem nodup_insertInto (value : Option String) :
    ∀ {groups : List (String × List (Option String))}, (groups.map Prod.fst).Nodup →
      ((insertInto key value groups).map Prod.fst).Nodup
  | [], _ => List.nodup_singleton key
  | (k, values) :: groups, h => by
    obtain ⟨new, h⟩ := List.nodup_cons.1 h
    unfold insertInto
    split
    · exact List.nodup_cons.2 ⟨new, h⟩
    · next other =>
      refine List.nodup_cons.2 ⟨fun old => ?_, nodup_insertInto value h⟩
      obtain ⟨g, hg, hk⟩ := List.mem_map.1 old
      obtain hg | ⟨same, _⟩ := mem_insertInto hg
      · exact new (hk ▸ List.mem_map_of_mem hg)
      · exact other (hk.symm.trans same)

theorem splitPair_plain (pair : String) : '=' ∉ (splitPair pair).1.toList := by
  unfold splitPair
  dsimp only
  split
  · rw [String.toList_ofList]
    intro h
    exact absurd (List.mem_takeWhile_imp h) (by decide)
  · next none_left =>
    intro h
    have passed := List.dropWhile_eq_nil_iff.1 none_left '=' h
    exact absurd passed (by decide)

theorem Proper.add {o : Options} (h : o.Proper) (pair : String) : (o.add pair).Proper where
  nodup := nodup_insertInto _ h.nodup
  given g hg := (mem_insertInto hg).elim (h.given g) And.right
  plain g hg := (mem_insertInto hg).elim (h.plain g) fun new => by
    rw [new.1]
    exact splitPair_plain pair

/-- Among options key by key, one more goes from the end to the others with its key. -/
theorem entries_insertInto (value : Option String) :
    ∀ {groups : List (String × List (Option String))}, (groups.map Prod.fst).Nodup →
      Regrouped ((Options.mk (insertInto key value groups)).entries)
        ((Options.mk groups).entries ++ [(key, value)])
  | [], _ => .refl _
  | (k, values) :: groups, h => by
    obtain ⟨new, h⟩ := List.nodup_cons.1 h
    have split (vs : List (Option String)) (gs : List (String × List (Option String))) :
        (Options.mk ((k, vs) :: gs)).entries = vs.map (fun v => (k, v)) ++ (Options.mk gs).entries :=
      rfl
    unfold insertInto
    rw [split, List.append_assoc]
    by_cases same : k = key
    · subst same
      rw [if_pos rfl, split, List.map_append, List.append_assoc]
      refine .append_left _ (.move_behind fun f hf same => new ?_)
      exact same ▸ key_of_mem_entries hf
    · rw [if_neg same, split]
      exact .append_left _ (entries_insertInto value h)

theorem foldl_add_regrouped (pairs : List String) : ∀ {o : Options}, o.Proper →
    (pairs.foldl add o).Proper ∧
      Regrouped (pairs.foldl add o).entries (o.entries ++ pairs.map splitPair) := by
  induction pairs with
  | nil =>
    intro o h
    rw [List.map_nil, List.append_nil]
    exact ⟨h, .refl _⟩
  | cons pair pairs ih =>
    intro o h
    obtain ⟨proper, regrouped⟩ := ih (h.add pair)
    have first : Regrouped (o.add pair).entries (o.entries ++ [splitPair pair]) :=
      entries_insertInto _ h.nodup
    refine ⟨proper, regrouped.trans ?_⟩
    rw [List.map_cons, ← List.singleton_append, ← List.append_assoc]
    exact first.append_right _

theorem proper_empty : Proper {} := ⟨List.nodup_nil, nofun, nofun⟩

theorem proper_ofPairs (pairs : List String) : (ofPairs pairs).Proper :=
  (foldl_add_regrouped pairs proper_empty).1

/-- Collecting options leaves the values of each key in their order. -/
theorem entries_ofPairs (pairs : List String) :
    Regrouped (ofPairs pairs).entries (pairs.map splitPair) :=
  (foldl_add_regrouped pairs proper_empty).2

/-- Options are read back from their pairs. -/
theorem Proper.ofPairs_toPairs {o : Options} (h : o.Proper) : ofPairs o.toPairs = o := by
  have plain : ∀ e ∈ o.entries, '=' ∉ e.1.toList := fun e he => by
    obtain ⟨g, hg, same⟩ := List.mem_map.1 (key_of_mem_entries he)
    exact same ▸ h.plain g hg
  have kept : (o.groups.filter fun g => !g.2.isEmpty) = o.groups :=
    List.filter_eq_self.2 fun g hg => by simpa using h.given g hg
  have again : o.entries.foldl (fun (o : Options) e => o.set e.1 e.2) {} = o := by
    have regained := foldl_set_entries o.groups [] (by simpa using h.nodup)
    rwa [List.nil_append, kept] at regained
  exact (foldl_add_pairText {} plain).trans again

end Options

namespace Config

variable {key key' : String} {f g : Config → Config}

/-! ### Options change different settings -/

/-- The changes that an option with a certain key can make. -/
inductive Sets : String → (Config → Config) → Prop
  | debug (on : Bool) : Sets "debug" fun c => { c with debug := on }
  | trace (on : Bool) : Sets "trace" fun c => { c with trace := on }
  | execute (on : Bool) : Sets "execute" fun c => { c with execute := on }
  | listCode (on : Bool) : Sets "list-ir" fun c => { c with listCode := on }
  | threaded (on : Bool) : Sets "threaded" fun c => { c with threaded := on }
  | includePath (path : String) :
      Sets "include" fun c => { c with includePaths := c.includePaths ++ [path] }
  | library (name : String) : Sets "library" fun c => { c with libraries := c.libraries ++ [name] }
  | entryPoint (name : String) : Sets "entry" fun c => { c with entryPoint := name }
  | maxIncludeDepth (n : Nat) : Sets "max-include-depth" fun c => { c with maxIncludeDepth := n }
  | maxNesting (n : Nat) : Sets "max-nesting" fun c => { c with maxNesting := n }
  | maxCallDepth (n : Nat) : Sets "max-call-depth" fun c => { c with maxCallDepth := n }
  | graph (dir : String) : Sets "graph" fun c => { c with graph := some dir }

/-- Options with different keys may change places. -/
theorem Sets.comm (h : Sets key f) (h' : Sets key' g) (other : key ≠ key') (c : Config) :
    f (g c) = g (f c) := by
  cases h <;> cases h' <;> first | rfl | exact absurd rfl other

/-- An option is refused by all settings, with the same error, or makes the same change to all. -/
def Uniform (key : String) (value : Option String) : Prop :=
  (∃ e, ∀ c : Config, c.apply key value = .error e) ∨
    ∃ f, Sets key f ∧ ∀ c : Config, c.apply key value = .ok (f c)

theorem uniform_of_read {α : Type} {value : Option String} (read : Except ConfigError α)
    {put : α → Config → Config} (sets : ∀ a, Sets key (put a))
    (given : ∀ c : Config, c.apply key value = do return put (← read) c) : Uniform key value := by
  cases read with
  | error e => exact .inl ⟨e, given⟩
  | ok a => exact .inr ⟨put a, sets a, given⟩

/-- The keys that belong to a setting. -/
def keys : List String :=
  ["debug", "trace", "execute", "list-ir", "threaded", "include", "library", "entry",
    "max-include-depth", "max-nesting", "max-call-depth", "graph"]

theorem apply_unknown (unknown : key ∉ keys) (c : Config) (value : Option String) :
    c.apply key value = .error (.unknownOption key) := by
  unfold apply
  split <;> first | rfl | exact absurd (by decide) unknown

theorem uniform (key : String) (value : Option String) : Uniform key value := by
  by_cases known : key ∈ keys
  · simp only [keys, List.mem_cons, List.not_mem_nil, or_false] at known
    obtain rfl | rfl | rfl | rfl | rfl | rfl | rfl | rfl | rfl | rfl | rfl | rfl := known
    · exact uniform_of_read (flagValue "debug" value) .debug fun _ => rfl
    · exact uniform_of_read (flagValue "trace" value) .trace fun _ => rfl
    · exact uniform_of_read (flagValue "execute" value) .execute fun _ => rfl
    · exact uniform_of_read (flagValue "list-ir" value) .listCode fun _ => rfl
    · exact uniform_of_read (flagValue "threaded" value) .threaded fun _ => rfl
    · exact uniform_of_read (textValue "include" value) .includePath fun _ => rfl
    · exact uniform_of_read (textValue "library" value) .library fun _ => rfl
    · exact uniform_of_read (textValue "entry" value) .entryPoint fun _ => rfl
    · exact uniform_of_read (numberValue "max-include-depth" value) .maxIncludeDepth fun _ => rfl
    · exact uniform_of_read (numberValue "max-nesting" value) .maxNesting fun _ => rfl
    · exact uniform_of_read (numberValue "max-call-depth" value) .maxCallDepth fun _ => rfl
    · exact .inr ⟨_, .graph (directoryValue value), fun _ => rfl⟩
  · exact .inl ⟨.unknownOption key, fun c => apply_unknown known c value⟩

/-! ### One option after the other -/

/-- The settings after an argument; one that cannot be applied changes nothing. -/
def take (c : Config) (argument : String) : Config :=
  match c.apply (Options.splitPair argument).1 (Options.splitPair argument).2 with
  | .ok c' => c'
  | .error _ => c

/-- Why an argument cannot be applied. -/
def refusal? (c : Config) (argument : String) : Option ConfigError :=
  match c.apply (Options.splitPair argument).1 (Options.splitPair argument).2 with
  | .ok _ => none
  | .error e => some e

/-- Whether an argument is refused does not depend on the settings. -/
theorem refusal?_eq (c d : Config) (argument : String) : c.refusal? argument = d.refusal? argument := by
  unfold refusal?
  obtain ⟨e, he⟩ | ⟨f, _, hf⟩ :=
    uniform (Options.splitPair argument).1 (Options.splitPair argument).2
  · rw [he, he]
  · rw [hf, hf]

theorem applyAll_splitPair (arguments : List String) : ∀ c : Config,
    c.applyAll (arguments.map Options.splitPair) =
      (arguments.foldl take c, arguments.filterMap c.refusal?) := by
  induction arguments with
  | nil => exact fun _ => rfl
  | cons argument arguments ih =>
    intro c
    have later (d : Config) : arguments.filterMap d.refusal? = arguments.filterMap c.refusal? :=
      List.filterMap_congr fun a _ => d.refusal?_eq c a
    rw [List.map_cons, applyAll, List.foldl_cons, List.filterMap_cons]
    unfold refusal? take
    cases happly : c.apply (Options.splitPair argument).1 (Options.splitPair argument).2 with
    | ok d => exact (ih d).trans (congrArg _ (later d))
    | error e =>
      dsimp only
      rw [ih c]
      rfl

/-- A refused argument leaves the settings as they were. -/
theorem take_of_refused {c : Config} {argument : String} {e : ConfigError}
    (h : c.refusal? argument = some e) : c.take argument = c := by
  unfold refusal? at h
  unfold take
  split at h
  · cases h
  · rfl

/-- Arguments that are refused can be left out. -/
theorem foldl_take_filter (c : Config) (arguments : List String) : ∀ d : Config,
    (arguments.filter fun a => (c.refusal? a).isNone).foldl take d = arguments.foldl take d := by
  induction arguments with
  | nil => exact fun _ => rfl
  | cons argument arguments ih =>
    intro d
    rw [List.foldl_cons, ← ih]
    cases refused : c.refusal? argument with
    | none => rw [List.filter_cons_of_pos (by rw [refused]; rfl), List.foldl_cons]
    | some e =>
      rw [List.filter_cons_of_neg (by rw [refused]; exact Bool.false_ne_true),
        take_of_refused ((d.refusal?_eq c argument).trans refused)]

/-- Options may change places with options that have other keys. -/
theorem applyAll_regrouped {es fs : List (String × Option String)} (h : Options.Regrouped es fs) :
    ∀ c : Config, (c.applyAll es).1 = (c.applyAll fs).1 ∧
      (c.applyAll es).2.Perm (c.applyAll fs).2 := by
  induction h with
  | refl es => exact fun c => ⟨rfl, .refl _⟩
  | cons e _ ih =>
    intro c
    rw [applyAll, applyAll]
    cases c.apply e.1 e.2 with
    | ok d => exact ih d
    | error x => exact ⟨(ih c).1, (ih c).2.cons x⟩
  | @swap e f other es =>
    intro c
    simp only [applyAll]
    -- two changes commute; of two errors it is only their order that changes
    obtain ⟨x, hx⟩ | ⟨put, sets, hput⟩ := uniform e.1 e.2 <;>
      obtain ⟨y, hy⟩ | ⟨put', sets', hput'⟩ := uniform f.1 f.2
    · simpa only [hx, hy, true_and] using List.Perm.swap y x _
    · simp only [hx, hput', List.Perm.refl, and_self]
    · simp only [hput, hy, List.Perm.refl, and_self]
    · simp only [hput, hput', sets.comm sets' other, List.Perm.refl, and_self]
  | trans _ _ ih ih' => exact fun c => ⟨(ih c).1.trans (ih' c).1, (ih c).2.trans (ih' c).2⟩

/-- Arguments change settings as if they were applied one after the other: those that are refused, by
whatever settings, change nothing and are reported once each.  Leaving them out gives the same settings
without an error, and the options that were collected are read back from their own pairs. -/
theorem options_in_turn (c : Config) (arguments : List String) :
    (c.withOptions (.ofPairs arguments)).1 = arguments.foldl take c ∧
    (c.withOptions (.ofPairs arguments)).2.Perm (arguments.filterMap c.refusal?) ∧
    (∀ (d : Config) (argument : String), d.refusal? argument = c.refusal? argument) ∧
    c.withOptions (.ofPairs (arguments.filter fun a => (c.refusal? a).isNone)) =
      ((c.withOptions (.ofPairs arguments)).1, []) ∧
    Options.ofPairs (Options.ofPairs arguments).toPairs = .ofPairs arguments := by
  have turn (arguments : List String) :
      (c.withOptions (.ofPairs arguments)).1 = arguments.foldl take c ∧
        (c.withOptions (.ofPairs arguments)).2.Perm (arguments.filterMap c.refusal?) := by
    have grouped := applyAll_regrouped (Options.entries_ofPairs arguments) c
    rwa [applyAll_splitPair] at grouped
  refine ⟨(turn arguments).1, (turn arguments).2, fun d a => d.refusal?_eq c a, ?_,
    (Options.proper_ofPairs arguments).ofPairs_toPairs⟩
  obtain ⟨settings, errors⟩ := turn (arguments.filter fun a => (c.refusal? a).isNone)
  have unrefused : (arguments.filter fun a => (c.refusal? a).isNone).filterMap c.refusal? = [] :=
    List.filterMap_eq_nil_iff.2 fun a ha => Option.isNone_iff_eq_none.1 (List.mem_filter.1 ha).2
  rw [unrefused] at errors
  rw [foldl_take_filter, ← (turn arguments).1] at settings
  exact Prod.ext settings errors.eq_nil

end Config

end ScriptLang
