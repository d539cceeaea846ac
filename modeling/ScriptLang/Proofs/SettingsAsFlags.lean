import ScriptLang.Dialogue
import ScriptLang.Launch.Backend
import ScriptLang.Proofs.DecimalReading
import Mathlib.Data.List.Nodup
import Mathlib.Data.List.TakeWhile

/-!
# Settings as flags

A backend process gets its settings as flags after the endpoint.  Its endpoint is the only other
argument, and of the settings nothing is lost but empty texts: an empty include path, library or entry
point is reported as missing, and an empty directory for diagrams becomes the current one
(`settings_through_flags`).
-/

namespace ScriptLang

namespace Options

/-! ### Pairs and flags -/

/-- A key without equals sign is told from its value. -/
theorem splitPair_pairText {key : String} (plain : '=' ∉ key.toList) (value : Option String) :
    splitPair (pairText key value) = (key, value) := by
  have passes : ∀ c ∈ key.toList, decide (c ≠ '=') = true := fun c hc =>
    decide_eq_true fun same => plain (same ▸ hc)
  cases value with
  | none =>
    unfold splitPair pairText
    dsimp only
    rw [List.dropWhile_eq_nil_iff.2 passes]
  | some v =>
    have chars : (key ++ "=" ++ v).toList = key.toList ++ '=' :: v.toList := by
      simp [String.toList_append]
    unfold splitPair pairText
    dsimp only
    rw [chars, List.dropWhile_append_of_pos passes, List.takeWhile_append_of_pos passes]
    simp

theorem foldl_add_pairText {es : List (String × Option String)} (o : Options)
    (plain : ∀ e ∈ es, '=' ∉ e.1.toList) :
    (es.map fun e => pairText e.1 e.2).foldl add o = es.foldl (fun o e => o.set e.1 e.2) o := by
  induction es generalizing o with
  | nil => rfl
  | cons e es ih =>
    rw [List.map_cons, List.foldl_cons, List.foldl_cons]
    unfold add
    rw [splitPair_pairText (plain e List.mem_cons_self)]
    exact ih _ fun e' he' => plain e' (List.mem_cons_of_mem _ he')

theorem flag?_dashes {pair : String} (h : pair ≠ "") : flag? ("--" ++ pair) = some pair := by
  obtain ⟨c, cs, hcs⟩ : ∃ c cs, pair.toList = c :: cs :=
    List.exists_cons_of_ne_nil fun nothing => h (String.toList_eq_nil_iff.1 nothing)
  have chars : ("--" ++ pair).toList = '-' :: '-' :: c :: cs := by
    rw [String.toList_append, hcs]
    rfl
  unfold flag?
  rw [chars]
  exact congrArg some ((congrArg String.ofList hcs.symm).trans String.ofList_toList)

/-- Flags after an argument that is none are told from it. -/
theorem ofFlags_dashes {argument : String} (other : flag? argument = none) {pairs : List String}
    (nonempty : "" ∉ pairs) :
    ofFlags (argument :: pairs.map ("--" ++ ·)) = (ofPairs pairs, [argument]) := by
  have flags : ∀ pair ∈ pairs, flag? ("--" ++ pair) = some pair := fun pair hpair =>
    flag?_dashes fun empty => nonempty (empty ▸ hpair)
  have read : (pairs.map ("--" ++ ·)).filterMap flag? = pairs := by
    rw [List.filterMap_map]
    exact (List.filterMap_congr flags).trans List.filterMap_some
  have none_left : (pairs.map ("--" ++ ·)).filter (fun a => (flag? a).isNone) = [] := by
    refine List.filter_eq_nil_iff.2 fun a ha => ?_
    obtain ⟨pair, hpair, rfl⟩ := List.mem_map.1 ha
    simp [flags pair hpair]
  unfold ofFlags
  rw [List.filterMap_cons_none other, read, List.filter_cons_of_pos (by rw [other]; rfl), none_left]

/-! ### Groups of options -/

theorem insertInto_of_new {key : String} (value : Option String) :
    ∀ {groups : List (String × List (Option String))}, key ∉ groups.map Prod.fst →
      insertInto key value groups = groups ++ [(key, [value])]
  | [], _ => rfl
  | (k, values) :: groups, new => by
    obtain ⟨other, new⟩ := not_or.1 (mt List.mem_cons.2 new)
    rw [insertInto, if_neg (Ne.symm other), insertInto_of_new value new]
    rfl

theorem insertInto_last {key : String} (value : Option String) (values : List (Option String)) :
    ∀ {groups : List (String × List (Option String))}, key ∉ groups.map Prod.fst →
      insertInto key value (groups ++ [(key, values)]) = groups ++ [(key, values ++ [value])]
  | [], _ => by simp [insertInto]
  | (k, _) :: groups, new => by
    obtain ⟨other, new⟩ := not_or.1 (mt List.mem_cons.2 new)
    rw [List.cons_append, insertInto, if_neg (Ne.symm other), insertInto_last value values new]
    rfl

/-- Values that are given one after the other to the key that came last. -/
theorem foldl_set_last {key : String} : ∀ (more values : List (Option String))
    {groups : List (String × List (Option String))}, key ∉ groups.map Prod.fst →
    (more.map fun v => (key, v)).foldl (fun (o : Options) e => o.set e.1 e.2)
      ⟨groups ++ [(key, values)]⟩ = ⟨groups ++ [(key, values ++ more)]⟩
  | [], values, _, _ => by rw [List.append_nil]; rfl
  | v :: more, values, groups, new => by
    have first : (Options.mk (groups ++ [(key, values)])).set key v =
        ⟨groups ++ [(key, values ++ [v])]⟩ :=
      congrArg Options.mk (insertInto_last v values new)
    rw [List.map_cons, List.foldl_cons, first, foldl_set_last more (values ++ [v]) new,
      List.append_assoc]
    rfl

/-- Options that are given key by key stand as they were given; a key without values is not there. -/
theorem foldl_set_entries : ∀ (blocks groups : List (String × List (Option String))),
    (groups.map Prod.fst ++ blocks.map Prod.fst).Nodup →
    (Options.mk blocks).entries.foldl (fun (o : Options) e => o.set e.1 e.2) ⟨groups⟩ =
      ⟨groups ++ blocks.filter fun b => !b.2.isEmpty⟩
  | [], groups, _ => by rw [List.filter_nil, List.append_nil]; rfl
  | (key, []) :: blocks, groups, apart => by
    have apart' : (groups.map Prod.fst ++ blocks.map Prod.fst).Nodup :=
      apart.sublist (List.Sublist.append_left (List.sublist_cons_self _ _) _)
    exact foldl_set_entries blocks groups apart'
  | (key, v :: values) :: blocks, groups, apart => by
    have new : key ∉ groups.map Prod.fst := fun old =>
      (List.nodup_append.1 apart).2.2 key old key List.mem_cons_self rfl
    have apart' : ((groups ++ [(key, v :: values)]).map Prod.fst ++ blocks.map Prod.fst).Nodup := by
      rw [List.map_append, List.append_assoc]
      exact apart
    have split : (Options.mk ((key, v :: values) :: blocks)).entries =
        (key, v) :: (values.map fun v => (key, v)) ++ (Options.mk blocks).entries := rfl
    have first : (Options.mk groups).set key v = ⟨groups ++ [(key, [v])]⟩ :=
      congrArg Options.mk (insertInto_of_new v new)
    rw [split, List.cons_append, List.foldl_cons, first, List.foldl_append,
      foldl_set_last values [v] new, List.singleton_append, foldl_set_entries blocks _ apart',
      List.append_assoc]
    rfl

/-- Keys without values do not show. -/
theorem entries_filter (blocks : List (String × List (Option String))) :
    (Options.mk (blocks.filter fun b => !b.2.isEmpty)).entries = (Options.mk blocks).entries := by
  induction blocks with
  | nil => rfl
  | cons b blocks ih =>
    obtain ⟨key, _ | ⟨v, values⟩⟩ := b
    · exact ih
    · exact congrArg (((v :: values).map fun v => (key, v)) ++ ·) ih

end Options

namespace Config

/-! ### The options for settings -/

/-- The options for settings, key by key. -/
def blocks (c : Config) : List (String × List (Option String)) :=
  [("debug", if c.debug then [none] else []),
    ("trace", if c.trace then [none] else []),
    ("execute", if c.execute then [none] else []),
    ("list-ir", if c.listCode then [none] else []),
    ("threaded", if c.threaded then [none] else []),
    ("include", c.includePaths.map some),
    ("library", c.libraries.map some),
    ("entry", if c.entryPoint = "main" then [] else [some c.entryPoint]),
    ("max-include-depth",
      if c.maxIncludeDepth = 64 then [] else [some (toString c.maxIncludeDepth)]),
    ("max-nesting", if c.maxNesting = 128 then [] else [some (toString c.maxNesting)]),
    ("max-call-depth", if c.maxCallDepth = 10000 then [] else [some (toString c.maxCallDepth)]),
    ("graph", c.graph.toList.map some)]

theorem flagEntry_eq (key : String) (value : Bool) :
    flagEntry key value = (if value then [none] else []).map fun v => (key, v) := by
  cases value <;> rfl

theorem numberEntry_eq (key : String) (value usual : Nat) :
    numberEntry key value usual =
      (if value = usual then [] else [some (toString value)]).map fun v => (key, v) := by
  unfold numberEntry
  split <;> rfl

theorem toEntries_eq (c : Config) : c.toEntries = (Options.mk c.blocks).entries := by
  have entry : (if c.entryPoint = "main" then [] else [("entry", some c.entryPoint)]) =
      (if c.entryPoint = "main" then [] else [some c.entryPoint]).map fun v => ("entry", v) := by
    split <;> rfl
  have joined : (Options.mk c.blocks).entries =
      c.blocks.flatMap fun b => b.2.map fun v => (b.1, v) := rfl
  rw [joined]
  unfold toEntries blocks
  simp only [List.flatMap_cons, List.flatMap_nil, List.append_nil, List.append_assoc, flagEntry_eq,
    numberEntry_eq, entry, List.map_map]
  rfl

/-- Options for settings stand in their order, and no key twice. -/
theorem entries_toOptions (c : Config) : c.toOptions.entries = c.toEntries := by
  have apart : (([] : List (String × List (Option String))).map Prod.fst ++
      c.blocks.map Prod.fst).Nodup := by
    change ["debug", "trace", "execute", "list-ir", "threaded", "include", "library", "entry",
      "max-include-depth", "max-nesting", "max-call-depth", "graph"].Nodup
    decide
  unfold toOptions
  rw [toEntries_eq]
  exact (congrArg Options.entries (Options.foldl_set_entries c.blocks [] apart)).trans
    (Options.entries_filter c.blocks)

/-- No key of the options for settings has an equals sign, and none is empty. -/
theorem plain_of_mem_toEntries {c : Config} {e : String × Option String} (h : e ∈ c.toEntries) :
    '=' ∉ e.1.toList ∧ e.1 ≠ "" := by
  have keys : ∀ b ∈ c.blocks, '=' ∉ b.1.toList ∧ b.1 ≠ "" := by
    have all : ∀ key ∈ c.blocks.map Prod.fst, '=' ∉ key.toList ∧ key ≠ "" := by
      change ∀ key ∈ ["debug", "trace", "execute", "list-ir", "threaded", "include", "library",
        "entry", "max-include-depth", "max-nesting", "max-call-depth", "graph"], _
      decide
    exact fun b hb => all b.1 (List.mem_map_of_mem hb)
  rw [toEntries_eq] at h
  obtain ⟨b, hb, he⟩ := List.mem_flatMap.1 h
  obtain ⟨v, _, rfl⟩ := List.mem_map.1 he
  exact keys b hb

/-- The options for settings are read back from their pairs. -/
theorem ofPairs_toPairs (c : Config) : Options.ofPairs c.toOptions.toPairs = c.toOptions := by
  have pairs : c.toOptions.toPairs = c.toEntries.map fun e => Options.pairText e.1 e.2 := by
    unfold Options.toPairs
    rw [entries_toOptions]
  rw [pairs]
  exact Options.foldl_add_pairText {} fun e he => (plain_of_mem_toEntries he).1

/-- No pair of the options is empty. -/
theorem empty_not_mem_toPairs (c : Config) : "" ∉ c.toOptions.toPairs := by
  intro h
  unfold Options.toPairs at h
  rw [entries_toOptions] at h
  obtain ⟨⟨key, value⟩, he, empty⟩ := List.mem_map.1 h
  have key_empty : key.toList = [] := by
    have chars := congrArg String.toList empty
    unfold Options.pairText at chars
    cases value with
    | none => exact chars
    | some v =>
      simp only [String.toList_append, List.append_assoc] at chars
      exact (List.append_eq_nil_iff.1 chars).1
  exact (plain_of_mem_toEntries he).2 (String.toList_eq_nil_iff.1 key_empty)

/-! ### Settings from their options -/

variable {c c' c'' : Config} {es fs : List (String × Option String)} {xs ys : List ConfigError}

theorem applyAll_append (h : c.applyAll es = (c', xs)) (h' : c'.applyAll fs = (c'', ys)) :
    c.applyAll (es ++ fs) = (c'', xs ++ ys) := by
  induction es generalizing c xs with
  | nil =>
    cases h
    exact h'
  | cons e es ih =>
    rw [List.cons_append, applyAll] at *
    cases happly : c.apply e.1 e.2 with
    | ok c₁ =>
      rw [happly] at h
      exact ih h
    | error x =>
      rw [happly] at h
      obtain ⟨c₁, zs, hrest⟩ : ∃ c₁ zs, c.applyAll es = (c₁, zs) := ⟨_, _, rfl⟩
      dsimp only at h ⊢
      rw [hrest] at h
      cases h
      rw [ih hrest]
      rfl

theorem applyAll_flags (debug trace execute listCode threaded : Bool) :
    applyAll {} (flagEntry "debug" debug ++ flagEntry "trace" trace ++ flagEntry "execute" execute ++
      flagEntry "list-ir" listCode ++ flagEntry "threaded" threaded) =
      ({ debug, trace, execute, listCode, threaded }, []) := by
  cases debug <;> cases trace <;> cases execute <;> cases listCode <;> cases threaded <;> rfl

theorem textValue_some (key v : String) :
    textValue key (some v) = if v = "" then .error (.missingValue key) else .ok v := by
  unfold textValue
  simp only [String.isEmpty_iff]

theorem numberValue_toString {key : String} {n : Nat} (h : n < Nat.pow 2 64) :
    numberValue key (some (toString n)) = .ok n := by
  have read : Decimal.readBits? 64 (toString n).toList = some n := Decimal.readBits?_toString h
  have nonempty : toString n ≠ "" := fun empty => by
    rw [empty] at read
    cases read
  have given : textValue key (some (toString n)) = .ok (toString n) := by
    rw [textValue_some, if_neg nonempty]
  unfold numberValue
  rw [given]
  dsimp only [bind, Except.bind]
  rw [read]
  rfl

/-- A number that is not the usual one is given and read back. -/
theorem applyAll_numberEntry (key : String) (usual : Nat) (put : Nat → Config)
    (given : ∀ v, (put usual).apply key v = (numberValue key v).map put) {n : Nat}
    (fits : n < Nat.pow 2 64) : (put usual).applyAll (numberEntry key n usual) = (put n, []) := by
  unfold numberEntry
  by_cases h : n = usual
  · rw [if_pos h, h]
    rfl
  · rw [if_neg h, applyAll, given, numberValue_toString fits]
    rfl

/-- Of texts that are given one after the other, the empty ones are missed. -/
theorem applyAll_texts (key : String) (keep : List String → Config)
    (given : ∀ vs v, (keep vs).apply key (some v) = (textValue key (some v)).map
      fun v => keep (vs ++ [v])) :
    ∀ (more vs : List String), (keep vs).applyAll (more.map fun v => (key, some v)) =
      (keep (vs ++ more.filter (· ≠ "")), (more.filter (· = "")).map fun _ => .missingValue key)
  | [], vs => by rw [List.filter_nil, List.append_nil]; rfl
  | v :: more, vs => by
    rw [List.map_cons, applyAll, given, textValue_some]
    by_cases h : v = ""
    · have rest := applyAll_texts key keep given more vs
      rw [if_pos h]
      dsimp only [Except.map]
      rw [rest]
      simp [h]
    · have rest := applyAll_texts key keep given more (vs ++ [v])
      rw [if_neg h]
      change (keep (vs ++ [v])).applyAll _ = _
      rw [rest]
      simp [h]

/-- What is left of settings that went through options: all but empty texts, and the current directory
in place of an empty one. -/
def received (c : Config) : Config :=
  { c with
    includePaths := c.includePaths.filter (· ≠ "")
    libraries := c.libraries.filter (· ≠ "")
    entryPoint := if c.entryPoint = "" then "main" else c.entryPoint
    graph := c.graph.map fun dir => directoryValue (some dir) }

/-- What is missed in options for settings: a value for each empty text. -/
def missed (c : Config) : List ConfigError :=
  ((c.includePaths.filter (· = "")).map fun _ => .missingValue "include") ++
    ((c.libraries.filter (· = "")).map fun _ => .missingValue "library") ++
    if c.entryPoint = "" then [.missingValue "entry"] else []

/-- The numbers of settings have at most 64 bits. -/
structure Fits (c : Config) : Prop where
  maxIncludeDepth : c.maxIncludeDepth < Nat.pow 2 64
  maxNesting : c.maxNesting < Nat.pow 2 64
  maxCallDepth : c.maxCallDepth < Nat.pow 2 64

theorem applyAll_entry (text : String) (h : c.entryPoint = "main") :
    c.applyAll (if text = "main" then [] else [("entry", some text)]) =
      ({ c with entryPoint := if text = "" then "main" else text },
        if text = "" then [.missingValue "entry"] else []) := by
  have given : c.apply "entry" (some text) =
      (textValue "entry" (some text)).map fun v => { c with entryPoint := v } := by
    change (textValue "entry" (some text)).bind _ = _
    cases textValue "entry" (some text) <;> rfl
  obtain rfl | other := eq_or_ne text "main"
  · rw [if_pos rfl, if_neg (by decide), if_neg (by decide), ← h]
    rfl
  · rw [if_neg other, applyAll, given, textValue_some]
    by_cases empty : text = ""
    · rw [if_pos empty, if_pos empty, if_pos empty, ← h]
      rfl
    · rw [if_neg empty, if_neg empty, if_neg empty]
      rfl

/-- Settings are read back from their options, except for empty texts. -/
theorem applyAll_toEntries (fits : c.Fits) : applyAll {} c.toEntries = (c.received, c.missed) := by
  have flags := applyAll_flags c.debug c.trace c.execute c.listCode c.threaded
  let c₀ : Config :=
    { debug := c.debug, trace := c.trace, execute := c.execute, listCode := c.listCode,
      threaded := c.threaded }
  have includes := applyAll_texts "include" (fun vs => { c₀ with includePaths := vs })
    (fun vs v => by
      change (textValue "include" (some v)).bind _ = _
      cases textValue "include" (some v) <;> rfl) c.includePaths []
  let c₁ : Config := { c₀ with includePaths := c.includePaths.filter (· ≠ "") }
  have libraries := applyAll_texts "library" (fun vs => { c₁ with libraries := vs })
    (fun vs v => by
      change (textValue "library" (some v)).bind _ = _
      cases textValue "library" (some v) <;> rfl) c.libraries []
  let c₂ : Config := { c₁ with libraries := c.libraries.filter (· ≠ "") }
  have entry := applyAll_entry (c := c₂) c.entryPoint rfl
  let c₃ : Config := { c₂ with entryPoint := if c.entryPoint = "" then "main" else c.entryPoint }
  have includeDepth := applyAll_numberEntry "max-include-depth" 64
    (fun n => { c₃ with maxIncludeDepth := n })
    (fun v => by
      change (numberValue "max-include-depth" v).bind _ = _
      cases numberValue "max-include-depth" v <;> rfl) fits.maxIncludeDepth
  let c₄ : Config := { c₃ with maxIncludeDepth := c.maxIncludeDepth }
  have nesting := applyAll_numberEntry "max-nesting" 128 (fun n => { c₄ with maxNesting := n })
    (fun v => by
      change (numberValue "max-nesting" v).bind _ = _
      cases numberValue "max-nesting" v <;> rfl) fits.maxNesting
  let c₅ : Config := { c₄ with maxNesting := c.maxNesting }
  have callDepth := applyAll_numberEntry "max-call-depth" 10000
    (fun n => { c₅ with maxCallDepth := n })
    (fun v => by
      change (numberValue "max-call-depth" v).bind _ = _
      cases numberValue "max-call-depth" v <;> rfl) fits.maxCallDepth
  let c₆ : Config := { c₅ with maxCallDepth := c.maxCallDepth }
  have graph : c₆.applyAll (c.graph.toList.map fun dir => ("graph", some dir)) =
      (c.received, []) := by
    unfold received
    cases c.graph <;> rfl
  have all := applyAll_append (applyAll_append (applyAll_append (applyAll_append (applyAll_append
    (applyAll_append (applyAll_append flags includes) libraries) entry) includeDepth) nesting)
    callDepth) graph
  simp only [List.append_nil, List.nil_append] at all
  exact all

/-- None of the texts is empty. -/
structure NoEmptyText (c : Config) : Prop where
  includePaths : "" ∉ c.includePaths
  libraries : "" ∉ c.libraries
  entryPoint : c.entryPoint ≠ ""
  graph : c.graph ≠ some ""

theorem filter_eq_self_of {texts : List String} (h : "" ∉ texts) :
    texts.filter (· ≠ "") = texts ∧ texts.filter (· = "") = [] := by
  have given : ∀ t ∈ texts, t ≠ "" := fun t ht empty => h (empty ▸ ht)
  exact ⟨List.filter_eq_self.2 fun t ht => decide_eq_true (given t ht),
    List.filter_eq_nil_iff.2 fun t ht => by simpa using given t ht⟩

theorem directoryValue_some (dir : String) :
    directoryValue (some dir) = if dir = "" then "." else dir := by
  unfold directoryValue
  simp only [String.isEmpty_iff]

/-- Nothing is lost of settings exactly if none of their texts is empty. -/
theorem received_eq_self_iff : c.received = c ∧ c.missed = [] ↔ c.NoEmptyText := by
  constructor
  · rintro ⟨same, none_missed⟩
    have includePaths : c.includePaths.filter (· ≠ "") = c.includePaths :=
      congrArg Config.includePaths same
    have libraries : c.libraries.filter (· ≠ "") = c.libraries := congrArg Config.libraries same
    have graph : c.graph.map (fun dir => directoryValue (some dir)) = c.graph :=
      congrArg Config.graph same
    have kept {texts : List String} (h : texts.filter (· ≠ "") = texts) : "" ∉ texts := fun empty => by
      have given := List.filter_eq_self.1 h "" empty
      exact absurd given (by decide)
    refine ⟨kept includePaths, kept libraries, fun empty => ?_, fun empty => ?_⟩
    · unfold missed at none_missed
      rw [if_pos empty] at none_missed
      exact List.append_ne_nil_of_right_ne_nil _ (List.cons_ne_nil _ _) none_missed
    · rw [empty, Option.map_some, directoryValue_some] at graph
      exact absurd graph (by decide)
  · rintro ⟨includePaths, libraries, entryPoint, graph⟩
    have hgraph : c.graph.map (fun dir => directoryValue (some dir)) = c.graph := by
      cases hdir : c.graph with
      | none => rfl
      | some dir =>
        have given : dir ≠ "" := fun empty => graph (by rw [hdir, empty])
        rw [Option.map_some, directoryValue_some, if_neg given]
    constructor
    · unfold received
      rw [(filter_eq_self_of includePaths).1, (filter_eq_self_of libraries).1, if_neg entryPoint,
        hgraph]
    · unfold missed
      rw [(filter_eq_self_of includePaths).2, (filter_eq_self_of libraries).2, if_neg entryPoint]
      rfl

/-- The settings as flags. -/
def flags (c : Config) : List String := c.toOptions.toPairs.map ("--" ++ ·)

end Config

/-! ### The start of a backend -/

namespace Wire.Endpoint

/-- An address, or a path from the root. -/
def isAbsolute : Endpoint → Bool
  | socket path => path.toList.head? = some '/'
  | address _ => true

theorem flag?_text {e : Endpoint} (h : e.isAbsolute = true) : Options.flag? e.text = none := by
  have first : ∃ c cs, e.text.toList = c :: cs ∧ c ≠ '-' := by
    cases e with
    | socket path =>
      obtain ⟨cs, hcs⟩ := List.head?_eq_some_iff.1 (of_decide_eq_true h)
      exact ⟨'/', cs, hcs, by decide⟩
    | address a =>
      refine ⟨'t', 'c' :: 'p' :: ':' :: a.toList, ?_, by decide⟩
      change (addressMark ++ a).toList = _
      rw [String.toList_append]
      rfl
  obtain ⟨c, cs, hcs, other⟩ := first
  unfold Options.flag?
  rw [hcs]
  split
  · next heq => exact absurd (List.cons.inj heq).1 other
  · rfl

/-- A text with the mark names the address behind it. -/
theorem ofText_marked (a : String) : ofText (addressMark ++ a) = .ok (.address a) := by
  have chars : (addressMark ++ a).toList = addressMark.toList ++ a.toList := String.toList_append
  have nonempty : ¬(addressMark ++ a).isEmpty = true := fun empty => by
    rw [String.isEmpty_iff.1 empty] at chars
    cases chars
  have marked : addressMark.toList.isPrefixOf (addressMark ++ a).toList = true := by
    rw [chars]
    exact List.isPrefixOf_iff_prefix.2 (List.prefix_append _ _)
  unfold ofText
  rw [if_neg nonempty, if_pos marked, chars, ← String.length_toList, List.drop_left,
    String.ofList_toList]

/-- Such an endpoint is the one that its text names. -/
theorem ofText_text {e : Endpoint} (h : e.isAbsolute = true) : ofText e.text = .ok e := by
  cases e with
  | socket path =>
    obtain ⟨cs, hcs⟩ := List.head?_eq_some_iff.1 (of_decide_eq_true h)
    have nonempty : ¬path.isEmpty = true := fun empty => by
      rw [String.isEmpty_iff.1 empty] at hcs
      cases hcs
    have unmarked : ¬addressMark.toList.isPrefixOf path.toList = true := by
      have mark : addressMark.toList = ['t', 'c', 'p', ':'] := rfl
      rw [hcs, mark]
      simp [List.isPrefixOf]
    have path_only : ¬isHostAndPort path.toList = true := by
      unfold isHostAndPort
      rw [hcs]
      simp
    unfold ofText text
    rw [if_neg nonempty, if_neg unmarked, if_neg path_only]
  | address a => exact ofText_marked a

end Wire.Endpoint

namespace Backend

/-- A backend that is started with an endpoint and the flags for some settings has the endpoint as its
only other argument.  It listens there, with these settings less their empty texts; each of those is
reported, except that an empty directory becomes the current one.  So its settings are the same without
an error exactly if none of their texts is empty. -/
theorem settings_through_flags (c : Config) (fits : c.Fits) (e : Wire.Endpoint)
    (absolute : e.isAbsolute = true) :
    Options.ofFlags (e.text :: c.flags) = (c.toOptions, [e.text]) ∧
    Config.withOptions {} c.toOptions = (c.received, c.missed) ∧
    (c.received = c ∧ c.missed = [] ↔ c.NoEmptyText) ∧
    Frontend.throughFlags c = c.received ∧
    ∀ host, listen host e = .ok () → launch (e.text :: c.flags) host = .ok (e, c.received) := by
  have split : Options.ofFlags (e.text :: c.flags) = (c.toOptions, [e.text]) := by
    unfold Config.flags
    rw [Options.ofFlags_dashes (Wire.Endpoint.flag?_text absolute) c.empty_not_mem_toPairs,
      c.ofPairs_toPairs]
  have applied : Config.withOptions {} c.toOptions = (c.received, c.missed) := by
    unfold Config.withOptions
    rw [Config.entries_toOptions, Config.applyAll_toEntries fits]
  refine ⟨split, applied, Config.received_eq_self_iff, ?_, fun host listens => ?_⟩
  · have same : (Options.ofFlags (e.text :: c.flags)).1 = (Options.ofFlags c.flags).1 := by
      unfold Options.ofFlags
      rw [List.filterMap_cons_none (Wire.Endpoint.flag?_text absolute)]
    change (Config.withOptions {} (Options.ofFlags c.flags).1).1 = _
    rw [← same, split, applied]
  · unfold launch
    rw [split]
    dsimp only
    rw [Wire.Endpoint.ofText_text absolute]
    change ((listen host e).mapError LaunchError.protocol).bind _ = _
    rw [listens]
    change Except.ok (e, (Config.withOptions {} c.toOptions).1) = _
    rw [applied]

/-- Settings whose texts look like options, and one that is empty. -/
def oddSettings : Config where
  execute := true
  includePaths := ["--debug", "a=b"]
  libraries := ["", "m"]
  entryPoint := "x y"
  maxCallDepth := 500

/-- Of these settings only the empty name of a library is lost. -/
theorem oddSettings_received :
    Options.ofFlags ("/run/b.sock" :: oddSettings.flags) = (oddSettings.toOptions, ["/run/b.sock"]) ∧
    Config.withOptions {} oddSettings.toOptions =
      ({ oddSettings with libraries := ["m"] }, [.missingValue "library"]) := by
  have through := settings_through_flags oddSettings ⟨by decide, by decide, by decide⟩
    (.socket "/run/b.sock") rfl
  exact ⟨through.1, through.2.1.trans (by decide)⟩

end Backend

end ScriptLang
