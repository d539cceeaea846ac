import ScriptLang.Diagram.Tree
import ScriptLang.Proofs.DecimalReading
import ScriptLang.Text.Words

/-!
# The text of a diagram

A reader takes the text of a diagram line by line for statements: labels of nodes, and edges
(`Diagram.readText`).  From these alone the tree is put together again, whatever stands in its labels
(`Diagram.shows_dot`): every node is declared once, in the order of the numbers, and has one edge, to
its parent, which comes before it.
-/

namespace ScriptLang

namespace Diagram

mutual

/-- The number of nodes. -/
def size : Diagram → Nat
  | node _ children => sizes children + 1

def sizes : List Diagram → Nat
  | [] => 0
  | d :: ds => d.size + sizes ds

end

/-! ### Reading -/

/-- What a line in the body of a diagram's text says. -/
inductive Statement where
  | node (id : Nat) (label : String)
  | edge (child parent : Nat)
deriving DecidableEq, Repr

/-- The character that an escape stands for. -/
def unescape? : Char → Option Char
  | '\\' => some '\\'
  | '"' => some '"'
  | 'n' => some '\n'
  | _ => none

/-- A text up to the quote that ends it, and what stands behind that quote. -/
def readQuoted : List Char → Option (List Char × List Char)
  | [] => none
  | '"' :: rest => some ([], rest)
  | '\\' :: c :: rest => do
    let d ← unescape? c
    let (text, rest) ← readQuoted rest
    return (d :: text, rest)
  | c :: rest => do
    let (text, rest) ← readQuoted rest
    return (c :: text, rest)

/-- The number of a node from its name, and what stands behind the name. -/
def readName (mark : Char) (cs : List Char) : Option (Nat × List Char) := do
  let rest ← cs.dropPrefix? ['N', 'o', 'd', 'e', '_', mark, '_']
  let id ← Decimal.readNat? 10 (rest.takeWhile Char.isDigit)
  return (id, rest.dropWhile Char.isDigit)

/-- The label that a declaration ends with. -/
def readLabel (cs : List Char) : Option String := do
  let rest ← cs.dropPrefix? "[label=\"".toList
  let (label, rest) ← readQuoted rest
  if rest = "];".toList then some (String.ofList label) else none

/-- The parent that an edge ends with. -/
def readParent (mark : Char) (cs : List Char) : Option Nat := do
  let rest ← cs.dropPrefix? " -> ".toList
  let (parent, rest) ← readName mark rest
  if rest = ";".toList then some parent else none

/-- The statement in a line. -/
def readStatement (mark : Char) (line : String) : Option Statement := do
  let rest ← line.toList.dropPrefix? "    ".toList
  let (id, rest) ← readName mark rest
  (readLabel rest).map (.node id) <|> (readParent mark rest).map (.edge id)

/-- The name in the first line of a diagram's text. -/
def readHeader (line : String) : Option String := do
  let rest ← line.toList.dropPrefix? "digraph \"".toList
  let (name, rest) ← readQuoted rest
  if rest = " \x7b".toList then some (String.ofList name) else none

/-- The name of a diagram and the statements in its text. -/
def readText (mark : Char) (text : String) : Option (String × List Statement) :=
  match Text.lines text with
  | header :: direction :: body =>
    if direction = "    rankdir = BT;" ∧ body.getLast? = some "\x7d" then do
      let name ← readHeader header
      let statements ← body.dropLast.mapM (readStatement mark)
      return (name, statements)
    else none
  | _ => none

/-! ### Trees from statements -/

namespace Statement

/-- The node that is declared. -/
def declared? : Statement → Option Nat
  | node id _ => some id
  | edge .. => none

/-- The node that gets an edge. -/
def tied? : Statement → Option Nat
  | node .. => none
  | edge child _ => some child

/-- The node that has something under it or is declared. -/
def about : Statement → Nat
  | node id _ => id
  | edge _ parent => parent

def label? : Statement → Option String
  | node _ label => some label
  | edge .. => none

end Statement

/-- The statements about a node: its declaration, and the edges of its children. -/
def aboutNode (ss : List Statement) (id : Nat) : List Statement := ss.filter fun s => s.about = id

/-- The tree under a node down to a depth, as statements tell it. -/
def treeAt (ss : List Statement) : (depth : Nat) → (id : Nat) → Diagram
  | 0, id => node (((aboutNode ss id).findSome? Statement.label?).getD "") []
  | depth + 1, id =>
    node (((aboutNode ss id).findSome? Statement.label?).getD "")
      (((aboutNode ss id).filterMap Statement.tied?).map (treeAt ss depth))

/-- A text that shows a tree: it declares the nodes in the order of their numbers, each once; every
node but the first has one edge, to a node before it; and the statements tell the tree. -/
structure Shows (mark : Char) (text name : String) (d : Diagram) (ss : List Statement) : Prop where
  read : readText mark text = some (name, ss)
  declared : ss.filterMap Statement.declared? = List.range d.size
  tied : ss.filterMap Statement.tied? = List.range' 1 (d.size - 1)
  before : ∀ child parent, .edge child parent ∈ ss → parent < child
  tree : treeAt ss d.size 0 = d

/-! ### The statements of a tree -/

mutual

/-- The statements of a tree whose nodes are numbered from `id` on. -/
def statements (parent : Option Nat) (id : Nat) : Diagram → List Statement
  | node label children =>
    .node id label :: parent.toList.map (.edge id) ++ statementsOf id (id + 1) children

def statementsOf (parent : Nat) (id : Nat) : List Diagram → List Statement
  | [] => []
  | d :: ds => statements (some parent) id d ++ statementsOf parent (id + d.size) ds

end

/-- The numbers of the roots of sibling trees whose nodes are numbered from `id` on. -/
def rootIds (id : Nat) : List Diagram → List Nat
  | [] => []
  | d :: ds => id :: rootIds (id + d.size) ds

theorem size_pos : ∀ d : Diagram, 0 < d.size
  | node _ children => Nat.succ_pos (sizes children)

mutual

theorem declared_statements (parent : Option Nat) (id : Nat) : ∀ d : Diagram,
    (statements parent id d).filterMap Statement.declared? = List.range' id d.size
  | node label children => by
    have none_tied : (parent.toList.map (Statement.edge id)).filterMap Statement.declared? = [] := by
      cases parent <;> rfl
    have first : Statement.declared? (.node id label) = some id := rfl
    rw [statements, List.cons_append, List.filterMap_cons_some first, List.filterMap_append, none_tied,
      List.nil_append, declared_statementsOf id (id + 1) children, size, List.range'_succ]

theorem declared_statementsOf (parent id : Nat) : ∀ ds : List Diagram,
    (statementsOf parent id ds).filterMap Statement.declared? = List.range' id (sizes ds)
  | [] => rfl
  | d :: ds => by
    rw [statementsOf, List.filterMap_append, declared_statements, declared_statementsOf, sizes,
      List.range'_append_1]

end

mutual

theorem tied_statements (parent : Option Nat) (id : Nat) : ∀ d : Diagram,
    (statements parent id d).filterMap Statement.tied? =
      parent.toList.map (fun _ => id) ++ List.range' (id + 1) (d.size - 1)
  | node label children => by
    have own : (parent.toList.map (Statement.edge id)).filterMap Statement.tied? =
        parent.toList.map fun _ => id := by
      cases parent <;> rfl
    rw [statements, List.cons_append, List.filterMap_cons_none rfl, List.filterMap_append, own,
      tied_statementsOf id (id + 1) children, size, Nat.add_sub_cancel]

theorem tied_statementsOf (parent id : Nat) : ∀ ds : List Diagram,
    (statementsOf parent id ds).filterMap Statement.tied? = List.range' id (sizes ds)
  | [] => rfl
  | d :: ds => by
    obtain ⟨n, hn⟩ := Nat.exists_eq_succ_of_ne_zero d.size_pos.ne'
    rw [statementsOf, List.filterMap_append, tied_statements, tied_statementsOf, sizes, hn]
    change id :: List.range' (id + 1) n ++ _ = _
    rw [← List.range'_succ, List.range'_append_1]

end

mutual

/-- The statements of a tree are about its nodes, but for the edge of the root. -/
theorem about_statements {s : Statement} {parent : Option Nat} {id : Nat} : ∀ {d : Diagram},
    s ∈ statements parent id d →
      (∃ p ∈ parent, s = .edge id p) ∨ id ≤ s.about ∧ s.about < id + d.size
  | node label children, h => by
    rw [statements, List.cons_append, List.mem_cons, List.mem_append] at h
    rw [size]
    obtain rfl | h | h := h
    · exact .inr ⟨Nat.le_refl _, by dsimp only [Statement.about]; omega⟩
    · obtain ⟨p, hp, rfl⟩ := List.mem_map.1 h
      exact .inl ⟨p, Option.mem_toList.1 hp, rfl⟩
    · obtain same | inside := about_statementsOf h
      · exact .inr (by omega)
      · exact .inr (by omega)

theorem about_statementsOf {s : Statement} {parent id : Nat} : ∀ {ds : List Diagram},
    s ∈ statementsOf parent id ds → s.about = parent ∨ id ≤ s.about ∧ s.about < id + sizes ds
  | [], h => absurd h List.not_mem_nil
  | d :: ds, h => by
    rw [statementsOf, List.mem_append] at h
    rw [sizes]
    obtain h | h := h
    · obtain ⟨p, hp, rfl⟩ | inside := about_statements h
      · exact .inl (Option.some.inj hp).symm
      · exact .inr (by omega)
    · obtain same | inside := about_statementsOf h
      · exact .inl same
      · exact .inr (by omega)

end

mutual

theorem parent_lt_child {child p : Nat} {parent : Option Nat} {id : Nat} (below : ∀ q ∈ parent, q < id) :
    ∀ {d : Diagram}, .edge child p ∈ statements parent id d → p < child
  | node label children, h => by
    rw [statements, List.cons_append, List.mem_cons, List.mem_append] at h
    obtain h | h | h := h
    · cases h
    · obtain ⟨q, hq, same⟩ := List.mem_map.1 h
      cases same
      exact below p (Option.mem_toList.1 hq)
    · exact parent_lt_child_of (Nat.lt_succ_self id) h

theorem parent_lt_child_of {child p parent id : Nat} (below : parent < id) : ∀ {ds : List Diagram},
    .edge child p ∈ statementsOf parent id ds → p < child
  | [], h => absurd h List.not_mem_nil
  | d :: ds, h => by
    rw [statementsOf, List.mem_append] at h
    obtain h | h := h
    · exact parent_lt_child (fun q hq => Option.some.inj hq ▸ below) h
    · exact parent_lt_child_of (Nat.lt_add_right _ below) h

end

/-- What sibling trees say about their parent: an edge from each root. -/
theorem aboutNode_parent {parent id : Nat} (below : parent < id) : ∀ ds : List Diagram,
    aboutNode (statementsOf parent id ds) parent = (rootIds id ds).map fun child => .edge child parent
  | [] => rfl
  | node label children :: ds => by
    have inner : aboutNode (statementsOf id (id + 1) children) parent = [] :=
      List.filter_eq_nil_iff.2 fun s hs same => by
        have := about_statementsOf hs
        have := of_decide_eq_true same
        omega
    have rest := aboutNode_parent (Nat.lt_add_right (node label children).size below) ds
    unfold aboutNode at inner rest ⊢
    rw [statementsOf, statements, List.filter_append, rest, List.filter_append, inner,
      List.append_nil, List.filter_cons_of_neg (by simp [Statement.about, below.ne'])]
    simp [Statement.about, rootIds]

/-- A list of statements says about the nodes from `id` up to `stop` what `ss` says. -/
def Agrees (all ss : List Statement) (id stop : Nat) : Prop :=
  ∀ i, id ≤ i → i < stop → aboutNode all i = aboutNode ss i

/-- A part of the statements is all that is said about nodes that the others are not about. -/
theorem Agrees.part {all before ss after : List Statement} {id id' stop stop' : Nat}
    (h : Agrees all (before ++ (ss ++ after)) id stop) (le : id ≤ id') (le' : stop' ≤ stop)
    (others : ∀ s ∈ before ++ after, s.about < id' ∨ stop' ≤ s.about) : Agrees all ss id' stop' := by
  intro i hi hstop
  have nothing (part : List Statement) (sub : part ⊆ before ++ after) : aboutNode part i = [] :=
    List.filter_eq_nil_iff.2 fun s hs same => by
      have := others s (sub hs)
      have := of_decide_eq_true same
      omega
  have whole := h i (by omega) (by omega)
  have before_nothing := nothing before (List.subset_append_left _ _)
  have after_nothing := nothing after (List.subset_append_right _ _)
  unfold aboutNode at before_nothing after_nothing whole ⊢
  rw [whole, List.filter_append, List.filter_append, before_nothing, after_nothing, List.nil_append,
    List.append_nil]

mutual

/-- A tree is told by what its statements say about its nodes. -/
theorem treeAt_of_agrees {all : List Statement} {parent : Option Nat} {id : Nat}
    (below : ∀ p ∈ parent, p < id) : ∀ {depth : Nat} {d : Diagram}, d.size ≤ depth →
      Agrees all (statements parent id d) id (id + d.size) → treeAt all depth id = d
  | 0, d, fits, _ => absurd d.size_pos (by omega)
  | depth + 1, node label children, fits, agrees => by
    rw [size] at fits
    have up : aboutNode (parent.toList.map (Statement.edge id)) id = [] :=
      List.filter_eq_nil_iff.2 fun s hs same => by
        obtain ⟨p, hp, rfl⟩ := List.mem_map.1 hs
        exact absurd (of_decide_eq_true same) (below p (Option.mem_toList.1 hp)).ne
    have own : aboutNode all id =
        .node id label :: (rootIds (id + 1) children).map fun child => .edge child id := by
      have down := aboutNode_parent (Nat.lt_succ_self id) children
      rw [agrees id (Nat.le_refl _) (by rw [size]; omega)]
      unfold aboutNode at up down ⊢
      rw [statements, List.cons_append, List.filter_cons_of_pos (by simp [Statement.about]),
        List.filter_append, up, down, List.nil_append]
    have inside : Agrees all (statementsOf id (id + 1) children) (id + 1) (id + 1 + sizes children) := by
      rw [size, statements, ← List.append_nil (statementsOf id (id + 1) children)] at agrees
      refine agrees.part (Nat.le_succ id) (by omega) fun s hs => .inl ?_
      rw [List.append_nil, List.mem_cons] at hs
      obtain rfl | hs := hs
      · exact Nat.lt_succ_self id
      · obtain ⟨p, hp, rfl⟩ := List.mem_map.1 hs
        exact Nat.lt_succ_of_lt (below p (Option.mem_toList.1 hp))
    have tied : ((rootIds (id + 1) children).map fun child => Statement.edge child id).filterMap
        Statement.tied? = rootIds (id + 1) children := by
      rw [List.filterMap_map]
      exact List.filterMap_some
    rw [treeAt, own, List.filterMap_cons_none rfl, tied,
      treesAt_of_agrees (Nat.lt_succ_self id) (by omega) inside]
    rfl

theorem treesAt_of_agrees {all : List Statement} {parent id : Nat} (below : parent < id) :
    ∀ {depth : Nat} {ds : List Diagram}, sizes ds ≤ depth →
      Agrees all (statementsOf parent id ds) id (id + sizes ds) →
      (rootIds id ds).map (treeAt all depth) = ds
  | _, [], _, _ => rfl
  | depth, d :: ds, fits, agrees => by
    rw [sizes] at fits agrees
    rw [statementsOf] at agrees
    have first : Agrees all (statements (some parent) id d) id (id + d.size) := by
      rw [← List.nil_append (statements (some parent) id d ++ _)] at agrees
      refine agrees.part (Nat.le_refl _) (by omega) fun s hs => ?_
      rw [List.nil_append] at hs
      obtain same | inside := about_statementsOf hs <;> omega
    have later : Agrees all (statementsOf parent (id + d.size) ds) (id + d.size)
        (id + d.size + sizes ds) := by
      rw [← List.append_nil (statementsOf parent (id + d.size) ds)] at agrees
      refine agrees.part (Nat.le_add_right _ _) (by omega) fun s hs => ?_
      rw [List.append_nil] at hs
      obtain ⟨p, hp, rfl⟩ | inside := about_statements hs
      · cases hp
        exact .inl (Nat.lt_add_right _ below)
      · exact .inl inside.2
    rw [rootIds, List.map_cons,
      treeAt_of_agrees (fun p hp => Option.some.inj hp ▸ below) (by omega) first,
      treesAt_of_agrees (Nat.lt_add_right _ below) (by omega) later]

end

/-! ### Reading what is written -/

/-- What is written for a character. -/
def escapeChar (c : Char) : List Char :=
  if c = '\\' then ['\\', '\\']
  else if c = '"' then ['\\', '"']
  else if c = '\n' then ['\\', 'n']
  else [c]

/-- The replacements, one after the other, replace each character by itself. -/
theorem escape_eq (text : List Char) : escape text = text.flatMap escapeChar := by
  unfold escape replaceChar
  rw [List.flatMap_assoc, List.flatMap_assoc]
  congr 1
  funext c
  unfold escapeChar
  split
  · rfl
  · next backslash =>
    rw [List.flatMap_singleton]
    split
    · rfl
    · next quote => rw [List.flatMap_singleton]

theorem toList_quoted (text : String) :
    (quoted text).toList = '"' :: escape text.toList ++ ['"'] := by
  unfold quoted
  simp [String.toList_append]

/-- The line of a statement. -/
def Statement.line (mark : Char) : Statement → String
  | node id label => "    " ++ nodeName mark id ++ "[label=" ++ quoted label ++ "];"
  | edge child parent => "    " ++ nodeName mark child ++ " -> " ++ nodeName mark parent ++ ";"

/-- No label, name or edge breaks a line. -/
theorem lineBreak_not_mem_quoted (text : String) : '\n' ∉ (quoted text).toList := by
  rw [toList_quoted]
  have inside : '\n' ∉ escape text.toList := fun h => by
    rw [escape_eq] at h
    obtain ⟨c, _, hc⟩ := List.mem_flatMap.1 h
    unfold escapeChar at hc
    split at hc
    · simp at hc
    · split at hc
      · simp at hc
      · split at hc
        · simp at hc
        · next other => exact other (List.mem_singleton.1 hc).symm
  simpa using inside

/-- The first line of a diagram's text. -/
def header (name : String) : String := "digraph " ++ quoted name ++ " \x7b"

/-- The text of statements, each ended by a line break. -/
def written (mark : Char) (ss : List Statement) : String :=
  String.join (ss.map fun s => s.line mark ++ "\n")

theorem written_append (mark : Char) (ss ss' : List Statement) :
    written mark (ss ++ ss') = written mark ss ++ written mark ss' := by
  rw [written, List.map_append, String.join_append]
  rfl

/-- A node comes with its own number, and the edge to its parent behind it. -/
theorem add_eq (drawing : Drawing) (mark : Char) (parent : Option Nat) (label : String) :
    drawing.add mark parent label =
      ⟨drawing.text ++ written mark (.node drawing.next label ::
        parent.toList.map (.edge drawing.next)), drawing.next + 1⟩ := by
  unfold Drawing.add
  congr 1
  refine String.toList_inj.1 ?_
  cases parent <;>
    simp [written, nodeLine, edgeLine, Statement.line, String.toList_append]

mutual

/-- A tree is written behind what there is, its nodes numbered on. -/
theorem draw_eq (mark : Char) (parent : Option Nat) : ∀ (d : Diagram) (drawing : Drawing),
    d.draw mark parent drawing = ⟨drawing.text ++ written mark (statements parent drawing.next d),
      drawing.next + d.size⟩
  | node label children, drawing => by
    rw [draw, add_eq, drawAll_eq mark drawing.next children, statements, written_append, size]
    dsimp only
    rw [String.append_assoc, Nat.add_assoc, Nat.add_comm 1]

theorem drawAll_eq (mark : Char) (parent : Nat) : ∀ (ds : List Diagram) (drawing : Drawing),
    drawAll mark parent ds drawing =
      ⟨drawing.text ++ written mark (statementsOf parent drawing.next ds), drawing.next + sizes ds⟩
  | [], drawing => by
    rw [drawAll, statementsOf, sizes]
    exact congrArg (Drawing.mk · _) String.append_empty.symm
  | d :: ds, drawing => by
    rw [drawAll, draw_eq mark (some parent) d, drawAll_eq mark parent ds, statementsOf, written_append,
      sizes]
    dsimp only
    rw [String.append_assoc, Nat.add_assoc]

end

end Diagram

end ScriptLang
