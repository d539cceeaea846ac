import Mathlib.Data.List.Perm.Subperm
import ScriptLang.Proofs.Nesting

/-!
# The identities of nodes

No two nodes of a program have the same identity, whatever its sources and whatever errors they have
(`ids_nodup`).  Parsers draw identities from a counter that only grows, some before the parts of a node
and some after them; what fails leaves a gap.  `Draws I p Q` says what a parser makes of the counter:
from where `I` holds of it, the counter grows, and `Q` holds of it and of a result.  Identities that
are held meanwhile, and were drawn before, stay apart from what is drawn (`Held`).
-/

namespace ScriptLang.Syntax

/-! ### Identities in trees -/

mutual

/-- The identities of an expression and of those in it. -/
def Expr.ids : Expr → List Nat
  | .integer n _ _ | .decimal n _ | .string n _ | .bool n _ | .name n _ => [n.id]
  | .unary n _ e | .cast n e _ => n.id :: e.ids
  | .binary n _ l r => n.id :: (l.ids ++ r.ids)
  | .ternary n c a b => n.id :: (c.ids ++ (a.ids ++ b.ids))
  | .call n _ args => n.id :: Expr.argsIds args

def Expr.argsIds : List Expr → List Nat
  | [] => []
  | e :: es => e.ids ++ Expr.argsIds es

end

def Expr.optionIds (e : Option Expr) : List Nat := (e.map Expr.ids).getD []

/-- The identities of a variable and of its initial value. -/
def VarDecl.ids (d : VarDecl) : List Nat := d.node.id :: Expr.optionIds d.init

mutual

/-- The identities of a statement and of all that is in it. -/
def Stmt.ids : Stmt → List Nat
  | .block n b | .loop n b => n.id :: b.ids
  | .var n decl => n.id :: decl.ids
  | .assign n _ _ e | .expr n e => n.id :: e.ids
  | .cond n bs => n.id :: bs.ids
  | .while n c b => n.id :: (c.ids ++ b.ids)
  | .for n _ start stop b => n.id :: (start.ids ++ (stop.ids ++ b.ids))
  | .ret n e => n.id :: Expr.optionIds e
  | .break n | .continue n => [n.id]

def Stmt.listIds : List Stmt → List Nat
  | [] => []
  | s :: ss => s.ids ++ Stmt.listIds ss

def Block.ids : Block → List Nat
  | .mk n ss => n.id :: Stmt.listIds ss

def Branches.ids : Branches → List Nat
  | .none => []
  | .otherwise b => b.ids
  | .branch c b rest => c.ids ++ (b.ids ++ rest.ids)

end

attribute [local simp] Expr.ids Stmt.ids

def FunctionBody.ids : FunctionBody → List Nat
  | .block b => b.ids
  | .native _ | .intrinsic _ => []

def ItemKind.ids : ItemKind → List Nat
  | .function f => f.body.ids
  | .variable decl => decl.ids
  | .imported _ => []

/-- The identities of an item and of all that is in it. -/
def Item.ids (i : Item) : List Nat := i.node.id :: i.kind.ids

def Item.listIds (is : List Item) : List Nat := is.flatMap Item.ids

/-- The identities of the items, variables, blocks, statements and expressions of a program. -/
def Program.ids (p : Program) : List Nat := Item.listIds p.items

/-! ### Identities that are held -/

/-- The identities are different, and all were drawn before the counter came to `n`. -/
structure Held (ids : List Nat) (n : Nat) : Prop where
  nodup : ids.Nodup
  drawn : ∀ id ∈ ids, id < n

section

variable {ids ids' : List Nat} {n n' : Nat}

theorem Held.mono (h : Held ids n) (le : n ≤ n') : Held ids n' :=
  ⟨h.nodup, fun id hid => Nat.lt_of_lt_of_le (h.drawn id hid) le⟩

/-- Some of the identities may be given up, and their order does not count. -/
theorem Held.sub (h : Held ids n) (sub : ∀ id, ids'.count id ≤ ids.count id) : Held ids' n := by
  have subperm := List.subperm_iff_count.2 sub
  refine ⟨?_, fun id hid => h.drawn id (subperm.subset hid)⟩
  obtain ⟨part, perm, sublist⟩ := subperm
  exact perm.nodup_iff.1 (h.nodup.sublist sublist)

theorem Held.draw (h : Held ids n) : Held (n :: ids) (n + 1) where
  nodup := List.nodup_cons.2 ⟨fun mem => Nat.lt_irrefl _ (h.drawn n mem), h.nodup⟩
  drawn := List.forall_mem_cons.2 ⟨Nat.lt_succ_self n, fun id hid => Nat.lt_succ_of_lt (h.drawn id hid)⟩

end

/-! ### What parsers draw -/

/-- From where `I` holds of the counter the parser does not set it back, and `Q` holds of what it gives
and of the counter then. -/
def Draws {α : Type} (I : Nat → Prop) (p : Parser α) (Q : α → Nat → Prop) : Prop :=
  ∀ s : ParserState, I s.nextId →
    s.nextId ≤ (p.run.run s).2.nextId ∧ ∀ a, (p.run.run s).1 = .ok a → Q a (p.run.run s).2.nextId

/-- The parser draws nothing. -/
def Quiet {α : Type} (p : Parser α) : Prop := ∀ I, Draws I p fun _ => I

/-- The parser draws the identities of what it gives, whatever is held meanwhile. -/
def Adds {α : Type} (p : Parser α) (ids : α → List Nat) : Prop :=
  ∀ held, Draws (Held held) p fun a => Held (ids a ++ held)

section

variable {α β : Type} {p q : Parser α} {f : α → Parser β} {I : Nat → Prop} {Q : α → Nat → Prop}
  {R : β → Nat → Prop}

theorem Draws.pure {a : α} (h : ∀ n, I n → Q a n) : Draws I (Pure.pure a : Parser α) Q :=
  fun _ hs => ⟨Nat.le_refl _, fun _ ha => by cases ha; exact h _ hs⟩

theorem Draws.throw {e : ParseError} : Draws I (throw e : Parser α) Q :=
  fun _ _ => ⟨Nat.le_refl _, nofun⟩

theorem Draws.bind (hp : Draws I p Q) (hf : ∀ a, Draws (Q a) (f a) R) : Draws I (p >>= f) R := by
  intro s hs
  obtain ⟨grows, gives⟩ := hp s hs
  rw [run_bind]
  generalize p.run.run s = first at grows gives
  obtain ⟨r, t⟩ := first
  cases r with
  | error e => exact ⟨grows, nofun⟩
  | ok a =>
    have second := hf a t (gives a rfl)
    exact ⟨Nat.le_trans grows second.1, second.2⟩

/-- What comes first draws nothing. -/
theorem Draws.behind (hp : Quiet p) (hf : ∀ a, Draws I (f a) R) : Draws I (p >>= f) R :=
  (hp I).bind hf

theorem Draws.ite {c : Prop} [Decidable c] (hp : Draws I p Q) (hq : Draws I q Q) :
    Draws I (if c then p else q) Q := by
  split
  · exact hp
  · exact hq

theorem Draws.tryCatch {handle : ParseError → Parser α} (hp : Draws I p Q)
    (grown : ∀ n n', n ≤ n' → I n → I n') (hhandle : ∀ e, Draws I (handle e) Q) :
    Draws I (tryCatchThe ParseError p handle) Q := by
  intro s hs
  obtain ⟨grows, gives⟩ := hp s hs
  rw [run_tryCatch]
  generalize p.run.run s = first at grows gives
  obtain ⟨r, t⟩ := first
  cases r with
  | ok a => exact ⟨grows, fun b hb => by cases hb; exact gives a rfl⟩
  | error e =>
    have second := hhandle e t (grown _ _ grows hs)
    exact ⟨Nat.le_trans grows second.1, second.2⟩

theorem Adds.bind {ids : α → List Nat} {held : List Nat} (hp : Adds p ids)
    (hf : ∀ a, Draws (Held (ids a ++ held)) (f a) R) : Draws (Held held) (p >>= f) R :=
  (hp held).bind hf

theorem Quiet.bind (hp : Quiet p) (hf : ∀ a, Quiet (f a)) : Quiet (p >>= f) :=
  fun I => .behind hp fun a => hf a I

theorem Quiet.pure {a : α} : Quiet (Pure.pure a : Parser α) := fun _ => .pure fun _ h => h

theorem Quiet.throw {e : ParseError} : Quiet (throw e : Parser α) := fun _ => .throw

theorem Quiet.ite {c : Prop} [Decidable c] (hp : Quiet p) (hq : Quiet q) :
    Quiet (if c then p else q) := fun I => .ite (hp I) (hq I)

/-- What changes only tokens and errors draws nothing. -/
theorem quiet_modifyGet {g : ParserState → α × ParserState}
    (keeps : ∀ s, (g s).2.nextId = s.nextId) : Quiet (modifyGet g : Parser α) := by
  intro I s hs
  have after : ((modifyGet g : Parser α).run.run s).2.nextId = s.nextId := keeps s
  rw [after]
  exact ⟨Nat.le_refl _, fun _ _ => hs⟩

end

/-! ### Tokens and errors -/

theorem quiet_get : Quiet (get : Parser ParserState) := fun _ _ hs => ⟨Nat.le_refl _, fun _ _ => hs⟩

theorem quiet_peekNth (n : Nat) : Quiet (Parser.peekNth n) := quiet_modifyGet fun _ => rfl

theorem quiet_peek : Quiet Parser.peek := quiet_peekNth 0

theorem quiet_next : Quiet Parser.next := quiet_modifyGet fun _ => rfl

theorem quiet_remaining : Quiet Parser.remaining := quiet_get.bind fun _ => .pure

theorem quiet_expectIf (test : Token → Bool) (what : String) : Quiet (Parser.expectIf test what) :=
  quiet_peek.bind fun _ => .ite quiet_next .throw

theorem quiet_acceptIf (test : Token → Bool) : Quiet (Parser.acceptIf test) :=
  quiet_peek.bind fun _ => .ite (quiet_next.bind fun _ => .pure) .pure

theorem quiet_reportFound : Quiet Parser.reportFound := quiet_modifyGet fun _ => rfl

theorem quiet_report (e : ParseError) : Quiet (Parser.report e) :=
  quiet_reportFound.bind fun _ => quiet_modifyGet fun _ => rfl

theorem quiet_failExpected {α : Type} (what : String) : Quiet (Parser.failExpected what : Parser α) :=
  quiet_peek.bind fun _ => .throw

theorem quiet_ident : Quiet Parser.ident := (quiet_expectIf _ _).bind fun _ => .pure

theorem quiet_typeName : Quiet Parser.typeName := (quiet_expectIf _ _).bind fun _ => .pure

theorem quiet_suffix : Quiet Parser.suffix :=
  quiet_peek.bind fun _ => .ite (quiet_next.bind fun _ => .pure) .pure

theorem quiet_skipStatement : ∀ fuel depth, Quiet (Parser.skipStatement fuel depth)
  | 0, _ => .pure
  | fuel + 1, depth => by
    unfold Parser.skipStatement
    refine quiet_peek.bind fun t => .ite .pure (.ite ?_ (quiet_next.bind fun _ => ?_))
    · cases depth with
      | zero => exact .pure
      | succ depth => exact quiet_next.bind fun _ => quiet_skipStatement fuel depth
    · exact .ite (quiet_skipStatement fuel _) (.ite .pure (quiet_skipStatement fuel _))

theorem quiet_skipItem : ∀ fuel depth, Quiet (Parser.skipItem fuel depth)
  | 0, _ => .pure
  | fuel + 1, depth => by
    unfold Parser.skipItem
    refine quiet_peek.bind fun t => .ite .pure (quiet_next.bind fun _ => ?_)
    exact .ite (quiet_skipItem fuel _) (.ite (quiet_skipItem fuel _) (quiet_skipItem fuel _))

theorem quiet_paramList : ∀ fuel, Quiet (Parser.paramList fuel)
  | 0 => quiet_failExpected _
  | fuel + 1 => by
    unfold Parser.paramList
    refine quiet_ident.bind fun _ => (quiet_expectIf _ _).bind fun _ => quiet_typeName.bind fun _ => ?_
    refine (quiet_acceptIf _).bind fun _ => .ite ((quiet_paramList fuel).bind fun _ => .pure) ?_
    exact (quiet_expectIf _ _).bind fun _ => .pure

theorem quiet_outsideName : Quiet Parser.outsideName :=
  (quiet_expectIf _ _).bind fun _ => (quiet_expectIf _ _).bind fun _ => .pure

theorem quiet_importName : Quiet Parser.importName :=
  quiet_peek.bind fun _ => .ite (quiet_next.bind fun _ => .pure) (quiet_ident.bind fun _ => .pure)

/-- A node takes the next identity. -/
theorem adds_nodeAt (token : Token) : Adds (Parser.nodeAt token) fun node => [node.id] := by
  intro held s hs
  refine ⟨Nat.le_succ _, fun node hnode => ?_⟩
  cases hnode
  exact hs.draw

/-! ### Expressions -/

section

variable {expression operand : Parser Expr} {climb : Expr → Nat → Parser Expr} {held : List Nat}

/-- A literal has the identity of its node alone. -/
theorem draws_number {I : Nat → Prop} (t : Token) :
    Draws I (Parser.number t) fun make n => I n ∧ ∀ node, (make node).ids = [node.id] := by
  unfold Parser.number
  refine .ite ?_ ?_
  · split
    · exact .pure fun _ h => ⟨h, fun _ => by rw [Expr.ids]⟩
    · exact .throw
  · split
    · exact .throw
    · exact .ite .throw (.behind quiet_suffix fun _ => .pure fun _ h => ⟨h, fun _ => by rw [Expr.ids]⟩)

theorem adds_atom (t : Token) : Adds (Parser.atom t) Expr.ids := by
  intro held
  have made (make : Node → Expr) : Draws
      (fun n => Held held n ∧ ∀ node, (make node).ids = [node.id])
      (do return make (← Parser.nodeAt t)) fun e => Held (e.ids ++ held) := by
    intro s ⟨hs, h⟩
    refine (adds_nodeAt t).bind (fun node => .pure fun n hn => ?_) s hs
    rw [h node]
    exact hn
  have plain {make : Node → Expr} (h : ∀ node, (make node).ids = [node.id]) :
      Draws (Held held) (Pure.pure make >>= fun make => do return make (← Parser.nodeAt t))
        fun e => Held (e.ids ++ held) :=
    Draws.bind (.pure fun _ hn => ⟨hn, h⟩) made
  unfold Parser.atom
  split
  · exact .behind quiet_next fun t' => (draws_number t').bind made
  · refine .behind quiet_next fun t' => .ite (plain fun _ => by rw [Expr.ids]) ?_
    exact Draws.bind .throw made
  · exact .behind quiet_next fun _ => plain fun _ => by rw [Expr.ids]
  · refine .ite (.behind quiet_next fun _ => plain fun _ => by rw [Expr.ids])
      (.ite (.behind quiet_next fun _ => plain fun _ => by rw [Expr.ids]) ?_)
    exact Draws.bind (.behind quiet_peek fun _ => .throw) made

theorem adds_bracketed (hexpr : Adds expression Expr.ids) (op : Operator) (opening : Token) :
    Adds (Parser.bracketed expression op opening) Expr.ids := by
  refine fun held => hexpr.bind fun inner => .behind (quiet_expectIf _ _) fun _ =>
    .behind quiet_peek fun _ => ?_
  split
  · exact .throw
  · exact .pure fun _ h => h

theorem adds_argumentList (hexpr : Adds expression Expr.ids) (closing : Char) :
    ∀ fuel, Adds (Parser.argumentList expression closing fuel) Expr.argsIds
  | 0 => fun _ => .behind quiet_peek fun _ => .throw
  | fuel + 1 => by
    intro held
    unfold Parser.argumentList
    refine hexpr.bind fun e => .behind (quiet_acceptIf _) fun _ => .ite ?_ ?_
    · refine (adds_argumentList hexpr closing fuel).bind fun es => .pure fun n h => h.sub fun id => ?_
      simp only [Expr.argsIds, List.count_append]
      omega
    · refine .behind (quiet_expectIf _ _) fun _ => .pure fun n h => ?_
      rwa [Expr.argsIds, Expr.argsIds, List.append_nil]

theorem adds_arguments (hexpr : Adds expression Expr.ids) (closing : Char) :
    Adds (Parser.arguments expression closing) Expr.argsIds := fun held =>
  .behind (quiet_acceptIf _) fun _ => .ite (.pure fun n h => by rwa [Expr.argsIds])
    (.behind quiet_remaining fun _ => adds_argumentList hexpr closing _ held)

/-- An operator draws an identity and those behind it, and gives up at most that of a name which it
calls. -/
theorem draws_applyOperator (hexpr : Adds expression Expr.ids) (hoperand : Adds operand Expr.ids)
    (hclimb : ∀ e p held, Draws (Held (e.ids ++ held)) (climb e p) fun e => Held (e.ids ++ held))
    (op : Operator) (token : Token) (lhs : Expr) (held : List Nat) :
    Draws (Held (lhs.ids ++ held)) (Parser.applyOperator expression operand climb op token lhs)
      fun e => Held (e.ids ++ held) := by
  unfold Parser.applyOperator
  refine Draws.bind (Q := fun id => Held (id :: (lhs.ids ++ held))) ?_ fun id => ?_
  · intro s hs
    refine ⟨Nat.le_succ _, fun id hid => ?_⟩
    cases hid
    exact hs.draw
  split
  · split
    · refine (adds_arguments hexpr _).bind fun args => .pure fun n h => h.sub fun k => ?_
      simp only [Expr.ids, List.count_append, List.cons_append, List.count_cons]
      omega
    · exact .throw
  · refine .behind quiet_typeName fun type => .pure fun n h => ?_
    rw [Expr.ids]
    exact h
  · refine hexpr.bind fun yes => .behind (quiet_expectIf _ _) fun _ => hoperand.bind fun e => ?_
    refine (hclimb e _ _).bind fun no => .pure fun n h => h.sub fun k => ?_
    simp only [Expr.ids, List.count_append, List.cons_append, List.count_cons]
    omega
  · have made {rhs : Expr} (b : BinaryOp) : Draws (Held (rhs.ids ++ id :: (lhs.ids ++ held)))
        (Pure.pure (.binary ⟨id, token⟩ b lhs rhs) : Parser Expr) fun e => Held (e.ids ++ held) := by
      refine .pure fun n h => h.sub fun k => ?_
      simp only [Expr.ids, List.count_append, List.cons_append, List.count_cons]
      omega
    refine hoperand.bind fun rhs => .behind quiet_peek fun _ => ?_
    split
    · exact .ite ((hclimb rhs _ _).bind fun e => made _) (made _)
    · exact made _
  · exact .pure fun n h => h.sub fun k => List.Sublist.count_le k (List.sublist_cons_self id _)
  · exact .pure fun n h => h.sub fun k => List.Sublist.count_le k (List.sublist_cons_self id _)

theorem draws_chain {apply : Operator → Token → Expr → Parser Expr} {least : Nat}
    (happly : ∀ op token lhs held, Draws (Held (lhs.ids ++ held)) (apply op token lhs)
      fun e => Held (e.ids ++ held)) (held : List Nat) :
    ∀ links lhs, Draws (Held (lhs.ids ++ held)) (Parser.chain apply least links lhs)
      fun e => Held (e.ids ++ held)
  | links, lhs => by
    unfold Parser.chain
    refine .behind quiet_peek fun token => ?_
    split
    · exact .pure fun _ h => h
    · refine .ite (.pure fun _ h => h) ?_
      cases links with
      | zero => exact .behind quiet_peek fun _ => .behind quiet_get fun _ => .throw
      | succ links =>
        refine .behind quiet_next fun _ => (happly _ token lhs held).bind fun e => ?_
        exact draws_chain happly held links e

/-- The parsers of expressions, with so many levels of nesting left. -/
theorem adds_levels : ∀ levels,
    Adds (Parser.expression levels) Expr.ids ∧ Adds (Parser.operand levels) Expr.ids ∧
      ∀ lhs least held, Draws (Held (lhs.ids ++ held)) (Parser.climb levels lhs least)
        fun e => Held (e.ids ++ held)
  | 0 => by
    have deep {I : Nat → Prop} {Q : Expr → Nat → Prop} : Draws I Parser.failTooDeep Q :=
      .behind quiet_peek fun _ => .behind quiet_get fun _ => .throw
    unfold Parser.expression Parser.operand Parser.climb
    exact ⟨fun _ => deep, fun _ => deep, fun _ _ _ => deep⟩
  | levels + 1 => by
    obtain ⟨hexpr, hoperand, hclimb⟩ := adds_levels levels
    refine ⟨fun held => ?_, fun held => ?_, fun lhs least held => ?_⟩
    · unfold Parser.expression
      exact hoperand.bind fun lhs => hclimb lhs 0 held
    · unfold Parser.operand
      refine .behind quiet_peek fun token => ?_
      split
      · exact adds_atom token held
      · refine .behind quiet_next fun _ => ?_
        split
        · exact adds_bracketed hexpr _ token held
        · refine hoperand.bind fun inner => (hclimb inner _ _).bind fun e => ?_
          refine (adds_nodeAt token).bind fun node => .pure fun n h => ?_
          rw [Expr.ids]
          exact h
        · exact .behind quiet_peek fun _ => .throw
    · unfold Parser.climb
      exact draws_chain (draws_applyOperator hexpr hoperand hclimb) held levels lhs

end

/-! ### Statements -/

/-- The node of a statement is still to be made. -/
def Unmade (held : List Nat) (make : Node → Stmt) (n : Nat) : Prop :=
  ∃ ids, Held (ids ++ held) n ∧ ∀ node, (make node).ids = node.id :: ids

section

variable {expression : Parser Expr} {block : Parser Block}

/-- A part that may be left out. -/
theorem draws_optionally {α β : Type} {I : Nat → Prop} {c : Parser Bool} {p : Parser α}
    {k : Option α → Parser β} {Q : Option α → Nat → Prop} {R : β → Nat → Prop} (hc : Quiet c)
    (hp : Draws I p fun a => Q (some a)) (missing : ∀ n, I n → Q none n)
    (hk : ∀ a, Draws (Q a) (k a) R) :
    Draws I (do if ← c then k (← some <$> p) else k (← pure none)) R := by
  refine .behind hc fun _ => .ite ?_ ((Draws.pure missing).bind hk)
  refine Draws.bind ?_ hk
  rw [map_eq_pure_bind]
  exact hp.bind fun a => .pure fun _ h => h

theorem adds_varDecl (hexpr : Adds expression Expr.ids) :
    Adds (Parser.varDecl expression) VarDecl.ids := by
  refine fun held => .behind quiet_next fun token => .ite (.behind .throw fun _ => ?_) ?_
  all_goals
    refine (adds_nodeAt token).bind fun node => .behind quiet_ident fun name => ?_
    refine draws_optionally (Q := fun _ => Held ([node.id] ++ held)) (quiet_acceptIf _)
      (quiet_typeName _) (fun _ h => h) fun type => ?_
    refine draws_optionally (Q := fun init => Held (Expr.optionIds init ++ ([node.id] ++ held)))
      (quiet_acceptIf _) (hexpr _) (fun _ h => h) fun init => ?_
    refine .behind (quiet_expectIf _ _) fun _ => .pure fun n h => h.sub fun id => ?_
    simp only [VarDecl.ids, List.cons_append, List.count_append, List.count_cons, List.nil_append]
    omega

theorem adds_branches (hexpr : Adds expression Expr.ids) (hblock : Adds block Block.ids) :
    ∀ fuel, Adds (Parser.branches expression block fuel) Branches.ids
  | 0 => fun _ => .pure fun n h => by rwa [Branches.ids]
  | fuel + 1 => by
    intro held
    have further : Draws (Held held) (do
        let cond ← expression
        let body ← block
        return Branches.branch cond body (← Parser.branches expression block fuel))
        fun bs => Held (bs.ids ++ held) := by
      refine hexpr.bind fun cond => hblock.bind fun body => ?_
      refine (adds_branches hexpr hblock fuel).bind fun rest => .pure fun n h => h.sub fun id => ?_
      simp only [Branches.ids, List.count_append]
      omega
    refine .behind (quiet_acceptIf _) fun _ => .ite further (.behind (quiet_acceptIf _) fun _ => ?_)
    refine .ite (.behind (quiet_acceptIf _) fun _ => .ite further ?_) (.pure fun n h => ?_)
    · exact hblock.bind fun body => .pure fun n h => by rwa [Branches.ids]
    · rwa [Branches.ids]

theorem draws_assignment? (hexpr : Adds expression Expr.ids) (held : List Nat) :
    Draws (Held held) (Parser.assignment? expression) fun found n =>
      found.elim (Held held n) fun make => Unmade held make n := by
  refine .behind (quiet_peekNth 1) fun t => .ite (.pure fun _ h => h) ?_
  refine .behind quiet_ident fun target => .behind quiet_next fun operator => ?_
  have assigned (op : Option BinaryOp) (value : Expr) : Draws (Held (value.ids ++ held)) (do
      let _ ← Parser.expectSymbol ';'
      return some fun node => Stmt.assign node target op value) fun found n =>
        found.elim (Held held n) fun make => Unmade held make n :=
    .behind (quiet_expectIf _ _) fun _ => .pure fun n h => ⟨value.ids, h, fun _ => by rw [Stmt.ids]⟩
  cases Parser.stepOperator? t with
  | some op =>
    refine (adds_nodeAt operator).bind fun node => Draws.bind (Q := fun value : Expr =>
      Held (value.ids ++ held)) (.pure fun n h => ?_) fun value => assigned _ value
    rwa [Expr.ids]
  | none => exact hexpr.bind fun value => assigned _ value

theorem draws_expressionStatement (hexpr : Adds expression Expr.ids) (held : List Nat) :
    Draws (Held held) (Parser.expressionStatement expression) (Unmade held) :=
  hexpr.bind fun e => .behind (quiet_expectIf _ _) fun _ =>
    .pure fun n h => ⟨e.ids, h, fun _ => by rw [Stmt.ids]⟩

theorem draws_keywordStatement (hexpr : Adds expression Expr.ids) (hblock : Adds block Block.ids)
    (k : Option Keyword) (held : List Nat) :
    Draws (Held held) (Parser.keywordStatement expression block k) (Unmade held) := by
  have declared : Draws (Held held) (do
      let decl ← Parser.varDecl expression
      return fun node => Stmt.var node decl) (Unmade held) :=
    (adds_varDecl hexpr).bind fun decl => .pure fun n h => ⟨decl.ids, h, fun _ => by rw [Stmt.ids]⟩
  have single {make : Node → Stmt} (h : ∀ node, (make node).ids = [node.id]) :
      Draws (Held held) (do
        let _ ← Parser.next
        let _ ← Parser.expectSymbol ';'
        return make) (Unmade held) :=
    .behind quiet_next fun _ => .behind (quiet_expectIf _ _) fun _ => .pure fun n hn => ⟨[], hn, h⟩
  unfold Parser.keywordStatement
  split
  · exact declared
  · exact declared
  · refine .behind quiet_next fun _ => hexpr.bind fun cond => hblock.bind fun body => ?_
    refine .behind quiet_remaining fun fuel => (adds_branches hexpr hblock fuel).bind fun rest => ?_
    refine .pure fun n h => ⟨cond.ids ++ (body.ids ++ rest.ids), h.sub fun id => ?_, fun _ => ?_⟩
    · simp only [List.count_append]
      omega
    · rw [Stmt.ids, Branches.ids]
  · refine .behind quiet_next fun _ => hexpr.bind fun cond => hblock.bind fun body => ?_
    refine .pure fun n h => ⟨cond.ids ++ body.ids, h.sub fun id => ?_, fun _ => by rw [Stmt.ids]⟩
    simp only [List.count_append]
    omega
  · exact .behind quiet_next fun _ => hblock.bind fun body =>
      .pure fun n h => ⟨body.ids, h, fun _ => by rw [Stmt.ids]⟩
  · refine .behind quiet_next fun _ => .behind quiet_ident fun var => .behind (quiet_expectIf _ _)
      fun _ => hexpr.bind fun start => .behind (quiet_expectIf _ _) fun _ => ?_
    refine hexpr.bind fun stop => hblock.bind fun body => .pure fun n h =>
      ⟨start.ids ++ (stop.ids ++ body.ids), h.sub fun id => ?_, fun _ => by rw [Stmt.ids]⟩
    simp only [List.count_append]
    omega
  · have returned (value : Option Expr) : Draws (Held (Expr.optionIds value ++ held)) (do
        let _ ← Parser.expectSymbol ';'
        return fun node => Stmt.ret node value) (Unmade held) :=
      .behind (quiet_expectIf _ _) fun _ =>
        .pure fun n h => ⟨Expr.optionIds value, h, fun _ => by rw [Stmt.ids]⟩
    refine .behind quiet_next fun _ => .behind quiet_peek fun t => .ite ?_ ?_
    · exact Draws.bind (Q := fun value => Held (Expr.optionIds value ++ held))
        (.pure fun _ h => h) returned
    · refine Draws.bind (Q := fun value => Held (Expr.optionIds value ++ held)) ?_ returned
      rw [map_eq_pure_bind]
      exact hexpr.bind fun e => .pure fun _ h => h
  · exact single fun _ => by rw [Stmt.ids]
  · exact single fun _ => by rw [Stmt.ids]
  · exact draws_expressionStatement hexpr held

theorem adds_statement (hexpr : Adds expression Expr.ids) (hblock : Adds block Block.ids) :
    Adds (Parser.statement expression block) Stmt.ids := by
  refine fun held => .behind quiet_peek fun t => ?_
  have made (make : Node → Stmt) : Draws (Unmade held make)
      (do return make (← Parser.nodeAt t)) fun s => Held (s.ids ++ held) := by
    intro s ⟨ids, hs, h⟩
    refine (adds_nodeAt t).bind (fun node => .pure fun n hn => ?_) s hs
    rw [h node]
    exact hn
  refine .ite ?_ (.ite ((draws_keywordStatement hexpr hblock _ held).bind made) (.ite ?_ ?_))
  · exact hblock.bind fun body => Draws.bind
      (.pure fun n h => ⟨body.ids, h, fun _ => by rw [Stmt.ids]⟩) made
  · refine (draws_assignment? hexpr held).bind fun found => ?_
    cases found with
    | some make => exact Draws.bind (.pure fun _ h => h) made
    | none => exact (draws_expressionStatement hexpr held).bind made
  · exact (draws_expressionStatement hexpr held).bind made

/-- What a failed attempt has drawn is not drawn again. -/
theorem draws_recover {α : Type} {p : Parser α} {skip : Parser Unit} {ids : α → List Nat}
    (hp : Adds p ids) (hskip : Quiet skip) (held : List Nat) :
    Draws (Held held) (Parser.recover p skip) fun found =>
      Held (found.toList.flatMap ids ++ held) := by
  -- the attempt and its handler both return from the whole parser
  refine Draws.bind (Q := fun (r : Except (Option α) (Option α)) n =>
    ∃ found, r = .error found ∧ Held (found.toList.flatMap ids ++ held) n) (.tryCatch ?_ ?_ ?_) ?_
  · refine hp.bind fun a => .pure fun n h => ⟨some a, rfl, ?_⟩
    rwa [Option.toList_some, List.flatMap_singleton]
  · exact fun _ _ le h => h.mono le
  · exact fun e => .behind (quiet_report e) fun _ => .behind hskip fun _ =>
      .pure fun n h => ⟨none, rfl, h⟩
  · intro r s ⟨found, hr, h⟩
    subst hr
    have returned : Draws (Held (found.toList.flatMap ids ++ held)) (Pure.pure found)
        fun found => Held (found.toList.flatMap ids ++ held) := .pure fun _ h => h
    exact returned s h

theorem adds_statements {statement : Parser Stmt} (hstatement : Adds statement Stmt.ids) :
    ∀ fuel, Adds (Parser.statements statement fuel) Stmt.listIds
  | 0 => fun _ => .pure fun n h => by rwa [Stmt.listIds]
  | fuel + 1 => by
    intro held
    unfold Parser.statements
    refine .behind quiet_peek fun t => .ite (.pure fun n h => by rwa [Stmt.listIds]) ?_
    refine (draws_recover hstatement (quiet_remaining.bind fun _ => quiet_skipStatement _ _) _).bind
      fun found => (adds_statements hstatement fuel).bind fun rest => .pure fun n h => ?_
    cases found with
    | none => exact h
    | some s =>
      refine h.sub fun id => ?_
      simp only [Option.toList_some, List.singleton_append, List.flatMap_singleton, Stmt.listIds,
        List.count_append]
      omega

theorem adds_block : ∀ levels, Adds (Parser.block levels) Block.ids
  | 0 => fun _ => .behind quiet_peek fun _ => .behind quiet_get fun _ => .throw
  | levels + 1 => by
    intro held
    unfold Parser.block
    refine .behind (quiet_expectIf _ _) fun token => (adds_nodeAt token).bind fun node => ?_
    refine .behind quiet_remaining fun fuel => ?_
    refine (adds_statements (adds_statement (adds_levels levels).1 (adds_block levels)) fuel).bind
      fun ss => .behind (quiet_expectIf _ _) fun _ => .pure fun n h => h.sub fun id => ?_
    simp only [Block.ids, List.count_append, List.cons_append, List.count_cons, List.nil_append]
    omega

end

/-! ### Items -/

theorem adds_functionBody (levels : Nat) : Adds (Parser.functionBody levels) FunctionBody.ids := by
  refine fun held => .behind quiet_peek fun t =>
    .ite ((adds_block levels).bind fun b => .pure fun _ h => h) (.behind (quiet_acceptIf _) fun _ => ?_)
  refine .ite (.behind quiet_outsideName fun _ => .pure fun _ h => h)
    (.behind (quiet_acceptIf _) fun _ => ?_)
  exact .ite (.behind quiet_outsideName fun _ => .pure fun _ h => h) (.behind quiet_peek fun _ => .throw)

theorem adds_function (levels : Nat) : Adds (Parser.function levels) fun f => f.body.ids := by
  intro held
  have rest (name : Ident) (params : List Param) : Draws (Held held) (do
      let ret ← if ← Parser.acceptSymbol ':' then some <$> Parser.typeName else pure none
      let body ← Parser.functionBody levels
      return (⟨name, params, ret, body⟩ : Function)) fun f => Held (f.body.ids ++ held) :=
    draws_optionally (Q := fun _ => Held held) (quiet_acceptIf _) (quiet_typeName _) (fun _ h => h)
      fun _ => (adds_functionBody levels).bind fun _ => .pure fun _ h => h
  refine .behind (quiet_expectIf _ _) fun _ => .behind quiet_ident fun name =>
    .behind (quiet_expectIf _ _) fun _ => .behind (quiet_acceptIf _) fun _ => .ite ?_ ?_
  · exact .behind .pure fun params => rest name params
  · exact .behind quiet_remaining fun fuel => .behind (quiet_paramList fuel) fun params =>
      rest name params

theorem adds_item (levels : Nat) : Adds (Parser.item levels) Item.ids := by
  refine fun held => .behind quiet_peek fun token => (adds_nodeAt token).bind fun node => ?_
  have made (kind : ItemKind) : Draws (Held (kind.ids ++ ([node.id] ++ held)))
      (Pure.pure ⟨node, kind⟩ : Parser Item) fun i => Held (i.ids ++ held) := by
    refine .pure fun n h => h.sub fun id => ?_
    simp only [Item.ids, List.count_append, List.cons_append, List.count_cons, List.nil_append]
    omega
  refine .ite ((adds_function levels).bind fun f => made (.function f)) (.ite ?_ ?_)
  · exact .behind quiet_next fun _ => .behind quiet_importName fun name =>
      .behind (quiet_expectIf _ _) fun _ => made (.imported name)
  · exact (adds_varDecl (adds_levels levels).1).bind fun decl => made (.variable decl)

theorem adds_items (levels : Nat) : ∀ fuel, Adds (Parser.items levels fuel) Item.listIds
  | 0 => fun _ => .pure fun _ h => h
  | fuel + 1 => by
    intro held
    have quiet : Quiet (do Parser.skipItem (← Parser.remaining) 0) :=
      quiet_remaining.bind fun _ => quiet_skipItem _ _
    unfold Parser.items
    refine .behind quiet_reportFound fun _ => .behind quiet_peek fun t =>
      .ite (.pure fun _ h => h) (.ite ?_ ?_)
    · refine (draws_recover (adds_item levels) quiet held).bind fun found =>
        (adds_items levels fuel).bind fun rest => .pure fun n h => h.sub fun id => ?_
      simp only [Item.listIds, List.flatMap_append, List.count_append]
      omega
    · exact .behind (quiet_report _) fun _ => .behind quiet_next fun _ => .behind quiet fun _ =>
        adds_items levels fuel held

theorem adds_module (name : String) : Adds (Parser.module name) fun m => Item.listIds m.items :=
  fun _ => .behind quiet_get fun s => .behind quiet_remaining fun fuel =>
    (adds_items s.limit fuel).bind fun _ => .behind quiet_reportFound fun _ => .pure fun _ h => h

/-! ### Programs -/

namespace ProgramParser

/-- The identities in the sources parsed so far are different, and all were drawn. -/
def Distinct (p : ProgramParser) : Prop := Held (Item.listIds (p.modules.flatMap Module.items)) p.nextId

theorem distinct_parseModule {p : ProgramParser} (h : p.Distinct) (name text : String) :
    (p.parseModule name text).1.Distinct := by
  unfold parseModule Distinct
  dsimp only
  generalize hreader : TokenReader.ofLexer _ = reader
  have drawn := adds_module name _ { reader, nextId := p.nextId, limit := p.options.maxNesting } h
  generalize (Parser.module name).run.run _ = r at drawn ⊢
  obtain ⟨grows, gives⟩ := drawn
  obtain ⟨result, s⟩ := r
  cases result with
  | error e =>
    rw [List.flatMap_append, List.flatMap_singleton, List.append_nil]
    exact h.mono grows
  | ok m =>
    refine (gives m rfl).sub fun id => ?_
    simp only [Item.listIds, List.flatMap_append, List.flatMap_singleton, List.count_append]
    omega

theorem distinct_followWith (r : Resolver) (p : ProgramParser) (queue : List PendingImport)
    (h : p.Distinct) : (followWith r p queue).Distinct := by
  fun_induction followWith r p queue with
  | case1 => exact h
  | case2 _ _ _ _ _ _ _ ih => exact ih h
  | case3 _ _ _ _ _ _ _ _ _ ih => exact ih h
  | case4 p i queue remarks p' s _ _ parsed _ ih =>
    exact ih (distinct_parseModule (p := p') h s.name s.text)

theorem distinct_parseRoot {p : ProgramParser} (h : p.Distinct) (name text : String) :
    (p.parseRoot name text).Distinct := by
  unfold parseRoot
  split
  · exact h
  · have first := distinct_parseModule h name text
    dsimp only
    unfold follow
    split
    · exact distinct_followWith _ _ _ first
    · exact first

theorem distinct_parseFile {fs : FileSystem} {p : ProgramParser} (h : p.Distinct) (path : String) :
    (p.parseFile fs path).Distinct := by
  unfold parseFile
  split
  · exact distinct_parseRoot h _ _
  · exact h

/-- Before anything is parsed no identity is drawn. -/
theorem distinct_start (options : ParseOptions) : Distinct { options } := ⟨.nil, nofun⟩

end ProgramParser

/-- The identities of all items, variables, blocks, statements and expressions of a program are
different, whatever it is parsed from. -/
theorem ids_nodup (options : ParseOptions) :
    (∀ name text, (parseText options name text).program.ids.Nodup) ∧
      ∀ fs path, (parseTarget fs options path).program.ids.Nodup := by
  refine ⟨fun name text => ?_, fun fs path => ?_⟩
  · exact (ProgramParser.distinct_parseRoot (ProgramParser.distinct_start options) name text).nodup
  · refine (List.foldlRecOn _ _ (motive := ProgramParser.Distinct) ?_ ?_).nodup
    · exact ProgramParser.distinct_start _
    · exact fun p h path _ => ProgramParser.distinct_parseFile h path

end ScriptLang.Syntax
