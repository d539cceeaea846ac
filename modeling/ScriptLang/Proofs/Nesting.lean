import ScriptLang.Proofs.ExpressionParsing
import ScriptLang.Proofs.TextSessions

/-!
# How deeply trees nest

The levels of nesting that a source may use bound the recursion of the parser.  They bound the nesting
of the trees less tightly than the parser is meant to: the operators that are applied one after the
other count only against the levels that are left where they stand, and what they made of their first
operand is not counted where an operator takes that.  So a path down a tree has no more than one node
beyond the limit if first operands do not count, and if they do it may have about half of the limit's
square (`nesting_bounded`).

`Gives p Q` says that the results of the parser `p` are as `Q` tells.  The bounds on what expressions
and operands come to are those on which the recursion of their parsers closes (`Growth`).
-/

namespace ScriptLang.Syntax

/-! ### Nodes on a path -/

mutual

/-- The most expressions on a path down an expression.  The first operand of an operator behind it, of
a cast and of a conditional expression counts `first`. -/
def Expr.nesting (first : Nat) : Expr → Nat
  | .integer .. | .decimal .. | .string .. | .bool .. | .name .. => 1
  | .unary _ _ e => 1 + e.nesting first
  | .binary _ _ l r => max (first + l.nesting first) (1 + r.nesting first)
  | .cast _ e _ => first + e.nesting first
  | .ternary _ c a b =>
    max (first + c.nesting first) (1 + max (a.nesting first) (b.nesting first))
  | .call _ _ args => 1 + Expr.argsNesting first args

/-- The most expressions on a path down one of the arguments. -/
def Expr.argsNesting (first : Nat) : List Expr → Nat
  | [] => 0
  | e :: es => max (e.nesting first) (Expr.argsNesting first es)

end

/-- The most expressions on a path down an expression that may be missing. -/
def Expr.optionNesting (first : Nat) (e : Option Expr) : Nat := (e.map (Expr.nesting first)).getD 0

mutual

/-- The most blocks and expressions on a path down a statement. -/
def Stmt.nesting (first : Nat) : Stmt → Nat
  | .block _ b | .loop _ b => b.nesting first
  | .var _ decl => Expr.optionNesting first decl.init
  | .assign _ _ _ e | .expr _ e => e.nesting first
  | .cond _ bs => bs.nesting first
  | .while _ c b => max (c.nesting first) (b.nesting first)
  | .for _ _ start stop b =>
    max (start.nesting first) (max (stop.nesting first) (b.nesting first))
  | .ret _ e => Expr.optionNesting first e
  | .break _ | .continue _ => 0

def Stmt.listNesting (first : Nat) : List Stmt → Nat
  | [] => 0
  | s :: ss => max (s.nesting first) (Stmt.listNesting first ss)

def Block.nesting (first : Nat) : Block → Nat
  | .mk _ ss => 1 + Stmt.listNesting first ss

def Branches.nesting (first : Nat) : Branches → Nat
  | .none => 0
  | .otherwise b => b.nesting first
  | .branch c b rest => max (c.nesting first) (max (b.nesting first) (rest.nesting first))

end

attribute [local simp] Expr.nesting Stmt.nesting

def FunctionBody.nesting (first : Nat) : FunctionBody → Nat
  | .block b => b.nesting first
  | .native _ | .intrinsic _ => 0

/-- The most blocks and expressions on a path down from the body of a function or the initial value of
a variable. -/
def Item.nesting (first : Nat) (i : Item) : Nat :=
  match i.kind with
  | .function f => f.body.nesting first
  | .variable decl => Expr.optionNesting first decl.init
  | .imported _ => 0

/-! ### What parsers give -/

/-- Whatever the parser gives is as `Q` tells. -/
def Gives {α : Type} (p : Parser α) (Q : α → Prop) : Prop :=
  ∀ s a s', p.run.run s = (.ok a, s') → Q a

/-- What the parser gives from states that `I` holds of is as `Q` tells. -/
def GivesFrom {α : Type} (I : ParserState → Prop) (p : Parser α) (Q : α → Prop) : Prop :=
  ∀ s a s', I s → p.run.run s = (.ok a, s') → Q a

section

variable {α β : Type} {p q : Parser α} {f : α → Parser β} {Q Q' : α → Prop} {R : β → Prop}
  {I : ParserState → Prop}

theorem Gives.from (hp : Gives p Q) : GivesFrom I p Q := fun s a s' _ => hp s a s'

theorem gives_of_givesFrom (hp : GivesFrom (fun _ => True) p Q) : Gives p Q :=
  fun s a s' => hp s a s' trivial

theorem gives_any (p : Parser α) : Gives p fun _ => True := fun _ _ _ _ => trivial

theorem Gives.mono (hp : Gives p Q) (h : ∀ a, Q a → Q' a) : Gives p Q' :=
  fun s a s' hrun => h a (hp s a s' hrun)

theorem Gives.pure {a : α} (h : Q a) : Gives (Pure.pure a : Parser α) Q := by
  intro s b s' hrun
  cases hrun
  exact h

theorem Gives.throw {e : ParseError} : Gives (throw e : Parser α) Q := by
  intro s b s' hrun
  cases hrun

/-- Where what follows begins does not matter. -/
theorem GivesFrom.andThen (hp : GivesFrom I p Q) (hf : ∀ a, Q a → Gives (f a) R) :
    GivesFrom I (p >>= f) R := by
  intro s b s' hs hrun
  rw [run_bind] at hrun
  generalize hfirst : p.run.run s = first at hrun
  obtain ⟨r, t⟩ := first
  cases r with
  | error e => cases hrun
  | ok a => exact hf a (hp s a t hs hfirst) t b s' hrun

theorem Gives.bind (hp : Gives p Q) (hf : ∀ a, Q a → Gives (f a) R) : Gives (p >>= f) R :=
  gives_of_givesFrom (hp.from.andThen hf)

/-- It does not matter what comes first. -/
theorem Gives.behind (hf : ∀ a, Gives (f a) R) : Gives (p >>= f) R :=
  (gives_any p).bind fun a _ => hf a

theorem Gives.map {g : α → β} (hp : Gives p Q) (h : ∀ a, Q a → R (g a)) : Gives (g <$> p) R := by
  rw [map_eq_pure_bind]
  exact hp.bind fun a ha => .pure (h a ha)

theorem Gives.ite {c : Prop} [Decidable c] (hp : Gives p Q) (hq : Gives q Q) :
    Gives (if c then p else q) Q := by
  split
  · exact hp
  · exact hq

theorem gives_failExpected (what : String) : Gives (Parser.failExpected what : Parser α) Q :=
  .behind fun _ => .throw

theorem gives_failTooDeep : Gives (Parser.failTooDeep : Parser α) Q :=
  .behind fun _ => .behind fun _ => .throw

theorem gives_invalidLiteral (t : Token) (reason : String) :
    Gives (Parser.invalidLiteral t reason : Parser α) Q := .throw

theorem GivesFrom.tryCatch {handle : ParseError → Parser α} (hp : GivesFrom I p Q)
    (hhandle : ∀ e, Gives (handle e) Q) : GivesFrom I (tryCatchThe ParseError p handle) Q := by
  intro s a s' hs hrun
  rw [run_tryCatch] at hrun
  generalize hfirst : p.run.run s = first at hrun
  obtain ⟨r, t⟩ := first
  cases r with
  | ok b =>
    cases hrun
    exact hp s a s' hs hfirst
  | error e => exact hhandle e t a s' hrun

/-- What fails gives nothing. -/
theorem GivesFrom.recover {skip : Parser Unit} (hp : GivesFrom I p Q) :
    GivesFrom I (Parser.recover p skip) fun found => ∀ a ∈ found, Q a := by
  -- the attempt and its handler both return from the whole parser
  refine GivesFrom.andThen (Q := fun r : Except (Option α) (Option α) =>
    ∃ found, r = .error found ∧ ∀ a ∈ found, Q a) (.tryCatch ?_ ?_) ?_
  · refine hp.andThen fun a ha => .pure ⟨some a, rfl, ?_⟩
    rintro b ⟨⟩
    exact ha
  · exact fun e => .behind fun _ => .behind fun _ =>
      .pure ⟨none, rfl, fun _ ha => absurd ha nofun⟩
  · rintro _ ⟨found, rfl, h⟩
    exact .pure h

theorem gives_recover {skip : Parser Unit} (hp : Gives p Q) :
    Gives (Parser.recover p skip) fun found => ∀ a ∈ found, Q a :=
  gives_of_givesFrom hp.from.recover

end

/-! ### Expressions -/

section

variable {expression operand : Parser Expr} {climb : Expr → Nat → Parser Expr} {first n : Nat}

theorem gives_number (t : Token) :
    Gives (Parser.number t) fun make => ∀ node, (make node).nesting first = 1 := by
  unfold Parser.number
  refine .ite ?_ ?_
  · split
    · exact .pure fun _ => by rw [Expr.nesting]
    · exact gives_invalidLiteral _ _
  · split
    · exact gives_invalidLiteral _ _
    · exact .ite (gives_invalidLiteral _ _) (.behind fun _ => .pure fun _ => by rw [Expr.nesting])

theorem gives_atom (t : Token) : Gives (Parser.atom t) fun e => e.nesting first = 1 := by
  have made (make : Node → Expr) (h : ∀ node, (make node).nesting first = 1) :
      Gives (do return make (← Parser.nodeAt t)) fun e => e.nesting first = 1 :=
    .behind fun node => .pure (h node)
  have plain {make : Node → Expr} (h : ∀ node, (make node).nesting first = 1) :
      Gives (Pure.pure make >>= fun make => do return make (← Parser.nodeAt t))
        fun e => e.nesting first = 1 :=
    .bind (.pure h) made
  unfold Parser.atom
  split
  · exact .behind fun _ => (gives_number _).bind made
  · refine .behind fun _ => .ite (plain fun _ => by rw [Expr.nesting]) ?_
    exact (gives_invalidLiteral _ _).bind made
  · exact .behind fun _ => plain fun _ => by rw [Expr.nesting]
  · refine .ite (.behind fun _ => plain fun _ => by rw [Expr.nesting])
      (.ite (.behind fun _ => plain fun _ => by rw [Expr.nesting]) ?_)
    exact (gives_failExpected _).bind made

theorem gives_bracketed (hexpr : Gives expression fun e => e.nesting first ≤ n) (op : Operator)
    (opening : Token) :
    Gives (Parser.bracketed expression op opening) fun e => e.nesting first ≤ n := by
  refine hexpr.bind fun inner hinner => .behind fun _ => .behind fun _ => ?_
  split
  · exact .throw
  · exact .pure hinner

theorem gives_argumentList (hexpr : Gives expression fun e => e.nesting first ≤ n)
    (closing : Char) : ∀ fuel, Gives (Parser.argumentList expression closing fuel) fun es =>
      Expr.argsNesting first es ≤ n
  | 0 => gives_failExpected _
  | fuel + 1 => by
    unfold Parser.argumentList
    refine hexpr.bind fun e he => .behind fun _ => .ite ?_ (.behind fun _ => .pure ?_)
    · refine (gives_argumentList hexpr closing fuel).bind fun es hes => .pure ?_
      rw [Expr.argsNesting]
      exact Nat.max_le.2 ⟨he, hes⟩
    · rw [Expr.argsNesting, Expr.argsNesting]
      exact Nat.max_le.2 ⟨he, Nat.zero_le n⟩

theorem gives_arguments (hexpr : Gives expression fun e => e.nesting first ≤ n) (closing : Char) :
    Gives (Parser.arguments expression closing) fun es => Expr.argsNesting first es ≤ n := by
  refine .behind fun _ => .ite (.pure ?_) (.behind fun _ => gives_argumentList hexpr closing _)
  rw [Expr.argsNesting]
  exact Nat.zero_le n

/-- A call is one node above its arguments; what it calls is a name. -/
theorem gives_call (hexpr : Gives expression fun e => e.nesting first ≤ n) {op : Operator}
    (means : op.meaning = .call) (token : Token) (lhs : Expr) :
    Gives (Parser.applyOperator expression operand climb op token lhs) fun e =>
      e.nesting first ≤ 1 + n := by
  refine .behind fun id => ?_
  rw [means]
  cases lhs with
  | name node name =>
    refine (gives_arguments hexpr _).bind fun args hargs => .pure ?_
    rw [Expr.nesting]
    exact Nat.add_le_add_left hargs 1
  | _ => exact .throw

/-- An operator puts a node above its first operand, and above what it takes behind it. -/
theorem gives_applyOperator {m : Nat} (hexpr : Gives expression fun e => e.nesting first ≤ n)
    (hoperand : Gives operand fun e => e.nesting first ≤ m) (le : m ≤ n)
    (hclimb : ∀ e p, e.nesting first ≤ m → Gives (climb e p) fun e => e.nesting first ≤ n)
    (op : Operator) (token : Token) (lhs : Expr) :
    Gives (Parser.applyOperator expression operand climb op token lhs) fun e =>
      e.nesting first ≤ max (first + lhs.nesting first) (1 + n) := by
  cases means : op.meaning with
  | call =>
    exact (gives_call hexpr means token lhs).mono fun e he => Nat.le_trans he (Nat.le_max_right _ _)
  | cast =>
    unfold Parser.applyOperator
    rw [means]
    refine .behind fun id => .behind fun type => .pure ?_
    rw [Expr.nesting]
    exact Nat.le_max_left _ _
  | ternary =>
    unfold Parser.applyOperator
    rw [means]
    refine .behind fun id => hexpr.bind fun yes hyes => .behind fun _ => hoperand.bind fun e he => ?_
    refine (hclimb e _ he).bind fun no hno => .pure ?_
    rw [Expr.nesting]
    have := Nat.max_le.2 ⟨hyes, hno⟩
    omega
  | binary b =>
    have made {rhs : Expr} (id : Nat) (hrhs : rhs.nesting first ≤ n) :
        Gives (Pure.pure (.binary ⟨id, token⟩ b lhs rhs) : Parser Expr) fun e =>
          e.nesting first ≤ max (first + lhs.nesting first) (1 + n) := by
      refine .pure ?_
      rw [Expr.nesting]
      omega
    unfold Parser.applyOperator
    rw [means]
    refine .behind fun id => hoperand.bind fun rhs hrhs => .behind fun _ => ?_
    split
    · exact .ite ((hclimb rhs _ hrhs).bind fun e he => made id he)
        (made id (Nat.le_trans hrhs le))
    · exact made id (Nat.le_trans hrhs le)
  | unary u =>
    unfold Parser.applyOperator
    rw [means]
    exact .behind fun id => .pure (by omega)
  | group =>
    unfold Parser.applyOperator
    rw [means]
    exact .behind fun id => .pure (by omega)

/-- What each link of a chain leads to. -/
theorem gives_chain {apply : Operator → Token → Expr → Parser Expr} {least : Nat}
    {P : Nat → Expr → Prop} (happly : ∀ n op token lhs, Operator.find? token .binary = some op →
      least ≤ op.precedence → P n lhs → Gives (apply op token lhs) (P (n + 1))) :
    ∀ links n lhs, P n lhs → Gives (Parser.chain apply least links lhs) fun e =>
      ∃ k, k ≤ links ∧ P (n + k) e := by
  intro links
  induction links with
  | zero =>
    intro n lhs hlhs
    unfold Parser.chain
    refine .behind fun token => ?_
    split
    · exact .pure ⟨0, Nat.le_refl 0, hlhs⟩
    · exact .ite (.pure ⟨0, Nat.le_refl 0, hlhs⟩) gives_failTooDeep
  | succ links ih =>
    intro n lhs hlhs
    unfold Parser.chain
    refine .behind fun token => ?_
    split
    · exact .pure ⟨0, Nat.zero_le _, hlhs⟩
    · next op hop =>
      split
      · exact .pure ⟨0, Nat.zero_le _, hlhs⟩
      · next least_le =>
        refine .behind fun _ =>
          (happly n op token lhs hop (Nat.le_of_not_lt least_le) hlhs).bind fun e he => ?_
        refine (ih (n + 1) e he).mono ?_
        rintro e' ⟨k, le, he'⟩
        exact ⟨k + 1, Nat.succ_le_succ le, by rwa [Nat.add_right_comm, Nat.add_assoc] at he'⟩

/-- Only calls bind tighter than the operators before an operand. -/
theorem call_of_tight {t : Token} {op : Operator} (h : Operator.find? t .binary = some op)
    (tight : 14 ≤ op.precedence) : op.meaning = .call := by
  have all : ∀ o ∈ Operator.table, o.arity = .binary → 14 ≤ o.precedence → o.meaning = .call := by
    decide +kernel
  have found := List.find?_some h
  rw [Bool.and_eq_true, beq_iff_eq] at found
  exact all op (List.mem_of_find?_eq_some h) found.1 tight

/-- Bounds on what operands, and operands with what follows them, may come to with so many levels left,
such that those with one more level keep to them.  An expression has one level less. -/
structure Growth (first : Nat) (operand climbed : Nat → Nat) : Prop where
  le : ∀ l, operand l ≤ climbed l
  mono : ∀ l, climbed l ≤ climbed (l + 1)
  group : ∀ l, climbed (l - 1) ≤ operand (l + 1)
  unary : ∀ l, 1 + operand l ≤ operand (l + 1)
  call : ∀ l, 2 + climbed (l - 1) ≤ operand (l + 2)
  /-- Every link of a chain puts a node above the first operand. -/
  chain : ∀ l links, links ≤ l → operand (l + 1) + first * links ≤ climbed (l + 1)
  /-- What a link takes behind it can be below all the links after it. -/
  link : ∀ l links, links < l → 1 + climbed l + first * links ≤ climbed (l + 1)

theorem gives_climb_of_levels {operandMost climbedMost : Nat → Nat}
    (growth : Growth first operandMost climbedMost) {l : Nat}
    (hexpr : Gives expression fun e => e.nesting first ≤ climbedMost (l - 1))
    (hoperand : Gives operand fun e => e.nesting first ≤ operandMost l)
    (hclimb : ∀ e p, e.nesting first ≤ operandMost l →
      Gives (climb e p) fun e => e.nesting first ≤ climbedMost l)
    {lhs : Expr} (hlhs : lhs.nesting first ≤ operandMost (l + 1)) (least : Nat) :
    Gives (Parser.chain (Parser.applyOperator expression operand climb) least l lhs) fun e =>
      e.nesting first ≤ climbedMost (l + 1) := by
  have before : climbedMost (l - 1) ≤ climbedMost l := by
    cases l with
    | zero => exact Nat.le_refl _
    | succ l => exact growth.mono l
  -- a path goes down to the first operand, or to what some link has taken behind it
  let P (n : Nat) (e : Expr) : Prop :=
    e.nesting first ≤ operandMost (l + 1) + first * n ∨
      ∃ k, k < n ∧ e.nesting first ≤ 1 + climbedMost l + first * k
  have happly (n : Nat) (op : Operator) (token : Token) (lhs : Expr) (hlhs : P n lhs) :
      Gives (Parser.applyOperator expression operand climb op token lhs) (P (n + 1)) := by
    refine (gives_applyOperator (hexpr.mono fun e he => Nat.le_trans he before) hoperand
      (growth.le l) hclimb op token lhs).mono fun e he => ?_
    obtain up | behind : e.nesting first ≤ first + lhs.nesting first ∨
        e.nesting first ≤ 1 + climbedMost l := by omega
    · obtain all | ⟨k, hk, later⟩ := hlhs
      · refine .inl (Nat.le_trans up ?_)
        rw [Nat.mul_succ]
        omega
      · refine .inr ⟨k + 1, Nat.succ_lt_succ hk, Nat.le_trans up ?_⟩
        rw [Nat.mul_succ]
        omega
    · exact .inr ⟨0, Nat.zero_lt_succ n, by omega⟩
  refine (gives_chain (P := P) (fun n op token lhs _ _ => happly n op token lhs) l 0 lhs
    (.inl hlhs)).mono ?_
  rintro e ⟨n, hn, all | ⟨k, hk, later⟩⟩
  · rw [Nat.zero_add] at all
    exact Nat.le_trans all (growth.chain l n hn)
  · exact Nat.le_trans later (growth.link l k (by omega))

/-- The parsers of expressions, with so many levels of nesting left. -/
theorem gives_levels {operandMost climbedMost : Nat → Nat}
    (growth : Growth first operandMost climbedMost) (levels : Nat) :
    (Gives (Parser.expression levels) fun e => e.nesting first ≤ climbedMost (levels - 1)) ∧
    (Gives (Parser.operand levels) fun e => e.nesting first ≤ operandMost levels) ∧
    (∀ lhs least, lhs.nesting first ≤ operandMost levels →
      Gives (Parser.climb levels lhs least) fun e => e.nesting first ≤ climbedMost levels) ∧
    ∀ lhs, lhs.nesting first ≤ operandMost levels →
      Gives (Parser.climb levels lhs 14) fun e => 1 + e.nesting first ≤ operandMost (levels + 1) := by
  induction levels with
  | zero =>
    refine ⟨?_, ?_, fun _ _ _ => ?_, fun _ _ => ?_⟩
    · unfold Parser.expression
      exact gives_failTooDeep
    · unfold Parser.operand
      exact gives_failTooDeep
    · unfold Parser.climb
      exact gives_failTooDeep
    · unfold Parser.climb
      exact gives_failTooDeep
  | succ l ih =>
    obtain ⟨hexpr, hoperand, hclimb, htight⟩ := ih
    refine ⟨?_, ?_, fun lhs least hlhs => ?_, fun lhs hlhs => ?_⟩
    · unfold Parser.expression
      exact hoperand.bind fun lhs hlhs => hclimb lhs 0 hlhs
    · unfold Parser.operand
      refine .behind fun token => ?_
      split
      · have leaf : Gives (Parser.atom token) fun e => e.nesting first = 1 := gives_atom token
        refine leaf.mono fun e he => ?_
        have := growth.unary l
        omega
      · next op hop =>
        refine .behind fun _ => ?_
        split
        · exact (gives_bracketed hexpr op token).mono fun e he => Nat.le_trans he (growth.group l)
        · next u means =>
          rw [(unary_spec (List.mem_of_find?_eq_some hop) means).2]
          refine hoperand.bind fun inner hinner => (htight inner hinner).bind fun e he => ?_
          refine .behind fun node => .pure ?_
          rwa [Expr.nesting]
        · exact gives_failExpected _
    · unfold Parser.climb
      exact gives_climb_of_levels growth hexpr hoperand hclimb hlhs least
    · unfold Parser.climb
      -- a call is bounded by its arguments, whatever is called
      let P (_ : Nat) (e : Expr) : Prop := 1 + e.nesting first ≤ operandMost (l + 2)
      have called : ∀ n op token lhs, Operator.find? token .binary = some op →
          14 ≤ op.precedence → P n lhs →
          Gives (Parser.applyOperator (Parser.expression l) (Parser.operand l) (Parser.climb l)
            op token lhs) (P (n + 1)) := by
        intro n op token lhs hop tight _
        refine (gives_call hexpr (call_of_tight hop tight) token lhs).mono fun e he => ?_
        have below := growth.call l
        change 1 + e.nesting first ≤ operandMost (l + 2)
        omega
      have start : P 0 lhs := Nat.le_trans (Nat.add_le_add_left hlhs 1) (growth.unary (l + 1))
      refine (gives_chain called l 0 lhs start).mono ?_
      rintro e ⟨_, _, he⟩
      exact he

end

/-! ### Statements and items -/

section

variable {expression : Parser Expr} {block : Parser Block} {first n : Nat}

theorem optionNesting_le {e : Option Expr} :
    Expr.optionNesting first e ≤ n ↔ ∀ a ∈ e, a.nesting first ≤ n := by
  cases e with
  | none => exact ⟨fun _ _ h => absurd h nofun, fun _ => Nat.zero_le n⟩
  | some e => exact ⟨fun h a ha => by cases ha; exact h, fun h => h e rfl⟩

/-- A part that may be left out. -/
theorem gives_optionally {α β : Type} {c : Parser Bool} {p : Parser α} {Q : α → Prop}
    (hp : Gives p Q) {k : Option α → Parser β} {R : β → Prop}
    (hk : ∀ a : Option α, (∀ b ∈ a, Q b) → Gives (k a) R) :
    Gives (do if ← c then k (← some <$> p) else k (← pure none)) R := by
  refine .behind fun _ => .ite ?_ (.bind (Q := (· = none)) (.pure rfl) ?_)
  · refine Gives.bind (Q := fun a => ∀ b ∈ a, Q b) (hp.map ?_) hk
    rintro a ha b ⟨⟩
    exact ha
  · rintro _ rfl
    exact hk none fun _ hb => absurd hb nofun

theorem gives_varDecl (hexpr : Gives expression fun e => e.nesting first ≤ n) :
    Gives (Parser.varDecl expression) fun decl => Expr.optionNesting first decl.init ≤ n := by
  refine .behind fun token => .ite (.behind fun _ => ?_) ?_
  all_goals
    refine .behind fun node => .behind fun name => gives_optionally (gives_any _) fun type _ => ?_
    refine gives_optionally hexpr fun init hinit => .behind fun _ => .pure ?_
    exact optionNesting_le.2 hinit

theorem gives_branches (hexpr : Gives expression fun e => e.nesting first ≤ n)
    (hblock : Gives block fun b => b.nesting first ≤ n) :
    ∀ fuel, Gives (Parser.branches expression block fuel) fun bs => bs.nesting first ≤ n
  | 0 => .pure (by rw [Branches.nesting]; exact Nat.zero_le n)
  | fuel + 1 => by
    have further : Gives (do
        let cond ← expression
        let body ← block
        return Branches.branch cond body (← Parser.branches expression block fuel)) fun bs =>
          bs.nesting first ≤ n := by
      refine hexpr.bind fun cond hcond => hblock.bind fun body hbody => ?_
      refine (gives_branches hexpr hblock fuel).bind fun rest hrest => .pure ?_
      rw [Branches.nesting]
      exact Nat.max_le.2 ⟨hcond, Nat.max_le.2 ⟨hbody, hrest⟩⟩
    refine .behind fun _ => .ite further (.behind fun _ => .ite (.behind fun _ => .ite further ?_) ?_)
    · refine hblock.bind fun body hbody => .pure ?_
      rwa [Branches.nesting]
    · exact .pure (by rw [Branches.nesting]; exact Nat.zero_le n)

/-- The step of `x++` is a node that takes no level. -/
theorem gives_assignment? (one : 1 ≤ n) (hexpr : Gives expression fun e => e.nesting first ≤ n) :
    Gives (Parser.assignment? expression) fun found =>
      ∀ make ∈ found, ∀ node, (make node).nesting first ≤ n := by
  refine .behind fun t => .ite (.pure fun _ h => absurd h nofun) ?_
  refine .behind fun target => .behind fun operator => ?_
  have assigned (op : Option BinaryOp) (value : Expr) (hvalue : value.nesting first ≤ n) :
      Gives (do
        let _ ← Parser.expectSymbol ';'
        return some fun node => Stmt.assign node target op value) fun found =>
          ∀ make ∈ found, ∀ node, (make node).nesting first ≤ n := by
    refine .behind fun _ => .pure ?_
    rintro make ⟨⟩ node
    rwa [Stmt.nesting]
  cases Parser.stepOperator? t with
  | some op =>
    refine .behind fun node => Gives.bind (Q := fun e : Expr => e.nesting first ≤ n) (.pure ?_)
      fun value hvalue => assigned _ value hvalue
    rwa [Expr.nesting]
  | none => exact hexpr.bind fun value hvalue => assigned _ value hvalue

theorem gives_expressionStatement (hexpr : Gives expression fun e => e.nesting first ≤ n) :
    Gives (Parser.expressionStatement expression) fun make =>
      ∀ node, (make node).nesting first ≤ n := by
  refine hexpr.bind fun e he => .behind fun _ => .pure fun node => ?_
  rwa [Stmt.nesting]

theorem gives_keywordStatement (hexpr : Gives expression fun e => e.nesting first ≤ n)
    (hblock : Gives block fun b => b.nesting first ≤ n) (k : Option Keyword) :
    Gives (Parser.keywordStatement expression block k) fun make =>
      ∀ node, (make node).nesting first ≤ n := by
  have declared : Gives (do
      let decl ← Parser.varDecl expression
      return fun node => Stmt.var node decl) fun make => ∀ node, (make node).nesting first ≤ n := by
    refine (gives_varDecl hexpr).bind fun decl hdecl => .pure fun node => ?_
    rwa [Stmt.nesting]
  unfold Parser.keywordStatement
  split
  · exact declared
  · exact declared
  · refine .behind fun _ => hexpr.bind fun cond hcond => hblock.bind fun body hbody => ?_
    refine .behind fun fuel => (gives_branches hexpr hblock fuel).bind fun rest hrest => ?_
    refine .pure fun node => ?_
    rw [Stmt.nesting, Branches.nesting]
    exact Nat.max_le.2 ⟨hcond, Nat.max_le.2 ⟨hbody, hrest⟩⟩
  · refine .behind fun _ => hexpr.bind fun cond hcond => hblock.bind fun body hbody => ?_
    refine .pure fun node => ?_
    rw [Stmt.nesting]
    exact Nat.max_le.2 ⟨hcond, hbody⟩
  · refine .behind fun _ => hblock.bind fun body hbody => .pure fun node => ?_
    rwa [Stmt.nesting]
  · refine .behind fun _ => .behind fun var => .behind fun _ => hexpr.bind fun start hstart => ?_
    refine .behind fun _ => hexpr.bind fun stop hstop => hblock.bind fun body hbody => ?_
    refine .pure fun node => ?_
    rw [Stmt.nesting]
    exact Nat.max_le.2 ⟨hstart, Nat.max_le.2 ⟨hstop, hbody⟩⟩
  · have returned (value : Option Expr) (hvalue : ∀ e ∈ value, e.nesting first ≤ n) :
        Gives (do
          let _ ← Parser.expectSymbol ';'
          return fun node => Stmt.ret node value) fun make =>
            ∀ node, (make node).nesting first ≤ n := by
      refine .behind fun _ => .pure fun node => ?_
      rw [Stmt.nesting]
      exact optionNesting_le.2 hvalue
    refine .behind fun _ => .behind fun t => .ite ?_ ?_
    · exact Gives.bind (Q := fun value => ∀ e ∈ value, e.nesting first ≤ n)
        (.pure fun _ h => absurd h nofun) returned
    · refine Gives.bind (Q := fun value => ∀ e ∈ value, e.nesting first ≤ n) (hexpr.map ?_) returned
      rintro e he _ ⟨⟩
      exact he
  · exact .behind fun _ => .behind fun _ => .pure fun node => by
      rw [Stmt.nesting]
      exact Nat.zero_le n
  · exact .behind fun _ => .behind fun _ => .pure fun node => by
      rw [Stmt.nesting]
      exact Nat.zero_le n
  · exact gives_expressionStatement hexpr

theorem gives_statement (one : 1 ≤ n) (hexpr : Gives expression fun e => e.nesting first ≤ n)
    (hblock : Gives block fun b => b.nesting first ≤ n) :
    Gives (Parser.statement expression block) fun s => s.nesting first ≤ n := by
  refine .behind fun t => ?_
  have made (make : Node → Stmt) (h : ∀ node, (make node).nesting first ≤ n) :
      Gives (do return make (← Parser.nodeAt t)) fun s => s.nesting first ≤ n :=
    .behind fun node => .pure (h node)
  refine .ite ?_ (.ite ((gives_keywordStatement hexpr hblock _).bind made) (.ite ?_ ?_))
  · refine hblock.bind fun body hbody => .bind (.pure fun node => ?_) made
    rwa [Stmt.nesting]
  · refine (gives_assignment? one hexpr).bind fun found hfound => ?_
    cases found with
    | some make => exact .bind (.pure (hfound make rfl)) made
    | none => exact (gives_expressionStatement hexpr).bind made
  · exact (gives_expressionStatement hexpr).bind made

theorem gives_statements {statement : Parser Stmt}
    (hstatement : Gives statement fun s => s.nesting first ≤ n) :
    ∀ fuel, Gives (Parser.statements statement fuel) fun ss => Stmt.listNesting first ss ≤ n
  | 0 => .pure (by rw [Stmt.listNesting]; exact Nat.zero_le n)
  | fuel + 1 => by
    unfold Parser.statements
    refine .behind fun t => .ite (.pure (by rw [Stmt.listNesting]; exact Nat.zero_le n)) ?_
    refine (gives_recover hstatement).bind fun found hfound => ?_
    refine (gives_statements hstatement fuel).bind fun rest hrest => .pure ?_
    cases found with
    | none => exact hrest
    | some s =>
      change Stmt.listNesting first (s :: rest) ≤ n
      rw [Stmt.listNesting]
      exact Nat.max_le.2 ⟨hfound s rfl, hrest⟩

/-- Bounds on what blocks may come to with so many levels left, above those on expressions. -/
structure BlockGrowth (climbed block : Nat → Nat) : Prop where
  step : ∀ l, 2 ≤ block (l + 1)
  expression : ∀ l, 1 + climbed (l - 1) ≤ block (l + 1)
  block : ∀ l, 1 + block l ≤ block (l + 1)

theorem gives_block {operandMost climbedMost blockMost : Nat → Nat}
    (growth : Growth first operandMost climbedMost) (blocks : BlockGrowth climbedMost blockMost) :
    ∀ levels, Gives (Parser.block levels) fun b => b.nesting first ≤ blockMost levels
  | 0 => gives_failTooDeep
  | levels + 1 => by
    have below : 1 ≤ blockMost (levels + 1) - 1 ∧
        climbedMost (levels - 1) ≤ blockMost (levels + 1) - 1 ∧
          blockMost levels ≤ blockMost (levels + 1) - 1 := by
      have := blocks.step levels
      have := blocks.expression levels
      have := blocks.block levels
      omega
    have hexpr := (gives_levels growth levels).1.mono fun e he => Nat.le_trans he below.2.1
    have hblock := (gives_block growth blocks levels).mono fun b hb => Nat.le_trans hb below.2.2
    unfold Parser.block
    refine .behind fun token => .behind fun node => .behind fun fuel => ?_
    refine (gives_statements (gives_statement below.1 hexpr hblock) fuel).bind fun ss hss => ?_
    refine .behind fun _ => .pure ?_
    rw [Block.nesting]
    have := blocks.step levels
    omega

end

/-! ### Items -/

section

variable {first n : Nat}

theorem gives_functionBody {levels : Nat}
    (hblock : Gives (Parser.block levels) fun b => b.nesting first ≤ n) :
    Gives (Parser.functionBody levels) fun body => body.nesting first ≤ n := by
  refine .behind fun t => .ite (hblock.bind fun b hb => .pure hb) (.behind fun _ => ?_)
  refine .ite (.behind fun _ => .pure (Nat.zero_le n)) (.behind fun _ => ?_)
  exact .ite (.behind fun _ => .pure (Nat.zero_le n)) (gives_failExpected _)

theorem gives_function {levels : Nat}
    (hblock : Gives (Parser.block levels) fun b => b.nesting first ≤ n) :
    Gives (Parser.function levels) fun f => f.body.nesting first ≤ n := by
  have rest (name : Ident) (params : List Param) : Gives (do
      let ret ← if ← Parser.acceptSymbol ':' then some <$> Parser.typeName else pure none
      let body ← Parser.functionBody levels
      return (⟨name, params, ret, body⟩ : Function)) fun f => f.body.nesting first ≤ n :=
    gives_optionally (gives_any _) fun _ _ =>
      (gives_functionBody hblock).bind fun _ hbody => .pure hbody
  refine .behind fun _ => .behind fun name => .behind fun _ => .behind fun _ => .ite ?_ ?_
  · exact .behind fun params => rest name params
  · exact .behind fun fuel => .behind fun params => rest name params

/-- The initial values of variables keep to a bound of their own. -/
theorem gives_item {levels values : Nat} (le : values ≤ n)
    (hblock : Gives (Parser.block levels) fun b => b.nesting first ≤ n)
    (hexpr : Gives (Parser.expression levels) fun e => e.nesting first ≤ values) :
    Gives (Parser.item levels) fun i => i.nesting first ≤ n ∧
      ∀ decl, i.kind = .variable decl → i.nesting first ≤ values := by
  have made (i : Item) (bounded : i.nesting first ≤ n)
      (value : ∀ decl, i.kind = .variable decl → i.nesting first ≤ values) :
      Gives (Pure.pure i : Parser Item) fun i => i.nesting first ≤ n ∧
        ∀ decl, i.kind = .variable decl → i.nesting first ≤ values := .pure ⟨bounded, value⟩
  refine .behind fun token => .behind fun node => .ite ?_ (.ite ?_ ?_)
  · exact (gives_function hblock).bind fun f hf => made ⟨node, .function f⟩ hf fun _ h => by cases h
  · exact .behind fun _ => .behind fun name => .behind fun _ =>
      made ⟨node, .imported name⟩ (Nat.zero_le n) fun _ h => by cases h
  · exact (gives_varDecl hexpr).bind fun decl hdecl =>
      made ⟨node, .variable decl⟩ (Nat.le_trans hdecl le) fun _ _ => hdecl

theorem gives_items {levels : Nat} {Q : Item → Prop} (hitem : Gives (Parser.item levels) Q) :
    ∀ fuel, Gives (Parser.items levels fuel) fun is => ∀ i ∈ is, Q i
  | 0 => .pure fun _ h => absurd h List.not_mem_nil
  | fuel + 1 => by
    unfold Parser.items
    refine .behind fun _ => .behind fun t => .ite (.pure fun _ h => absurd h List.not_mem_nil) ?_
    refine .ite ((gives_recover hitem).bind fun found hfound => ?_) (.behind fun _ => .behind fun _ =>
      .behind fun _ => gives_items hitem fuel)
    refine (gives_items hitem fuel).bind fun rest hrest => .pure fun i hi => ?_
    obtain hi | hi := List.mem_append.1 hi
    · exact hfound i (Option.mem_toList.1 hi)
    · exact hrest i hi

theorem items_of_run_module {name : String} {s s' : ParserState} {m : Module} {Q : Item → Prop}
    (h : (Parser.module name).run.run s = (.ok m, s')) (hitem : Gives (Parser.item s.limit) Q) :
    ∀ i ∈ m.items, Q i := by
  have limit : (get : Parser ParserState).run.run s = (.ok s, s) := rfl
  unfold Parser.module at h
  rw [run_bind, limit] at h
  dsimp only at h
  refine Gives.behind (R := fun m : Module => ∀ i ∈ m.items, Q i) (fun fuel => ?_) s m s' h
  exact (gives_items hitem fuel).bind fun found hfound => .behind fun _ => .pure hfound

end

/-! ### Programs -/

namespace ProgramParser

/-- All items of the sources parsed so far are as `Q` tells. -/
def Holds (Q : Item → Prop) (p : ProgramParser) : Prop := ∀ m ∈ p.modules, ∀ i ∈ m.items, Q i

variable {Q : Item → Prop}

theorem holds_parseModule {p : ProgramParser} (hitem : Gives (Parser.item p.options.maxNesting) Q)
    (h : p.Holds Q) (name text : String) : (p.parseModule name text).1.Holds Q := by
  intro m hm
  obtain hm | hm := List.mem_append.1 hm
  · exact h m hm
  · rw [List.mem_singleton.1 hm]
    split
    · next m' hrun => exact items_of_run_module (Prod.ext hrun rfl) hitem
    · exact fun _ hi => absurd hi List.not_mem_nil

theorem holds_followWith (r : Resolver) (p : ProgramParser) (queue : List PendingImport)
    (hitem : Gives (Parser.item p.options.maxNesting) Q) (h : p.Holds Q) :
    (followWith r p queue).Holds Q := by
  fun_induction followWith r p queue with
  | case1 => exact h
  | case2 _ _ _ _ _ _ _ ih => exact ih hitem h
  | case3 _ _ _ _ _ _ _ _ _ ih => exact ih hitem h
  | case4 p i queue remarks p' s _ _ parsed _ ih =>
    exact ih hitem (holds_parseModule (p := p') hitem h s.name s.text)

theorem holds_parseRoot {p : ProgramParser} (hitem : Gives (Parser.item p.options.maxNesting) Q)
    (h : p.Holds Q) (name text : String) : (p.parseRoot name text).Holds Q := by
  unfold parseRoot
  split
  · exact h
  · have first := holds_parseModule hitem h name text
    dsimp only
    unfold follow
    split
    · exact holds_followWith _ _ _ hitem first
    · exact first

end ProgramParser

/-! ### Bounds -/

/-- Without first operands a level is worth a node. -/
theorem growth_zero : Growth 0 id id where
  le _ := Nat.le_refl _
  mono l := Nat.le_succ l
  group l := by
    change l - 1 ≤ l + 1
    omega
  unary l := Nat.le_of_eq (Nat.add_comm 1 l)
  call l := by
    change 2 + (l - 1) ≤ l + 2
    omega
  chain l links _ := by
    change l + 1 + 0 * links ≤ l + 1
    omega
  link l links _ := by
    change 1 + l + 0 * links ≤ l + 1
    omega

/-- The most nodes on a path down an operand and what follows it, with so many levels left. -/
def deepest : Nat → Nat
  | 0 => 0
  | 1 => 1
  | 2 => 3
  | l + 3 => deepest (l + 2) + (l + 2)

/-- All links of a chain fit below, once with the first operand and once with what is deepest. -/
theorem deepest_succ : ∀ l, deepest l + l ≤ deepest (l + 1) ∧ deepest l < deepest (l + 1) ∧
    2 * l + 1 ≤ deepest (l + 1)
  | 0 => by decide
  | 1 => by decide
  | l + 2 => by
    have enough : 2 * (l + 1) + 1 ≤ deepest (l + 2) := (deepest_succ (l + 1)).2.2
    rw [deepest]
    omega

theorem deepest_pred (l : Nat) :
    deepest (l - 1) ≤ deepest l ∧ deepest (l - 1) + 1 ≤ max (l + 1) (deepest l) := by
  cases l with
  | zero => decide
  | succ l =>
    have := (deepest_succ l).2.1
    rw [Nat.add_sub_cancel]
    omega

theorem le_deepest : ∀ l, l ≤ deepest l
  | 0 => Nat.le_refl 0
  | l + 1 => by
    have := (deepest_succ l).2.2
    omega

/-- If all operands count, a level is worth a chain of as many nodes as there are levels left. -/
theorem growth_one : Growth 1 (fun l => max l (deepest (l - 1))) deepest where
  le l := by
    have := le_deepest l
    have := deepest_pred l
    omega
  mono l := Nat.le_of_lt (deepest_succ l).2.1
  group l := by
    have := deepest_pred l
    rw [Nat.add_sub_cancel]
    omega
  unary l := by
    have := deepest_pred l
    rw [Nat.add_sub_cancel]
    omega
  call l := by
    have := deepest_pred l
    have := (deepest_succ l).2.1
    change 2 + deepest (l - 1) ≤ max (l + 2) (deepest (l + 1))
    omega
  chain l links h := by
    have := deepest_succ l
    rw [Nat.add_sub_cancel]
    omega
  link l links h := by
    have := deepest_succ l
    omega

/-- About half of the square of the levels. -/
theorem deepest_le : ∀ l, deepest (l - 1) ≤ (l - 1) * (l - 2) / 2 + 2
  | 0 => by decide
  | 1 => by decide
  | 2 => by decide
  | 3 => by decide
  | l + 4 => by
    have before : deepest (l + 2) ≤ (l + 2) * (l + 1) / 2 + 2 := deepest_le (l + 3)
    have sum : (l + 3) * (l + 2) = (l + 2) * (l + 1) + 2 * (l + 2) := by
      rw [Nat.mul_comm 2, ← Nat.mul_add, Nat.mul_comm]
    change deepest (l + 3) ≤ (l + 3) * (l + 2) / 2 + 2
    rw [deepest, sum, Nat.add_mul_div_left _ _ Nat.two_pos]
    omega

theorem deepest_le_of_le_three : ∀ {l : Nat}, l ≤ 3 → deepest (l - 1) ≤ l
  | 0, _ | 1, _ | 2, _ | 3, _ => by decide
  | _ + 4, le => absurd le (by omega)

theorem blockGrowth_zero : BlockGrowth id (· + 1) where
  step l := Nat.le_add_left 2 l
  expression l := by
    change 1 + (l - 1) ≤ l + 2
    omega
  block l := Nat.le_of_eq (Nat.add_comm 1 (l + 1))

theorem blockGrowth_one : BlockGrowth deepest fun l => max (l + 1) (deepest (l - 1)) where
  step l := Nat.le_trans (Nat.le_add_left 2 l) (Nat.le_max_left _ _)
  expression l := by
    have := deepest_pred l
    rw [Nat.add_sub_cancel]
    omega
  block l := by
    have := deepest_pred l
    rw [Nat.add_sub_cancel]
    omega

/-- Whatever is parsed, a path down a function or the initial value of a variable has at most one node
more than the limit on nesting if first operands of operators do not count.  If they count, it has at
most about half of the square of the limit; only up to a limit of 3 are initial values within it. -/
theorem nesting_bounded (options : ParseOptions) (name text : String) {m : Module}
    (hm : m ∈ (parseText options name text).program.modules) {i : Item} (hi : i ∈ m.items) :
    i.nesting 0 ≤ options.maxNesting + 1 ∧
    i.nesting 1 ≤ max (options.maxNesting + 1)
      ((options.maxNesting - 1) * (options.maxNesting - 2) / 2 + 2) ∧
    ∀ decl, i.kind = .variable decl →
      i.nesting 0 ≤ options.maxNesting - 1 ∧
      i.nesting 1 ≤ (options.maxNesting - 1) * (options.maxNesting - 2) / 2 + 2 ∧
      (options.maxNesting ≤ 3 → i.nesting 1 ≤ options.maxNesting) := by
  let limit := options.maxNesting
  have parsed {Q : Item → Prop} (hitem : Gives (Parser.item limit) Q) : Q i :=
    ProgramParser.holds_parseRoot (p := { options }) hitem
      (fun _ h => absurd h List.not_mem_nil) name text m hm i hi
  have zero := parsed (gives_item (Nat.le_trans (Nat.sub_le limit 1) (Nat.le_succ limit))
    (gives_block growth_zero blockGrowth_zero limit) (gives_levels growth_zero limit).1)
  have one := parsed (gives_item (Nat.le_max_right _ _)
    (gives_block growth_one blockGrowth_one limit) (gives_levels growth_one limit).1)
  have square := deepest_le limit
  refine ⟨zero.1, Nat.le_trans one.1 ?_, fun decl hdecl => ⟨zero.2 decl hdecl, ?_, fun le => ?_⟩⟩
  · exact Nat.max_le.2 ⟨Nat.le_max_left _ _, Nat.le_trans square (Nat.le_max_right _ _)⟩
  · exact Nat.le_trans (one.2 decl hdecl) square
  · exact Nat.le_trans (one.2 decl hdecl) (deepest_le_of_le_three le)

/-! ### A source beyond its limit -/

/-- A chain behind a chain of operators before an operand, and a step in as many blocks as may nest. -/
def steepText : String :=
  "var v = - - x - x - x; func main() \x7b \x7b \x7b \x7b x++; \x7d \x7d \x7d \x7d"

def steepOptions : ParseOptions := { maxNesting := 4 }

theorem steep_facts : (parseText steepOptions "t" steepText).errors = [] ∧
    (parseText steepOptions "t" steepText).program.modules.map
      (fun m => m.items.map (Item.nesting 1)) = [[5, 5]] :=
  parseText_of_any (P := fun o => o.errors = [] ∧
    o.program.modules.map (fun m => m.items.map (Item.nesting 1)) = [[5, 5]]) rfl 60 (by decide +kernel)

/-- At a limit of 4 both items are as deep as they can be, one node beyond the limit. -/
theorem steep_nesting : (parseText steepOptions "t" steepText).errors = [] ∧
    ∃ m ∈ (parseText steepOptions "t" steepText).program.modules,
      m.items.map (Item.nesting 1) = [5, 5] ∧
        ∀ i ∈ m.items, i.nesting 0 ≤ 4 + 1 ∧ i.nesting 1 ≤ max (4 + 1) ((4 - 1) * (4 - 2) / 2 + 2) := by
  have bounded {m : Module} (hm : m ∈ (parseText steepOptions "t" steepText).program.modules)
      {i : Item} (hi : i ∈ m.items) := nesting_bounded steepOptions "t" steepText hm hi
  obtain ⟨clean, nestings⟩ := steep_facts
  obtain ⟨m, hmodules, hm⟩ := List.map_eq_singleton_iff.1 nestings
  have mem : m ∈ (parseText steepOptions "t" steepText).program.modules := by
    rw [hmodules]
    exact List.mem_singleton_self m
  exact ⟨clean, m, mem, hm, fun i hi => ⟨(bounded mem hi).1, (bounded mem hi).2.1⟩⟩

end ScriptLang.Syntax
