import Mathlib.Data.Nat.Digits.Defs
import Mathlib.Tactic.Ring
import ScriptLang.Proofs.ExpressionParsing
import ScriptLang.Proofs.LiteralSides

/-!
# Integer literals with a type

An integer is written in decimal, hexadecimal or binary digits (`Numeral`), and every natural number
can be.  Behind it a blank and the name of an integer type may stand, and before it a minus sign.
Such a text is parsed unless the number takes more than 127 bits, and is bound to the integer that is
written if that is a value of the type.  In all other cases there is an error; no digit and no sign
is lost on the way (`integer_literals_kept`).
-/

namespace ScriptLang

namespace Syntax

open Text (isHexDigit)

/-! ### Numerals -/

/-- A natural number in writing: digits of a notation behind its mark. -/
structure Numeral where
  form : Notation
  mark : List Char
  digits : List Char
  legal : (Word.number form mark digits).Legal
  whole : form ≠ .decimal

/-- The number that a digit stands for, in either case. -/
def digitRank (c : Char) : Nat := "0123456789abcdef".toList.idxOf c.toLower

namespace Numeral

def word (m : Numeral) : Word := .number m.form m.mark m.digits

/-- The number that is written. -/
def value (m : Numeral) : Nat := Nat.ofDigits (Notation.base m.form) (m.digits.reverse.map digitRank)

/-- Whether a character is a digit of a notation of integers. -/
def isDigitOf : Notation → Char → Bool
  | .integer | .decimal => Char.isDigit
  | .hex => isHexDigit
  | .binary => fun c => c == '0' || c == '1'

theorem isHexDigit_of_isDigitOf {form : Notation} {c : Char} (h : isDigitOf form c = true) :
    isHexDigit c = true := by
  cases form with
  | hex => exact h
  | integer | decimal => simp [isHexDigit, show c.isDigit = true from h]
  | binary =>
    simp only [isDigitOf, Bool.or_eq_true, beq_iff_eq] at h
    rcases h with rfl | rfl <;> decide

theorem toNat_lt_of_isHexDigit {c : Char} (h : isHexDigit c = true) : c.toNat < 128 := by
  by_contra beyond
  cases (Text.isHexDigit_of_not_ascii beyond).symm.trans h

/-- Every digit is read as what it stands for. -/
theorem digitValue?_of_isDigitOf {form : Notation} {c : Char} (h : isDigitOf form c = true) :
    Decimal.digitValue? (Notation.base form) c = some (digitRank c) := by
  have ascii := toNat_lt_of_isHexDigit (isHexDigit_of_isDigitOf h)
  revert h
  refine Text.of_ascii (p := fun c => isDigitOf form c = true →
    Decimal.digitValue? (Notation.base form) c = some (digitRank c)) ?_ ascii
  cases form <;> decide +kernel

/-- Digits are read as what they denote, behind the number of the digits before them. -/
theorem readDigits?_eq {form : Notation} : ∀ (cs : List Char) (start : Nat),
    (∀ c ∈ cs, isDigitOf form c = true) →
      Decimal.readDigits? (Notation.base form) start cs =
        some (start * Notation.base form ^ cs.length +
          Nat.ofDigits (Notation.base form) (cs.reverse.map digitRank))
  | [], start, _ => by simp [Decimal.readDigits?]
  | c :: cs, start, h => by
    obtain ⟨hc, hcs⟩ := List.forall_mem_cons.1 h
    rw [Decimal.readDigits?, digitValue?_of_isDigitOf hc]
    dsimp only
    rw [readDigits?_eq cs _ hcs, List.reverse_cons, List.map_append, List.map_singleton,
      Nat.ofDigits_append, Nat.ofDigits_singleton, List.length_map, List.length_reverse,
      List.length_cons, pow_succ]
    congr 1
    ring

/-- The digits of a numeral are digits of its notation, and there is one. -/
theorem digits_spec (m : Numeral) : m.digits ≠ [] ∧ ∀ c ∈ m.digits, isDigitOf m.form c = true := by
  obtain ⟨form, mark, digits, legal, whole⟩ := m
  cases legal with
  | integer h => exact ⟨List.cons_ne_nil _ _, h⟩
  | hex _ h => exact ⟨List.cons_ne_nil _ _, h⟩
  | binary _ h =>
    refine ⟨List.cons_ne_nil _ _, fun c hc => ?_⟩
    rcases h c hc with rfl | rfl <;> rfl
  | decimal => exact absurd rfl whole

/-- A numeral is read as the number that it writes. -/
theorem readNat?_digits (m : Numeral) :
    Decimal.readNat? (Notation.base m.form) m.digits = some m.value := by
  obtain ⟨nonempty, digits⟩ := m.digits_spec
  rw [Decimal.readNat?, if_neg (by rwa [List.isEmpty_iff]), readDigits?_eq _ _ digits, zero_mul,
    zero_add, value]

/-- A numeral begins with a decimal digit, if it has a mark or not. -/
theorem spelling_head (m : Numeral) : ∃ d ds, m.word.spelling = d :: ds ∧ d.isDigit = true := by
  obtain ⟨form, mark, digits, legal, whole⟩ := m
  cases legal with
  | integer h => exact ⟨_, _, rfl, h _ List.mem_cons_self⟩
  | hex => exact ⟨_, _, rfl, rfl⟩
  | binary => exact ⟨_, _, rfl, rfl⟩
  | decimal => exact absurd rfl whole

theorem digitRank_digitChar : ∀ d < 16, digitRank (Nat.digitChar d) = d := by decide

/-- Digits of a notation are a numeral behind a mark of the notation. -/
theorem exists_of_digits {form : Notation} (whole : form ≠ .decimal) {cs : List Char}
    (nonempty : cs ≠ []) (h : ∀ c ∈ cs, isDigitOf form c = true) :
    ∃ m : Numeral, m.form = form ∧ m.digits = cs := by
  obtain ⟨c, cs, rfl⟩ := List.exists_cons_of_ne_nil nonempty
  cases form with
  | integer => exact ⟨⟨.integer, [], c :: cs, .integer h, whole⟩, rfl, rfl⟩
  | decimal => exact absurd rfl whole
  | hex => exact ⟨⟨.hex, ['0', 'x'], c :: cs, .hex (.inl rfl) h, whole⟩, rfl, rfl⟩
  | binary =>
    refine ⟨⟨.binary, ['0', 'b'], c :: cs, .binary (.inl rfl) fun x hx => ?_, whole⟩, rfl, rfl⟩
    have bit := h x hx
    rwa [isDigitOf, Bool.or_eq_true, beq_iff_eq, beq_iff_eq] at bit

theorem base_bounds (form : Notation) : 1 < Notation.base form ∧ Notation.base form ≤ 16 := by
  cases form <;> decide

theorem isDigitOf_digitChar (form : Notation) :
    ∀ d < Notation.base form, isDigitOf form (Nat.digitChar d) = true := by
  cases form <;> decide

/-- Every number can be written in every notation of integers. -/
theorem exists_of_value {form : Notation} (whole : form ≠ .decimal) (n : Nat) :
    ∃ m : Numeral, m.form = form ∧ m.value = n := by
  obtain ⟨more, few⟩ := base_bounds form
  obtain ⟨ds, nonempty, small, denotes⟩ : ∃ ds : List Nat, ds ≠ [] ∧
      (∀ d ∈ ds, d < Notation.base form) ∧ Nat.ofDigits (Notation.base form) ds = n := by
    by_cases zero : n = 0
    · subst zero
      exact ⟨[0], List.cons_ne_nil _ _, List.forall_mem_singleton.2 (by omega),
        Nat.ofDigits_singleton⟩
    · exact ⟨Nat.digits (Notation.base form) n, Nat.digits_ne_nil_iff_ne_zero.2 zero,
        fun d hd => Nat.digits_lt_base more hd, Nat.ofDigits_digits _ _⟩
  have digits : ∀ c ∈ ds.reverse.map Nat.digitChar, isDigitOf form c = true := by
    intro c hc
    obtain ⟨d, hd, rfl⟩ := List.mem_map.1 hc
    exact isDigitOf_digitChar form d (small d (List.mem_reverse.1 hd))
  obtain ⟨m, rfl, hdigits⟩ := exists_of_digits whole (by simpa using nonempty) digits
  refine ⟨m, rfl, ?_⟩
  have ranks : ds.map (digitRank ∘ Nat.digitChar) = ds :=
    (List.map_congr_left fun d hd =>
      digitRank_digitChar d (Nat.lt_of_lt_of_le (small d hd) few)).trans (List.map_id ds)
  rw [value, hdigits, ← List.map_reverse, List.reverse_reverse, List.map_map, ranks, denotes]

end Numeral

end Syntax

/-! ### A minus sign before digits -/

namespace Lexeme

theorem longestOperator_eq_none {cs : List Char} : ∀ (words : List String) (code : Nat),
    (∀ w ∈ words, isOperatorWord w = true → w.toList.isPrefixOf cs = false) →
      longestOperator cs code none words = none
  | [], _, _ => rfl
  | w :: words, code, h => by
    obtain ⟨first, others⟩ := List.forall_mem_cons.1 h
    have worse : (isOperatorWord w && w.toList.isPrefixOf cs) = false := by
      cases hw : isOperatorWord w with
      | false => rfl
      | true => exact first hw
    rw [longestOperator, worse, Bool.false_and, if_neg Bool.false_ne_true]
    exact longestOperator_eq_none words (code + 1) others

/-- An operator that begins with a minus sign has no digit behind it. -/
theorem operator_spelling {w : String} (known : w ∈ Profile.language.keywords)
    (operator : isOperatorWord w = true) :
    ∃ c e cs, w.toList = c :: e :: cs ∧ (c = '-' → e.isDigit = false) := by
  have checked : (Profile.language.keywords.all fun w => !isOperatorWord w ||
      2 ≤ w.toList.length &&
        (w.toList.head? != some '-' || w.toList[1]?.any fun e => !e.isDigit)) = true := by
    decide
  have one := List.all_eq_true.1 checked w known
  rw [operator, Bool.not_true, Bool.false_or] at one
  cases spelled : w.toList with
  | nil => rw [spelled] at one; cases one
  | cons c cs =>
    rw [spelled] at one
    cases cs with
    | nil => simp at one
    | cons e cs =>
      refine ⟨c, e, cs, rfl, ?_⟩
      rintro rfl
      simpa using one

theorem operator_not_prefix {w : String} {d : Char} {rest : List Char}
    (known : w ∈ Profile.language.keywords) (operator : isOperatorWord w = true)
    (digit : d.isDigit = true) : w.toList.isPrefixOf ('-' :: d :: rest) = false := by
  obtain ⟨c, e, cs, spelled, second⟩ := operator_spelling known operator
  rw [spelled, Bool.eq_false_iff]
  intro begins
  rw [List.isPrefixOf_iff_prefix, List.cons_prefix_cons, List.cons_prefix_cons] at begins
  obtain ⟨rfl, rfl, -⟩ := begins
  cases (second rfl).symm.trans digit

/-- A minus sign before a digit is a word by itself, though operators begin with one. -/
theorem scan_minus {d : Char} {rest : List Char} (digit : d.isDigit = true) :
    scan .language '-' (d :: rest) = (Syntax.Word.symbol '-').lexeme := by
  have alone : longestOperator ('-' :: d :: rest) 0 none Profile.language.keywords = none :=
    longestOperator_eq_none _ 0 fun _ known operator => operator_not_prefix known operator digit
  have sign : IsSign '-' := by decide
  have trigger : ¬ Profile.language.trigger = some '-' := by decide
  rw [scan_eq_scanOther sign.1 (by simp), scanOther, sign.1, if_neg Bool.false_ne_true,
    if_neg trigger, sign.2.2.1, if_neg Bool.false_ne_true, sign.2.2.2.1, if_neg Bool.false_ne_true,
    sign.2.2.2.2, if_neg Bool.false_ne_true, scanOperator, alone]
  rfl

end Lexeme

namespace Syntax

open Text (byteLength)
open Lexer (before tokenAt)
open ScriptLang.Syntax.Parser (operand expression)

/-! ### The tokens of a literal -/

/-- What stands before the digits. -/
def signOf (negative : Bool) : List Char := if negative then ['-'] else []

/-- An integer with its type in writing. -/
def literalText (negative : Bool) (m : Numeral) (t : IntType) : String :=
  String.ofList (signOf negative ++ (m.word.spelling ++ ' ' :: t.name.toList))

/-- Where the digits begin, or the mark before them. -/
def literalPlace (negative : Bool) : Location :=
  Frame.locationAfter (.startOf "<expr>") (signOf negative)

theorem typeName_legal (t : IntType) : (Word.name t.name.toList).Legal := by
  rcases t with ⟨_ | _, _ | _ | _ | _⟩ <;>
    exact .name (by decide) (List.all_eq_true.1 (by decide)) (by decide)

theorem ofName?_name (t : IntType) : Ty.ofName? t.name = some (.int t) := by
  rcases t with ⟨_ | _, _ | _ | _ | _⟩ <;> decide

/-- The tokens before those of the numeral. -/
def signTokens (negative : Bool) : List Token :=
  if negative then [tokenAt (.startOf "<expr>") (Word.symbol '-').lexeme] else []

theorem drain_numeral (m : Numeral) (t : IntType) (start : Location) : ∃ type last,
    (before ⟨m.word.spelling ++ ' ' :: t.name.toList, start⟩).drain.1 =
        [tokenAt start m.word.lexeme, type, last].map (fun t => (t, [])) ∧
      (Word.name t.name.toList).Spells type ∧ last.kind = .endOfFile := by
  have apart : Separated (' ' :: t.name.toList) := by
    rintro c ⟨⟩
    decide
  have spaced : Spaced [.name t.name.toList] ([' '] ++ (t.name.toList ++ [])) :=
    .cons (List.forall_mem_singleton.2 (by decide)) Lexeme.separated_nil (.nil nofun)
  rw [List.append_nil] at spaced
  obtain ⟨ts, last, behind, spells, hlast⟩ := Lexer.drain_of_spaced spaced
    (List.forall_mem_singleton.2 (typeName_legal t)) (Frame.locationAfter start m.word.spelling)
  obtain ⟨type, rfl, htype⟩ : ∃ type, ts = [type] ∧ (Word.name t.name.toList).Spells type := by
    cases spells with
    | cons h rest =>
      cases rest
      exact ⟨_, rfl, h⟩
  refine ⟨type, last, ?_, htype, hlast⟩
  exact (Lexer.drain_of_word m.legal apart start).trans (congrArg _ behind)

/-- A literal is read as its sign, the numeral and the type. -/
theorem before_literal (negative : Bool) (m : Numeral) (t : IntType) (limit : Nat) : ∃ type last,
    ParserState.Before
        { reader := .ofLexer (.ofText .language "<expr>" (literalText negative m t)), limit }
        (signTokens negative ++ [tokenAt (literalPlace negative) m.word.lexeme, type, last]) ∧
      (Word.name t.name.toList).Spells type ∧ last.kind = .endOfFile := by
  obtain ⟨type, last, behind, htype, hlast⟩ := drain_numeral m t (literalPlace negative)
  refine ⟨type, last, before_of_drain limit ?_, htype, hlast⟩
  rw [Frame.start, literalText, String.toList_ofList]
  cases negative with
  | false => exact behind
  | true =>
    obtain ⟨d, ds, spelled, digit⟩ := m.spelling_head
    have scanned : Lexeme.scan .language '-' ([] ++ (m.word.spelling ++ ' ' :: t.name.toList)) =
        (Word.symbol '-').lexeme := by
      rw [spelled]
      exact Lexeme.scan_minus digit
    exact (Lexer.drain_of_scan rfl scanned _).trans (congrArg _ behind)

/-! ### Parsing a literal -/

/-- The expression is a number with a type, at a token. -/
def IsInteger (t : Token) (n : Nat) (type : String) (e : Expr) : Prop :=
  ∃ node token, node.token = t ∧ e = .integer node n (some ⟨type, token⟩)

/-- The expression is a number with a type, behind a minus sign or without one. -/
def IsSigned (negative : Bool) (t : Token) (n : Nat) (type : String) (e : Expr) : Prop :=
  if negative then ∃ node e', e = .unary node .neg e' ∧ IsInteger t n type e'
  else IsInteger t n type e

section

variable {m : Numeral} {t : IntType} {number type last sign : Token} {ts rest : List Token}
  {levels : Nat}

theorem find?_number (h : m.word.Spells number) (arity : Arity) :
    Operator.find? number arity = none :=
  h.not_operator nofun nofun arity

theorem accepts_operand_numeral (h : m.word.Spells number)
    (htype : (Word.name t.name.toList).Spells type) (small : m.value < Nat.pow 2 127) :
    Accepts (operand (levels + 1)) (number :: type :: rest) rest
      (IsInteger number m.value t.name) := by
  have known : (Ty.ofName? (String.ofList t.name.toList)).isSome = true := by
    rw [String.ofList_toList, ofName?_name]
    rfl
  have taken : Accepts (Parser.number number) (type :: rest) rest fun make =>
      ∀ node, node.token = number → IsInteger number m.value t.name (make node) := by
    rw [number_eq h m.whole m.readNat?_digits, if_neg (Nat.not_le.2 small)]
    refine (accepts_suffix htype known type).bind fun suffix named => .pure fun node place => ?_
    rw [Option.map_some, String.ofList_toList] at named
    obtain ⟨⟨name, token⟩, rfl, rfl⟩ := Option.map_eq_some_iff.1 named
    exact ⟨node, token, place, rfl⟩
  have hkind : number.kind = .number := h.kind
  refine accepts_operand_of_atom (find?_number h .unary) ?_
  unfold Parser.atom
  rw [hkind]
  exact (accepts_next _ _).bind_eq (taken.bind fun make made =>
    (accepts_nodeAt number rest).bind fun node place => .pure (made node place))

theorem refuses_operand_numeral (h : m.word.Spells number) (large : Nat.pow 2 127 ≤ m.value) :
    Refuses (operand (levels + 1)) (number :: rest)
      (.invalidLiteral (String.ofList m.digits) "number too large to fit in target type"
        number.location number.width) := by
  have hkind : number.kind = .number := h.kind
  have htext : number.text = String.ofList m.digits := h.text
  have refused : Refuses (Parser.number number) rest (.invalidLiteral number.text
      "number too large to fit in target type" number.location number.width) := by
    rw [number_eq h m.whole m.readNat?_digits, if_pos large]
    exact fun s _ => ⟨s, rfl⟩
  rw [← htext, operand]
  refine (accepts_peek number rest).bind_refuses ?_
  rw [find?_number h]
  unfold Parser.atom
  rw [hkind]
  exact (accepts_next number rest).bind_refuses refused.bind

theorem find?_minus (h : (Word.symbol '-').Spells sign) :
    Operator.find? sign .unary = some (.ofUnary '-' .neg) := by
  rw [h.find?]
  decide

theorem accepts_operand_minus {n : Nat} {name : String} (h : (Word.symbol '-').Spells sign)
    (inner : Accepts (operand (levels + 1)) ts (last :: rest) (IsInteger number n name))
    (hlast : last.kind = .endOfFile) :
    Accepts (operand (levels + 2)) (sign :: ts) (last :: rest) (IsSigned true number n name) := by
  rw [operand]
  refine (accepts_peek sign ts).bind_eq ?_
  rw [find?_minus h]
  refine (accepts_next sign ts).bind fun _ _ => inner.bind fun e he => ?_
  rw [climb_succ]
  exact (accepts_loop_end hlast).bind_eq
    ((accepts_nodeAt sign _).bind fun node _ => .pure ⟨node, e, rfl, he⟩)

theorem refuses_operand_minus {e : ParseError} (h : (Word.symbol '-').Spells sign)
    (inner : Refuses (operand levels) ts e) : Refuses (operand (levels + 1)) (sign :: ts) e := by
  rw [operand]
  refine (accepts_peek sign ts).bind_refuses ?_
  rw [find?_minus h]
  exact (accepts_next sign ts).bind_refuses inner.bind

end

/-- A literal of at most 127 bits is parsed to a number with a type, behind its sign. -/
theorem parse_literal (negative : Bool) {m : Numeral} (t : IntType)
    (small : m.value < Nat.pow 2 127) : ∃ number e,
      parseExpression (literalText negative m t) = .ok e ∧
        IsSigned negative number m.value t.name e ∧ number.location = literalPlace negative := by
  obtain ⟨type, last, before, htype, hlast⟩ := before_literal negative m t 128
  have numeral : ∀ levels, Accepts (operand (levels + 1))
      [tokenAt (literalPlace negative) m.word.lexeme, type, last] [last]
      (IsInteger (tokenAt (literalPlace negative) m.word.lexeme) m.value t.name) :=
    fun levels => accepts_operand_numeral (m.word.spells_tokenAt _) htype small
  have signed : Accepts (operand 127)
      (signTokens negative ++ [tokenAt (literalPlace negative) m.word.lexeme, type, last]) [last]
      (IsSigned negative (tokenAt (literalPlace negative) m.word.lexeme) m.value t.name) := by
    cases negative with
    | false => exact numeral 126
    | true => exact accepts_operand_minus ((Word.symbol '-').spells_tokenAt _) (numeral 125) hlast
  have taken : Accepts (expression 128)
      (signTokens negative ++ [tokenAt (literalPlace negative) m.word.lexeme, type, last]) [last]
      (IsSigned negative (tokenAt (literalPlace negative) m.word.lexeme) m.value t.name) := by
    rw [expression_succ_succ]
    exact signed.bind fun e he => (accepts_loop_end hlast).mono fun _ heq => heq ▸ he
  obtain ⟨e, parsed, he⟩ := parse_of_accepts before hlast taken
  exact ⟨_, e, parsed, he, rfl⟩

/-- A literal of more bits is refused at its digits. -/
theorem parse_largeLiteral (negative : Bool) {m : Numeral} (t : IntType)
    (large : Nat.pow 2 127 ≤ m.value) : parseExpression (literalText negative m t) =
      .error (.invalidLiteral (String.ofList m.digits) "number too large to fit in target type"
        (literalPlace negative) (byteLength m.word.spelling)) := by
  obtain ⟨type, last, before, -, -⟩ := before_literal negative m t 128
  have numeral (levels : Nat) : Refuses (operand (levels + 1))
      [tokenAt (literalPlace negative) m.word.lexeme, type, last]
      (.invalidLiteral (String.ofList m.digits) "number too large to fit in target type"
        (literalPlace negative) m.word.lexeme.width) :=
    refuses_operand_numeral (m.word.spells_tokenAt _) large
  rw [← m.word.lexeme_width]
  refine parse_of_refuses before ?_
  rw [expression_succ_succ]
  refine Refuses.bind ?_
  cases negative with
  | false => exact numeral 126
  | true => exact refuses_operand_minus ((Word.symbol '-').spells_tokenAt _) (numeral 125)

end Syntax

namespace Bound

open Syntax (Numeral literalText literalPlace IsSigned parseExpression parse_literal
  parse_largeLiteral)

/-! ### Binding a literal -/

/-- The integer of a sign and a number. -/
def signed (negative : Bool) (n : Nat) : Int := if negative then -n else n

theorem bindExpression_eq {e : Syntax.Expr} {r : Except BindError Expr} {b : Binder}
    (ends : Ends (bindExpr e none) {} r b) : bindExpression e = r := congrArg Prod.fst ends

/-- A number with a type is bound to the integer if it is a value of the type. -/
theorem bindExpression_literal {t : IntType} {negative : Bool} {number : Token} {n : Nat}
    {e : Syntax.Expr} (h : IsSigned negative number n t.name e) :
    bindExpression e = literalOutcome t (signed negative n) number.location := by
  have resolved (token : Token) : resolveType ⟨t.name, token⟩ = pure (.int t) := by
    rw [resolveType, Syntax.ofName?_name]
  have integer : (Ty.int t).isInteger = true := rfl
  have ends := literalOf_ends t (signed negative n) number.location {}
  apply bindExpression_eq
  cases negative with
  | false =>
    obtain ⟨node, token, rfl, rfl⟩ := h
    simp only [bindExpr, bindInteger, resolved, pure_bind, integer, if_true]
    exact ends
  | true =>
    obtain ⟨node, _, rfl, node', token, rfl, rfl⟩ := h
    simp only [bindExpr, bindInteger, resolved, pure_bind, integer, if_true]
    exact ends

section

variable (t : IntType) (negative : Bool) (m : Numeral)

/-- What becomes of the text of a literal that is not too large to be read. -/
theorem bind_literalText (small : m.value < 2 ^ 127) : ∃ e,
    parseExpression (literalText negative m t) = .ok e ∧
      bindExpression e = literalOutcome t (signed negative m.value) (literalPlace negative) := by
  obtain ⟨number, e, parsed, shape, place⟩ := parse_literal negative t small
  exact ⟨e, parsed, place ▸ bindExpression_literal shape⟩

theorem value_lt_of_fits (fits : t.fits (signed negative m.value) = true) : m.value < 2 ^ 127 := by
  have bounds := IntType.bounds_of_fits fits
  unfold signed at bounds
  split at bounds <;> omega

/-- What a text is bound to comes from a literal that is not too large. -/
theorem literalOutcome_of_bound {e : Syntax.Expr} {r : Except BindError Expr}
    (parsed : parseExpression (literalText negative m t) = .ok e) (binds : bindExpression e = r) :
    r = literalOutcome t (signed negative m.value) (literalPlace negative) := by
  rcases Nat.lt_or_ge m.value (2 ^ 127) with small | large
  · obtain ⟨e', parsed', binds'⟩ := bind_literalText t negative m small
    cases parsed.symm.trans parsed'
    exact binds.symm.trans binds'
  · cases parsed.symm.trans (parse_largeLiteral negative t large)

end

/-- Every natural number can be written in decimal, hexadecimal and binary digits.  However it is
written, with a minus sign before it or none, the integer with a type behind it is what the text is
bound to if it is a value of the type.  If it is none the literal is out of range, and a number that
takes more than 127 bits is no literal; in no case is the text bound to another integer. -/
theorem integer_literals_kept :
    (∀ form : Notation, form ≠ .decimal → ∀ n, ∃ m : Numeral, m.form = form ∧ m.value = n) ∧
    ∀ (t : IntType) (negative : Bool) (m : Numeral),
      let n := signed negative m.value
      let text := literalText negative m t
      let place := literalPlace negative
      (t.fits n = true ↔ ∃ e, parseExpression text = .ok e ∧
        bindExpression e = .ok (.literal ⟨.int t, place⟩ (.ofInt t n))) ∧
      (t.fits n = false → m.value < 2 ^ 127 → ∃ e, parseExpression text = .ok e ∧
        bindExpression e = .error ⟨.literalOutOfRange n (.int t), place⟩) ∧
      (2 ^ 127 ≤ m.value → parseExpression text =
        .error (.invalidLiteral (String.ofList m.digits) "number too large to fit in target type"
          place (Text.byteLength m.word.spelling))) ∧
      ∀ e v, parseExpression text = .ok e → bindExpression e = .ok v →
        ∃ value, v = .literal ⟨.int t, place⟩ value ∧ value.int? = some n := by
  refine ⟨fun form whole n => Numeral.exists_of_value whole n, fun t negative m => ?_⟩
  dsimp only
  refine ⟨⟨fun fits => ?_, ?_⟩, fun misfit small => ?_, parse_largeLiteral negative t, ?_⟩
  · obtain ⟨e, parsed, binds⟩ := bind_literalText t negative m (value_lt_of_fits t negative m fits)
    rw [literalOutcome, if_pos fits] at binds
    exact ⟨e, parsed, binds⟩
  · rintro ⟨e, parsed, binds⟩
    have outcome := literalOutcome_of_bound t negative m parsed binds
    by_contra misfit
    rw [literalOutcome, if_neg misfit] at outcome
    cases outcome
  · obtain ⟨e, parsed, binds⟩ := bind_literalText t negative m small
    rw [literalOutcome, if_neg (Bool.eq_false_iff.1 misfit)] at binds
    exact ⟨e, parsed, binds⟩
  · intro e v parsed binds
    have outcome := literalOutcome_of_bound t negative m parsed binds
    unfold literalOutcome at outcome
    split at outcome
    · next fits =>
      cases outcome
      exact ⟨_, rfl, Value.int?_ofInt fits⟩
    · cases outcome

/-- The least of the bytes is a literal, its negative is none, and neither is `2 ^ 127`. -/
theorem leastByte_literal_kept : ∃ e e',
    parseExpression "-0x80 i8" = .ok e ∧
      bindExpression e = .ok (.literal ⟨.int .i8, ⟨"<expr>", 1, 1, 2⟩⟩ (.ofInt .i8 (-128))) ∧
    parseExpression "128 i8" = .ok e' ∧
      bindExpression e' = .error ⟨.literalOutOfRange 128 (.int .i8), ⟨"<expr>", 0, 1, 1⟩⟩ ∧
    parseExpression "170141183460469231731687303715884105728 u64" =
      .error (.invalidLiteral "170141183460469231731687303715884105728"
        "number too large to fit in target type" ⟨"<expr>", 0, 1, 1⟩ 39) := by
  let hex : Numeral :=
    ⟨.hex, ['0', 'x'], ['8', '0'], .hex (.inl rfl) (List.all_eq_true.1 (by decide)), nofun⟩
  let plain : Numeral :=
    ⟨.integer, [], ['1', '2', '8'], .integer (List.all_eq_true.1 (by decide)), nofun⟩
  let large : Numeral :=
    ⟨.integer, [], "170141183460469231731687303715884105728".toList,
      .integer (List.all_eq_true.1 (by decide)), nofun⟩
  obtain ⟨e, parsed, binds⟩ := (integer_literals_kept.2 .i8 true hex).1.1 (by decide)
  obtain ⟨e', parsed', binds'⟩ :=
    (integer_literals_kept.2 .i8 false plain).2.1 (by decide) (by decide)
  have refused := (integer_literals_kept.2 .u64 false large).2.2.1 (by decide +kernel)
  exact ⟨e, e', parsed, binds, parsed', binds', refused⟩

end Bound

end ScriptLang
