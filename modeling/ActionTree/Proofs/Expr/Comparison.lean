/-
# Order and equality of values

The relational operators ask how two values compare (`Value.compare?`), the operator `==`
has a table of its own that goes by the kinds of its operands (`Value.looseEquals`). On
numbers, texts and truth values the two agree: values are loosely equal exactly if they
compare as equal. All else about the operators follows from two facts on comparing, that
values do not compare at all only where a number is missing, and that exchanging them turns
the answer round.

Key definitions: `Value.isScalar`, `Value.Unordered`.
Key theorems: `Binary64.compare_swap`, `Value.compare?_swap`, `Value.compare?_eq_none`,
`Value.looseEquals_eq`, `BinaryOp.comparisons_agree`.
-/
import ActionTree.Expr.Eval

namespace ActionTree

/-! ### Numbers -/

namespace Binary64

open Float.Model (UnpackedFloat)
open Float.Model.UnpackedFloat (Sign)

theorem then_swap (e f : Int) (m n : Nat) : (compare f e).then (compare n m) =
    ((compare e f).then (compare m n)).swap := by
  rw [Ordering.swap_then, ← Std.OrientedOrd.eq_swap, ← Std.OrientedOrd.eq_swap]

/-- **Exchanged numbers compare the other way round.** Two finite ones of one sign are
compared by their exponents first, so there it is the orders of exponents and of mantissas
that turn round; all other pairs are settled by their signs. -/
theorem compare_swap (x y : UnpackedFloat) : y.compare x = (x.compare y).map Ordering.swap := by
  rcases x with (s | s) | _ | s | ⟨s | s, m, e, hm⟩ <;>
    rcases y with (t | t) | _ | t | ⟨t | t, n, f, hn⟩
  case finite.positive.finite.positive => exact congrArg some (then_swap e f m n)
  case finite.negative.finite.negative =>
    exact congrArg (fun o => some o.swap) (then_swap e f m n)
  all_goals rfl

/-- NaN, and nothing else, does not compare. -/
theorem compare_eq_none (x y : UnpackedFloat) :
    x.compare y = none ↔ x.isNaN = true ∨ y.isNaN = true := by
  cases x with
  | notANumber => exact iff_of_true rfl (.inl rfl)
  | infinity s | zero s | finite s =>
    cases y with
    | notANumber => exact iff_of_true rfl (.inr rfl)
    | infinity t | zero t | finite t =>
      refine iff_of_false ?_ (Or.rec Bool.false_ne_true Bool.false_ne_true)
      cases s <;> cases t <;> exact Option.some_ne_none _

end Binary64

namespace Value

variable {x y : Float}

theorem beq_eq_compare : (x == y) = (x.toModel.unpack.compare y.toModel.unpack == some .eq) :=
  rfl

theorem lt_iff_compare : x < y ↔ x.toModel.unpack.compare y.toModel.unpack = some .lt := by
  show decide (x.toModel < y.toModel) = true ↔ _
  rw [decide_eq_true_iff]
  show (_ == _) = true ↔ _
  rw [beq_iff_eq]

/-- The three questions about two numbers that are asked one after the other have one
answer, since at most one of them is answered with yes. -/
theorem compareNumbers?_eq (x y : Float) :
    compareNumbers? x y = x.toModel.unpack.compare y.toModel.unpack := by
  unfold compareNumbers?
  simp only [lt_iff_compare, beq_eq_compare]
  rw [Binary64.compare_swap x.toModel.unpack]
  rcases x.toModel.unpack.compare y.toModel.unpack with _ | o
  · rfl
  · rcases o with _ | _ | _ <;> rfl

theorem compareNumbers?_swap (x y : Float) :
    compareNumbers? y x = (compareNumbers? x y).map Ordering.swap := by
  rw [compareNumbers?_eq, compareNumbers?_eq, Binary64.compare_swap]

theorem compareNumbers?_eq_none :
    compareNumbers? x y = none ↔ x.isNaN = true ∨ y.isNaN = true := by
  rw [compareNumbers?_eq, Binary64.compare_eq_none]
  exact Iff.rfl

theorem beq_eq_compareNumbers? (x y : Float) : (x == y) = (compareNumbers? x y == some .eq) := by
  rw [compareNumbers?_eq, beq_eq_compare]

/-! ### Values -/

/-- Numbers, texts and truth values. -/
def isScalar : Value → Bool
  | num _ | str _ | bool _ => true
  | _ => false

/-- Texts. -/
def isText : Value → Bool
  | str _ => true
  | _ => false

/-- Two values that cannot be ordered: they are not both texts, so they are compared as
numbers, and one of them is none. -/
def Unordered (l r : Value) : Prop :=
  ¬ (l.isText = true ∧ r.isText = true) ∧ (l.toNumber.isNaN = true ∨ r.toNumber.isNaN = true)

instance (l r : Value) : Decidable (l.Unordered r) :=
  inferInstanceAs (Decidable (_ ∧ _))

variable {l r : Value}

theorem exists_str (h : l.isText = true) : ∃ a, l = str a := by
  cases l with
  | str a => exact ⟨a, rfl⟩
  | _ => exact absurd h Bool.false_ne_true

/-- But for two texts, values are compared as numbers. -/
theorem compare?_eq_numbers (h : ¬ (l.isText = true ∧ r.isText = true)) :
    l.compare? r = compareNumbers? l.toNumber r.toNumber := by
  cases l with
  | str a =>
    cases r with
    | str b => exact absurd ⟨rfl, rfl⟩ h
    | _ => rfl
  | _ => rfl

/-- **Exchanged values compare the other way round.** -/
theorem compare?_swap (l r : Value) : r.compare? l = (l.compare? r).map Ordering.swap := by
  by_cases h : l.isText = true ∧ r.isText = true
  · obtain ⟨a, rfl⟩ := exists_str h.1
    obtain ⟨b, rfl⟩ := exists_str h.2
    rw [compare?, compare?, Option.map_some, ← Std.OrientedOrd.eq_swap]
  · rw [compare?_eq_numbers h, compare?_eq_numbers (fun ht => h ht.symm), compareNumbers?_swap]

/-- **Values fail to compare only for want of a number.** -/
theorem compare?_eq_none : l.compare? r = none ↔ l.Unordered r := by
  by_cases h : l.isText = true ∧ r.isText = true
  · obtain ⟨a, rfl⟩ := exists_str h.1
    obtain ⟨b, rfl⟩ := exists_str h.2
    exact iff_of_false (Option.some_ne_none _) (fun hu => hu.1 h)
  · rw [compare?_eq_numbers h, compareNumbers?_eq_none]
    exact ⟨fun hn => ⟨h, hn⟩, fun hu => hu.2⟩

/-- **Loose equality is comparing as equal.** Its table asks for the same kind first; there
the content decides, which for texts and truth values is what comparing them comes to. -/
theorem looseEquals_eq (hl : l.isScalar = true) (hr : r.isScalar = true) :
    l.looseEquals r = (l.compare? r == some .eq) := by
  cases l with
  | num a =>
    cases r with
    | num b | str b | bool b => exact beq_eq_compareNumbers? _ _
    | null | list | obj => exact absurd hr Bool.false_ne_true
  | str a =>
    cases r with
    | str b =>
      show (a == b) = (compare a b == .eq)
      rw [Bool.eq_iff_iff, beq_iff_eq, beq_iff_eq]
      exact Std.LawfulEqOrd.compare_eq_iff_eq.symm
    | num b | bool b => exact beq_eq_compareNumbers? _ _
    | null | list | obj => exact absurd hr Bool.false_ne_true
  | bool a =>
    cases r with
    | bool b =>
      show (a == b) = (compareNumbers? (bool a).toNumber (bool b).toNumber == some .eq)
      cases a <;> cases b <;> decide
    | num b | str b => exact beq_eq_compareNumbers? _ _
    | null | list | obj => exact absurd hr Bool.false_ne_true
  | null | list | obj => exact absurd hl Bool.false_ne_true

end Value

/-! ### Operators -/

namespace BinaryOp

variable {l r : Value}

/-- `<` and `>` are one operator with its operands exchanged, whatever these are. -/
theorem lt_apply_swap (l r : Value) : lt.apply l r = gt.apply r l := by
  rw [apply, apply, Value.compare?_swap l r]
  rcases l.compare? r with _ | _ | _ | _ <;> rfl

/-- So are `<=` and `>=`. -/
theorem le_apply_swap (l r : Value) : le.apply l r = ge.apply r l := by
  rw [apply, apply, Value.compare?_swap l r]
  rcases l.compare? r with _ | _ | _ | _ <;> rfl

theorem eq_apply_swap (hl : l.isScalar = true) (hr : r.isScalar = true) :
    eq.apply l r = eq.apply r l := by
  rw [apply, apply, Value.looseEquals_eq hl hr, Value.looseEquals_eq hr hl, Value.compare?_swap l r]
  rcases l.compare? r with _ | _ | _ | _ <;> rfl

/-- Where nothing can be said about the order, every operator says no. -/
theorem apply_of_unordered (hl : l.isScalar = true) (hr : r.isScalar = true)
    (h : l.Unordered r) : ∀ op ∈ [lt, le, gt, ge, eq], op.apply l r = .bool false := by
  have hnone : l.compare? r = none := Value.compare?_eq_none.2 h
  have heq : l.looseEquals r = false := by rw [Value.looseEquals_eq hl hr, hnone]; rfl
  simp [apply, hnone, heq]

/-- Elsewhere one of three things is the case, and `<=` and `>=` are made of them. -/
theorem apply_of_ordered (hl : l.isScalar = true) (hr : r.isScalar = true)
    (h : ¬ l.Unordered r) : ∃ less equal greater : Bool,
      lt.apply l r = .bool less ∧ eq.apply l r = .bool equal ∧ gt.apply l r = .bool greater ∧
      [less, equal, greater].count true = 1 ∧
      le.apply l r = .bool (less || equal) ∧ ge.apply l r = .bool (greater || equal) := by
  obtain ⟨o, ho⟩ := Option.ne_none_iff_exists'.1 (fun hn => h (Value.compare?_eq_none.1 hn))
  simp only [apply, Value.looseEquals_eq hl hr, ho]
  refine ⟨_, _, _, rfl, rfl, rfl, ?_⟩
  rcases o with _ | _ | _ <;> exact ⟨rfl, rfl, rfl⟩

/-- **The relational operators and `==` tell one story.** Of two numbers, texts or truth
values, nothing holds if they cannot be ordered. Else exactly one of `<`, `==` and `>` does,
and `<=` and `>=` are what they are made of. In any case the operands may be exchanged when
the sign is turned round. -/
theorem comparisons_agree (hl : l.isScalar = true) (hr : r.isScalar = true) :
    (l.Unordered r → ∀ op ∈ [lt, le, gt, ge, eq], op.apply l r = .bool false) ∧
    (¬ l.Unordered r → ∃ less equal greater : Bool,
      lt.apply l r = .bool less ∧ eq.apply l r = .bool equal ∧ gt.apply l r = .bool greater ∧
      [less, equal, greater].count true = 1 ∧
      le.apply l r = .bool (less || equal) ∧ ge.apply l r = .bool (greater || equal)) ∧
    lt.apply l r = gt.apply r l ∧ le.apply l r = ge.apply r l ∧
      eq.apply l r = eq.apply r l :=
  ⟨apply_of_unordered hl hr, apply_of_ordered hl hr, lt_apply_swap l r, le_apply_swap l r,
    eq_apply_swap hl hr⟩

/-- A text that is no numeral is neither below, nor equal to, nor above a number. -/
theorem comparisons_agree_no_numeral :
    let l : Value := .str "x"
    let r : Value := .num 1.0
    l.Unordered r ∧ lt.apply l r = .bool false ∧ eq.apply l r = .bool false ∧
      gt.apply l r = .bool false := by
  intro l r
  have hu : l.Unordered r := by decide
  have hnone := (comparisons_agree (l := l) (r := r) rfl rfl).1 hu
  exact ⟨hu, hnone lt (by decide), hnone eq (by decide), hnone gt (by decide)⟩

end BinaryOp
end ActionTree
