/-
# The height that the parser counts

The parser counts heights while it puts expressions together, in every loop of its own: one
more for each access, each operator in front and each operand of a chain, and one more than
the highest of three parts for a conditional. What it counts is the height of the expression
that it returns, as long as this keeps the bound, and beyond the bound it counts no further
(`Expr.counting_takeTernary`). So of the expressions that a row of tokens can form those are
refused that are higher than the bound, and no others (`Expr.Built.finish_of`).

Key definitions: `Expr.bounded`, `Expr.Built.of`, `Expr.Counting`.
Key theorems: `Expr.counting_takeTernary`, `Expr.eq_of_ofTokens?`, `Expr.Built.finish_of`.
-/
import ActionTree.Expr.Parser

namespace ActionTree
namespace Expr

/-! ### Bounded heights -/

/-- A height that is told only if it keeps the bound. -/
def bounded (height : Nat) : Except ExprError Nat :=
  if height ≤ maxHeight then .ok height else .error (.tooDeep maxHeight)

/-- A height keeps the bound and is told, or the bound is. -/
theorem bounded_cases (height : Nat) :
    bounded height = .ok height ∧ height ≤ maxHeight ∨
      bounded height = .error (.tooDeep maxHeight) ∧ maxHeight < height := by
  by_cases h : height ≤ maxHeight
  · exact .inl ⟨if_pos h, h⟩
  · exact .inr ⟨if_neg h, Nat.not_le.1 h⟩

theorem bounded_bind_grow (height : Nat) : (bounded height >>= grow) = bounded (height + 1) := by
  unfold bounded
  by_cases h : height ≤ maxHeight
  · rw [if_pos h]
    by_cases h' : height + 1 ≤ maxHeight
    · rw [if_pos h']
      exact if_neg (Nat.not_lt.2 h')
    · rw [if_neg h']
      exact if_pos (Nat.not_le.1 h')
  · rw [if_neg h, if_neg (by omega)]
    rfl

/-- Two parts keep the bound if the higher one does. -/
theorem bounded_bind_bounded (first second : Nat) (next : Nat → Except ExprError Nat) :
    (bounded first >>= fun a => bounded second >>= fun b => next (max a b)) =
      bounded (max first second) >>= next := by
  by_cases h : first ≤ maxHeight
  · by_cases h' : second ≤ maxHeight
    · have hmax : max first second ≤ maxHeight := Nat.max_le.2 ⟨h, h'⟩
      simp only [bounded, if_pos h, if_pos h', if_pos hmax]
      rfl
    · have hmax : ¬ max first second ≤ maxHeight := by omega
      simp only [bounded, if_pos h, if_neg h', if_neg hmax]
      rfl
  · have hmax : ¬ max first second ≤ maxHeight := by omega
    simp only [bounded, if_neg h, if_neg hmax]
    rfl

/-! ### Steps of the count -/

namespace Built

/-- An expression with its height, if this keeps the bound. -/
def of (e : Expr) : Built :=
  ⟨e, bounded e.height⟩

theorem leaf_eq {e : Expr} (h : e.height = 1) : leaf e = of e := by
  rw [of, h]
  rfl

@[simp] theorem of_member (object : Expr) (name : String) :
    (of object).member name = of (.member object name) :=
  congrArg (mk _) (bounded_bind_grow _)

@[simp] theorem of_unary (op : UnaryOp) (operand : Expr) :
    Built.unary op (of operand) = of (.unary op operand) :=
  congrArg (mk _) (bounded_bind_grow _)

@[simp] theorem of_index (object position : Expr) :
    (of object).index (of position) = of (.index object position) := by
  refine congrArg (mk _) ((bounded_bind_bounded _ _ _).trans ?_)
  exact bounded_bind_grow _

@[simp] theorem of_binary (op : BinaryOp) (left right : Expr) :
    Built.binary op (of left) (of right) = of (.binary op left right) := by
  refine congrArg (mk _) ((bounded_bind_bounded _ _ _).trans ?_)
  exact bounded_bind_grow _

@[simp] theorem of_ternary (condition consequent alternate : Expr) :
    Built.ternary (of condition) (of consequent) (of alternate) =
      of (.ternary condition consequent alternate) := by
  refine congrArg (mk _) ?_
  rw [Expr.height, ← Nat.max_assoc, ← bounded_bind_grow,
    ← bounded_bind_bounded (max condition.height consequent.height)]
  exact bounded_bind_bounded _ _ fun highest =>
    bounded alternate.height >>= fun last => grow (max highest last)

/-- The height that was counted is that of the expression. -/
def Counted (built : Built) : Prop :=
  ∃ e, built = of e

theorem Counted.eq {built : Built} (h : built.Counted) : built = of built.expr := by
  obtain ⟨e, rfl⟩ := h
  rfl

namespace Counted

variable {object position operand left right condition consequent alternate : Built}

theorem leaf {e : Expr} (h : e.height = 1) : (Built.leaf e).Counted :=
  ⟨e, leaf_eq h⟩

theorem member (h : object.Counted) (name : String) : (object.member name).Counted := by
  obtain ⟨e, rfl⟩ := h
  exact ⟨_, of_member e name⟩

theorem index (h : object.Counted) (h' : position.Counted) : (object.index position).Counted := by
  obtain ⟨e, rfl⟩ := h
  obtain ⟨e', rfl⟩ := h'
  exact ⟨_, of_index e e'⟩

theorem unary (op : UnaryOp) (h : operand.Counted) : (Built.unary op operand).Counted := by
  obtain ⟨e, rfl⟩ := h
  exact ⟨_, of_unary op e⟩

theorem binary (op : BinaryOp) (h : left.Counted) (h' : right.Counted) :
    (Built.binary op left right).Counted := by
  obtain ⟨e, rfl⟩ := h
  obtain ⟨e', rfl⟩ := h'
  exact ⟨_, of_binary op e e'⟩

theorem ternary (h : condition.Counted) (h' : consequent.Counted) (h'' : alternate.Counted) :
    (Built.ternary condition consequent alternate).Counted := by
  obtain ⟨e, rfl⟩ := h
  obtain ⟨e', rfl⟩ := h'
  obtain ⟨e'', rfl⟩ := h''
  exact ⟨_, of_ternary e e' e''⟩

end Counted

/-- **An expression is refused for its height alone.** -/
theorem finish_of (e : Expr) :
    (of e).finish = if e.height ≤ maxHeight then .ok e else .error (.tooDeep maxHeight) := by
  unfold finish of bounded
  by_cases h : e.height ≤ maxHeight
  · simp only [if_pos h]
    rfl
  · simp only [if_neg h]
    rfl

end Built

/-! ### The count through the parser -/

/-- A parser counts the heights of what it takes. -/
def Counting (parser : Parser) : Prop :=
  ∀ ⦃row : List Token⦄ ⦃built : Built⦄ ⦃rest : List Token⦄, parser row = some (built, rest) →
    built.Counted

section

variable {inner operand : Parser}

theorem counting_takePrimary (hi : Counting inner) : Counting (takePrimary inner) := by
  intro row built rest h
  unfold takePrimary at h
  split at h
  · cases h; exact .leaf rfl
  · cases h; exact .leaf rfl
  · cases h; exact .leaf rfl
  · cases h; exact .leaf rfl
  · cases h; exact .leaf rfl
  · split at h
    · rename_i hr
      cases h
      exact hi hr
    · cases h
  · cases h

/-- Each access is counted on what stands in front of it. -/
theorem counting_takeAccesses (hi : Counting inner) (fuel : Nat) {object : Built}
    (ho : object.Counted) : Counting (takeAccesses inner fuel object) := by
  intro row
  fun_induction takeAccesses inner fuel object row with
  | case1 fuel object name rest ih => exact ih (ho.member name)
  | case2 fuel object rest position rest' hr ih => exact ih (ho.index (hi hr))
  | case3 =>
    intro built rest h
    cases h
  | case4 =>
    intro built rest h
    cases h
    exact ho

theorem counting_takeAccessed (hi : Counting inner) : Counting (takeAccessed inner) := by
  intro row built rest h
  unfold takeAccessed at h
  split at h
  · rename_i hp
    exact counting_takeAccesses hi _ (counting_takePrimary hi hp) h
  · cases h

theorem counting_takePrefixed (hi : Counting inner) : Counting (takePrefixed inner) := by
  intro row
  fun_induction takePrefixed inner row with
  | case1 rest ih | case2 rest ih =>
    intro built last h
    obtain ⟨⟨operand, rest'⟩, hr, h⟩ := Option.map_eq_some_iff.1 h
    cases h
    exact .unary _ (ih hr)
  | case3 =>
    intro built rest h
    exact counting_takeAccessed hi h

/-- Each operand of a chain is counted beside all that stands in front of it. -/
theorem counting_takeChain (ho : Counting operand) (level : List BinaryOp) (fuel : Nat)
    {left : Built} (hl : left.Counted) : Counting (takeChain level operand fuel left) := by
  intro row
  fun_induction takeChain level operand fuel left row with
  | case1 fuel left op rest hop right rest' hr ih => exact ih (.binary op hl (ho hr))
  | case2 =>
    intro built rest h
    cases h
  | case3 | case4 =>
    intro built rest h
    cases h
    exact hl

theorem counting_takeJoined (ho : Counting operand) (levels : List (List BinaryOp)) :
    Counting (takeJoined operand levels) := by
  induction levels with
  | nil => exact ho
  | cons level tighter ih =>
    intro row built rest h
    unfold takeJoined at h
    split at h
    · rename_i hr
      exact counting_takeChain ih level _ (ih hr) h
    · cases h

end

/-- **The parser counts the height of the expression that it returns.** -/
theorem counting_takeTernary (depth : Nat) : Counting (takeTernary depth) := by
  induction depth with
  | zero =>
    intro row built rest h
    cases h
  | succ depth ih =>
    have hchain := counting_takeJoined (counting_takePrefixed ih) levels
    intro row built rest h
    unfold takeTernary at h
    split at h
    · rename_i hc
      split at h
      · rename_i ha
        split at h
        · rename_i hb
          cases h
          exact .ternary (hchain hc) (ih ha) (ih hb)
        · cases h
      · cases h
    · exact hchain h

/-- The height of what a whole row forms was counted to the end, or it is beyond the
bound. -/
theorem eq_of_ofTokens? {row : List Token} {built : Built} (h : ofTokens? row = some built) :
    built = .of built.expr := by
  unfold ofTokens? ofTokensWithin? at h
  split at h
  · rename_i hr
    cases h
    exact (counting_takeTernary _ hr).eq
  · cases h

end Expr
end ActionTree
