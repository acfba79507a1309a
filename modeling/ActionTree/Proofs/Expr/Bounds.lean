/-
# What is read can be evaluated

Two bounds keep expressions shallow. The parser refuses an expression that is higher
than `maxHeight`, which it counts from the leaves up; the evaluator refuses a node
that lies `maxHeight` below the root, which it counts from the root down. What the parser
counts is the height of the expression (`Expr.counting_takeTernary`), and the two are
one bound: where the first is kept, the second is never met (`Expr.evalAt_eq_value`). So
an expression that was read has the value that it has without any bound, or lacks one
because of its context alone.

Key definitions: `Expr.value`, `FailsByContext`.
Key theorems: `Expr.parse_eq_counted`, `Expr.evalAt_eq_value`, `Expr.bounds_agree`.
-/
import ActionTree.Expr.Eval
import ActionTree.Proofs.Expr.Heights

namespace ActionTree
namespace Expr

/-! ### Evaluation without a bound -/

/-- The value of an expression of any height: the rules of `evalAt`, but for the look at
the depth. -/
def value (context : Context) : Expr → Except ExprError Value
  | null => .ok .null
  | bool b => .ok (.bool b)
  | num x => .ok (.num x)
  | str text => .ok (.str text)
  | ident name => variableValue context name
  | member object property => do
    let object ← value context object
    object.property? property
  | index object position => do
    let object ← value context object
    let position ← value context position
    object.index? position
  | unary op operand => do
    let operand ← value context operand
    return op.apply operand
  | binary op left right => do
    let left ← value context left
    if op.decides left then return left
    else
      let right ← value context right
      return op.apply left right
  | ternary condition consequent alternate => do
    let condition ← value context condition
    if condition.truthy then value context consequent
    else value context alternate

/-- **The bound on the depth is not met** by an expression that is not higher than what is
left of it. -/
theorem evalAt_eq_value (context : Context) (e : Expr) (depth : Nat)
    (h : depth + e.height ≤ maxHeight) : e.evalAt context depth = e.value context := by
  induction e generalizing depth with
  | null | bool | num | str | ident =>
    rw [evalAt, if_neg (by simp only [height] at h; omega)]
    rfl
  | member object _ ih | unary _ object ih =>
    simp only [height] at h
    rw [evalAt, if_neg (by omega), value]
    simp only [ih (depth + 1) (by omega)]
  | index object position ih ih' | binary _ object position ih ih' =>
    simp only [height] at h
    rw [evalAt, if_neg (by omega), value]
    simp only [ih (depth + 1) (by omega), ih' (depth + 1) (by omega)]
  | ternary condition consequent alternate ih ih' ih'' =>
    simp only [height] at h
    rw [evalAt, if_neg (by omega), value]
    simp only [ih (depth + 1) (by omega), ih' (depth + 1) (by omega), ih'' (depth + 1) (by omega)]

end Expr

/-! ### Errors of evaluation -/

/-- The errors that are due to the context: a variable without a value, and a property of
null. -/
inductive ExprError.OfContext : ExprError → Prop where
  | unresolved (name : String) : OfContext (.unresolved name)
  | nullAccess (property : String) : OfContext (.nullAccess property)

/-- A computation fails, if it does, because of the context. -/
def FailsByContext {α : Type} (result : Except ExprError α) : Prop :=
  ∀ error, result = .error error → error.OfContext

namespace FailsByContext

variable {α β : Type}

theorem ok (value : α) : FailsByContext (.ok value) := by
  intro error h
  cases h

theorem bind {result : Except ExprError α} {next : α → Except ExprError β}
    (h : FailsByContext result) (hn : ∀ value, FailsByContext (next value)) :
    FailsByContext (result >>= next) := by
  cases result with
  | ok value => exact hn value
  | error error =>
    intro error' h'
    cases h'
    exact h error rfl

theorem property? (object : Value) (name : String) : FailsByContext (object.property? name) := by
  cases object with
  | null =>
    intro error h
    cases h
    exact .nullAccess name
  | list items =>
    rw [Value.property?]
    split
    · exact ok _
    · exact ok _
  | bool | num | str | obj => exact ok _

theorem index? (object position : Value) : FailsByContext (object.index? position) := by
  unfold Value.index?
  split
  · exact ok _
  · exact ok _
  · exact property? _ _

theorem variableValue (context : Context) (name : String) :
    FailsByContext (Expr.variableValue context name) := by
  unfold Expr.variableValue
  split
  · exact ok _
  · intro error h
    cases h
    exact .unresolved name

/-- Evaluation without a bound fails because of the context alone. -/
theorem value (context : Context) (e : Expr) : FailsByContext (e.value context) := by
  induction e with
  | null | bool | num | str => exact ok _
  | ident name => exact variableValue context name
  | member object property ih => exact ih.bind fun object => property? object property
  | index object position ih ih' =>
    exact ih.bind fun object => ih'.bind fun position => index? object position
  | unary op operand ih => exact ih.bind fun operand => ok _
  | binary op left right ih ih' =>
    refine ih.bind fun left => ?_
    cases op.decides left with
    | true => exact ok left
    | false => exact ih'.bind fun right => ok _
  | ternary condition consequent alternate ih ih' ih'' =>
    refine ih.bind fun condition => ?_
    cases condition.truthy with
    | true => exact ih'
    | false => exact ih''

end FailsByContext

namespace Expr

/-! ### Parsing and evaluating -/

/-- Within the limits of the text, the height counted while the expression is put together
decides what the parser returns. -/
theorem parse_eq_counted {source : String} (h : checkLimits source = .ok ()) {built : Built}
    (hb : ofTokens? (Token.ofChars source.toList) = some built) :
    parse source = built.height.map fun _ => built.expr := by
  rw [parse, h]
  simp only [hb]
  rfl

/-- What the parser returns was counted to the end, and keeps the bound. -/
theorem counted_of_parse {source : String} {e : Expr} (h : parse source = .ok e) :
    ofTokens? (Token.ofChars source.toList) = some ⟨e, .ok e.height⟩ ∧ e.height ≤ maxHeight := by
  cases hl : checkLimits source with
  | error error =>
    rw [parse, hl] at h
    cases h
  | ok =>
    cases hb : ofTokens? (Token.ofChars source.toList) with
    | none =>
      rw [parse, hl] at h
      simp only [hb] at h
      cases h
    | some built =>
      have hcounted := eq_of_ofTokens? hb
      rw [parse_eq_counted hl hb, hcounted] at h
      by_cases hh : built.expr.height ≤ maxHeight
      · rw [Built.of, bounded, if_pos hh] at h
        cases h
        exact ⟨by rw [hcounted, Built.of, bounded, if_pos hh], hh⟩
      · rw [Built.of, bounded, if_neg hh] at h
        cases h

theorem evaluate_of_parse_ok {source : String} {e : Expr} (h : parse source = .ok e)
    (context : Context) : evaluate context source = e.value context := by
  have hheight := (counted_of_parse h).2
  rw [evaluate, h]
  show e.evalAt context 0 = _
  exact evalAt_eq_value context e 0 (by omega)

theorem evaluate_of_parse_error {source : String} {error : ExprError}
    (h : parse source = .error error) (context : Context) :
    evaluate context source = .error error := by
  rw [evaluate, h]
  rfl

theorem holds_of_parse_error {source : String} {error : ExprError}
    (h : parse source = .error error) (context : Context) :
    holds context source = .error error := by
  rw [holds, evaluate_of_parse_error h]
  rfl

/-- **What is read can be evaluated.** The height counted while an expression is put together
is its height, or the expression is too high; and it decides whether the parser returns the
expression. An expression that was returned keeps the bound and has the value that it has
without any bound, so evaluation fails, if it does, because of the context. If there is no
expression, evaluation fails in every context as the parser did. -/
theorem bounds_agree (source : String) :
    (∀ built, ofTokens? (Token.ofChars source.toList) = some built →
      (built.height = .ok built.expr.height ∧ built.expr.height ≤ maxHeight ∨
        built.height = .error (.tooDeep maxHeight) ∧ maxHeight < built.expr.height) ∧
      (checkLimits source = .ok () → parse source = built.height.map fun _ => built.expr)) ∧
    (∀ e, parse source = .ok e →
      ofTokens? (Token.ofChars source.toList) = some ⟨e, .ok e.height⟩ ∧ e.height ≤ maxHeight ∧
      ∀ context, evaluate context source = e.value context ∧
        holds context source = (e.value context).map Value.truthy ∧
        ∀ error, evaluate context source = .error error →
          (∃ name, error = .unresolved name) ∨ ∃ property, error = .nullAccess property) ∧
    (∀ error, parse source = .error error → ∀ context,
      evaluate context source = .error error ∧ holds context source = .error error) := by
  refine ⟨fun built hb => ⟨?_, fun hl => parse_eq_counted hl hb⟩, fun e h => ?_,
    fun error h context => ⟨evaluate_of_parse_error h context, holds_of_parse_error h context⟩⟩
  · rw [congrArg Built.height (eq_of_ofTokens? hb)]
    exact bounded_cases built.expr.height
  · obtain ⟨hcounted, hheight⟩ := counted_of_parse h
    refine ⟨hcounted, hheight, fun context => ?_⟩
    have hvalue := evaluate_of_parse_ok h context
    refine ⟨hvalue, ?_, fun error herror => ?_⟩
    · rw [holds, hvalue]
      rfl
    · rw [hvalue] at herror
      cases FailsByContext.value context e error herror with
      | unresolved name => exact .inl ⟨name, rfl⟩
      | nullAccess property => exact .inr ⟨property, rfl⟩

/-- 63 signs in front of a variable: a height that just keeps the bound. -/
theorem bounds_agree_at_limit :
    let source := String.ofList (List.replicate 63 '!' ++ ['a'])
    let e := Nat.repeat (unary .not) 63 (ident "a")
    parse source = .ok e ∧ e.height = maxHeight ∧
      evaluate .empty source = .error (.unresolved "a") := by
  intro source e
  have htext : source.toList = List.replicate 63 '!' ++ ['a'] := String.toList_ofList
  have hsize : ¬ maxSourceBytes < source.utf8ByteSize := by decide
  have hlimits : checkLimits source = .ok () := by
    rw [checkLimits, if_neg hsize, htext]; rfl
  have hparse : parse source = .ok e := by
    rw [parse, hlimits, htext]; rfl
  have h := ((bounds_agree source).2.1 e hparse).2.2 .empty
  exact ⟨hparse, rfl, h.1⟩

end Expr
end ActionTree
