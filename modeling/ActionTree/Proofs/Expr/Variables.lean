/-
# The variables of an expression

An expression sees its context through the variables that stand in it. Two contexts that
agree on these cannot be told apart by it: whatever is evaluated or left out on the way,
it has the same value in both, or fails for the same reason (`Expr.evalAt_congr`).

Key definitions: `Context.AgreeOn`, `Expr.freeVariables`, `Expr.freeVariablesOf`.
Key theorems: `Expr.evalAt_congr`, `Expr.holds_congr`.
-/
import ActionTree.Proofs.Expr.Bounds

namespace ActionTree

/-- Each variable of a list is missing in both contexts or has the same value in both, the
value being what an expression sees: `3` and `3.0` are the same. The two zeros are not,
although they compare equal, since `1 / x` tells them apart. -/
def Context.AgreeOn (names : List String) (context context' : Context) : Prop :=
  ∀ name ∈ names, (context.get? name).map Value.ofJson = (context'.get? name).map Value.ofJson

namespace Context

variable {names others : List String} {context context' : Context}

theorem agreeOn_append : AgreeOn (names ++ others) context context' ↔
    AgreeOn names context context' ∧ AgreeOn others context context' :=
  List.forall_mem_append

end Context

namespace Expr

/-- The variables that stand in an expression. The name of a member is none. -/
def freeVariables : Expr → List String
  | null | bool _ | num _ | str _ => []
  | ident name => [name]
  | member object _ => object.freeVariables
  | index object position => object.freeVariables ++ position.freeVariables
  | unary _ operand => operand.freeVariables
  | binary _ left right => left.freeVariables ++ right.freeVariables
  | ternary condition consequent alternate =>
    condition.freeVariables ++ (consequent.freeVariables ++ alternate.freeVariables)

/-- The variables of the expression that a text describes; none if it describes none. -/
def freeVariablesOf (source : String) : List String :=
  match parse source with
  | .ok e => e.freeVariables
  | .error _ => []

variable {context context' : Context}

/-- What a variable gives depends on what the context has for it, as expressions see it. -/
theorem variableValue_eq (context : Context) (name : String) :
    variableValue context name =
      ((context.get? name).map Value.ofJson).elim (.error (.unresolved name)) .ok := by
  unfold variableValue
  cases context.get? name <;> rfl

/-- **An expression sees nothing of its context but its variables.** -/
theorem evalAt_congr (e : Expr) (h : context.AgreeOn e.freeVariables context') (depth : Nat) :
    e.evalAt context depth = e.evalAt context' depth := by
  induction e generalizing depth with
  | null | bool | num | str => simp only [evalAt]
  | ident name => simp only [evalAt, variableValue_eq, h name (List.mem_singleton_self name)]
  | member object _ ih | unary _ object ih => simp only [evalAt, ih h]
  | index object position ih ih' | binary _ object position ih ih' =>
    obtain ⟨h, h'⟩ := Context.agreeOn_append.1 h
    simp only [evalAt, ih h, ih' h']
  | ternary condition consequent alternate ih ih' ih'' =>
    obtain ⟨h, h'⟩ := Context.agreeOn_append.1 h
    obtain ⟨h', h''⟩ := Context.agreeOn_append.1 h'
    simp only [evalAt, ih h, ih' h', ih'' h'']

/-- Nor does a condition. One that is no expression fails in every context. -/
theorem holds_congr {source : String} (h : context.AgreeOn (freeVariablesOf source) context') :
    holds context source = holds context' source := by
  cases hp : parse source with
  | ok e =>
    rw [freeVariablesOf, hp] at h
    simp only [holds, evaluate, hp]
    show (e.evalAt context 0).map _ = (e.evalAt context' 0).map _
    rw [evalAt_congr e h]
  | error error => rw [holds_of_parse_error hp, holds_of_parse_error hp]

end Expr
end ActionTree
