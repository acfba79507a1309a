/-
# Where the bound on the depth is met

The evaluator refuses a node that lies `maxHeight` nodes below the root. Which nodes it
comes to depends on the context: an operand that is not needed is left out, and behind a
failure nothing is visited. Here the depths of the visited nodes are listed in the order of
the visits, as the evaluation without a bound makes them (`Expr.visits`). The bound is met
if and only if one of these depths is beyond it, and then nothing else shows; otherwise it
changes nothing (`Expr.evalAt_eq_guarded`). This holds of every tree, whether a parser
built it or not.

Key definitions: `Expr.visits`, `Expr.guarded`.
Key theorems: `Expr.guarded_bind`, `Expr.evalAt_eq_guarded`, `Expr.depth_check_exact`.
-/
import ActionTree.Proofs.Expr.Bounds

namespace ActionTree
namespace Expr

variable {α β : Type}

/-! ### Visits -/

/-- What is visited behind a computation: nothing if it fails. -/
def visitsBehind (result : Except ExprError α) (more : α → List Nat) : List Nat :=
  match result with
  | .ok value => more value
  | .error _ => []

/-- The depths of the nodes that are visited while an expression at a depth is evaluated
without a bound, in the order of the visits. -/
def visits (context : Context) (e : Expr) (depth : Nat) : List Nat :=
  depth :: match e with
    | null | bool _ | num _ | str _ | ident _ => []
    | member object _ => visits context object (depth + 1)
    | index object position =>
      visits context object (depth + 1) ++
        visitsBehind (object.value context) fun _ => visits context position (depth + 1)
    | unary _ operand => visits context operand (depth + 1)
    | binary op left right =>
      visits context left (depth + 1) ++ visitsBehind (left.value context) fun left =>
        if op.decides left then [] else visits context right (depth + 1)
    | ternary condition consequent alternate =>
      visits context condition (depth + 1) ++
        visitsBehind (condition.value context) fun condition =>
          if condition.truthy then visits context consequent (depth + 1)
          else visits context alternate (depth + 1)

/-! ### A result behind a bound -/

/-- A result that shows if no visit on the way to it goes beyond the bound. -/
def guarded (depths : List Nat) (result : Except ExprError α) : Except ExprError α :=
  if ∀ d ∈ depths, d < maxHeight then result else .error (.tooDeep maxHeight)

theorem guarded_nil (result : Except ExprError α) : guarded [] result = result :=
  if_pos fun _ h => absurd h List.not_mem_nil

theorem guarded_cons (depth : Nat) (depths : List Nat) (result : Except ExprError α) :
    guarded (depth :: depths) result =
      if maxHeight ≤ depth then .error (.tooDeep maxHeight) else guarded depths result := by
  unfold guarded
  by_cases hd : maxHeight ≤ depth
  · rw [if_pos hd, if_neg fun h => Nat.not_lt.2 hd (h depth List.mem_cons_self)]
  · rw [if_neg hd]
    simp only [List.forall_mem_cons, Nat.not_le.1 hd, true_and]

/-- **A bound on two computations one behind the other** is a bound on the visits of the
first and on what the second visits, if the first comes to its end. -/
theorem guarded_bind (depths : List Nat) (result : Except ExprError α) (more : α → List Nat)
    (next : α → Except ExprError β) :
    (guarded depths result >>= fun value => guarded (more value) (next value)) =
      guarded (depths ++ visitsBehind result more) (result >>= next) := by
  unfold guarded
  by_cases hd : ∀ d ∈ depths, d < maxHeight
  · rw [if_pos hd]
    cases result with
    | ok value =>
      have hboth : (∀ d ∈ more value, d < maxHeight) ↔
          ∀ d ∈ depths ++ more value, d < maxHeight := by
        rw [List.forall_mem_append]
        exact (and_iff_right hd).symm
      exact ite_congr (propext hboth) (fun _ => rfl) fun _ => rfl
    | error error =>
      rw [visitsBehind, List.append_nil, if_pos hd]
      rfl
  · rw [if_neg hd, if_neg fun h => hd fun d hm => h d (List.mem_append_left _ hm)]
    rfl

/-- The second computation may visit nothing. -/
theorem guarded_bind_free (depths : List Nat) (result : Except ExprError α)
    (next : α → Except ExprError β) :
    (guarded depths result >>= next) = guarded depths (result >>= next) := by
  have h := guarded_bind depths result (fun _ => []) next
  have hnone : visitsBehind result (fun _ => []) = [] := by cases result <;> rfl
  simp only [guarded_nil] at h
  rw [h, hnone, List.append_nil]

theorem guarded_ite (decision : Bool) (depths depths' : List Nat)
    (result result' : Except ExprError α) :
    (if decision then guarded depths result else guarded depths' result') =
      guarded (if decision then depths else depths') (if decision then result else result') := by
  cases decision <;> rfl

/-- **The evaluator is the one without a bound behind the bound.** At every depth, what it
returns is what the evaluation without a bound returns, unless that visits a node which lies
too deep. -/
theorem evalAt_eq_guarded (context : Context) (e : Expr) (depth : Nat) :
    e.evalAt context depth = guarded (e.visits context depth) (e.value context) := by
  induction e generalizing depth with
  | null | bool | num | str | ident =>
    rw [evalAt, visits, guarded_cons, guarded_nil]
    rfl
  | member object _ ih | unary _ object ih =>
    rw [evalAt, visits, guarded_cons, ih, guarded_bind_free]
    rfl
  | index object position ih ih' =>
    rw [evalAt, visits, guarded_cons, ih, value, ← guarded_bind]
    simp only [ih', guarded_bind_free]
  | binary op left right ih ih' =>
    rw [evalAt, visits, guarded_cons, ih, value, ← guarded_bind]
    simp only [ih', guarded_bind_free, ← guarded_ite, guarded_nil]
  | ternary condition consequent alternate ih ih' ih'' =>
    rw [evalAt, visits, guarded_cons, ih, value, ← guarded_bind]
    simp only [ih', ih'', ← guarded_ite]

/-! ### The check is exact -/

/-- Without a bound no expression is too deep. -/
theorem value_ne_tooDeep (context : Context) (e : Expr) (limit : Nat) :
    e.value context ≠ .error (.tooDeep limit) := by
  intro h
  cases FailsByContext.value context e _ h

/-- The evaluator refuses an expression as too deep exactly if it visits a node that lies too
deep. -/
theorem eval_eq_tooDeep_iff (context : Context) (e : Expr) :
    e.eval context = .error (.tooDeep maxHeight) ↔
      ∃ d ∈ e.visits context 0, maxHeight - 1 < d := by
  rw [eval, evalAt_eq_guarded, guarded]
  constructor
  · intro h
    refine Decidable.by_contra fun hn => value_ne_tooDeep context e maxHeight ?_
    rwa [if_pos] at h
    exact fun d hm => Nat.lt_of_not_le fun hle => hn ⟨d, hm, Nat.lt_of_succ_le hle⟩
  · rintro ⟨d, hm, hlt⟩
    exact if_neg fun hd => absurd (hd d hm) (Nat.not_lt.2 hlt)

/-- **The check of the depth is exact.** If the evaluation without a bound visits no node
that lies more than `maxHeight - 1` edges below the root, the evaluator returns what it
returns, value or error. If it visits one, the evaluator refuses the expression as too deep,
and it does so in no other case: not if the expression is not higher than the bound, and
what it returns else is what the evaluation without a bound returns. -/
theorem depth_check_exact (context : Context) (e : Expr) :
    ((∀ d ∈ e.visits context 0, d ≤ maxHeight - 1) → e.eval context = e.value context) ∧
    ((∃ d ∈ e.visits context 0, maxHeight - 1 < d) ↔
      e.eval context = .error (.tooDeep maxHeight)) ∧
    (e.height ≤ maxHeight →
      e.eval context ≠ .error (.tooDeep maxHeight) ∧ e.eval context = e.value context) ∧
    (e.eval context ≠ .error (.tooDeep maxHeight) → e.eval context = e.value context) := by
  have hiff := eval_eq_tooDeep_iff context e
  have hvalue : (∀ d ∈ e.visits context 0, d ≤ maxHeight - 1) →
      e.eval context = e.value context := by
    intro h
    rw [eval, evalAt_eq_guarded, guarded, if_pos]
    exact fun d hm => Nat.lt_of_le_of_lt (h d hm) (by decide)
  have hexcept : e.eval context ≠ .error (.tooDeep maxHeight) →
      e.eval context = e.value context := by
    intro h
    exact hvalue fun d hm => Nat.not_lt.1 fun hlt => h (hiff.2 ⟨d, hm, hlt⟩)
  refine ⟨hvalue, hiff.symm, fun hheight => ?_, hexcept⟩
  have hlow : e.eval context = e.value context := evalAt_eq_value context e 0 (by omega)
  exact ⟨hlow ▸ value_ne_tooDeep context e maxHeight, hlow⟩

/-- A tree that is too high on its right side, which one operator leaves out and the other
does not. -/
theorem depth_check_exact_skipped :
    let tall := Nat.repeat (unary .not) 64 (ident "a")
    let skipped := binary .and (bool false) tall
    let visited := binary .and (bool true) tall
    (maxHeight < skipped.height ∧ (∀ d ∈ skipped.visits .empty 0, d ≤ maxHeight - 1) ∧
      skipped.eval .empty = .ok (.bool false)) ∧
    (∃ d ∈ visited.visits .empty 0, maxHeight - 1 < d) ∧
      visited.eval .empty = .error (.tooDeep maxHeight) := by
  intro tall skipped visited
  have hshallow : ∀ d ∈ skipped.visits .empty 0, d ≤ maxHeight - 1 := by decide
  have hdeep : ∃ d ∈ visited.visits .empty 0, maxHeight - 1 < d := by decide
  have hskipped : skipped.value .empty = .ok (.bool false) := rfl
  exact ⟨⟨by decide, hshallow, ((depth_check_exact .empty skipped).1 hshallow).trans hskipped⟩,
    hdeep, (depth_check_exact .empty visited).2.1.1 hdeep⟩

end Expr
end ActionTree
