/-
# More variables do not change a value

An expression that has a value keeps it when its context gets more variables, and so does
one that fails, unless it fails for lack of a variable that is there now. For a run in the
larger context takes the same way through the expression up to the first variable that only
the larger context has, and at this variable the run in the smaller context has failed
(`Expr.evalAt_of_includedIn`). So nothing but the variables of an expression is ever seen of
a context, and all others can as well be left out (`Expr.eval_only`).

Key definitions: `Context.IncludedIn`, `Context.only`, `Lacks`.
Key theorems: `Expr.lacks_evalAt`, `Expr.evalAt_of_includedIn`, `Expr.eval_only`,
`Expr.eval_local`.
-/
import ActionTree.Proofs.Expr.Variables

namespace ActionTree

/-! ### Contexts with more variables and with fewer -/

namespace Context

variable {context context' : Context}

/-- Each variable of a context is one of the other, with the same value. As for `AgreeOn`,
the value is what an expression sees. -/
def IncludedIn (context context' : Context) : Prop :=
  ∀ name value, (context.get? name).map Value.ofJson = some value →
    (context'.get? name).map Value.ofJson = some value

theorem includedIn_of_get? (h : ∀ name json, context.get? name = some json →
    context'.get? name = some json) : context.IncludedIn context' := by
  intro name value hv
  obtain ⟨json, hj, rfl⟩ := Option.map_eq_some_iff.1 hv
  rw [h name json hj]
  rfl

/-- What the larger context lacks, the smaller one lacks, and else they differ in it or not. -/
theorem IncludedIn.get?_eq (h : context.IncludedIn context') {name : String}
    (hn : context.get? name = none → context'.get? name = none) :
    (context'.get? name).map Value.ofJson = (context.get? name).map Value.ofJson := by
  cases hc : context.get? name with
  | none => rw [hn hc]
  | some json => exact h name (Value.ofJson json) (by rw [hc]; rfl)

/-- The context with no other variables than those of a list. -/
def only (context : Context) (names : List String) : Context :=
  ⟨context.entries.filter fun entry => entry.1 ∈ names⟩

theorem get?_only (context : Context) {names : List String} {name : String} (h : name ∈ names) :
    (context.only names).get? name = context.get? name := by
  obtain ⟨entries⟩ := context
  show Fields.get? (entries.filter _) name = Fields.get? entries name
  induction entries with
  | nil => rfl
  | cons entry rest ih =>
    obtain ⟨other, json⟩ := entry
    by_cases hm : other ∈ names
    · rw [List.filter_cons_of_pos (by simpa using hm), Fields.get?_cons, Fields.get?_cons, ih]
    · have hne : name ≠ other := fun he => hm (he ▸ h)
      rw [List.filter_cons_of_neg (by simpa using hm), Fields.get?_cons, if_neg hne, ih]

end Context

/-! ### Missing variables -/

/-- The variable for lack of which a computation fails, if it fails so, has a property. -/
def Lacks {α : Type} (P : String → Prop) (result : Except ExprError α) : Prop :=
  ∀ name, result = .error (.unresolved name) → P name

namespace Lacks

variable {α β : Type} {P : String → Prop} {result : Except ExprError α}
  {next next' : α → Except ExprError β}

theorem ok (value : α) : Lacks P (.ok value) := by
  intro name h
  cases h

theorem bind (h : Lacks P result) (hn : ∀ value, Lacks P (next value)) :
    Lacks P (result >>= next) := by
  cases result with
  | ok value => exact hn value
  | error error =>
    intro name h'
    cases h'
    exact h name rfl

/-- Two computations one behind the other go as two others do, if the parts go so wherever
they do not fail for lack of another variable. -/
theorem bind_congr {result' : Except ExprError α} (h : Lacks P (result >>= next))
    (hr : Lacks P result → result' = result)
    (hn : ∀ value, Lacks P (next value) → next' value = next value) :
    (result' >>= next') = (result >>= next) := by
  cases result with
  | ok value =>
    rw [hr (ok value)]
    exact hn value h
  | error error =>
    rw [hr fun name he => h name (congrArg (· >>= next) he)]
    rfl

theorem property? (object : Value) (name : String) : Lacks P (object.property? name) := by
  intro missing h
  cases FailsByContext.property? object name _ h
  cases object with
  | list items =>
    rw [Value.property?] at h
    split at h <;> cases h
  | _ => cases h

theorem index? (object position : Value) : Lacks P (object.index? position) := by
  unfold Value.index?
  split
  · exact ok _
  · exact ok _
  · exact property? _ _

end Lacks

namespace Expr

variable {context context' : Context}

/-! ### One run in two contexts -/

theorem lacks_ite_tooDeep {P : String → Prop} {depth : Nat} {result : Except ExprError Value}
    (h : Lacks P result) :
    Lacks P (if maxHeight ≤ depth then .error (.tooDeep maxHeight) else result) := by
  split
  · intro name he
    cases he
  · exact h

theorem ite_tooDeep_congr {P : String → Prop} {depth : Nat}
    {result result' : Except ExprError Value}
    (h : Lacks P (if maxHeight ≤ depth then .error (.tooDeep maxHeight) else result))
    (hr : Lacks P result → result' = result) :
    (if maxHeight ≤ depth then .error (.tooDeep maxHeight) else result') =
      if maxHeight ≤ depth then .error (.tooDeep maxHeight) else result := by
  by_cases hd : maxHeight ≤ depth
  · rw [if_pos hd, if_pos hd]
  · rw [if_neg hd] at h ⊢
    rw [if_neg hd, hr h]

/-- **An evaluation fails for lack of none but its own variables**, and only if the context
does not have them. -/
theorem lacks_evalAt (context : Context) (e : Expr) {names : List String}
    (h : e.freeVariables ⊆ names) (depth : Nat) :
    Lacks (fun name => name ∈ names ∧ context.get? name = none) (e.evalAt context depth) := by
  induction e generalizing depth with
  | null | bool | num | str =>
    rw [evalAt]
    exact lacks_ite_tooDeep (.ok _)
  | ident name =>
    rw [evalAt]
    refine lacks_ite_tooDeep fun missing hm => ?_
    unfold variableValue at hm
    split at hm
    · cases hm
    · rename_i hn
      cases hm
      exact ⟨h (List.mem_singleton_self name), hn⟩
  | member object property ih =>
    rw [evalAt]
    exact lacks_ite_tooDeep ((ih h _).bind fun object => .property? object property)
  | index object position ih ih' =>
    obtain ⟨h, h'⟩ := List.append_subset.1 h
    rw [evalAt]
    exact lacks_ite_tooDeep ((ih h _).bind fun object => (ih' h' _).bind fun position =>
      .index? object position)
  | unary op operand ih =>
    rw [evalAt]
    exact lacks_ite_tooDeep ((ih h _).bind fun operand => .ok _)
  | binary op left right ih ih' =>
    obtain ⟨h, h'⟩ := List.append_subset.1 h
    rw [evalAt]
    refine lacks_ite_tooDeep ((ih h _).bind fun left => ?_)
    split
    · exact .ok left
    · exact (ih' h' _).bind fun right => .ok _
  | ternary condition consequent alternate ih ih' ih'' =>
    obtain ⟨h, h'⟩ := List.append_subset.1 h
    obtain ⟨h', h''⟩ := List.append_subset.1 h'
    rw [evalAt]
    refine lacks_ite_tooDeep ((ih h _).bind fun condition => ?_)
    split
    · exact ih' h' _
    · exact ih'' h'' _

/-- **An evaluation goes the same way in a larger context**, unless it fails for lack of a
variable that the larger context has. -/
theorem evalAt_of_includedIn (hc : context.IncludedIn context') (e : Expr) (depth : Nat)
    (h : Lacks (fun name => context'.get? name = none) (e.evalAt context depth)) :
    e.evalAt context' depth = e.evalAt context depth := by
  induction e generalizing depth with
  | null | bool | num | str => simp only [evalAt]
  | ident name =>
    simp only [evalAt, variableValue_eq] at h ⊢
    refine ite_tooDeep_congr h fun h => ?_
    rw [hc.get?_eq fun hn => h name (by rw [hn]; rfl)]
  | member object _ ih | unary _ object ih =>
    simp only [evalAt] at h ⊢
    exact ite_tooDeep_congr h fun h => h.bind_congr (ih _) fun _ _ => rfl
  | index object position ih ih' =>
    simp only [evalAt] at h ⊢
    exact ite_tooDeep_congr h fun h => h.bind_congr (ih _) fun _ h =>
      h.bind_congr (ih' _) fun _ _ => rfl
  | binary op left right ih ih' =>
    simp only [evalAt] at h ⊢
    refine ite_tooDeep_congr h fun h => h.bind_congr (ih _) fun left h => ?_
    cases hd : op.decides left with
    | true => rfl
    | false =>
      rw [hd] at h
      exact h.bind_congr (ih' _) fun _ _ => rfl
  | ternary condition consequent alternate ih ih' ih'' =>
    simp only [evalAt] at h ⊢
    refine ite_tooDeep_congr h fun h => h.bind_congr (ih _) fun condition h => ?_
    cases ht : condition.truthy with
    | true =>
      rw [ht] at h
      exact ih' _ h
    | false =>
      rw [ht] at h
      exact ih'' _ h

/-- An expression does not see that other variables are left out. -/
theorem eval_only (context : Context) (e : Expr) :
    e.eval (context.only e.freeVariables) = e.eval context :=
  evalAt_congr e (fun _ hm => congrArg _ (context.get?_only hm)) 0

/-- **Evaluation is local in its context, and monotone.** In a context with more variables an
expression has the same value or fails for the same reason, unless it has failed for lack of
a variable. That is one of its own which the smaller context does not have; if the larger one
does not have it either, it fails there for lack of the same variable. So two contexts that
agree on the variables of an expression give the same result, and an expression sees nothing
but these of its context. -/
theorem eval_local (e : Expr) :
    (∀ context context' : Context, context.IncludedIn context' →
      (∀ result, e.eval context = result → (∀ name, result ≠ .error (.unresolved name)) →
        e.eval context' = result) ∧
      ∀ name, e.eval context = .error (.unresolved name) →
        name ∈ e.freeVariables ∧ context.get? name = none ∧
        (context'.get? name = none → e.eval context' = .error (.unresolved name))) ∧
    (∀ context context' : Context, context.AgreeOn e.freeVariables context' →
      e.eval context = e.eval context') ∧
    ∀ context : Context, e.eval (context.only e.freeVariables) = e.eval context := by
  refine ⟨fun context context' hc => ⟨fun result hr hn => ?_, fun name hr => ?_⟩,
    fun context context' h => evalAt_congr e h 0, fun context => eval_only context e⟩
  · rw [← hr] at hn ⊢
    exact evalAt_of_includedIn hc e 0 fun name he => absurd he (hn name)
  · obtain ⟨hm, hnone⟩ := lacks_evalAt context e (List.Subset.refl _) 0 name hr
    refine ⟨hm, hnone, fun hnone' => ?_⟩
    rw [← hr]
    refine evalAt_of_includedIn hc e 0 fun missing he => ?_
    -- both errors are that of the run in the smaller context
    have hsame : ExprError.unresolved name = .unresolved missing :=
      Except.error.inj (hr.symm.trans he)
    cases hsame
    exact hnone'

/-- A further variable changes neither a value that was found without it nor the lack of yet
another one. -/
theorem eval_local_further :
    let context : Context := ⟨[("a", .bool true)]⟩
    let context' : Context := ⟨[("a", .bool true), ("b", .null)]⟩
    let kept := binary .or (ident "a") (ident "b")
    let missing := binary .and (ident "a") (ident "c")
    context.IncludedIn context' ∧ kept.eval context = .ok (.bool true) ∧
      kept.eval context' = .ok (.bool true) ∧
      missing.eval context = .error (.unresolved "c") ∧
      missing.eval context' = .error (.unresolved "c") := by
  intro context context' kept missing
  have hc : context.IncludedIn context' := by
    refine Context.includedIn_of_get? fun name json h => ?_
    simp only [context, context', Context.get?, Fields.get?_cons] at h ⊢
    split at h
    · rename_i hname
      rwa [if_pos hname]
    · cases h
  have hkept : kept.eval context = .ok (.bool true) := rfl
  have hmissing : missing.eval context = .error (.unresolved "c") := rfl
  have hkept' := (((eval_local kept).1 context context' hc).1 _ hkept) (by simp)
  have hmissing' := ((eval_local missing).1 context context' hc).2 "c" hmissing
  exact ⟨hc, hkept, hkept', hmissing, hmissing'.2.2 rfl⟩

end Expr
end ActionTree
