/-
# The places of nodes

A node of a tree stands inside of loops or of none. Only the innermost loop matters for
what the node sees: each loop sets both counters anew, so nothing is left of those of the
loops around it (`Context.withLoopCounters_twice`). What a node can see is thus the
context of the tree, with the counters of one loop at most.

Key definitions: `Action.StandsIn`, `Context.SeenIn`.
Key theorems: `Context.withLoopCounters_twice`, `Context.SeenIn.of_iteration`.
-/
import ActionTree.Action.Basic

namespace ActionTree

/-! ### Setting fields again -/

namespace Fields

variable {α : Type}

theorem set_set_self (fields : Fields α) (name : String) (old value : α) :
    (fields.set name old).set name value = fields.set name value := by
  induction fields with
  | nil => simp [set]
  | cons entry rest ih =>
    obtain ⟨other, first⟩ := entry
    by_cases he : name = other
    · simp [set, he]
    · by_cases hlt : name < other
      · simp [set, he, hlt]
      · simp [set, he, hlt, ih]

/-- Of two fields that are set, the one with the smaller name is found in its place when it
is set again. -/
theorem set_set_of_lt (fields : Fields α) {name later : String} (h : name < later)
    (old value between : α) :
    ((fields.set name old).set later between).set name value =
      (fields.set name value).set later between := by
  have hne : name ≠ later := fun he => String.lt_irrefl later (he ▸ h)
  have hgt : ¬ later < name := fun hl => String.lt_irrefl name (String.lt_trans h hl)
  induction fields with
  | nil => simp [set, hne.symm, hgt]
  | cons entry rest ih =>
    obtain ⟨other, first⟩ := entry
    by_cases he : name = other
    · subst he
      simp [set, hne.symm, hgt]
    · by_cases hlt : name < other
      · simp [set, he, hlt, hne.symm, hgt]
      · by_cases he' : later = other
        · subst he'
          exact absurd h hlt
        · by_cases hlt' : later < other
          · exact absurd (String.lt_trans h hlt') hlt
          · simp [set, he, hlt, he', hlt', ih]

end Fields

/-! ### Counters -/

namespace Context

theorem loopIndex_lt_loopIteration : loopIndex < loopIteration := by
  decide

/-- An iteration leaves nothing of the counters that were there before. -/
theorem withLoopCounters_twice (context : Context) (outer inner : Int64) :
    (context.withLoopCounters outer).withLoopCounters inner = context.withLoopCounters inner := by
  have hlt := loopIndex_lt_loopIteration
  simp only [withLoopCounters, set, Fields.set_set_of_lt _ hlt, Fields.set_set_self]

/-- The contexts that a node can see: that of the tree if there is no loop around it, and
else that of an iteration of the innermost one, given by its number of iterations. -/
def SeenIn (context : Context) : Option Int64 → Context → Prop
  | none, seen => seen = context
  | some iterations, seen =>
    ∃ index : Int64, 0 ≤ index ∧ index < iterations ∧ seen = context.withLoopCounters index

/-- The index of an iteration is a signed 64-bit integer from 0 on. -/
theorem bounds_ofNat {iterations : Int64} {index : Nat} (h : index < iterations.toInt.toNat) :
    0 ≤ Int64.ofNat index ∧ Int64.ofNat index < iterations := by
  have hmax := Int64.toInt_lt iterations
  have hindex : (Int64.ofNat index).toInt = index := Int64.toInt_ofNat_of_lt (by omega)
  constructor
  · rw [Int64.le_iff_toInt_le, hindex]
    exact Int.natCast_nonneg index
  · rw [Int64.lt_iff_toInt_lt, hindex]
    omega

/-- What is seen inside of an iteration is seen in the loop. -/
theorem SeenIn.of_iteration {context seen : Context} {around : Option Int64}
    {iterations : Int64} {index : Nat} (hlt : index < iterations.toInt.toNat)
    (h : (context.withLoopCounters (.ofNat index)).SeenIn around seen) :
    context.SeenIn (some (around.getD iterations)) seen := by
  obtain ⟨hle, hlt⟩ := bounds_ofNat hlt
  cases around with
  | none => exact ⟨_, hle, hlt, h⟩
  | some inner =>
    obtain ⟨index', hle', hlt', rfl⟩ := h
    exact ⟨index', hle', hlt', withLoopCounters_twice context _ index'⟩

end Context

/-! ### Nodes -/

/-- A node stands in a tree: with no loop around it, or inside of loops the innermost of
which has so many iterations. -/
inductive Action.StandsIn (node : Action) : Option Int64 → Action → Prop where
  | root : StandsIn node none node
  | onTrue {expression : String} {child : Action} {onFalse : Option Action}
      {around : Option Int64} : StandsIn node around child →
      StandsIn node around (.condition expression (some child) onFalse)
  | onFalse {expression : String} {onTrue : Option Action} {child : Action}
      {around : Option Int64} : StandsIn node around child →
      StandsIn node around (.condition expression onTrue (some child))
  | body {iterations : Int64} {child : Action} {around : Option Int64} :
      StandsIn node around child →
      StandsIn node (some (around.getD iterations)) (.loop iterations (some child))

end ActionTree
