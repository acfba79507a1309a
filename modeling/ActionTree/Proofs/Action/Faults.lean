/-
# The first fault of a document

A document describes an action if and only if nothing is wrong with any of its nodes. If
something is, what is reported is what is wrong with the first such node, where a node
comes before its children and these come in the order of their places, each with all that
is below it. Of a tree, what is wrong with its root comes before its context.

Key definitions: `Action.documents`, `Action.firstFault?`, `Tree.firstFault?`.
Key theorems: `errorOf?_mapM`, `Action.errorOf?_ofJson`, `Tree.errorOf?_ofJson`,
`Tree.reports_first_fault`.
-/
import ActionTree.Proofs.Action.Nodes

namespace ActionTree

/-! ### The first of several errors -/

section

variable {ε α β : Type}

/-- The error of a result, if it is one. -/
def errorOf? : Except ε α → Option ε
  | .ok _ => none
  | .error error => some error

theorem errorOf?_eq_some_iff {result : Except ε α} {error : ε} :
    errorOf? result = some error ↔ result = .error error := by
  cases result <;> simp [errorOf?]

theorem errorOf?_eq_none_iff {result : Except ε α} :
    errorOf? result = none ↔ ∃ value, result = .ok value := by
  cases result <;> simp [errorOf?]

theorem errorOf?_map (f : α → β) (result : Except ε α) :
    errorOf? (result.map f) = errorOf? result := by
  cases result <;> rfl

/-- A row of readings fails with the first error in it. -/
theorem errorOf?_mapM (read : β → Except ε α) (inputs : List β) :
    errorOf? (inputs.mapM read) = inputs.findSome? fun input => errorOf? (read input) := by
  induction inputs with
  | nil => rfl
  | cons input inputs ih =>
    rw [List.mapM_cons, List.findSome?_cons, ← ih]
    cases read input with
    | error error => rfl
    | ok value =>
      show errorOf? (inputs.mapM read >>= fun values => pure (value :: values)) = _
      cases inputs.mapM read <;> rfl

/-- The first answer over several rows is the first of those that the rows have. -/
theorem findSome?_flatMap (f : β → Option ε) (rows : α → List β) (inputs : List α) :
    (inputs.flatMap rows).findSome? f = inputs.findSome? fun input => (rows input).findSome? f := by
  induction inputs with
  | nil => rfl
  | cons input inputs ih =>
    rw [List.flatMap_cons, List.findSome?_append, List.findSome?_cons, ih]
    cases (rows input).findSome? f <;> rfl

theorem findSome?_filterMap (f : β → Option ε) (part : α → Option β) (inputs : List α) :
    (inputs.filterMap part).findSome? f = inputs.findSome? fun input => (part input).bind f := by
  induction inputs with
  | nil => rfl
  | cons input inputs ih =>
    rw [List.filterMap_cons, List.findSome?_cons, ← ih]
    cases part input <;> rfl

end

namespace Action

/-! ### Nodes in the order of visit -/

/-- The children of a document that names a kind, as far as they are there. -/
def childDocuments (json : Json) : List Json :=
  match namedKind? json with
  | some kind => kind.childPlaces.filterMap json.field?
  | none => []

theorem sizeOf_lt_of_mem {json child : Json} (h : child ∈ childDocuments json) :
    sizeOf child < sizeOf json := by
  unfold childDocuments at h
  split at h
  · obtain ⟨name, -, hchild⟩ := List.mem_filterMap.1 h
    exact Json.sizeOf_lt_of_field? hchild
  · cases h

/-- A document and all those inside of it, each in front of its children. -/
def documents (json : Json) : List Json :=
  json :: (childDocuments json).attach.flatMap fun child => documents child.1
termination_by sizeOf json
decreasing_by exact sizeOf_lt_of_mem child.2

theorem documents_eq (json : Json) :
    documents json = json :: (childDocuments json).flatMap documents := by
  rw [documents, List.flatMap_subtype (g := documents) fun _ _ => rfl, List.unattach_attach]

/-- What is wrong with the first of the documents with which something is wrong. -/
def firstFault? (json : Json) : Option ActionError :=
  (documents json).findSome? ownFault?

theorem firstFault?_eq (json : Json) :
    firstFault? json = (ownFault? json).or ((childDocuments json).findSome? firstFault?) := by
  unfold firstFault?
  rw [documents_eq, List.findSome?_cons, findSome?_flatMap]
  cases ownFault? json <;> rfl

/-- **The error of a document is its first fault.** -/
theorem errorOf?_ofJson (json : Json) : errorOf? (ofJson json) = firstFault? json := by
  induction json using Json.induct_fields with
  | step json ih =>
    have hchild (name : String) :
        errorOf? (childAt json name) = (json.field? name).bind firstFault? := by
      unfold childAt
      cases hf : json.field? name with
      | none => rfl
      | some child => rw [Option.bind_some, errorOf?_map, ih name child hf]
    have hread := readsAs_ownFault? json
    rw [firstFault?_eq]
    cases hown : ownFault? json with
    | some error =>
      rw [hown] at hread
      rw [errorOf?_eq_some_iff.2 hread, Option.some_or]
    | none =>
      rw [hown] at hread
      obtain ⟨kind, build, hkind, hbuild, -⟩ := hread
      rw [hbuild, errorOf?_map, errorOf?_mapM, Option.none_or, childDocuments, hkind]
      simp only [hchild, findSome?_filterMap]

end Action

namespace Tree

/-- What is wrong with the document of a tree: it has no root, or something is wrong with
its root, or its context is there and no object. -/
def firstFault? (json : Json) : Option Error :=
  match json.field? "rootAction" with
  | none => some (.malformedTree .missingRoot)
  | some root =>
    match Action.firstFault? root with
    | some error => some (.malformedAction error)
    | none =>
      match json.field? "context" with
      | none | some (.obj _) => none
      | some _ => some (.malformedTree .invalidContext)

theorem errorOf?_contextOf (json : Json) :
    errorOf? (contextOf json) =
      match json.field? "context" with
      | none | some (.obj _) => none
      | some _ => some (.malformedTree .invalidContext) := by
  unfold contextOf
  cases json.field? "context" with
  | none => rfl
  | some value => cases value <;> rfl

theorem errorOf?_ofJson (json : Json) : errorOf? (ofJson json) = firstFault? json := by
  unfold ofJson firstFault?
  cases json.field? "rootAction" with
  | none => rfl
  | some root =>
    have hroot := Action.errorOf?_ofJson root
    simp only [← hroot, ← errorOf?_contextOf]
    cases Action.ofJson root with
    | error error => rfl
    | ok action => cases contextOf json <;> rfl

/-- **A document is accepted if nothing is wrong with it, and else its first fault is
reported.** -/
theorem reports_first_fault (json : Json) :
    ((∃ action, Action.ofJson json = .ok action) ↔
      ∀ node ∈ Action.documents json, Action.ownFault? node = none) ∧
    (∀ error, Action.ofJson json = .error error ↔
      ∃ before node after, Action.documents json = before ++ node :: after ∧
        Action.ownFault? node = some error ∧
        ∀ earlier ∈ before, Action.ownFault? earlier = none) ∧
    ((∃ tree, ofJson json = .ok tree) ↔ firstFault? json = none) ∧
    ∀ error, ofJson json = .error error ↔ firstFault? json = some error := by
  refine ⟨?_, fun error => ?_, ?_, fun error => ?_⟩
  · rw [← errorOf?_eq_none_iff, Action.errorOf?_ofJson]
    exact List.findSome?_eq_none_iff
  · rw [← errorOf?_eq_some_iff, Action.errorOf?_ofJson]
    exact List.findSome?_eq_some_iff
  · rw [← errorOf?_eq_none_iff, errorOf?_ofJson]
  · rw [← errorOf?_eq_some_iff, errorOf?_ofJson]

end Tree
end ActionTree
