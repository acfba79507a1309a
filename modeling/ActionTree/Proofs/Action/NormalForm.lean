/-
# Normal forms of documents

A document can say the same in more than one way: a field can be left out or null, a
number of iterations can be written with a point, and fields that no kind of action has
can stand anywhere. Of all ways a tree is written in one, the normal form of each
document that describes it. So a document and its normal form cannot be told apart by
what becomes of them.

Key definitions: `Action.normalForm`, `Tree.normalForm`.
Key theorems: `Action.normalForm_of_ofJson`, `Tree.normalForm_of_ofJson`,
`Tree.written_in_normal_form`.
-/
import ActionTree.Proofs.Action.Nodes
import ActionTree.Run.Outcome

namespace ActionTree

/-! ### Readings that succeed -/

section

variable {ε ε' α β : Type}

theorem exists_of_bind_eq_ok {result : Except ε α} {next : α → Except ε β} {value : β}
    (h : result >>= next = .ok value) : ∃ first, result = .ok first ∧ next first = .ok value := by
  cases result with
  | error error => cases h
  | ok first => exact ⟨first, rfl, h⟩

theorem exists_of_map_eq_ok {result : Except ε α} {f : α → β} {value : β}
    (h : result.map f = .ok value) : ∃ first, result = .ok first ∧ f first = value := by
  cases result with
  | error error => cases h
  | ok first => exact ⟨first, rfl, Except.ok.inj h⟩

theorem eq_ok_of_mapError_eq_ok {result : Except ε α} {f : ε → ε'} {value : α}
    (h : result.mapError f = .ok value) : result = .ok value := by
  cases result with
  | error error => cases h
  | ok first => exact congrArg Except.ok (Except.ok.inj h)

end

namespace Action

/-! ### Actions -/

/-- The normal form of a document that describes an action: the fields that its kind has,
and no other ones. Tags and texts stay as they are, a number of iterations becomes the
integer that is read there, what is left out becomes null, and what stands in the place of
a child is in normal form again. -/
def normalForm (json : Json) : Json :=
  match namedKind? json with
  | none => json
  | some kind => .object (ownEntries kind json ++ kind.childPlaces.map fun name =>
      (name, match _h : json.field? name with
        | none => .null
        | some child => normalForm child))
termination_by sizeOf json
decreasing_by exact Json.sizeOf_lt_of_field? _h

/-- What stands in the place of a child in a normal form. -/
def childNormalForm (json : Json) (name : String) : Json :=
  ((json.field? name).map normalForm).getD .null

theorem normalForm_eq {json : Json} {kind : ActionKind} (hk : namedKind? json = some kind) :
    normalForm json = .object (ownEntries kind json ++
      kind.childPlaces.map fun name => (name, childNormalForm json name)) := by
  rw [normalForm, hk]
  refine congrArg (fun entries => Json.object (ownEntries kind json ++ entries)) ?_
  refine List.map_congr_left fun name _ => ?_
  unfold childNormalForm
  split <;> simp_all

/-- Places stand beside what is written there, if each child was read from its place. -/
theorem zip_of_mapM {read : String → Except ActionError (Option Action)}
    {form : String → Json}
    (h : ∀ name child, read name = .ok child → childToJson child = form name)
    {names : List String} {children : List (Option Action)}
    (hr : names.mapM read = .ok children) :
    children.length = names.length ∧
      names.zip (children.map childToJson) = names.map fun name => (name, form name) := by
  induction names generalizing children with
  | nil =>
    cases hr
    exact ⟨rfl, rfl⟩
  | cons name names ih =>
    rw [List.mapM_cons] at hr
    obtain ⟨child, hname, hr⟩ := exists_of_bind_eq_ok hr
    obtain ⟨rest, hnames, hr⟩ := exists_of_bind_eq_ok hr
    cases hr
    obtain ⟨hlength, hzip⟩ := ih hnames
    refine ⟨congrArg (· + 1) hlength, ?_⟩
    rw [List.map_cons, List.zip_cons_cons, List.map_cons, hzip, h name child hname]

/-- **An action is written in the normal form of any document that describes it.** -/
theorem normalForm_of_ofJson {json : Json} {action : Action} (h : ofJson json = .ok action) :
    normalForm json = action.toJson := by
  induction json using Json.induct_fields generalizing action with
  | step json ih =>
    have hread := readsAs_ownFault? json
    cases hown : ownFault? json with
    | some error =>
      rw [hown] at hread
      cases h.symm.trans hread
    | none =>
      rw [hown] at hread
      obtain ⟨kind, build, hkind, hbuild, hwritten⟩ := hread
      rw [hbuild] at h
      obtain ⟨children, hchildren, rfl⟩ := exists_of_map_eq_ok h
      have hplace (name : String) (child : Option Action) (hc : childAt json name = .ok child) :
          childToJson child = childNormalForm json name := by
        unfold childAt at hc
        unfold childNormalForm
        cases hf : json.field? name with
        | none =>
          rw [hf] at hc
          cases hc
          rfl
        | some document =>
          simp only [hf] at hc
          obtain ⟨inner, hd, rfl⟩ := exists_of_map_eq_ok hc
          exact (ih name document hf hd).symm
      obtain ⟨hlength, hzip⟩ := zip_of_mapM hplace hchildren
      rw [hwritten children hlength, hzip, normalForm_eq hkind]

end Action

namespace Tree

/-! ### Trees -/

/-- The normal form of a document that describes a tree: its root in normal form and its
context as it is, or an empty one if it is left out or null. -/
def normalForm (json : Json) : Json :=
  .object [
    ("rootAction", (json.field? "rootAction").elim .null Action.normalForm),
    ("context", (json.field? "context").getD (.object []))]

variable {json json' : Json}

theorem context_of_contextOf {context : Context} (h : contextOf json = .ok context) :
    (json.field? "context").getD (.object []) = context.toJson := by
  unfold contextOf at h
  cases hf : json.field? "context" with
  | none =>
    rw [hf] at h
    cases h
    rfl
  | some value =>
    rw [hf] at h
    cases value with
    | obj fields =>
      cases h
      rfl
    | _ => cases h

theorem normalForm_of_ofJson {tree : Tree} (h : ofJson json = .ok tree) :
    normalForm json = tree.toJson := by
  unfold ofJson at h
  unfold normalForm
  cases hf : json.field? "rootAction" with
  | none =>
    rw [hf] at h
    cases h
  | some document =>
    simp only [hf] at h
    obtain ⟨root, hr, h⟩ := exists_of_bind_eq_ok h
    obtain ⟨context, hc, h⟩ := exists_of_bind_eq_ok h
    cases h
    rw [Option.elim_some, Action.normalForm_of_ofJson (eq_ok_of_mapError_eq_ok hr),
      context_of_contextOf hc, toJson]

/-! ### Documents that describe the same -/

theorem check_congr (h : ofJson json = ofJson json') : check json = check json' := by
  rw [check, check, h]

theorem run_congr (h : ofJson json = ofJson json') : run json = run json' := by
  have hattempt : attempt json = attempt json' := by rw [attempt, attempt, h]
  rw [run, run, hattempt]

/-- **What a document describes is written in its normal form**, and this describes the
same. So it is in normal form itself, and a document is checked and run, in every state, as
its normal form is. -/
theorem written_in_normal_form {tree : Tree} (h : ofJson json = .ok tree) :
    tree.toJson = normalForm json ∧
    ofJson (normalForm json) = .ok tree ∧
    normalForm (normalForm json) = normalForm json ∧
    check (normalForm json) = check json ∧
    ∀ state, (run (normalForm json)).run state = (run json).run state := by
  have hnormal := normalForm_of_ofJson h
  have hagain : ofJson (normalForm json) = .ok tree := by rw [hnormal, ofJson_toJson]
  have hsame : ofJson (normalForm json) = ofJson json := hagain.trans h.symm
  refine ⟨hnormal.symm, hagain, ?_, check_congr hsame, fun state => ?_⟩
  · rw [normalForm_of_ofJson hagain, hnormal]
  · rw [run_congr hsame]

/-- A count with a point, a field that no loop has, a text that is left out and a context
that is null. -/
theorem written_in_normal_form_sparse :
    let json := Json.obj [("context", .null), ("rootAction", .obj [
      ("action", .obj [("phoneNumber", .str "+1"), ("type", .str "send_sms")]),
      ("iterations", .num (.float 2.0 (by decide))), ("note", .bool true),
      ("type", .str "loop")])]
    let tree : Tree := ⟨.loop 2 (some (.send (.sms "+1" none))), .empty⟩
    ofJson json = .ok tree ∧ normalForm json = .object [
      ("rootAction", .object [("type", .str "loop"), ("iterations", .ofInt64 2),
        ("action", .object [("type", .str "send_sms"), ("phoneNumber", .str "+1"),
          ("message", .null)])]),
      ("context", .object [])] := by
  intro json tree
  have h : ofJson json = .ok tree := rfl
  exact ⟨h, (written_in_normal_form h).1.symm⟩

end Tree
end ActionTree
