/-
# The nodes of a document

A node of the document of an action is judged by itself: its tag must name a kind, and
the fields of that kind must hold what they are for (`Action.ownFault?`). Its children
are documents again, in the places that the kind has for them. So reading a document is
reading its node and then, if nothing is wrong with it, the children one after the other;
and what is read has the fields of the node when it is written, save those that no kind
has (`Action.readsAs_ownFault?`).

Key definitions: `ActionKind.requiredTexts`, `ActionKind.optionalTexts`,
`ActionKind.childPlaces`, `Number.isIntegral`, `Action.ownFault?`, `Action.childAt`,
`Action.ownEntries`.
Key theorems: `Json.induct_fields`, `Action.requiredText_cases`,
`Action.optionalText_cases`, `Action.iterationsOf_cases`, `Action.readsAs_ownFault?`.
-/
import ActionTree.Proofs.Action.RoundTrip

namespace ActionTree

/-! ### Fields -/

namespace Json

/-- The field of that name, null if it is left out. -/
def fieldOrNull (json : Json) (name : String) : Json :=
  (json.get? name).getD null

/-- Whether a field is there and holds a text. -/
def holdsText (json : Json) (name : String) : Bool :=
  ((json.get? name).bind text?).isSome

/-- Whether a field is left out, null or holds a text. -/
def mayHoldText (json : Json) (name : String) : Bool :=
  (json.field? name).all fun value => value.text?.isSome

theorem sizeOf_lt_of_get? {fields : Fields Json} {name : String} {value : Json}
    (h : fields.get? name = some value) : sizeOf value < sizeOf fields := by
  induction fields with
  | nil => cases h
  | cons entry rest ih =>
    obtain ⟨other, first⟩ := entry
    rw [Fields.get?_cons] at h
    simp only [List.cons.sizeOf_spec, Prod.mk.sizeOf_spec]
    by_cases he : name = other
    · rw [if_pos he, Option.some.injEq] at h
      subst h
      omega
    · rw [if_neg he] at h
      have := ih h
      omega

theorem get?_of_field? {json child : Json} {name : String} (h : json.field? name = some child) :
    json.get? name = some child := by
  unfold field? at h
  split at h
  · cases h
  · cases h
  · rwa [← h]

/-- What a field holds is smaller than the object in which it stands. -/
theorem sizeOf_lt_of_field? {json child : Json} {name : String}
    (h : json.field? name = some child) : sizeOf child < sizeOf json := by
  have hget := get?_of_field? h
  cases json with
  | obj fields =>
    have := sizeOf_lt_of_get? hget
    simp only [obj.sizeOf_spec]
    omega
  | _ => cases hget

/-- Induction over the fields of objects, at any depth. -/
theorem induct_fields {motive : Json → Prop}
    (step : ∀ json, (∀ name child, json.field? name = some child → motive child) → motive json)
    (json : Json) : motive json :=
  step json fun _ child _ => induct_fields step child
termination_by sizeOf json
decreasing_by exact sizeOf_lt_of_field? ‹_›

end Json

/-! ### Kinds -/

namespace ActionKind

/-- The fields that must hold a text. -/
@[simp] def requiredTexts : ActionKind → List String
  | sendSms => ["phoneNumber"]
  | sendEmail => ["sender", "receiver"]
  | condition => ["expression"]
  | loop => []

/-- The fields that may hold a text. -/
@[simp] def optionalTexts : ActionKind → List ActionField
  | sendSms => [.message]
  | sendEmail => [.subject, .body]
  | condition | loop => []

/-- The fields that must hold a number of iterations. -/
@[simp] def counts : ActionKind → List ActionField
  | loop => [.iterations]
  | _ => []

/-- The fields that may hold a child, in the order in which children are visited. -/
@[simp] def childPlaces : ActionKind → List String
  | sendSms | sendEmail => []
  | condition => ["trueAction", "falseAction"]
  | loop => ["action"]

theorem tag_of_ofTag? {tag : String} {kind : ActionKind} (h : ofTag? tag = some kind) :
    kind.tag = tag := by
  simpa using List.find?_some h

end ActionKind

/-! ### Numbers of iterations -/

namespace Number

/-- Whether a binary64 number is an integer within the bounds of the signed 64-bit
integers, with `2 ^ 63` counted in. -/
def bounded (x : Float) : Bool :=
  (Binary64.integer? x).any fun n => -0x8000000000000000 ≤ n ∧ n ≤ 0x8000000000000000

/-- Whether a number is integral, as a number of iterations has to be: it is a signed 64-bit
integer, or else the binary64 number nearest to it is an integer within the bounds. -/
def isIntegral : Number → Bool
  | int n h => n < 0x8000000000000000 || bounded (toFloat (int n h))
  | float x _ => bounded x

theorem isSome_clamp? (x : Float) : (Action.count?.clamp? x).isSome = bounded x := by
  unfold Action.count?.clamp? bounded
  cases Binary64.integer? x with
  | none => rfl
  | some n =>
    by_cases h : -0x8000000000000000 ≤ n ∧ n ≤ 0x8000000000000000
    · rw [Option.any_some, decide_eq_true h]
      exact congrArg Option.isSome (if_pos h)
    · rw [Option.any_some, decide_eq_false h]
      exact congrArg Option.isSome (if_neg h)

/-- The integral numbers are those that are read as a number of iterations. -/
theorem isSome_count? (number : Number) : (Action.count? number).isSome = number.isIntegral := by
  cases number with
  | float x => exact isSome_clamp? x
  | int n h =>
    by_cases hn : n < 0x8000000000000000 <;> simp [Action.count?, isIntegral, hn, isSome_clamp?]

end Number

namespace Action

/-! ### Faults of a node -/

/-- What is wrong with the fields of a document that is to describe an action of a kind:
a required text is missing, then the number of iterations is missing or not integral, then
an optional text is something else. -/
def fieldFault? (kind : ActionKind) (json : Json) : Option ActionError :=
  (if kind.requiredTexts.all json.holdsText then none else some (.missingField kind)) <|>
  kind.counts.findSome? (fun field => match json.get? field.name with
    | some (.num number) => if number.isIntegral then none else some (.invalidField field)
    | _ => some (.missingField kind)) <|>
  (kind.optionalTexts.find? fun field => !json.mayHoldText field.name).map .invalidField

/-- What is wrong with a document, whatever its children are. -/
def ownFault? (json : Json) : Option ActionError :=
  match json.get? "type" with
  | none | some .null => some .missingType
  | some (.str tag) =>
    if tag = "" then some .missingType
    else match ActionKind.ofTag? tag with
      | some kind => fieldFault? kind json
      | none => some (.unknownType tag)
  | some other => some (.unknownType other.compact)

/-- The kind of action that a document names, if it names one. -/
def namedKind? (json : Json) : Option ActionKind :=
  match json.get? "type" with
  | some (.str tag) => ActionKind.ofTag? tag
  | _ => none

/-- The child that stands in a field, none if the field is left out or null. -/
def childAt (json : Json) (name : String) : Except ActionError (Option Action) :=
  match json.field? name with
  | none => .ok none
  | some child => (ofJson child).map some

/-! ### What a node is written as -/

/-- A number of iterations as the integer that is read there; anything else as it is. -/
def countJson : Json → Json
  | .num number => match count? number with
    | some n => .ofInt64 n
    | none => .num number
  | json => json

/-- The entries of a document that an action of that kind has of its own. What is left
out is null, and a number of iterations is the integer for which it stands. -/
def ownEntries (kind : ActionKind) (json : Json) : List (String × Json) :=
  ("type", json.fieldOrNull "type") ::
    (kind.requiredTexts ++ kind.optionalTexts.map ActionField.name).map
      (fun name => (name, json.fieldOrNull name)) ++
    kind.counts.map fun field => (field.name, countJson (json.fieldOrNull field.name))

/-! ### Reading fields -/

section

variable (kind : ActionKind) (fields : Fields Json)

theorem requiredText_cases (name : String) :
    (∃ text, Json.holdsText (.obj fields) name = true ∧
      Json.fieldOrNull (.obj fields) name = .str text ∧
      requiredText kind fields name = .ok text) ∨
    Json.holdsText (.obj fields) name = false ∧
      requiredText kind fields name = .error (.missingField kind) := by
  simp only [Json.holdsText, Json.fieldOrNull, requiredText, Json.get?]
  cases fields.get? name with
  | none => exact .inr ⟨rfl, rfl⟩
  | some value =>
    cases value with
    | str text => exact .inl ⟨text, rfl, rfl, rfl⟩
    | _ => exact .inr ⟨rfl, rfl⟩

theorem optionalText_cases (field : ActionField) :
    (∃ text, Json.mayHoldText (.obj fields) field.name = true ∧
      Json.fieldOrNull (.obj fields) field.name = .strOrNull text ∧
      optionalText fields field = .ok text) ∨
    Json.mayHoldText (.obj fields) field.name = false ∧
      optionalText fields field = .error (.invalidField field) := by
  simp only [Json.mayHoldText, Json.field?, Json.fieldOrNull, optionalText, Json.get?]
  cases fields.get? field.name with
  | none => exact .inl ⟨none, rfl, rfl, rfl⟩
  | some value =>
    cases value with
    | null => exact .inl ⟨none, rfl, rfl, rfl⟩
    | str text => exact .inl ⟨some text, rfl, rfl, rfl⟩
    | _ => exact .inr ⟨rfl, rfl⟩

/-- A loop is read as far as its own fields go. -/
theorem iterationsOf_cases :
    (∃ n, fieldFault? .loop (.obj fields) = none ∧
      countJson (Json.fieldOrNull (.obj fields) "iterations") = .ofInt64 n ∧
      iterationsOf fields = .ok n) ∨
    ∃ error, fieldFault? .loop (.obj fields) = some error ∧ iterationsOf fields = .error error := by
  have hfault : fieldFault? .loop (.obj fields) =
      match fields.get? "iterations" with
      | some (.num number) => if number.isIntegral then none else some (.invalidField .iterations)
      | _ => some (.missingField .loop) := by
    simp [fieldFault?, ActionKind.requiredTexts, ActionKind.counts, ActionKind.optionalTexts,
      ActionField.name, Json.get?]
  have hread : iterationsOf fields = match fields.get? "iterations" with
      | some (.num number) => match count? number with
        | some n => .ok n
        | none => .error (.invalidField .iterations)
      | _ => .error (.missingField .loop) := rfl
  rw [hfault, hread]
  simp only [Json.fieldOrNull, Json.get?]
  cases fields.get? "iterations" with
  | none => exact .inr ⟨_, rfl, rfl⟩
  | some value =>
    cases value with
    | num number =>
      simp only [← Number.isSome_count?, countJson, Option.getD_some]
      cases count? number with
      | some n => exact .inl ⟨n, rfl, rfl, rfl⟩
      | none => exact .inr ⟨_, rfl, rfl⟩
    | _ => exact .inr ⟨_, rfl, rfl⟩

theorem childOf_childrenOf (name : String) :
    childOf (childrenOf fields) name = childAt (.obj fields) name := by
  simp only [childOf, get?_childrenOf, childAt, Json.field?, Json.get?]
  cases fields.get? name with
  | none => rfl
  | some value => cases value <;> rfl

end

/-! ### Reading nodes -/

/-- What a document is read as if that is what is wrong with its node: as this error, or
else as an action of the kind that it names, built from its children. Such an action is
written as its node is, with what the children are written as in their places. -/
def ReadsAs (json : Json) : Option ActionError → Prop
  | some error => ofJson json = .error error
  | none => ∃ (kind : ActionKind) (build : List (Option Action) → Action),
    namedKind? json = some kind ∧
    ofJson json = (kind.childPlaces.mapM (childAt json)).map build ∧
    ∀ children, children.length = kind.childPlaces.length → (build children).toJson =
      .object (ownEntries kind json ++ kind.childPlaces.zip (children.map childToJson))

theorem ReadsAs.of_error {json : Json} {fault : Option ActionError} {error : ActionError}
    (hf : fault = some error) (hr : ofJson json = .error error) : ReadsAs json fault := by
  rw [hf]
  exact hr

section

variable {fields : Fields Json} {kind : ActionKind}

theorem fieldOrNull_type (ht : fields.get? "type" = some (.str kind.tag)) :
    Json.fieldOrNull (.obj fields) "type" = .str kind.tag := by
  simp only [Json.fieldOrNull, Json.get?, ht, Option.getD_some]

theorem ReadsAs.of_build {fault : Option ActionError} (build : List (Option Action) → Action)
    (ht : fields.get? "type" = some (.str kind.tag)) (hf : fault = none)
    (hr : ofJson (.obj fields) = (kind.childPlaces.mapM (childAt (.obj fields))).map build)
    (hw : ∀ children, children.length = kind.childPlaces.length → (build children).toJson =
      .object (ownEntries kind (.obj fields) ++
        kind.childPlaces.zip (children.map childToJson))) :
    ReadsAs (.obj fields) fault := by
  have hk : namedKind? (.obj fields) = some kind := by
    simp only [namedKind?, Json.get?, ht, ActionKind.ofTag?_tag]
  rw [hf]
  exact ⟨kind, build, hk, hr, hw⟩

theorem readsAs_sms (ht : fields.get? "type" = some (.str ActionKind.sendSms.tag)) :
    ReadsAs (.obj fields) (fieldFault? .sendSms (.obj fields)) := by
  have hread : ofJson (.obj fields) = do
      let phoneNumber ← requiredText .sendSms fields "phoneNumber"
      let text ← optionalText fields .message
      return send (.sms phoneNumber text) := by
    simp only [ofJson, ofParts, ht, kindOf_tag]
    rfl
  obtain ⟨phoneNumber, hp, hpj, hpr⟩ | ⟨hp, hpr⟩ :=
    requiredText_cases .sendSms fields "phoneNumber" <;> rw [hpr] at hread
  · obtain ⟨text, hm, hmj, hmr⟩ | ⟨hm, hmr⟩ := optionalText_cases fields .message <;>
      rw [hmr] at hread
    · have hw : (send (.sms phoneNumber text)).toJson =
          .object (ownEntries .sendSms (.obj fields)) := by
        simp [toJson, ownEntries, fieldOrNull_type ht, hpj, hmj]
        rfl
      refine .of_build (fun _ => _) ht (by simp [fieldFault?, hp, hm]) hread fun children _ => ?_
      rw [hw, ActionKind.childPlaces, List.zip_nil_left, List.append_nil]
    · exact .of_error (by simp [fieldFault?, hp, hm]) hread
  · exact .of_error (by simp [fieldFault?, hp]) hread

theorem readsAs_email (ht : fields.get? "type" = some (.str ActionKind.sendEmail.tag)) :
    ReadsAs (.obj fields) (fieldFault? .sendEmail (.obj fields)) := by
  have hread : ofJson (.obj fields) = do
      let sender ← requiredText .sendEmail fields "sender"
      let receiver ← requiredText .sendEmail fields "receiver"
      let subject ← optionalText fields .subject
      let body ← optionalText fields .body
      return send (.email sender receiver subject body) := by
    simp only [ofJson, ofParts, ht, kindOf_tag]
    rfl
  obtain ⟨sender, hs, hsj, hsr⟩ | ⟨hs, hsr⟩ :=
    requiredText_cases .sendEmail fields "sender" <;> rw [hsr] at hread
  · obtain ⟨receiver, hr, hrj, hrr⟩ | ⟨hr, hrr⟩ :=
      requiredText_cases .sendEmail fields "receiver" <;> rw [hrr] at hread
    · obtain ⟨subject, hj, hjj, hjr⟩ | ⟨hj, hjr⟩ := optionalText_cases fields .subject <;>
        rw [hjr] at hread
      · obtain ⟨body, hb, hbj, hbr⟩ | ⟨hb, hbr⟩ := optionalText_cases fields .body <;>
          rw [hbr] at hread
        · have hw : (send (.email sender receiver subject body)).toJson =
              .object (ownEntries .sendEmail (.obj fields)) := by
            simp [toJson, ownEntries, fieldOrNull_type ht, hsj, hrj, hjj, hbj]
            rfl
          refine .of_build (fun _ => _) ht (by simp [fieldFault?, hs, hr, hj, hb]) hread
            fun children _ => ?_
          rw [hw, ActionKind.childPlaces, List.zip_nil_left, List.append_nil]
        · exact .of_error (by simp [fieldFault?, hs, hr, hj, hb]) hread
      · exact .of_error (by simp [fieldFault?, hs, hr, hj]) hread
    · exact .of_error (by simp [fieldFault?, hs, hr]) hread
  · exact .of_error (by simp [fieldFault?, hs]) hread

theorem readsAs_condition (ht : fields.get? "type" = some (.str ActionKind.condition.tag)) :
    ReadsAs (.obj fields) (fieldFault? .condition (.obj fields)) := by
  have hread : ofJson (.obj fields) = do
      let expression ← requiredText .condition fields "expression"
      let onTrue ← childAt (.obj fields) "trueAction"
      let onFalse ← childAt (.obj fields) "falseAction"
      return condition expression onTrue onFalse := by
    simp only [ofJson, ofParts, ht, kindOf_tag, childOf_childrenOf]
    rfl
  obtain ⟨expression, he, hej, her⟩ | ⟨he, her⟩ :=
    requiredText_cases .condition fields "expression" <;> rw [her] at hread
  · refine .of_build (fun children =>
      condition expression (children[0]?.getD none) (children[1]?.getD none)) ht
      (by simp [fieldFault?, he]) ?_ ?_
    · rw [hread]
      simp only [ActionKind.childPlaces, List.mapM_cons, List.mapM_nil]
      cases childAt (.obj fields) "trueAction" with
      | error => rfl
      | ok => cases childAt (.obj fields) "falseAction" <;> rfl
    · rintro (_ | ⟨onTrue, _ | ⟨onFalse, _ | _⟩⟩) hlength <;> cases hlength
      simp [toJson, ownEntries, fieldOrNull_type ht, hej]
  · exact .of_error (by simp [fieldFault?, he]) hread

/-- A loop is read from its number of iterations and from its child. -/
theorem ofJson_loop (ht : fields.get? "type" = some (.str ActionKind.loop.tag)) :
    ofJson (.obj fields) = do
      let iterations ← iterationsOf fields
      let body ← childAt (.obj fields) "action"
      return loop iterations body := by
  simp only [ofJson, ofParts, ht, kindOf_tag, childOf_childrenOf]
  rfl

theorem readsAs_loop (ht : fields.get? "type" = some (.str ActionKind.loop.tag)) :
    ReadsAs (.obj fields) (fieldFault? .loop (.obj fields)) := by
  have hread := ofJson_loop ht
  obtain ⟨n, hn, hnj, hnr⟩ | ⟨error, hn, hnr⟩ := iterationsOf_cases fields <;>
    rw [hnr] at hread
  · refine .of_build (fun children => loop n (children[0]?.getD none)) ht hn ?_ ?_
    · rw [hread]
      simp only [ActionKind.childPlaces, List.mapM_cons, List.mapM_nil]
      cases childAt (.obj fields) "action" <;> rfl
    · rintro (_ | ⟨body, _ | _⟩) hlength <;> cases hlength
      simp [toJson, ownEntries, fieldOrNull_type ht, ActionField.name, hnj]
  · exact .of_error hn hread

theorem readsAs_fieldFault? (ht : fields.get? "type" = some (.str kind.tag)) :
    ReadsAs (.obj fields) (fieldFault? kind (.obj fields)) := by
  cases kind with
  | sendSms => exact readsAs_sms ht
  | sendEmail => exact readsAs_email ht
  | condition => exact readsAs_condition ht
  | loop => exact readsAs_loop ht

end

/-- **A document is read node by node**: what is wrong with its node is its error, and if
nothing is, it is built from its children. -/
theorem readsAs_ownFault? (json : Json) : ReadsAs json (ownFault? json) := by
  cases json with
  | obj fields =>
    have hread : ofJson (.obj fields) = kindOf (Fields.get? fields "type") >>= _ := rfl
    simp only [ownFault?, Json.get?]
    cases ht : Fields.get? fields "type" with
    | none =>
      rw [ht] at hread
      exact hread
    | some type =>
      rw [ht] at hread
      cases type with
      | str tag =>
        by_cases he : tag = ""
        · subst he
          exact hread
        · simp only [if_neg he]
          cases hk : ActionKind.ofTag? tag with
          | none =>
            simp only [kindOf, hk] at hread
            exact hread
          | some kind => exact readsAs_fieldFault? (ActionKind.tag_of_ofTag? hk ▸ ht)
      | _ => exact hread
  | _ => rfl

end Action
end ActionTree
