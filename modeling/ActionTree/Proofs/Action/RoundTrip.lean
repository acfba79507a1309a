/-
# Documents are read back

The JSON value that describes an action describes that action and no other one, at
any depth and with any parameters, and so it is with trees. Every reader of a field
undoes what was written there: a text, a text or child that may be absent and is then
null, a number of iterations.

Key definitions: `Action.childOfJson`.
Key theorems: `Action.ofJson_toJson`, `Tree.ofJson_toJson`, `Tree.read_written`.
-/
import ActionTree.Tree

namespace ActionTree
namespace Action

/-! ### Fields -/

theorem kindOf_tag (kind : ActionKind) : kindOf (some (.str kind.tag)) = .ok kind := by
  cases kind <;> rfl

theorem requiredText_eq {kind : ActionKind} {fields : Fields Json} {name text : String}
    (h : fields.get? name = some (.str text)) : requiredText kind fields name = .ok text := by
  rw [requiredText, h]

theorem optionalText_eq {fields : Fields Json} {field : ActionField} {text : Option String}
    (h : fields.get? field.name = some (.strOrNull text)) :
    optionalText fields field = .ok text := by
  rw [optionalText, h]
  cases text <;> rfl

/-- Every signed 64-bit integer is stored as an integer, and found there again. -/
theorem count?_ofInt64 (n : Int64) : count? (.ofInt64 n) = some n := by
  have h : n.toInt < 0x8000000000000000 := Int64.toInt_lt n
  rw [Number.ofInt64, count?, if_pos h, Int64.ofInt_toInt]

theorem iterationsOf_eq {fields : Fields Json} {n : Int64}
    (h : fields.get? "iterations" = some (.ofInt64 n)) : iterationsOf fields = .ok n := by
  have h : fields.get? ActionField.iterations.name = some (.num (.ofInt64 n)) := h
  simp only [iterationsOf, h, count?_ofInt64]

/-- The child that a JSON value describes, none if it is null. -/
def childOfJson (json : Json) : Except ActionError (Option Action) :=
  if json.isNull then .ok none else (ofJson json).map some

theorem get?_childrenOf (fields : Fields Json) (name : String) :
    Fields.get? (childrenOf fields) name = (fields.get? name).map childOfJson := by
  induction fields with
  | nil => rfl
  | cons entry rest ih =>
    obtain ⟨other, value⟩ := entry
    rw [childrenOf, Fields.get?_cons, Fields.get?_cons, ih]
    by_cases h : name = other
    · rw [if_pos h, if_pos h]
      rfl
    · rw [if_neg h, if_neg h]

theorem childOf_eq {fields : Fields Json} {name : String} {json : Json} {child : Option Action}
    (h : fields.get? name = some json) (hc : childOfJson json = .ok child) :
    childOf (childrenOf fields) name = .ok child := by
  rw [childOf, get?_childrenOf, h, Option.map_some, Option.getD_some, hc]

theorem isNull_toJson (action : Action) : action.toJson.isNull = false := by
  cases action with
  | send message => cases message <;> rfl
  | condition | loop => rfl

/-! ### Nodes -/

section

variable {fields : Fields Json} {children : Fields (Except ActionError (Option Action))}

theorem ofParts_sms {phoneNumber : String} {text : Option String}
    (ht : fields.get? "type" = some (.str ActionKind.sendSms.tag))
    (hp : fields.get? "phoneNumber" = some (.str phoneNumber))
    (hm : fields.get? "message" = some (.strOrNull text)) :
    ofParts fields children = .ok (send (.sms phoneNumber text)) := by
  have hm : optionalText fields .message = .ok text := optionalText_eq hm
  simp only [ofParts, ht, kindOf_tag, requiredText_eq hp, hm]
  rfl

theorem ofParts_email {sender receiver : String} {subject body : Option String}
    (ht : fields.get? "type" = some (.str ActionKind.sendEmail.tag))
    (hs : fields.get? "sender" = some (.str sender))
    (hr : fields.get? "receiver" = some (.str receiver))
    (hj : fields.get? "subject" = some (.strOrNull subject))
    (hb : fields.get? "body" = some (.strOrNull body)) :
    ofParts fields children = .ok (send (.email sender receiver subject body)) := by
  have hj : optionalText fields .subject = .ok subject := optionalText_eq hj
  have hb : optionalText fields .body = .ok body := optionalText_eq hb
  simp only [ofParts, ht, kindOf_tag, requiredText_eq hs, requiredText_eq hr, hj, hb]
  rfl

theorem ofParts_condition {expression : String} {onTrue onFalse : Option Action}
    (ht : fields.get? "type" = some (.str ActionKind.condition.tag))
    (he : fields.get? "expression" = some (.str expression))
    (hct : childOf children "trueAction" = .ok onTrue)
    (hcf : childOf children "falseAction" = .ok onFalse) :
    ofParts fields children = .ok (condition expression onTrue onFalse) := by
  simp only [ofParts, ht, kindOf_tag, requiredText_eq he, hct, hcf]
  rfl

theorem ofParts_loop {iterations : Int64} {body : Option Action}
    (ht : fields.get? "type" = some (.str ActionKind.loop.tag))
    (hi : fields.get? "iterations" = some (.ofInt64 iterations))
    (hc : childOf children "action" = .ok body) :
    ofParts fields children = .ok (loop iterations body) := by
  simp only [ofParts, ht, kindOf_tag, iterationsOf_eq hi, hc]
  rfl

end

/-! ### Actions -/

mutual

/-- An action is read back from the document it was written to. -/
theorem ofJson_toJson : ∀ action : Action, ofJson action.toJson = .ok action
  | send (.sms phoneNumber text) => by
    have get := @Fields.get?_ofList_of_mem Json [
      ("type", .str ActionKind.sendSms.tag),
      ("phoneNumber", .str phoneNumber),
      ("message", .strOrNull text)] (by simp)
    rw [toJson, Json.object, ofJson]
    exact ofParts_sms (get (by simp)) (get (by simp)) (get (by simp))
  | send (.email sender receiver subject body) => by
    have get := @Fields.get?_ofList_of_mem Json [
      ("type", .str ActionKind.sendEmail.tag),
      ("sender", .str sender),
      ("receiver", .str receiver),
      ("subject", .strOrNull subject),
      ("body", .strOrNull body)] (by simp)
    rw [toJson, Json.object, ofJson]
    exact ofParts_email (get (by simp)) (get (by simp)) (get (by simp)) (get (by simp))
      (get (by simp))
  | condition expression onTrue onFalse => by
    have get := @Fields.get?_ofList_of_mem Json [
      ("type", .str ActionKind.condition.tag),
      ("expression", .str expression),
      ("trueAction", childToJson onTrue),
      ("falseAction", childToJson onFalse)] (by simp)
    rw [toJson, Json.object, ofJson]
    exact ofParts_condition (get (by simp)) (get (by simp))
      (childOf_eq (get (by simp)) (childOfJson_childToJson onTrue))
      (childOf_eq (get (by simp)) (childOfJson_childToJson onFalse))
  | loop iterations body => by
    have get := @Fields.get?_ofList_of_mem Json [
      ("type", .str ActionKind.loop.tag),
      ("iterations", .ofInt64 iterations),
      ("action", childToJson body)] (by simp)
    rw [toJson, Json.object, ofJson]
    exact ofParts_loop (get (by simp)) (get (by simp))
      (childOf_eq (get (by simp)) (childOfJson_childToJson body))

/-- A child, or that there is none, is read back from the field it was written to. -/
theorem childOfJson_childToJson : ∀ child : Option Action,
    childOfJson (childToJson child) = .ok child
  | none => rfl
  | some action => by
    rw [childToJson, childOfJson, isNull_toJson, ofJson_toJson action]
    rfl

end

end Action

/-! ### Trees -/

namespace Tree

theorem field?_eq {json value : Json} {name : String} (h : json.get? name = some value)
    (hn : value.isNull = false) : json.field? name = some value := by
  rw [Json.field?, h]
  cases value with
  | null => cases hn
  | _ => rfl

theorem contextOf_eq {json : Json} {context : Context}
    (h : json.get? "context" = some context.toJson) : contextOf json = .ok context := by
  rw [contextOf, field?_eq h rfl]
  rfl

/-- A tree is read back from the document it was written to, whatever the variables in
its context are. -/
theorem ofJson_toJson (tree : Tree) : ofJson tree.toJson = .ok tree := by
  have get := @Fields.get?_ofList_of_mem Json [
    ("rootAction", tree.root.toJson),
    ("context", tree.context.toJson)] (by simp)
  have hr : tree.toJson.field? "rootAction" = some tree.root.toJson :=
    field?_eq (get (by simp)) (Action.isNull_toJson _)
  have hc : contextOf tree.toJson = .ok tree.context := contextOf_eq (get (by simp))
  simp only [ofJson, hr, hc, Action.ofJson_toJson]
  rfl

/-- **Documents are read back exactly**: those of actions and those of trees. -/
theorem read_written (action : Action) (context : Context) :
    Action.ofJson action.toJson = .ok action ∧
      ofJson (toJson ⟨action, context⟩) = .ok ⟨action, context⟩ :=
  ⟨Action.ofJson_toJson action, ofJson_toJson ⟨action, context⟩⟩

end Tree
end ActionTree
