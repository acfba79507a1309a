/-
# Documents of actions

An action as a JSON object: a tag under `type` and fields with the parameters
and children.

* `ActionError`: why a JSON value describes no action.
* `Action.ofJson`: the action that a JSON value describes, or its first fault.
* `Action.toJson`: the JSON value that describes an action.
-/
import ActionTree.Action.Basic
import ActionTree.Binary64
import ActionTree.Json.Printer

namespace ActionTree

/-- The fields whose content can be wrong although they are there. -/
inductive ActionField where
  | message
  | subject
  | body
  | iterations
  deriving DecidableEq

namespace ActionField

/-- The name of a field in documents. -/
def name : ActionField → String
  | message => "message"
  | subject => "subject"
  | body => "body"
  | iterations => "iterations"

/-- The kind of action to which a field belongs. -/
def owner : ActionField → ActionKind
  | message => .sendSms
  | subject => .sendEmail
  | body => .sendEmail
  | iterations => .loop

/-- What a field must hold. -/
def expected : ActionField → String
  | iterations => "an integer"
  | _ => "a string"

end ActionField

/-- What an action of a kind cannot do without. -/
def ActionKind.requirement : ActionKind → String
  | sendSms => "phoneNumber"
  | sendEmail => "sender and receiver"
  | condition => "expression"
  | loop => "iterations as a number"

/-- Why a JSON value describes no action. -/
inductive ActionError where
  | missingType
  | unknownType (tag : String)
  | missingField (kind : ActionKind)
  | invalidField (field : ActionField)
  deriving DecidableEq

/-- The wording of an error. -/
def ActionError.message : ActionError → String
  | missingType => "invalid action JSON: missing type"
  | unknownType tag => "invalid action JSON: unknown type: " ++ tag
  | missingField kind => kind.title ++ " requires " ++ kind.requirement
  | invalidField field =>
    field.owner.title ++ " field '" ++ field.name ++ "' must be " ++ field.expected

namespace Action

/-! ### Reading -/

/-- The kind of action that a field `type` names. -/
def kindOf (type : Option Json) : Except ActionError ActionKind :=
  match type with
  | none | some .null | some (.str "") => .error .missingType
  | some (.str tag) => match ActionKind.ofTag? tag with
    | some kind => .ok kind
    | none => .error (.unknownType tag)
  | some other => .error (.unknownType other.compact)

/-- A text that an action of a kind requires. -/
def requiredText (kind : ActionKind) (fields : Fields Json) (name : String) :
    Except ActionError String :=
  match fields.get? name with
  | some (.str text) => .ok text
  | _ => .error (.missingField kind)

/-- A text that may be left out or null. -/
def optionalText (fields : Fields Json) (field : ActionField) :
    Except ActionError (Option String) :=
  match fields.get? field.name with
  | none | some .null => .ok none
  | some (.str text) => .ok (some text)
  | _ => .error (.invalidField field)

/-- The signed 64-bit integer that a number denotes. A number outside the range is
first rounded to binary64; `2 ^ 63` then still counts and becomes the largest
integer. -/
def count? (number : Number) : Option Int64 :=
  match number with
  | .int n _ =>
    if n < 0x8000000000000000 then some (Int64.ofInt n) else clamp? number.toFloat
  | .float x _ => clamp? x
where
  /-- The integer nearest in the range to an integral number at most as large as
  its bounds. -/
  clamp? (x : Float) : Option Int64 :=
    match Binary64.integer? x with
    | some n => if -0x8000000000000000 ≤ n ∧ n ≤ 0x8000000000000000 then some (Int64.ofIntClamp n) else none
    | none => none

/-- The number of iterations of a loop. -/
def iterationsOf (fields : Fields Json) : Except ActionError Int64 :=
  match fields.get? ActionField.iterations.name with
  | some (.num number) => match count? number with
    | some n => .ok n
    | none => .error (.invalidField .iterations)
  | _ => .error (.missingField .loop)

/-- The child that a field describes; none if it is left out or null. -/
def childOf (children : Fields (Except ActionError (Option Action))) (name : String) :
    Except ActionError (Option Action) :=
  (children.get? name).getD (.ok none)

/-- The action that the fields of an object describe. The second argument holds
the fields read as children. -/
def ofParts (fields : Fields Json) (children : Fields (Except ActionError (Option Action))) :
    Except ActionError Action := do
  match ← kindOf (fields.get? "type") with
  | .sendSms =>
    let phoneNumber ← requiredText .sendSms fields "phoneNumber"
    let text ← optionalText fields .message
    return send (.sms phoneNumber text)
  | .sendEmail =>
    let sender ← requiredText .sendEmail fields "sender"
    let receiver ← requiredText .sendEmail fields "receiver"
    let subject ← optionalText fields .subject
    let body ← optionalText fields .body
    return send (.email sender receiver subject body)
  | .condition =>
    let expression ← requiredText .condition fields "expression"
    let onTrue ← childOf children "trueAction"
    let onFalse ← childOf children "falseAction"
    return condition expression onTrue onFalse
  | .loop =>
    let iterations ← iterationsOf fields
    let body ← childOf children "action"
    return loop iterations body

mutual

/-- The action that a JSON value describes. Of several faults the first counts: a
node comes before its children, and a condition's branch for true before that
for false. -/
def ofJson : Json → Except ActionError Action
  | .obj fields => ofParts fields (childrenOf fields)
  | _ => .error .missingType

/-- Every field read as a child. -/
def childrenOf : List (String × Json) → List (String × Except ActionError (Option Action))
  | [] => []
  | (name, value) :: rest =>
    (name, if value.isNull then .ok none else (ofJson value).map some) :: childrenOf rest

end

/-- Whether a JSON value describes an action whose root makes sense. -/
def describesWellFormed (json : Json) : Bool :=
  match ofJson json with
  | .ok action => action.wellFormed
  | .error _ => false

/-! ### Writing -/

mutual

/-- The JSON value that describes an action. What is left out is null. -/
def toJson : Action → Json
  | send (.sms phoneNumber text) => .object [
      ("type", .str ActionKind.sendSms.tag),
      ("phoneNumber", .str phoneNumber),
      ("message", .strOrNull text)]
  | send (.email sender receiver subject body) => .object [
      ("type", .str ActionKind.sendEmail.tag),
      ("sender", .str sender),
      ("receiver", .str receiver),
      ("subject", .strOrNull subject),
      ("body", .strOrNull body)]
  | condition expression onTrue onFalse => .object [
      ("type", .str ActionKind.condition.tag),
      ("expression", .str expression),
      ("trueAction", childToJson onTrue),
      ("falseAction", childToJson onFalse)]
  | loop iterations body => .object [
      ("type", .str ActionKind.loop.tag),
      ("iterations", .ofInt64 iterations),
      ("action", childToJson body)]

/-- The JSON value that describes a child, null if there is none. -/
def childToJson : Option Action → Json
  | none => .null
  | some action => toJson action

end

/-- The tag of a child, null if there is none. -/
def childTag : Option Action → Json
  | none => .null
  | some action => .str action.kind.tag

/-- A node alone: as its document, but with the tags of its children in their
places. -/
def outline : Action → Json
  | condition expression onTrue onFalse => .object [
      ("type", .str ActionKind.condition.tag),
      ("expression", .str expression),
      ("trueAction", childTag onTrue),
      ("falseAction", childTag onFalse)]
  | loop iterations body => .object [
      ("type", .str ActionKind.loop.tag),
      ("iterations", .ofInt64 iterations),
      ("action", childTag body)]
  | send message => toJson (send message)

/-- The place of children under that name in documents. -/
def Slot.ofName? : String → Option Slot
  | "trueAction" => some .onTrue
  | "falseAction" => some .onFalse
  | "action" => some .body
  | _ => none

end Action
end ActionTree
