/-
# Actions

The nodes of a decision tree. A leaf sends a message; a condition runs one of
two optional branches; a loop runs an optional body a number of times.

* `ActionKind`: the kinds of action, with the tags that stand for them in
  documents.
* `Action`: the actions.
* `Action.wellFormed`: the check of a node alone, without its children.
* `Action.attach?`: sets a child.
-/
import ActionTree.Message

namespace ActionTree

/-- The kinds of action. -/
inductive ActionKind where
  | sendSms
  | sendEmail
  | condition
  | loop
  deriving DecidableEq

namespace ActionKind

/-- Every kind. -/
def all : List ActionKind := [sendSms, sendEmail, condition, loop]

/-- The tag of a kind in documents. -/
def tag : ActionKind → String
  | sendSms => "send_sms"
  | sendEmail => "send_email"
  | condition => "condition"
  | loop => "loop"

/-- The name of a kind in error messages. -/
def title : ActionKind → String
  | sendSms => "SendSmsAction"
  | sendEmail => "SendEmailAction"
  | condition => "ConditionAction"
  | loop => "LoopAction"

/-- The kind with that tag. -/
def ofTag? (tag : String) : Option ActionKind :=
  all.find? (·.tag = tag)

theorem ofTag?_tag (kind : ActionKind) : ofTag? kind.tag = some kind := by
  cases kind <;> decide

end ActionKind

/-- A node of a decision tree. -/
inductive Action where
  | send (message : Message)
  | condition (expression : String) (onTrue : Option Action) (onFalse : Option Action)
  | loop (iterations : Int64) (body : Option Action)
  deriving Inhabited

namespace Action

/-- The kind of an action. -/
def kind : Action → ActionKind
  | send (.sms ..) => .sendSms
  | send (.email ..) => .sendEmail
  | condition .. => .condition
  | loop .. => .loop

/-- Whether a node alone makes sense: a message has an address, a condition an
expression and a loop at least one iteration. Children are not looked at, and
whether the expression parses shows only when it is evaluated. -/
def wellFormed : Action → Bool
  | send message => message.addressed
  | condition expression _ _ => !expression.isEmpty
  | loop iterations _ => 1 ≤ iterations

/-! ### Induction -/

/-- Induction over the nodes of a tree, with a hypothesis for every child that is
there. -/
theorem induct {motive : Action → Prop} (send : ∀ message, motive (send message))
    (condition : ∀ expression onTrue onFalse, (∀ child ∈ onTrue, motive child) →
      (∀ child ∈ onFalse, motive child) → motive (condition expression onTrue onFalse))
    (loop : ∀ iterations body, (∀ child ∈ body, motive child) → motive (loop iterations body)) :
    ∀ action, motive action
  | .send message => send message
  | .condition expression onTrue onFalse =>
    condition expression onTrue onFalse
      (fun child _ => induct send condition loop child)
      (fun child _ => induct send condition loop child)
  | .loop iterations body =>
    loop iterations body fun child _ => induct send condition loop child

/-! ### Equality -/

mutual

/-- Equality of actions. -/
def beq : Action → Action → Bool
  | send m, send n => m = n
  | condition e t f, condition e' t' f' => e = e' && beqChild t t' && beqChild f f'
  | loop n b, loop n' b' => n = n' && beqChild b b'
  | _, _ => false

/-- Equality of optional actions. -/
def beqChild : Option Action → Option Action → Bool
  | none, none => true
  | some a, some b => beq a b
  | _, _ => false

end

mutual

theorem eq_of_beq : ∀ a b : Action, beq a b = true → a = b
  | send m, send n, h => by simpa [beq] using h
  | condition e t f, condition e' t' f', h => by
    simp only [beq, Bool.and_eq_true, decide_eq_true_eq] at h
    rw [h.1.1, eq_of_beqChild t t' h.1.2, eq_of_beqChild f f' h.2]
  | loop n b, loop n' b', h => by
    simp only [beq, Bool.and_eq_true, decide_eq_true_eq] at h
    rw [h.1, eq_of_beqChild b b' h.2]
  | send _, condition .., h | send _, loop .., h | condition .., send _, h
  | condition .., loop .., h | loop .., send _, h | loop .., condition .., h => by
    simp [beq] at h

theorem eq_of_beqChild : ∀ a b : Option Action, beqChild a b = true → a = b
  | none, none, _ => rfl
  | some a, some b, h => by rw [eq_of_beq a b (by simpa [beqChild] using h)]
  | none, some _, h | some _, none, h => by simp [beqChild] at h

end

mutual

theorem beq_self : ∀ a : Action, beq a a = true
  | send m => by simp [beq]
  | condition e t f => by simp [beq, beqChild_self t, beqChild_self f]
  | loop n b => by simp [beq, beqChild_self b]

theorem beqChild_self : ∀ a : Option Action, beqChild a a = true
  | none => by simp [beqChild]
  | some a => by simp [beqChild, beq_self a]

end

instance : DecidableEq Action := fun a b =>
  decidable_of_iff (beq a b = true) ⟨eq_of_beq a b, fun h => h ▸ beq_self a⟩

/-! ### Children -/

/-- The places of children. -/
inductive Slot where
  | onTrue
  | onFalse
  | body
  deriving DecidableEq

/-- The action with a child at a place, in place of one that was there. Only a
condition has branches and only a loop has a body. -/
def attach? (parent : Action) (slot : Slot) (child : Action) : Option Action :=
  match parent, slot with
  | condition expression _ onFalse, .onTrue => some (condition expression (some child) onFalse)
  | condition expression onTrue _, .onFalse => some (condition expression onTrue (some child))
  | loop iterations _, .body => some (loop iterations (some child))
  | _, _ => none

end Action
end ActionTree
