/-
# Messages

What the leaves of a tree send, and what is recorded of it.

* `Message`: a text message or an e-mail with its parameters.
* `Delivery`: a message together with the context in which it was sent.
-/
import ActionTree.Context

namespace ActionTree

/-- The ways by which messages go out. -/
inductive Channel where
  | sms
  | email
  deriving DecidableEq

/-- The name of a channel. -/
def Channel.name : Channel → String
  | sms => "sms"
  | email => "email"

/-- A message to send. -/
inductive Message where
  | sms (phoneNumber : String) (text : Option String)
  | email (sender : String) (receiver : String) (subject : Option String) (body : Option String)
  deriving DecidableEq

/-- The channel of a message. -/
def Message.channel : Message → Channel
  | sms .. => .sms
  | email .. => .email

/-- Whether a message has an address: a phone number, or a sender and a receiver. -/
def Message.addressed : Message → Bool
  | sms phoneNumber _ => !phoneNumber.isEmpty
  | email sender receiver _ _ => !sender.isEmpty && !receiver.isEmpty

/-- A message that was sent, with the context that its action saw. -/
structure Delivery where
  message : Message
  context : Context

end ActionTree
