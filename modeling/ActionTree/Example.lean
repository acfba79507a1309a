/-
# Built-in examples

* `Example.all`: the examples.
* `Example.find?`: the example of a name, in upper or lower case.
-/
import ActionTree.Json.Basic

namespace ActionTree

/-- A tree document that shows what trees can do. -/
structure Example where
  name : String
  description : String
  tree : Json
  note : Option String

namespace Example

/-- Sends a greeting on one day. -/
def newYearGreeting : Example where
  name := "New Year Greeting"
  description := "Check if the date is 2025-01-01 and send an SMS"
  tree := .object [
    ("rootAction", .object [
      ("type", .str "condition"),
      ("expression", .str "date === \"2025-01-01\""),
      ("trueAction", .object [
        ("type", .str "send_sms"),
        ("phoneNumber", .str "+1234567890"),
        ("message", .str "Happy New Year!")])]),
    ("context", .object [("date", .str "2025-01-01")])]
  note := some "Change context.date to see the condition fail."

/-- Sends one e-mail. -/
def sendEmail : Example where
  name := "Send Email"
  description := "Send a single email"
  tree := .object [
    ("rootAction", .object [
      ("type", .str "send_email"),
      ("sender", .str "service@example.com"),
      ("receiver", .str "user@example.com"),
      ("subject", .str "First Email"),
      ("body", .str "This is the first email")]),
    ("context", .object [])]
  note := some "A tree has one root action; there is no sequence action."

/-- Sends a text message in every second iteration of a loop. -/
def optionalSms : Example where
  name := "10 Optional SMS"
  description := "Loop 10 times, check a condition, send an SMS if true"
  tree := .object [
    ("rootAction", .object [
      ("type", .str "loop"),
      ("iterations", .ofInt64 10),
      ("action", .object [
        ("type", .str "condition"),
        ("expression", .str "loopIndex % 2 === 0"),
        ("trueAction", .object [
          ("type", .str "send_sms"),
          ("phoneNumber", .str "+1234567890"),
          ("message", .str "Condition met for iteration")])])]),
    ("context", .object [])]
  note := none

/-- The examples. -/
def all : List Example := [newYearGreeting, sendEmail, optionalSms]

/-- The example of a name, where the case of ASCII letters does not count. -/
def find? (name : String) : Option Example :=
  all.find? fun entry => entry.name.toLower = name.toLower

/-- An example as a JSON object. Its fields stand in this order; a missing note is
left out. -/
def toJson (entry : Example) : Json :=
  .obj ([("name", .str entry.name), ("description", .str entry.description),
    ("tree", entry.tree)] ++ match entry.note with
      | some note => [("note", .str note)]
      | none => [])

end Example
end ActionTree
