/-
# Lines of the log

* `LogEntry.line`: an entry as a line of text.
-/
import ActionTree.Json.Printer
import ActionTree.Run.Event

namespace ActionTree

/-- The number of the colour of a level on a terminal. -/
def Level.colour : Level → String
  | debug => "34"
  | info => "32"
  | warn => "33"

namespace LogLine

/-- A text in a style of a terminal, if styles are wanted. -/
def styled (ansi : Bool) (style text : String) : String :=
  if ansi then "\x1b[" ++ style ++ "m" ++ text ++ "\x1b[0m" else text

/-- The style of the name of a field. -/
def nameStyle : String := "3"

/-- The style of the equals sign of a field. -/
def signStyle : String := "2"

/-- The fields whose text is written as it is. That of others is in quotes. -/
def bareFields : List String :=
  ["root", "error", "expression", "phone_number", "sender", "receiver"]

/-- The value of a field as a text. -/
def valueText (name : String) : Json → String
  | .str text => if bareFields.contains name then text else (Json.str text).compact
  | value => value.compact

/-- A field as a text. -/
def fieldText (ansi : Bool) (name : String) (value : Json) : String :=
  styled ansi nameStyle name ++ styled ansi signStyle "=" ++ valueText name value

end LogLine

/-- An entry as a line: its level, span and text, and its fields behind them. -/
def LogEntry.line (explain : String → String) (entry : LogEntry) (ansi : Bool) : String :=
  let level := LogLine.styled ansi entry.event.level.colour entry.event.level.name
  let span := match entry.span with
    | some span => span.name ++ ": "
    | none => ""
  let fields := (entry.event.fields explain).map fun (name, value) =>
    " " ++ LogLine.fieldText ansi name value
  level ++ " " ++ span ++ entry.event.message ++ String.join fields

end ActionTree
