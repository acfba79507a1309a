/-
# Arguments of the command line

A command, what it is about, and options that may stand in front of the command or
behind it. An option is given once in each of the two places at most; the one behind
the command counts.

* `Task`, `Arguments`: what is asked for.
* `Request.ofWords`: reads the words of a command line.
-/

namespace ActionTree.CommandLine

/-- What is to be done: a tree document is run or checked, or examples are shown. -/
inductive Task where
  | execute (file : String)
  | validate (file : String)
  | examples (name : Option String)
  deriving DecidableEq

/-- What is asked for. -/
structure Arguments where
  settingsFile : Option String
  logFilter : Option String
  task : Task
  deriving DecidableEq

/-- How a command line is understood: as arguments, as a call for help, or not at
all. -/
inductive Request where
  | run (arguments : Arguments)
  | help
  | misuse
  deriving DecidableEq

/-! ### Words -/

/-- What a value is given for: an option, or what the command is about. -/
inductive Slot where
  | settingsFile
  | logFilter
  | operand
  deriving DecidableEq

/-- The options by name. -/
def Slot.ofOption? (name : List Char) : Option Slot :=
  if name = "config".toList then some settingsFile
  else if name = "log-filter".toList then some logFilter
  else none

/-- What a word is: the mark behind which there are no options, an option with its
value or without, a call for help, something that is no option, or a value. -/
inductive Word where
  | mark
  | option (slot : Slot) (value : Option String)
  | help
  | unknown
  | plain
  deriving DecidableEq

/-- An option in its long form: a name, and a value behind an equals sign. -/
def Word.ofLong (text : List Char) : Word :=
  let name := text.takeWhile (· != '=')
  let value := match text.dropWhile (· != '=') with
    | '=' :: value => some (String.ofList value)
    | _ => none
  match Slot.ofOption? name with
  | some slot => option slot value
  | none => if name = "help".toList && value.isNone then help else unknown

/-- What a word is. A hyphen alone is a value. -/
def Word.ofText (text : String) : Word :=
  match text.toList with
  | ['-', '-'] => mark
  | '-' :: '-' :: rest => ofLong rest
  | '-' :: 'h' :: _ => help
  | '-' :: _ :: _ => unknown
  | _ => plain

/-! ### Values -/

/-- Why a command line has no arguments. -/
inductive Stop where
  | help
  | misuse
  deriving DecidableEq

/-- The values that are given, and the last one, which is judged when the next word
shows that it is complete. -/
structure Given where
  settingsFile : Option String
  logFilter : Option String
  operand : Option String
  pending : Option (Slot × String)
  deriving DecidableEq

namespace Given

/-- No values. -/
def none : Given :=
  ⟨.none, .none, .none, .none⟩

/-- Takes a value, unless there is one already or it must not be empty. The name of
a file must not be empty. -/
def accept (given : Given) (operandIsFile : Bool) (slot : Slot) (value : String) :
    Except Stop Given :=
  match slot with
  | .settingsFile =>
    if value.isEmpty || given.settingsFile.isSome then .error .misuse
    else .ok { given with settingsFile := some value }
  | .logFilter =>
    if given.logFilter.isSome then .error .misuse
    else .ok { given with logFilter := some value }
  | .operand =>
    if operandIsFile && value.isEmpty then .error .misuse
    else .ok { given with operand := some value }

/-- Judges the last value. -/
def settle (given : Given) (operandIsFile : Bool) : Except Stop Given :=
  match given.pending with
  | some (slot, value) => accept { given with pending := .none } operandIsFile slot value
  | .none => .ok given

/-- Whether what the command is about has been given. -/
def hasOperand (given : Given) : Bool :=
  given.operand.isSome || given.pending.any (·.1 = .operand)

/-- Gives an option a value behind an equals sign. -/
def attach (given : Given) (operandIsFile : Bool) (slot : Slot) (value : String) :
    Except Stop Given := do
  (← given.settle operandIsFile).accept operandIsFile slot value

/-- Gives an option or the command a value in a word of its own. -/
def await (given : Given) (operandIsFile : Bool) (slot : Slot) (value : String) :
    Except Stop Given := do
  return { ← given.settle operandIsFile with pending := some (slot, value) }

/-- Gives the command what it is about. -/
def takeOperand (given : Given) (operandIsFile : Bool) (value : String) : Except Stop Given :=
  if given.hasOperand then .error .misuse else given.await operandIsFile .operand value

end Given

/-! ### Commands -/

/-- The commands. -/
inductive Command where
  | execute
  | validate
  | examples
  deriving DecidableEq

namespace Command

/-- The name of a command. -/
def name : Command → String
  | execute => "execute"
  | validate => "validate"
  | examples => "examples"

/-- The command of a name. -/
def ofName? (word : String) : Option Command :=
  [execute, validate, examples].find? (·.name = word)

/-- Whether a command is about a file. -/
def takesFile : Command → Bool
  | execute => true
  | validate => true
  | examples => false

/-- The task of a command. One that is about a file needs its name. -/
def task? (command : Command) (operand : Option String) : Option Task :=
  match command with
  | execute => operand.map .execute
  | validate => operand.map .validate
  | examples => some (.examples operand)

end Command

/-- Reads the words behind a command. Behind the mark all are values. -/
def readOperands (command : Command) : Given → Bool → List String → Except Stop Given
  | given, _, [] => given.settle command.takesFile
  | given, true, word :: words => do
    readOperands command (← given.takeOperand command.takesFile word) true words
  | given, false, word :: words => match Word.ofText word with
    | .mark => readOperands command given true words
    | .help => do
      let _ ← given.settle command.takesFile
      throw .help
    | .unknown => throw .misuse
    | .plain => do
      readOperands command (← given.takeOperand command.takesFile word) false words
    | .option slot (some value) => do
      readOperands command (← given.attach command.takesFile slot value) false words
    | .option slot none => match words with
      | [] => throw .misuse
      | value :: words => do
        if Word.ofText value = .plain then
          readOperands command (← given.await command.takesFile slot value) false words
        else throw .misuse

/-- Reads the words behind the word `help`: at most one command. -/
def readHelp : List String → Stop
  | [] => .help
  | [name] => if name = "help" || (Command.ofName? name).isSome then .help else .misuse
  | _ => .misuse

/-- Reads a command behind the options in front of it. -/
def readCommand (given : Given) (command : Command) (words : List String) :
    Except Stop Arguments := do
  let inner ← readOperands command .none false words
  let outer ← given.settle false
  match command.task? inner.operand with
  | some task =>
    return ⟨inner.settingsFile.or outer.settingsFile, inner.logFilter.or outer.logFilter, task⟩
  | none => throw .misuse

/-- Reads a command line. -/
def readWords : Given → List String → Except Stop Arguments
  | _, [] => throw .misuse
  | given, word :: words => match Word.ofText word with
    | .mark => throw .misuse
    | .unknown => throw .misuse
    | .help => do
      let _ ← given.settle false
      throw .help
    | .plain => match Command.ofName? word with
      | some command => readCommand given command words
      | none => throw (if word = "help" then readHelp words else .misuse)
    | .option slot (some value) => do readWords (← given.attach false slot value) words
    | .option slot none => match words with
      | [] => throw .misuse
      | value :: words => do
        if Word.ofText value = .plain then readWords (← given.await false slot value) words
        else throw .misuse

/-- How the words of a command line are understood. -/
def Request.ofWords (words : List String) : Request :=
  match readWords .none words with
  | .ok arguments => run arguments
  | .error .help => help
  | .error .misuse => misuse

end ActionTree.CommandLine
