/-
# The program

Looks at the world, runs the command line and shows what comes out.
-/
import ActionTree.CommandLine.LogLine
import ActionTree.CommandLine.Run

namespace ActionTree.Program

open CommandLine

/-- The error code of a path that leads through something that is no directory. -/
def notDirectory : UInt32 :=
  -20

/-- What a path leads to. -/
def readEntry (path : String) : IO Entry := do
  try
    let bytes ← IO.FS.readBinFile path
    return match String.fromUTF8? bytes with
      | some content => .text content
      | none => .other
  catch
    | .noFileOrDirectory .. => return .absent
    | .inappropriateType _ code _ => return if code = notDirectory then .absent else .other
    | _ => return .other

/-- The file with variables: in the working directory or in the nearest directory
above it that has one. -/
partial def readVariables (path : String) (depth : Nat) : IO Entry := do
  match ← readEntry path with
  | .text content => return .text content
  | entry => if depth = 0 then return entry else readVariables ("../" ++ path) (depth - 1)

/-- A variable with its value. -/
def splitVariable (text : String) : Option (String × String) :=
  match text.splitOn "=" with
  | name :: value :: rest => some (name, "=".intercalate (value :: rest))
  | _ => none

/-- The environment of the process. -/
def readEnvironment : IO Environment := do
  match ← readEntry "/proc/self/environ" with
  | .text content => return Fields.ofList ((content.splitOn "\x00").filterMap splitVariable)
  | _ => return []

/-- The standard input to its end. -/
partial def readInput (input : IO.FS.Stream) (done : ByteArray) : IO (Option String) := do
  let bytes ← input.read 65536
  if bytes.isEmpty then return String.fromUTF8? done else readInput input (done ++ bytes)

/-- What the words of a command line can see. -/
def readWorld (words : List String) : IO World := do
  let own ← readEnvironment
  let directory ← IO.currentDir
  let dotEnv ← readVariables variablesFile (directory.toString.splitOn "/").length
  match Request.ofWords words, environment ⟨fun _ => dotEnv, own, none⟩ with
  | .run arguments, .ok environment =>
    let entries ← (paths environment arguments).mapM fun path => do
      return (path, ← readEntry path)
    let input ← if readsInput arguments then readInput (← IO.getStdin) .empty else pure none
    let files : Files := fun path =>
      if path = variablesFile then dotEnv else (List.lookup path entries).getD .absent
    return ⟨files, own, input⟩
  | _, _ => return ⟨fun _ => dotEnv, own, none⟩

/-- What is said of a text that is no expression. -/
def explain (source : String) : String :=
  "cannot read " ++ source

/-- Runs a command line and shows what comes out, with its exit status. -/
def run (words : List String) : IO UInt32 := do
  let world ← readWorld words
  let start ← IO.monoMsNow
  let report := CommandLine.report explain world words
  for entry in report.log do
    IO.eprintln (entry.line explain report.ansi)
  let stop ← IO.monoMsNow
  IO.print (report.output (.ofNat (stop - start)))
  match report.complaint with
  | some complaint => IO.eprintln complaint
  | none => pure ()
  return .ofNat report.status

end ActionTree.Program

/-- Runs the command line. -/
def main (words : List String) : IO UInt32 :=
  ActionTree.Program.run words
