import Polyquery.Shell.Session

/-!
# The Shell

Loads the schema from the current directory, answers an example query, and
then answers the queries on its standard input until a command or the end of
the input stops it.

## Main definitions

* `main`: The program.
-/

namespace Polyquery.Shell

/-- Prints lines. -/
def printLines (lines : List String) : IO Unit :=
  lines.forM IO.println

/-- The schema in the configured file. -/
def loadSchema : IO (Except ConfigError Schema) := do
  try
    let text ← IO.FS.readFile configFile
    return Schema.ofText configFile text
  catch
    | .noFileOrDirectory .. => return .error (.notFound configFile)
    | _ => return .error (.unreadable configFile)

/-- Answers the lines of the input one by one. -/
partial def loop (input : IO.FS.Stream) (session : Session) : IO Unit := do
  let line ← input.getLine
  if line.isEmpty then
    printLines session.finish
  else
    let step := session.read (Text.lineOf line)
    printLines step.output
    match step.next with
    | some session => loop input session
    | none => return ()

end Polyquery.Shell

open Polyquery Shell in
/-- Runs the shell. -/
def main : IO Unit := do
  let loaded ← loadSchema
  printLines (opening loaded)
  loop (← IO.getStdin) (.start (schemaOr loaded))
