import Polyquery.Shell.Brackets
import Polyquery.Shell.Report
import Polyquery.Text.Line

/-!
# Sessions of the Shell

A session reads lines and answers with lines. At the beginning of a query a
line may be a command, which starts with a colon, and blank lines are passed
over. Any other line is added to the query that is being typed, and once its
brackets are closed the query is answered. What has been typed when the input
ends is answered as it is.

## Main definitions

* `Shell.Session`: The state of a session.
* `Shell.Command`: The commands.
* `Shell.Session.read`: One line.
* `Shell.Session.run`: All lines up to the end of the input.
* `Shell.opening`, `Shell.transcript`: The beginning of a session and the
  whole of it.
-/

namespace Polyquery.Shell

/-- The state of a session. -/
structure Session where
  schema : Schema
  /-- The entity that queries are about. -/
  entity : String
  /-- The lines of the query that is being typed. -/
  buffer : String
  deriving Repr

/-- A command. -/
inductive Command where
  | quit
  | help
  | entity (name : String)
  | unknown
  deriving Repr, DecidableEq

/-- The command of the words after the colon. -/
def Command.ofWords : List String → Command
  | "quit" :: _ => .quit
  | "q" :: _ => .quit
  | "help" :: _ => .help
  | "h" :: _ => .help
  | "entity" :: name :: _ => .entity name
  | _ => .unknown

/-- What a session prints, and the session that goes on unless it is over. -/
structure Step where
  output : List String
  next : Option Session
  deriving Repr

namespace Session

/-- The session at its beginning. -/
def start (schema : Schema) : Session :=
  ⟨schema, "Person", ""⟩

/-- A command carried out; `line` is what was typed. -/
def execute (session : Session) (line : String) : Command → Step
  | .quit => ⟨[], none⟩
  | .help => ⟨Shell.help, some session⟩
  | .entity name =>
    ⟨["✅ 根实体: " ++ name ++ " (表 " ++ session.schema.tableName name ++ ")"],
      some { session with entity := name }⟩
  | .unknown => ⟨["✗ 未知命令: " ++ line], some session⟩

/-- A line added to the query that is being typed. -/
def accumulate (session : Session) (line : String) : Step :=
  let buffer := session.buffer ++ line ++ "\n"
  if isComplete buffer then
    ⟨answer session.schema session.entity buffer, some { session with buffer := "" }⟩
  else ⟨[], some { session with buffer := buffer }⟩

/-- One line read. -/
def read (session : Session) (line : String) : Step :=
  if session.buffer.isEmpty then
    let trimmed := Text.trim line
    match trimmed.toList with
    | [] => ⟨[], some session⟩
    | ':' :: rest =>
      session.execute trimmed (Command.ofWords (Text.words (String.ofList rest)))
    | _ => session.accumulate line
  else session.accumulate line

/-- The end of the input. -/
def finish (session : Session) : List String :=
  (if session.buffer.isEmpty then [] else answer session.schema session.entity session.buffer) ++
    ["", "再见!"]

/-- What a session prints on lines and the end of the input after them. -/
def run (session : Session) : List String → List String
  | [] => session.finish
  | line :: rest =>
    let step := session.read line
    match step.next with
    | some session => step.output ++ session.run rest
    | none => step.output

end Session

/-- The schema of a session. Where none can be loaded, nothing is configured. -/
def schemaOr (loaded : Except ConfigError Schema) : Schema :=
  match loaded with
  | .ok schema => schema
  | .error _ => .default

/-- What is printed before the first line is read. -/
def opening (loaded : Except ConfigError Schema) : List String :=
  ["--- Querity: JSON 查询到 SQL / Mongo / Search 编译器 ---", "", "[配置信息]:"] ++
    schemaReport loaded ++
    ["", "[示例查询]:"] ++ demo ++
    answer (schemaOr loaded) "Person" (Text.joinWith "\n" demo) ++
    [""] ++ help

/-- Everything that is printed for a text of input. -/
def transcript (loaded : Except ConfigError Schema) (input : String) : List String :=
  opening loaded ++ (Session.start (schemaOr loaded)).run (Text.linesOf input)

end Polyquery.Shell
