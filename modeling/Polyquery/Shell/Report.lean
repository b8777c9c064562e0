import Polyquery.Document.Parse
import Polyquery.Json.Printer
import Polyquery.Mongo.Pipeline
import Polyquery.Search.Request
import Polyquery.Sql.Select

/-!
# What the Shell Prints

The lines that the shell answers with: what it has found out about the schema,
its help, and what a query is compiled to by all backends, each with its own
success or failure.

## Main definitions

* `Shell.schemaReport`: What is printed about the schema.
* `Shell.help`, `Shell.demo`: The help and the example.
* `Shell.compilations`: A query in the languages of all backends.
* `Shell.answer`: The answer to a text.
-/

namespace Polyquery.Shell

/-- The file that the schema is read from. -/
def configFile : String := "querity.json"

/-- What is printed about the schema. -/
def schemaReport : Except ConfigError Schema → List String
  | .ok schema =>
    ["✅ 使用JSON配置文件: " ++ configFile,
      "✅ 加载了 " ++ toString schema.tables.length ++ " 个表映射, " ++
        toString schema.relations.length ++ " 个关系"] ++
      (schema.tables.map fun (entity, table) => "  " ++ entity ++ " -> " ++ table) ++
      schema.relations.map fun (key, relation) =>
        "  " ++ key ++ " -> " ++ relation.target ++ " (" ++ relation.joinColumn ++ " = " ++
          relation.targetColumn ++ ")"
  | .error error => ["⚠️ 无法加载JSON配置文件 (" ++ error.message ++ "), 使用默认配置"]

/-- The help. -/
def help : List String :=
  ["输入一个JSON查询（可跨多行），例如:",
    "  \x7b\"filter\": \x7b\"propertyName\": \"lastName\", \"operator\": \"EQUALS\", " ++
      "\"value\": \"Skywalker\"\x7d\x7d",
    "命令:",
    "  :entity <名称>  切换根实体",
    "  :help           显示帮助",
    "  :quit           退出"]

/-- The lines of the example query. -/
def demo : List String :=
  ["\x7b\"filter\": \x7b\"and\": [",
    "        \x7b\"propertyName\": \"lastName\", \"operator\": \"EQUALS\", " ++
      "\"value\": \"Skywalker\"\x7d,",
    "        \x7b\"not\": \x7b\"propertyName\": \"height\", \"operator\": \"LESSER_THAN\", " ++
      "\"value\": 150\x7d\x7d",
    "    ]\x7d, \"sort\": [\x7b\"propertyName\": \"firstName\", \"direction\": \"DESC\"\x7d], " ++
      "\"pagination\": \x7b\"page\": 1, \"pageSize\": 20\x7d\x7d"]

/-- The lines under a backend's name, or its failure. -/
def backendReport {α : Type} (name : String) (lines : α → List String)
    (result : Except CompileError α) : List String :=
  ["", "[" ++ name ++ "]:"] ++
    match result with
    | .ok a => lines a
    | .error error => ["✗ " ++ name ++ " 编译失败: " ++ error.message]

/-- A statement with a warning when a page may repeat a record. -/
def sqlLines (compiled : Sql.Compiled) : List String :=
  compiled.sql ::
    if compiled.requiresDistinct then ["⚠️ 分页查询经过一对多关系，结果可能包含重复行"] else []

/-- A command. -/
def mongoLines (compiled : Mongo.Compiled) : List String :=
  [compiled.toJson.pretty]

/-- A request. -/
def searchLines (request : Search.Request) : List String :=
  ["index: " ++ request.index, request.body.pretty]

/-- A query in the languages of all backends. -/
def compilations (schema : Schema) (entity : String) (q : AnyQuery) : List String :=
  match q with
  | .plain q =>
    backendReport "SQL" sqlLines (Sql.compileQuery schema entity q) ++
      backendReport "Mongo" mongoLines (Mongo.compileQuery schema entity q) ++
      backendReport "Search" searchLines (Search.compileQuery schema entity q)
  | .advanced q =>
    backendReport "SQL" sqlLines (Sql.compileAdvanced schema entity q) ++
      backendReport "Mongo" mongoLines (Mongo.compileAdvanced schema entity q) ++
      backendReport "Search" searchLines (Search.compileAdvanced schema entity q)

/-- The answer to a text. -/
def answer (schema : Schema) (entity text : String) : List String :=
  match parseAny (.read text) with
  | .ok q => "✓ 成功解析查询" :: compilations schema entity q
  | .error error => ["✗ 解析失败: " ++ error.message]

end Polyquery.Shell
