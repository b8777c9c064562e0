import Polyquery.Sql.Syntax

/-!
# Writing SQL

The text of expressions and statements in the dialect of PostgreSQL. Names
stand in double quotes and strings in single quotes; a string with an escape
in it is marked as such.

An operand is put in parentheses unless the operators of the dialect bind so
that none are needed: a comparison may stand bare under a logical operator,
and the left side of `AND` and of `OR` may be a chain of the same operator. A
list without values is in no relation to its operand, so a test of membership
in it is written as a comparison that is true or false by itself.

## Main definitions

* `Sql.quotedName`, `Sql.quotedString`: Names and strings.
* `Sql.Binding`, `Sql.Binding.bare`: Where parentheses can be left out.
* `Sql.Expr.print`, `Sql.Statement.print`: The texts.
-/

namespace Polyquery.Sql

/-- A name in double quotes, with each double quote in it doubled. -/
def quotedName (name : String) : String :=
  "\"" ++ String.ofList (name.toList.flatMap fun c => if c = '"' then ['"', '"'] else [c]) ++ "\""

/-- A character of a string as it is written. -/
def escapeChar (c : Char) : List Char :=
  match c with
  | '\\' => ['\\', '\\']
  | '"' => ['\\', '"']
  | '\'' => ['\\', '\'']
  | '\n' => ['\\', 'n']
  | '\r' => ['\\', 'r']
  | '\t' => ['\\', 't']
  | '\x00' => ['\\', '0']
  | '\x08' => ['\\', 'b']
  | '\x1a' => ['\\', 'z']
  | c => [c]

/-- A string in single quotes. -/
def quotedString (s : String) : String :=
  let escaped := s.toList.flatMap escapeChar
  let marker := if escaped.contains '\\' then "E" else ""
  marker ++ "'" ++ String.ofList escaped ++ "'"

/-- A constant. -/
def printLiteral : Literal → String
  | .string s => quotedString s
  | .integer n => toString n
  | .float x => Decimal.Layout.plain.write x
  | .boolean b => if b then "TRUE" else "FALSE"

/-- A column of a table. -/
def printColumn (table name : String) : String :=
  quotedName table ++ "." ++ quotedName name

/-- The sign of a comparison. -/
def Comparison.sign : Comparison → String
  | equal => "="
  | notEqual => "<>"
  | less => "<"
  | lessEqual => "<="
  | greater => ">"
  | greaterEqual => ">="

/-- The word of a keyword. -/
def Keyword.word : Keyword → String
  | null => "NULL"
  | currentDate => "CURRENT_DATE"
  | currentTime => "CURRENT_TIME"
  | currentTimestamp => "CURRENT_TIMESTAMP"

/-- How the outermost operator of an expression binds. -/
inductive Binding where
  /-- There is no operator, or it is closed on both sides. -/
  | closed
  | comparison
  | concatenation
  | conjunction
  | disjunction
  | negation
  | unknown
  deriving Repr, DecidableEq

/-- The side on which an operand stands. -/
inductive Side where
  | left
  | right
  deriving Repr, DecidableEq

/-- Whether an operand may stand without parentheses beside an operator that binds like `outer`. -/
def Binding.bare (outer : Binding) (side : Side) : (operand : Binding) → Bool
  | closed => true
  | comparison => outer == conjunction || outer == disjunction || outer == negation
  | conjunction => outer == conjunction && side == .left
  | disjunction => outer == disjunction && side == .left
  | concatenation | negation | unknown => false

namespace Expr

/-- How the outermost operator of an expression binds. -/
def binding : Expr → Binding
  | .column _ _ | .value _ | .keyword _ | .call _ _ | .choose _ _ _ => .closed
  | .compare _ _ _ | .isNull _ | .isNotNull _ | .isIn _ _ | .notIn _ _ | .like _ _
  | .notLike _ _ => .comparison
  | .concat _ _ => .concatenation
  | .and _ _ => .conjunction
  | .or _ _ => .disjunction
  | .not _ => .negation
  | .raw _ => .unknown

/-- The text of an operand, in parentheses where it needs them. -/
def enclose (outer : Binding) (side : Side) (operand : Expr) (text : String) : String :=
  if outer.bare side operand.binding then text else "(" ++ text ++ ")"

/-- A test of membership in a list of values, or of the contrary. -/
def printMembership (operand word whenEmpty : String) (values : List Literal) : String :=
  if values.isEmpty then whenEmpty
  else operand ++ " " ++ word ++ " (" ++ String.intercalate ", " (values.map printLiteral) ++ ")"

/-- A pattern with its escape character. -/
def printPattern (pattern : String) : String :=
  quotedString pattern ++ " ESCAPE " ++ quotedString "\\"

mutual

/-- The text of an expression. -/
def print : Expr → String
  | .column table name => printColumn table name
  | .value literal => printLiteral literal
  | .keyword word => word.word
  | .call name arguments => name ++ "(" ++ String.intercalate ", " (printAll arguments) ++ ")"
  | .compare comparison left right =>
    enclose .comparison .left left left.print ++ " " ++ comparison.sign ++ " " ++
      enclose .comparison .right right right.print
  | .concat left right =>
    enclose .concatenation .left left left.print ++ " || " ++
      enclose .concatenation .right right right.print
  | .isNull operand => enclose .comparison .left operand operand.print ++ " IS NULL"
  | .isNotNull operand => enclose .comparison .left operand operand.print ++ " IS NOT NULL"
  | .isIn operand values =>
    printMembership (enclose .comparison .left operand operand.print) "IN" "1 = 2" values
  | .notIn operand values =>
    printMembership (enclose .comparison .left operand operand.print) "NOT IN" "1 = 1" values
  | .like operand pattern =>
    enclose .comparison .left operand operand.print ++ " LIKE " ++ printPattern pattern
  | .notLike operand pattern =>
    enclose .comparison .left operand operand.print ++ " NOT LIKE " ++ printPattern pattern
  | .and left right =>
    enclose .conjunction .left left left.print ++ " AND " ++
      enclose .conjunction .right right right.print
  | .or left right =>
    enclose .disjunction .left left left.print ++ " OR " ++
      enclose .disjunction .right right right.print
  | .not operand => "NOT " ++ enclose .negation .right operand operand.print
  -- The parentheses are part of the form, whatever the condition is.
  | .choose condition yes no =>
    "(CASE WHEN (" ++ condition.print ++ ") THEN " ++ yes.print ++ " ELSE " ++ no.print ++ " END)"
  | .raw piece => piece

/-- The texts of several expressions. -/
def printAll : List Expr → List String
  | [] => []
  | e :: rest => e.print :: printAll rest

end

end Expr

/-- The text of an item of a select list. -/
def Item.print : Item → String
  | .all table => quotedName table ++ ".*"
  | .named value name => value.print ++ " AS " ++ quotedName name
  | .unnamed value => value.print

/-- The text of a join. -/
def printJoin (join : Join) : String :=
  " LEFT JOIN " ++ quotedName join.table ++ " AS " ++ quotedName join.tableAlias ++ " ON " ++
    printColumn join.parentAlias join.joinColumn ++ " = " ++
      printColumn join.tableAlias join.targetColumn

/-- A key of an order. -/
def printOrder (key : Expr × Direction) : String :=
  key.1.print ++ " " ++ key.2.name

/-- A clause, unless there is nothing to say in it. -/
def clause (opening : String) : Option String → String
  | some text => opening ++ text
  | none => ""

/-- A clause with several parts, unless it has none. -/
def listClause (opening : String) : List String → String
  | [] => ""
  | parts => opening ++ String.intercalate ", " parts

/-- The text of a statement. -/
def Statement.print (s : Statement) : String :=
  (if s.distinct then "SELECT DISTINCT " else "SELECT ") ++
    String.intercalate ", " (s.items.map Item.print) ++
    " FROM " ++ quotedName s.table ++
    String.join (s.joins.map printJoin) ++
    clause " WHERE " (s.filter.map Expr.print) ++
    listClause " GROUP BY " (s.groupBy.map Expr.print) ++
    clause " HAVING " (s.having.map Expr.print) ++
    listClause " ORDER BY " (s.orderBy.map printOrder) ++
    clause " LIMIT " (s.limit.map toString) ++
    clause " OFFSET " (s.offset.map toString)

end Polyquery.Sql
