import SqlRouting.Json.Basic
import SqlRouting.Statement
import SqlRouting.Statement.Splice

/-!
# Reports

A report tells what a router learns from one statement: its tables, the conditions of its route,
the edits of its text, the number of its parameters, and the text with all insertions. It is
written as a JSON object.

## Main definitions

* `SqlRouting.Report` — what a router learns from a statement.
* `SqlRouting.Report.ofStatement` — the report on a statement.
* `SqlRouting.Report.toJson` — a report as a JSON value.
-/

set_option autoImplicit false

namespace SqlRouting

/-- What a router learns from a statement. -/
structure Report where
  /-- The kind of the statement. -/
  statement : String
  /-- The tables. -/
  tables : Tables
  /-- The conditions of the route. -/
  conditions : List RouteCondition
  /-- The edits of the text. -/
  edits : List Edit
  /-- The number of bound parameters. -/
  parameters : Nat
  /-- The text with all insertions. -/
  edited : String
deriving DecidableEq, Repr

/-- The word for the kind of a statement. -/
def Statement.kindName : Statement → String
  | .select _ => "select"
  | .insert _ => "insert"

/-! ## Parts of a report -/

/-- A list of texts as a value. -/
def Json.ofTexts (texts : List String) : Json String :=
  .ofList .string texts

/-- A table as a value. -/
def Table.toJson (table : Table) : Json String :=
  .object [("name", .string table.name), ("alias", .ofOption .string table.aliasName)]

/-- A column as a value. -/
def Column.toJson (column : Column) : Json String :=
  .object [("name", .string column.name), ("table_name", .string column.tableName)]

/-- A value of a condition, under the name of its kind. -/
def RoutingValue.toJson : RoutingValue → Json String
  | .number literal => .object [("number", .string literal)]
  | .text value => .object [("text", .string value)]
  | .placeholder index => .object [("placeholder", .ofNat index)]

/-- The word for how a condition restricts its column. -/
def ConditionOperator.word : ConditionOperator → String
  | .equal => "equal"
  | .within => "in"
  | .between => "between"

/-- A condition as a value. -/
def RouteCondition.toJson (condition : RouteCondition) : Json String :=
  .object [
    ("column", condition.column.toJson),
    ("operator", .string condition.operator.word),
    ("values", .ofList RoutingValue.toJson condition.values)]

/-- A span as a value. -/
def Span.toJson (span : Span) : Json String :=
  .object [("start", .ofNat span.start), ("end", .ofNat span.stop)]

/-- The word for the form of inserted values. -/
def InsertForm.word : InsertForm → String
  | .values => "values"
  | .set => "set"

/-- The word for a kind of edit. -/
def EditKind.word : EditKind → String
  | .table => "table"
  | .items => "items"
  | .orderBy => "order_by"
  | .offset => "offset"
  | .rowCount => "row_count"
  | .insertColumns => "insert_column"
  | .insertValues => "insert_values"

/-- The fields of an edit after its kind. -/
def Edit.fields : Edit → List (String × Json String)
  | .table span tableName written =>
    [("span", span.toJson), ("table_name", .string tableName),
      ("original_literals", .string written)]
  | .items start texts => [("start_index", .ofNat start), ("items", .ofTexts texts)]
  | .orderBy start texts => [("start_index", .ofNat start), ("items", .ofTexts texts)]
  | .offset span value => [("span", span.toJson), ("offset", .ofNat value)]
  | .rowCount span value => [("span", span.toJson), ("row_count", .ofNat value)]
  | .insertColumns start columns => [("start_index", .ofNat start), ("columns", .ofTexts columns)]
  | .insertValues start form => [("start_index", .ofNat start), ("kind", .string form.word)]

/-- An edit as a value. -/
def Edit.toJson (edit : Edit) : Json String :=
  .object (("kind", .string edit.kind.word) :: edit.fields)

/-! ## Reports -/

namespace Report

/-- The report on the statement that `text` writes. -/
def ofStatement (text : String) (statement : Statement) : Report where
  statement := statement.kindName
  tables := statement.context.tables
  conditions := statement.context.conditions
  edits := statement.context.edits
  parameters := statement.context.parameters
  edited := Edit.applyInsertions text statement.context.edits

/-- A report as a value. -/
def toJson (report : Report) : Json String :=
  .object [
    ("statement", .string report.statement),
    ("tables", .ofList Table.toJson report.tables.toList),
    ("route_conditions", .ofList RouteCondition.toJson report.conditions),
    ("tokens", .ofList Edit.toJson report.edits),
    ("parameters_count", .ofNat report.parameters),
    ("rewritten_sql", .string report.edited)]

end Report

end SqlRouting
