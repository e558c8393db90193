import SqlRouting.Keyword

/-!
# Dialects

Databases differ in the clauses of a query and their order, in the words that introduce the values
of an insertion, in how a limit is written and in how names are quoted. The grammar asks the
dialect at each of these points.

## Main definitions

* `SqlRouting.Dialect` — the choices of a dialect.
* `SqlRouting.Dialect.generic` — the standard dialect.
* `SqlRouting.Dialect.mysql` — the dialect of MySQL.
-/

set_option autoImplicit false

namespace SqlRouting

/-- A clause of a query. -/
inductive SelectClause
  /-- The select list. -/
  | selectList
  /-- The tables, with joins and derived tables. -/
  | tables
  /-- The condition on the rows. -/
  | condition
  /-- The grouping. -/
  | grouping
  /-- The condition on the groups, which is refused. -/
  | groupCondition
  /-- The ordering. -/
  | ordering
  /-- The limit. -/
  | limit
  /-- Anything after the query that has to be refused. -/
  | trailing
deriving DecidableEq, Repr

/-- How a limit is written. -/
inductive LimitStyle
  /-- The number of rows, with the offset after a word of its own. -/
  | standard
  /-- Also the offset and the number of rows with a comma between them. -/
  | commaSeparated
deriving DecidableEq, Repr

/-- The choices of a dialect. -/
structure Dialect where
  /-- The name of the dialect. -/
  name : String
  /-- The character on both sides of a quoted name. -/
  identifierQuote : Char := '"'
  /-- The words that introduce assignments in place of rows of values. -/
  insertKeywords : List Keyword := []
  /-- The clauses of a query in the order they are read. -/
  clauses : List SelectClause :=
    [.selectList, .tables, .condition, .grouping, .groupCondition, .ordering, .limit, .trailing]
  /-- How a limit is written. -/
  limitStyle : LimitStyle := .standard
  /-- The words that may follow the items to group by. -/
  afterGroupBy : List Keyword := []
  /-- The words after a query that are refused. -/
  refusedTrailing : List Keyword := [.UNION, .INTERSECT, .EXCEPT]
deriving DecidableEq, Repr

namespace Dialect

/-- The standard dialect. -/
def generic : Dialect where
  name := "generic"

/-- The dialect of MySQL. -/
def mysql : Dialect where
  name := "mysql"
  identifierQuote := '\u0060'
  insertKeywords := [.SET]
  limitStyle := .commaSeparated
  afterGroupBy := [.WITH, .ROLLUP]

/-- A name between the quotes of the dialect. -/
def quoteIdentifier (dialect : Dialect) (name : String) : String :=
  String.singleton dialect.identifierQuote ++ name ++ String.singleton dialect.identifierQuote

end Dialect

end SqlRouting
