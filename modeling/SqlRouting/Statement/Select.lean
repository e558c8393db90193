import SqlRouting.Statement.Context
import SqlRouting.Statement.OrderItem
import SqlRouting.Statement.SelectItem

/-!
# Queries

A query is read level by level: below the level that the statement starts with there may be a
derived table, which is a query of its own. Each level collects its own context and gives its own
shape to the result. Merging the levels makes one query of them: the tables are those of the
innermost level, and the shape is that of the outermost level whose select list names its columns
without a star.

## Main definitions

* `SqlRouting.Limit` — a limit on the rows of a result.
* `SqlRouting.ResultShape` — the select list, grouping, ordering and limit of a level.
* `SqlRouting.ResultShape.aliasOf?` — the alias under which an expression is selected.
* `SqlRouting.SelectLevel` — a level of a query.
* `SqlRouting.SelectStatement` — a query with all its levels.
* `SqlRouting.SelectStatement.merge` — the query as a single level.
-/

set_option autoImplicit false

namespace SqlRouting

open Text

/-! ## Limits -/

/-- An operand of a limit. -/
inductive LimitValue
  /-- A number. -/
  | literal (value : Nat)
  /-- A bound parameter, by its index. -/
  | placeholder (index : Nat)
deriving DecidableEq, Repr

/-- A limit on the rows of a result. -/
structure Limit where
  /-- The number of rows to skip. -/
  offset : Option LimitValue := none
  /-- The number of rows to return. -/
  rowCount : Option LimitValue := none
  /-- Where the clause was read. -/
  span : Span := Span.origin
deriving DecidableEq, Repr

/-! ## The shape of a result -/

/-- The clauses of a level that give the result its shape. -/
structure ResultShape where
  /-- The select list. -/
  items : List SelectItem := []
  /-- Whether the select list has a star, with or without an owner. -/
  containsStar : Bool := false
  /-- Where the token after the select list starts. -/
  selectListStop : Nat := 0
  /-- Where the grouping ends, if there is one. -/
  groupByStop : Option Nat := none
  /-- The items to group by. -/
  groupBy : List OrderItem := []
  /-- The items to order by. -/
  orderBy : List OrderItem := []
  /-- The limit. -/
  limit : Option Limit := none
deriving DecidableEq, Repr

namespace ResultShape

/-- Whether the select list has all columns of every table. -/
def hasBareStar (shape : ResultShape) : Bool :=
  shape.items.any (·.isBareStar)

/-- The owners of the stars that stand for the columns of one table. -/
def starOwners (shape : ResultShape) : List String :=
  shape.items.filterMap (·.starOwner?)

/-- The alias that the first matching item of `items` gives to an expression, which reads `raw`
without quotes and `wanted` also without blanks. An item matches by its own text, and then has its
own alias, or by its alias, which is then written as `raw`. -/
def findAlias? (raw wanted : String) : List SelectItem → Option String
  | [] => none
  | item :: items =>
    if sameName wanted (withoutBlanks (unquoted item.expression)) then item.aliasName
    else if item.aliasName.any (sameName raw) then some raw
    else findAlias? raw wanted items

/-- The alias under which an expression is selected. Where the select list has a star, nothing is
known. -/
def aliasOf? (shape : ResultShape) (expression : String) : Option String :=
  if shape.containsStar then none
  else
    let raw := unquoted expression
    findAlias? raw (withoutBlanks raw) shape.items

end ResultShape

/-! ## Levels -/

/-- A level of a query. -/
structure SelectLevel where
  /-- What the level collects. -/
  context : Context := {}
  /-- The shape of the result. -/
  shape : ResultShape := {}
deriving DecidableEq, Repr

namespace SelectLevel

/-- The table that a name or an alias denotes at this level. -/
def findTable? (level : SelectLevel) (key : String) : Option Table :=
  level.context.tables.find? key

/-- The first star of the select list whose owner denotes the same table as `key`. -/
def findStar? (level : SelectLevel) (key : String) : Option SelectItem :=
  match level.findTable? key with
  | none => none
  | some table =>
    level.shape.items.find? fun item =>
      item.starOwner?.any fun owner => level.findTable? owner == some table

/-- One level in place of `outer` and the derived table `inner` below it. -/
def mergeInto (outer inner : SelectLevel) : SelectLevel where
  context :=
    { tables := inner.context.tables
      conditions := outer.context.conditions ++ inner.context.conditions
      edits := outer.context.edits ++ inner.context.edits
      parameters := outer.context.parameters }
  shape := if outer.shape.containsStar then inner.shape else outer.shape

/-- One level in place of `outer` and the levels below it, which are given from the outside in. -/
def mergeAll (outer : SelectLevel) : List SelectLevel → SelectLevel
  | [] => outer
  | inner :: below => outer.mergeInto (inner.mergeAll below)

end SelectLevel

/-! ## Statements -/

/-- A query. -/
structure SelectStatement extends SelectLevel where
  /-- The levels of the derived tables, from the outside in. -/
  derivedTables : List SelectLevel := []
deriving DecidableEq, Repr

namespace SelectStatement

/-- Whether a query has a derived table. -/
def hasDerivedTable (statement : SelectStatement) : Bool :=
  !statement.derivedTables.isEmpty

/-- The query as a single level. -/
def merge (statement : SelectStatement) : SelectStatement :=
  { toSelectLevel := statement.toSelectLevel.mergeAll statement.derivedTables }

end SelectStatement

end SqlRouting
