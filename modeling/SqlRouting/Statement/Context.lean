import SqlRouting.Statement.Condition
import SqlRouting.Statement.Edit
import SqlRouting.Statement.Table

/-!
# What every statement collects

While a statement is read, whatever its kind, it collects its tables, the conditions its route
depends on, the edits of its text and the number of its placeholders.

## Main definitions

* `SqlRouting.Context` — what is collected while a statement is read.
-/

set_option autoImplicit false

namespace SqlRouting

/-- What is collected while a statement is read. -/
structure Context where
  /-- The tables. -/
  tables : Tables := {}
  /-- The conditions that the route depends on. -/
  conditions : List RouteCondition := []
  /-- The edits of the text. -/
  edits : List Edit := []
  /-- The number of placeholders passed so far. -/
  parameters : Nat := 0
deriving DecidableEq, Repr

namespace Context

/-- Records an edit. -/
def addEdit (context : Context) (edit : Edit) : Context :=
  { context with edits := context.edits ++ [edit] }

/-- Drops the edits whose kind is in `kinds`. -/
def removeEdits (context : Context) (kinds : List EditKind) : Context :=
  { context with edits := context.edits.filter fun edit => !kinds.contains edit.kind }

/-- Gives the inserted values of every edit that marks some the form `form`. -/
def setInsertForm (context : Context) (form : InsertForm) : Context :=
  { context with edits := context.edits.map (·.withInsertForm form) }

/-- Records conditions. -/
def addConditions (context : Context) (conditions : List RouteCondition) : Context :=
  { context with conditions := context.conditions ++ conditions }

/-- Records a table. -/
def addTable (context : Context) (table : Table) : Context :=
  { context with tables := context.tables.add table }

/-- Counts `count` placeholders that were passed. -/
def passParameters (context : Context) (count : Nat) : Context :=
  { context with parameters := context.parameters + count }

end Context

end SqlRouting
