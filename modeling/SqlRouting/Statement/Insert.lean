import SqlRouting.Statement.Context

/-!
# Insertions

An insertion has a table, the columns it gives values to, and the rows. The columns come from the
statement, or from what is known about the table.

## Main definitions

* `SqlRouting.InsertRow` — a row of an insertion.
* `SqlRouting.InsertStatement` — an insertion.
-/

set_option autoImplicit false

namespace SqlRouting

open Text

/-- A row of an insertion. -/
structure InsertRow where
  /-- How the row gives its values. -/
  form : InsertForm
  /-- The indices of the bound parameters in the row. -/
  placeholders : List Nat
  /-- Where the row was read. -/
  span : Span
deriving DecidableEq, Repr

/-- The row that contains the placeholders from index `first` up to and without `next`. -/
def InsertRow.ofRange (form : InsertForm) (first next : Nat) (span : Span) : InsertRow :=
  ⟨form, List.range' first (next - first), span⟩

/-- An insertion. -/
structure InsertStatement where
  /-- What the statement collects. -/
  context : Context := {}
  /-- The columns that values are given to. -/
  columns : List Column := []
  /-- The rows. -/
  rows : List InsertRow := []
  /-- The column for a generated key, if the statement leaves it out. -/
  generatedKey : Option String := none
deriving DecidableEq, Repr

namespace InsertStatement

/-- The name of the table that rows are inserted into. -/
def tableName? (statement : InsertStatement) : Option String :=
  statement.context.tables.firstName?

/-- Whether values are given to a column of this name. -/
def containsColumn (statement : InsertStatement) (name : String) : Bool :=
  containsName (statement.columns.map Column.name) name

/-- The same insertion, with the form of the inserted values replaced in its edits. -/
def setForm (statement : InsertStatement) (form : InsertForm) : InsertStatement :=
  { statement with context := statement.context.setInsertForm form }

end InsertStatement

end SqlRouting
