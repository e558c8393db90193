import SqlRouting.Text.Basic

/-!
# Known columns of tables

Some tables are known with all their columns. Names of tables and columns are compared ignoring
ASCII case.

## Main definitions

* `SqlRouting.TableMetadata` — the columns of the known tables.
-/

set_option autoImplicit false

namespace SqlRouting

open Text

/-- The columns of the known tables. -/
structure TableMetadata where
  /-- The name of each known table with its columns in order of declaration. -/
  toList : List (String × List String) := []
deriving DecidableEq, Repr

namespace TableMetadata

/-- Makes the columns of a table known, in place of what was known before. -/
def insert (metadata : TableMetadata) (table : String) (columns : List String) : TableMetadata :=
  ⟨(table, columns) :: metadata.toList.filter fun entry => !sameName entry.1 table⟩

/-- The columns of a table, if they are known. -/
def columns? (metadata : TableMetadata) (table : String) : Option (List String) :=
  (metadata.toList.find? (sameName ·.1 table)).map (·.2)

/-- Whether the columns of a table are known. -/
def containsTable (metadata : TableMetadata) (table : String) : Bool :=
  (metadata.columns? table).isSome

/-- Whether a table is known to have a column. -/
def containsColumn (metadata : TableMetadata) (table column : String) : Bool :=
  (metadata.columns? table).any (containsName · column)

end TableMetadata

end SqlRouting
