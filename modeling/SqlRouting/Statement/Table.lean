import SqlRouting.Text.Basic

/-!
# Tables of a statement

A statement collects the tables it names. A table is recorded once, under the first alias it is
given, and is found again by its alias or its name, ignoring ASCII case.

## Main definitions

* `SqlRouting.Table` — a table with its alias.
* `SqlRouting.Tables` — the tables of a statement, in order of appearance.
* `SqlRouting.Tables.find?` — the table that a name or an alias denotes.
-/

set_option autoImplicit false

namespace SqlRouting

open Text

/-- A table of a statement. -/
structure Table where
  /-- The name, without a schema. -/
  name : String
  /-- The alias, if one is given. -/
  aliasName : Option String
deriving DecidableEq, Repr

/-- The tables of a statement, in order of appearance. -/
structure Tables where
  /-- The tables as a list. -/
  toList : List Table := []
deriving DecidableEq, Repr

namespace Tables

/-- Whether a table of this name is recorded. -/
def contains (tables : Tables) (name : String) : Bool :=
  tables.toList.any (sameName ·.name name)

/-- Records a table, unless one of its name is already recorded. -/
def add (tables : Tables) (table : Table) : Tables :=
  if tables.contains table.name then tables else ⟨tables.toList ++ [table]⟩

/-- Records the tables of another collection in their order. -/
def extend (tables other : Tables) : Tables :=
  other.toList.foldl add tables

/-- The collection of some tables, added in their order. -/
def ofList (tables : List Table) : Tables :=
  tables.foldl add ⟨[]⟩

/-- Whether there is no table. -/
def isEmpty (tables : Tables) : Bool :=
  tables.toList.isEmpty

/-- Whether there is exactly one table. -/
def isSingle (tables : Tables) : Bool :=
  tables.toList.length == 1

/-- The name of the first table. -/
def firstName? (tables : Tables) : Option String :=
  tables.toList.head?.map Table.name

/-- The table that `key` denotes: the first one of this alias, or else the one of this name. -/
def find? (tables : Tables) (key : String) : Option Table :=
  (tables.toList.find? (·.aliasName.any (sameName · key))).or
    (tables.toList.find? (sameName ·.name key))

end Tables

end SqlRouting
