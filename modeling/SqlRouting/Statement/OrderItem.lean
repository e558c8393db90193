import SqlRouting.Span

/-!
# Items to order or group by

An item names a column, or gives the position of a column in the select list.

## Main definitions

* `SqlRouting.OrderItem` — an item to order or group by.
* `SqlRouting.OrderItem.qualifiedName?` — the reference to the column of an item.
* `SqlRouting.OrderItem.label?` — the name of the column of an item in the result.
-/

set_option autoImplicit false

namespace SqlRouting

/-- The direction of an ordering. -/
inductive OrderDirection
  | ascending | descending
deriving DecidableEq, Repr

/-- The keyword of a direction. -/
def OrderDirection.word : OrderDirection → String
  | .ascending => "ASC"
  | .descending => "DESC"

/-- An item to order or group by. -/
structure OrderItem where
  /-- The table of the column, by name or alias. -/
  owner : Option String := none
  /-- The name of the column, or the text of an expression. -/
  name : Option String := none
  /-- The direction. -/
  direction : OrderDirection := .ascending
  /-- The position in the select list, counted from one. -/
  index : Option Nat := none
  /-- The alias of the item of the select list that the item stands for. -/
  aliasName : Option String := none
  /-- Where the item was read. -/
  span : Span := Span.origin
deriving DecidableEq, Repr

namespace OrderItem

/-- Whether an item is given by a position. -/
def isIndex (item : OrderItem) : Bool :=
  item.index.isSome

/-- The name of the column of an item, with its owner if it has one. -/
def qualifiedName? (item : OrderItem) : Option String :=
  item.name.map fun name =>
    match item.owner with
    | some owner => owner ++ "." ++ name
    | none => name

/-- The name under which the result has the column of an item. -/
def label? (item : OrderItem) : Option String :=
  item.aliasName.or item.name

/-- An item as it is written in a clause that orders a result. -/
def orderByText (item : OrderItem) : String :=
  ((item.qualifiedName?.or (item.index.map toString)).getD "") ++ " " ++ item.direction.word

end OrderItem

end SqlRouting
