import SqlRouting.ParseError
import SqlRouting.Rule.Metadata
import SqlRouting.Statement.Select

/-!
# Derived columns

The results of several shards can be merged only if each has the columns that merging needs. An
average is computed anew from a count and a sum, and a column to order or group by has to be
selected. What is missing is added to the select list under a name of its own, by one edit at the
end of the list. A grouped result is merged in order, so a grouping without an ordering is also
made the ordering, by an edit after the grouping.

Whatever is added is recorded in the select list as well, so a column is derived only once.

## Main definitions

* `SqlRouting.SelectLevel.covers` — whether the select list has the column of an item.
* `SqlRouting.SelectLevel.deriveColumns` — adds the columns that merging needs.
* `SqlRouting.SelectLevel.deriveOrdering` — makes a grouping the ordering as well.
* `SqlRouting.SelectStatement.prepare` — a query with everything that merging needs.
-/

set_option autoImplicit false

namespace SqlRouting

open Text

/-! ## Averages -/

namespace Aggregate

/-- The count and the sum that the `n`-th average of a select list is computed from. -/
def averageHelpers (average : Aggregate) (n : Nat) : List Aggregate :=
  [⟨.count, average.inner, some (DerivedColumn.avgCount.aliasAt n), []⟩,
   ⟨.sum, average.inner, some (DerivedColumn.avgSum.aliasAt n), []⟩]

/-- The text that adds an aggregate call to a select list. -/
def fragment (call : Aggregate) : String :=
  call.expression ++ " AS " ++ call.aliasName.getD "" ++ " "

end Aggregate

/-- Some items of a select list, with the texts that add new columns to it. -/
structure DerivedItems where
  /-- The items. -/
  items : List SelectItem := []
  /-- The texts of the new columns. -/
  fragments : List String := []
deriving DecidableEq, Repr

/-- Gives a count and a sum to each average of a select list that has none, where `n` averages come
before the list. -/
def deriveAverages (n : Nat) : List SelectItem → DerivedItems
  | [] => {}
  | .aggregate call :: items =>
    if call.function == .avg then
      let rest := deriveAverages (n + 1) items
      if call.helpers.isEmpty then
        let helpers := call.averageHelpers n
        ⟨.aggregate { call with helpers } :: rest.items,
          helpers.map Aggregate.fragment ++ rest.fragments⟩
      else ⟨.aggregate call :: rest.items, rest.fragments⟩
    else
      let rest := deriveAverages n items
      ⟨.aggregate call :: rest.items, rest.fragments⟩
  | item :: items =>
    let rest := deriveAverages n items
    ⟨item :: rest.items, rest.fragments⟩

/-! ## Columns to order and group by -/

/-- Whether an item of a select list selects the column of an item to order or group by: under its
label, under its alias, or by its own text without an alias. -/
def SelectItem.selects (orderItem : OrderItem) (item : SelectItem) : Bool :=
  orderItem.label?.any item.hasLabel ||
    item.aliasName.any (fun aliasName => orderItem.aliasName.any (sameName aliasName)) ||
    (item.aliasName.isNone && orderItem.qualifiedName?.any (sameName item.expression))

namespace SelectLevel

/-- Whether the star of the table that `owner` denotes is known to have the column `name`. -/
def starCovers (level : SelectLevel) (metadata : TableMetadata) (name owner : String) : Bool :=
  (level.findTable? owner).any fun table => metadata.containsColumn table.name name

/-- Whether a star with an owner has the column of an item. An item without an owner must have a
name to be looked up in the tables of the stars. -/
def coveredByStar (level : SelectLevel) (metadata : TableMetadata) (item : OrderItem) :
    Except ParseError Bool :=
  match item.owner with
  | some owner => .ok (level.findStar? owner).isSome
  | none =>
    let owners := level.shape.starOwners
    match item.name with
    | some name => .ok (owners.any (level.starCovers metadata name))
    | none => if owners.isEmpty then .ok false else .error (.missingOrderItemName item.span)

/-- Whether the select list has the column of an item. -/
def covers (level : SelectLevel) (metadata : TableMetadata) (item : OrderItem) :
    Except ParseError Bool :=
  if item.isIndex || level.shape.hasBareStar then .ok true
  else
    match level.coveredByStar metadata item with
    | .ok starred => .ok (starred || level.shape.items.any (·.selects item))
    | .error error => .error error

/-- The same level with one more item in its select list. -/
def pushItem (level : SelectLevel) (item : SelectItem) : SelectLevel :=
  { level with shape := { level.shape with items := level.shape.items ++ [item] } }

end SelectLevel

/-- The outcome of deriving columns for some items to order or group by. -/
structure DerivedOrder where
  /-- The level with the columns in its select list. -/
  level : SelectLevel
  /-- The items, which have the names of their columns as aliases. -/
  items : List OrderItem
  /-- The texts of the new columns. -/
  fragments : List String
  /-- The error at the first item that no column can be derived for. -/
  failure : Option ParseError
deriving DecidableEq, Repr

/-- Derives columns for items that are not selected, after `n` columns of the same kind. Each new
column counts for the items after it. -/
def deriveOrder (metadata : TableMetadata) (kind : DerivedColumn) :
    Nat → SelectLevel → List OrderItem → DerivedOrder
  | _, level, [] => ⟨level, [], [], none⟩
  | n, level, item :: items =>
    match level.covers metadata item, item.qualifiedName? with
    | .error error, _ => ⟨level, item :: items, [], some error⟩
    | .ok true, _ =>
      let rest := deriveOrder metadata kind n level items
      { rest with items := item :: rest.items }
    | .ok false, none => ⟨level, item :: items, [], some (.missingOrderItemName item.span)⟩
    | .ok false, some name =>
      let aliasName := kind.aliasAt n
      let extended := level.pushItem (.ofDerived name aliasName)
      let rest := deriveOrder metadata kind (n + 1) extended items
      { rest with
        items := { item with aliasName := some aliasName } :: rest.items
        fragments := (name ++ " AS " ++ aliasName ++ " ") :: rest.fragments }

/-! ## Levels -/

/-- The outcome of deriving the columns of a level. -/
structure Derivation where
  /-- The level, which is left half done where an error arises. -/
  level : SelectLevel
  /-- The error, if one arises. -/
  failure : Option ParseError := none
deriving DecidableEq, Repr

namespace SelectLevel

/-- The same level with the items to order by replaced. -/
def withOrderBy (level : SelectLevel) (items : List OrderItem) : SelectLevel :=
  { level with shape := { level.shape with orderBy := items } }

/-- The same level with the items to group by replaced. -/
def withGroupBy (level : SelectLevel) (items : List OrderItem) : SelectLevel :=
  { level with shape := { level.shape with groupBy := items } }

/-- The same level with an edit that adds `fragments` to its select list, if there are any. -/
def addFragments (level : SelectLevel) (fragments : List String) : SelectLevel :=
  if fragments.isEmpty then level
  else
    { level with
      context := level.context.addEdit (.items level.shape.selectListStop fragments) }

/-- The same level with a count and a sum for each average, and the texts of the new columns. -/
def withAverages (level : SelectLevel) : SelectLevel × List String :=
  let averages := deriveAverages 0 level.shape.items
  ({ level with shape := { level.shape with items := averages.items } }, averages.fragments)

/-- Adds the columns that merging needs: counts and sums for averages, then the columns to order
by, then those to group by. -/
def deriveColumns (level : SelectLevel) (metadata : TableMetadata) : Derivation :=
  let (level, averages) := level.withAverages
  let ordered := deriveOrder metadata .orderBy 0 level level.shape.orderBy
  let level := ordered.level.withOrderBy ordered.items
  match ordered.failure with
  | some error => ⟨level, some error⟩
  | none =>
    let grouped := deriveOrder metadata .groupBy 0 level level.shape.groupBy
    let level := grouped.level.withGroupBy grouped.items
    match grouped.failure with
    | some error => ⟨level, some error⟩
    | none => ⟨level.addFragments (averages ++ ordered.fragments ++ grouped.fragments), none⟩

/-- Makes a grouping without an ordering the ordering as well. -/
def deriveOrdering (level : SelectLevel) : SelectLevel :=
  if level.shape.groupBy.isEmpty || !level.shape.orderBy.isEmpty then level
  else
    let ordered := level.withOrderBy level.shape.groupBy
    match level.shape.groupByStop with
    | some stop =>
      { ordered with
        context := ordered.context.addEdit
          (.orderBy stop (level.shape.groupBy.map OrderItem.orderByText)) }
    | none => ordered

end SelectLevel

/-! ## Queries -/

/-- A query with everything that merging the results of shards needs. -/
def SelectStatement.prepare (statement : SelectStatement) (metadata : TableMetadata) :
    Except ParseError SelectStatement :=
  let derived := statement.toSelectLevel.deriveColumns metadata
  match derived.failure with
  | some error => .error error
  | none => .ok { statement with toSelectLevel := derived.level.deriveOrdering }

end SqlRouting
