import SqlRouting.Text.Basic

/-!
# Items of a select list

A select list has stars, aggregate calls and other expressions; the plain columns of a list
without repetitions are folded into one item. Some items do not come from the statement: they are
derived, because the results of several shards cannot be merged without them.

## Main definitions

* `SqlRouting.Aggregate` — an aggregate call, with the helper calls derived from it.
* `SqlRouting.SelectItem` — an entry of a select list.
* `SqlRouting.DerivedColumn` — the kinds of derived columns, with the names they are given.
-/

set_option autoImplicit false

namespace SqlRouting

open Text

/-! ## Aggregate calls -/

/-- An aggregate function. -/
inductive AggregateFunction
  | count | sum | avg | min | max
deriving DecidableEq, Repr

/-- The name of an aggregate function. -/
def AggregateFunction.name : AggregateFunction → String
  | .count => "COUNT"
  | .sum => "SUM"
  | .avg => "AVG"
  | .min => "MIN"
  | .max => "MAX"

/-- An aggregate call in a select list. -/
structure Aggregate where
  /-- The function. -/
  function : AggregateFunction
  /-- The argument with its parentheses, without quotation marks. -/
  inner : String
  /-- The alias, given or derived. -/
  aliasName : Option String
  /-- The calls that the result is computed from when shards are merged. -/
  helpers : List Aggregate
deriving Repr

namespace Aggregate

mutual

/-- Decides whether two aggregate calls are equal. -/
def decideEq : (a b : Aggregate) → Decidable (a = b)
  | ⟨f, i, n, h⟩, ⟨f', i', n', h'⟩ =>
    match decideEqAll h h' with
    | isTrue same =>
      if rest : f = f' ∧ i = i' ∧ n = n' then
        isTrue (by obtain ⟨rfl, rfl, rfl⟩ := rest; rw [same])
      else isFalse (by intro equal; cases equal; exact rest ⟨rfl, rfl, rfl⟩)
    | isFalse differ => isFalse (by intro equal; cases equal; exact differ rfl)

/-- Decides whether two lists of aggregate calls are equal. -/
def decideEqAll : (as bs : List Aggregate) → Decidable (as = bs)
  | [], [] => isTrue rfl
  | [], _ :: _ => isFalse (by simp)
  | _ :: _, [] => isFalse (by simp)
  | a :: as, b :: bs =>
    match decideEq a b, decideEqAll as bs with
    | isTrue one, isTrue all => isTrue (by rw [one, all])
    | isFalse differ, _ => isFalse (by intro equal; cases equal; exact differ rfl)
    | _, isFalse differ => isFalse (by intro equal; cases equal; exact differ rfl)

end

instance : DecidableEq Aggregate := decideEq

/-- The text of the call. -/
def expression (aggregate : Aggregate) : String :=
  aggregate.function.name ++ aggregate.inner

end Aggregate

/-! ## Items -/

/-- An entry of a select list. -/
inductive SelectItem
  /-- All columns, of the table that `owner` denotes or of every table. -/
  | star (owner : Option String)
  /-- An aggregate call. -/
  | aggregate (call : Aggregate)
  /-- The plain columns of a list without repetitions, by their labels. -/
  | distinct (labels : List String)
  /-- Any other expression, without quotation marks; `derived` if it was added to the list. -/
  | plain (expression : String) (aliasName : Option String) (derived : Bool)
deriving DecidableEq, Repr

namespace SelectItem

/-- The item that adds `expression` to a select list under the name `aliasName`. -/
def ofDerived (expression aliasName : String) : SelectItem :=
  .plain expression (some aliasName) true

/-- The text of an item. -/
def expression : SelectItem → String
  | .star (some owner) => owner ++ ".*"
  | .star none => "*"
  | .aggregate call => call.expression
  | .distinct labels => "DISTINCT " ++ String.intercalate ", " labels
  | .plain expression _ _ => expression

/-- The alias of an item. -/
def aliasName : SelectItem → Option String
  | .aggregate call => call.aliasName
  | .plain _ aliasName _ => aliasName
  | _ => none

/-- Whether an item was added to the list. -/
def isDerived : SelectItem → Bool
  | .plain _ _ derived => derived
  | _ => false

/-- Whether an item stands for all columns of every table. -/
def isBareStar : SelectItem → Bool
  | .star none => true
  | _ => false

/-- The owner of an item that stands for all columns of one table. -/
def starOwner? : SelectItem → Option String
  | .star owner => owner
  | _ => none

/-- Whether one of the folded columns of an item has this label. -/
def hasLabel (label : String) : SelectItem → Bool
  | .distinct labels => containsName labels label
  | _ => false

end SelectItem

/-! ## Derived columns -/

/-- The kinds of columns that are added to a select list. -/
inductive DerivedColumn
  /-- The number of values behind an average. -/
  | avgCount
  /-- The sum of the values behind an average. -/
  | avgSum
  /-- A column that the result is ordered by. -/
  | orderBy
  /-- A column that the result is grouped by. -/
  | groupBy
deriving DecidableEq, Repr

namespace DerivedColumn

/-- What the names of this kind of column start with. -/
def stem : DerivedColumn → String
  | .avgCount => "AVG_COUNT_"
  | .avgSum => "AVG_SUM_"
  | .orderBy => "ORDER_BY_DERIVED_"
  | .groupBy => "GROUP_BY_DERIVED_"

/-- The name of the `n`-th column of this kind. -/
def aliasAt (kind : DerivedColumn) (n : Nat) : String :=
  kind.stem ++ toString n

end DerivedColumn

end SqlRouting
