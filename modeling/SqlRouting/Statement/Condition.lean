import SqlRouting.Statement.Expression

/-!
# Route conditions

A route condition says that a sharding column takes one of some known values, or lies between two
of them. The shards that a statement concerns are chosen from its conditions.

## Main definitions

* `SqlRouting.Column` — a column of a table.
* `SqlRouting.RoutingValue` — a literal or a bound parameter.
* `SqlRouting.RouteCondition` — a column with the values it is compared with.
-/

set_option autoImplicit false

namespace SqlRouting

/-- A column of a table. -/
structure Column where
  /-- The name of the column. -/
  name : String
  /-- The name of the table, never an alias. -/
  tableName : String
deriving DecidableEq, Repr

/-- A value that a route can be computed from. -/
inductive RoutingValue
  /-- A number, as written. -/
  | number (literal : String)
  /-- A string. -/
  | text (value : String)
  /-- A bound parameter, by its index. -/
  | placeholder (index : Nat)
deriving DecidableEq, Repr

/-- The value that an expression stands for; `none` where it is not a plain value, which leaves
the route undetermined. -/
def RoutingValue.ofNode? : ExpressionNode → Option RoutingValue
  | .number literal => some (.number literal)
  | .text value => some (.text value)
  | .placeholder index => some (.placeholder index)
  | _ => none

/-- How the values of a condition restrict its column. -/
inductive ConditionOperator
  /-- The column equals the value. -/
  | equal
  /-- The column equals one of the values. -/
  | within
  /-- The column lies between the two values. -/
  | between
deriving DecidableEq, Repr

/-- A restriction of a sharding column. -/
structure RouteCondition where
  /-- The sharding column. -/
  column : Column
  /-- How the values restrict the column. -/
  operator : ConditionOperator
  /-- The values, in the order of the statement. -/
  values : List RoutingValue
deriving DecidableEq, Repr

namespace RouteCondition

/-- The condition that `column` equals `value`. -/
def equal (column : Column) (value : RoutingValue) : RouteCondition :=
  ⟨column, .equal, [value]⟩

/-- The condition that `column` equals one of `values`. -/
def within (column : Column) (values : List RoutingValue) : RouteCondition :=
  ⟨column, .within, values⟩

/-- The condition that `column` lies between `low` and `high`. -/
def between (column : Column) (low high : RoutingValue) : RouteCondition :=
  ⟨column, .between, [low, high]⟩

/-- The first value of a condition; for an equality it is the only one. -/
def value? (condition : RouteCondition) : Option RoutingValue :=
  condition.values.head?

end RouteCondition

end SqlRouting
