import SqlRouting.Grammar.Expression

/-!
# Reading predicates

A condition is a list of predicates joined by `AND` and `OR`. A predicate that compares a sharding
column with plain values gives a route condition; any other is only stepped over. An `OR` between
predicates leaves the route open, so the conditions of such a list are of no use.

## Main definitions

* `SqlRouting.Grammar.shardingColumn?` — the sharding column that an expression denotes.
* `SqlRouting.Grammar.predicate` — reads a predicate and gives its route conditions.
* `SqlRouting.Grammar.Predicates` — the outcome of reading a list of predicates.
* `SqlRouting.Grammar.predicates` — reads a list of predicates.
* `SqlRouting.Grammar.condition` — reads the condition of a query.
-/

set_option autoImplicit false

namespace SqlRouting.Grammar

open SqlRouting.Parser

/-! ## Columns and values -/

/-- The column of a known table that an expression denotes. A name alone denotes one only while
there is a single table. -/
def column? (tables : Tables) : ExpressionNode → Option Column
  | .qualified owner name => (tables.find? owner).map fun table => ⟨name, table.name⟩
  | .bare name => if tables.isSingle then tables.firstName?.map (⟨name, ·⟩) else none
  | _ => none

/-- The sharding column that an expression denotes. -/
def shardingColumn? (rules : ShardingRule) (tables : Tables) (node : ExpressionNode) :
    Option Column :=
  (column? tables node).filter fun column =>
    rules.isShardingColumn column.name column.tableName

/-- The condition that a column equals a value, if both are known. -/
def equalCondition? (column : Option Column) (value : ExpressionNode) : Option RouteCondition :=
  match column, RoutingValue.ofNode? value with
  | some column, some value => some (.equal column value)
  | _, _ => none

/-- The condition that a column equals one of some values, if all are known. -/
def withinCondition? (column : Option Column) (values : List ExpressionNode) :
    Option RouteCondition :=
  match column, values.mapM RoutingValue.ofNode? with
  | some column, some values => some (.within column values)
  | _, _ => none

/-- The condition that a column lies between two values, if all are known. -/
def betweenCondition? (column : Option Column) (low high : ExpressionNode) :
    Option RouteCondition :=
  match column, RoutingValue.ofNode? low, RoutingValue.ofNode? high with
  | some column, some low, some high => some (.between column low high)
  | _, _, _ => none

/-! ## Predicates -/

section Predicates

variable (rules : ShardingRule)

/-- The values after `IN`, if they are not those of a query. -/
def valueList : Parser (Option (List ExpressionNode)) := do
  if (← peek) == .keyword .SELECT then
    skipParentheses
    return none
  else
    let _ ← acceptSymbol .leftParen
    let values ← commaSeparated (expression rules)
    let _ ← acceptSymbol .rightParen
    return some (values.map Expression.node)

/-- The two values after `BETWEEN`. -/
def range : Parser (ExpressionNode × ExpressionNode) := do
  let low ← expression rules
  let _ ← acceptKeyword .AND
  let high ← expression rules
  return (low.node, high.node)

/-- The rest of a predicate after `NOT`. -/
def negated : Parser Unit := do
  match ← kind with
  | .keyword .IN =>
    let _ ← advance
    skipParentheses
  | .keyword .BETWEEN =>
    let _ ← advance
    let _ ← range rules
  | .keyword .LIKE =>
    let _ ← advance
    let _ ← expression rules
  | _ => unexpected .negatedPredicate

/-- The rest of a predicate after `IS`. -/
def truthTest : Parser Unit := do
  let _ ← skipKeyword [.NOT]
  if ← skipKeyword [.NULL, .TRUE, .FALSE] then return ()
  else unexpected (.keyword .NULL)

/-- The rest of a predicate after its left side, with the condition it sets on `column`. -/
def comparison (column : Option Column) : Parser (Option RouteCondition) := do
  match ← kind with
  | .symbol symbol =>
    if symbol == .eq then
      let _ ← advance
      let right ← expression rules
      return equalCondition? column right.node
    else if symbol.isComparison then
      let _ ← advance
      let _ ← expression rules
      return none
    else return none
  | .keyword .IN =>
    let _ ← advance
    match ← valueList rules with
    | some values => return withinCondition? column values
    | none => return none
  | .keyword .BETWEEN =>
    let _ ← advance
    let (low, high) ← range rules
    return betweenCondition? column low high
  | .keyword .NOT =>
    let _ ← advance
    negated rules
    return none
  | .keyword .LIKE =>
    let _ ← advance
    let _ ← expression rules
    return none
  | .keyword .IS =>
    let _ ← advance
    truthTest
    return none
  | _ => return none

/-- Reads a predicate and gives the condition it sets on a sharding column, if there is one. -/
def predicate : Parser (Option RouteCondition) := do
  let left ← expression rules
  let column := shardingColumn? rules (← context).tables left.node
  comparison rules column

end Predicates

/-! ## Lists of predicates -/

/-- The outcome of reading a list of predicates. -/
structure Predicates where
  /-- The conditions that the predicates set, in their order. -/
  conditions : List RouteCondition
  /-- Whether `OR` stands between two of the predicates. -/
  hasOr : Bool
deriving DecidableEq, Repr

namespace Predicates

/-- A list of predicates with one more in front, after which `OR` stands if `orAfter` holds. -/
def cons (condition : Option RouteCondition) (orAfter : Bool) (rest : Predicates) : Predicates :=
  ⟨condition.toList ++ rest.conditions, orAfter || rest.hasOr⟩

/-- The conditions that every row satisfies for which the list of predicates holds. -/
def routeConditions (predicates : Predicates) : List RouteCondition :=
  if predicates.hasOr then [] else predicates.conditions

end Predicates

/-- Reads a list of predicates with at most `n` words between them. -/
def predicatesUpTo (rules : ShardingRule) : Nat → Parser Predicates
  | 0 => do
    let condition ← predicate rules
    return ⟨condition.toList, false⟩
  | n + 1 => do
    let condition ← predicate rules
    if ← skipKeyword [.AND] then
      return .cons condition false (← predicatesUpTo rules n)
    else if ← skipKeyword [.OR] then
      return .cons condition true (← predicatesUpTo rules n)
    else return ⟨condition.toList, false⟩

/-- Reads a list of predicates. There are no more words between them than tokens. -/
def predicates (rules : ShardingRule) : Parser Predicates := do
  predicatesUpTo rules (← remaining)

/-- Reads the condition of a query, if there is one, and records its route conditions. -/
def condition (rules : ShardingRule) : Parser Unit := do
  if ← skipKeyword [.WHERE] then
    let read ← predicates rules
    modifyContext (·.addConditions read.routeConditions)
  else return ()

end SqlRouting.Grammar
