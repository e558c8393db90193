import SqlRouting.Grammar.Expression
import SqlRouting.Statement.Select

/-!
# Reading orderings and groupings

Both clauses list items. An item is the position of a column or an expression, and an expression
takes the alias under which the select list, as far as it is known, has it.

## Main definitions

* `SqlRouting.Grammar.orderItem` — reads an item to order or group by.
* `SqlRouting.Grammar.ordering` — reads the ordering of a query.
* `SqlRouting.Grammar.grouping` — reads the grouping of a query.
-/

set_option autoImplicit false

namespace SqlRouting.Grammar

open SqlRouting.Parser

/-- Reads a direction, which need not be written. -/
def direction : Parser OrderDirection := do
  if ← skipKeyword [.DESC] then return .descending
  else
    let _ ← skipKeyword [.ASC]
    return .ascending

/-- The item that an expression gives; its alias is looked up in the select list. -/
def itemOf (shape : ResultShape) (direction : OrderDirection) (span : Span) :
    ExpressionNode → Except ParseError OrderItem
  | .number literal =>
    match Text.decimal64? literal with
    | some index => .ok { direction, index := some index, span }
    | none => .error (.ofToken .columnPosition (.number literal) span)
  | .bare name => .ok { name := some name, direction, aliasName := shape.aliasOf? name, span }
  | .qualified owner name =>
    .ok { owner := some owner
          name := some name
          direction
          aliasName := shape.aliasOf? (owner ++ "." ++ name)
          span }
  | .other source =>
    .ok { name := some (Text.unquoted source)
          direction
          aliasName := shape.aliasOf? source
          span }
  | node => .error (.unsupported (.orderingByLiteral node.render) span)

/-- Reads an item to order or group by. -/
def orderItem (rules : ShardingRule) (shape : ResultShape) : Parser OrderItem := do
  let expression ← expression rules
  let direction ← direction
  itemOf shape direction expression.span expression.node

/-- Reads the ordering of a query, if there is one. -/
def ordering (rules : ShardingRule) (shape : ResultShape) : Parser ResultShape := do
  if ← skipKeyword [.ORDER] then
    let _ ← acceptKeyword .BY
    let items ← commaSeparated (orderItem rules shape)
    return { shape with orderBy := shape.orderBy ++ items }
  else return shape

/-- Reads the grouping of a query, if there is one, with the words that may follow it. -/
def grouping (dialect : Dialect) (rules : ShardingRule) (shape : ResultShape) :
    Parser ResultShape := do
  if ← skipKeyword [.GROUP] then
    let _ ← acceptKeyword .BY
    let items ← commaSeparated (orderItem rules shape)
    skipAllKeywords dialect.afterGroupBy
    return { shape with
      groupBy := shape.groupBy ++ items
      groupByStop := some (← previousEnd) }
  else return shape

end SqlRouting.Grammar
