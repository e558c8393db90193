import SqlRouting.Span

/-!
# Expressions

Routing looks at an expression only to find columns and literal values. Everything else, such as a
call, arithmetic or a query in parentheses, is kept as its source text.

## Main definitions

* `SqlRouting.ExpressionNode` — the shapes of expressions.
* `SqlRouting.Expression` — a shape with the span it was read from.
-/

set_option autoImplicit false

namespace SqlRouting

/-- The shape of an expression. -/
inductive ExpressionNode
  /-- A reference to a column through its table or the alias of its table. -/
  | qualified (owner name : String)
  /-- A reference to a column by its name alone. -/
  | bare (name : String)
  /-- A number as written, with a minus sign if one stands before it. -/
  | number (literal : String)
  /-- A string literal, by its value. -/
  | text (value : String)
  /-- A placeholder, by its index among the bound parameters. -/
  | placeholder (index : Nat)
  /-- Anything else, as source text. -/
  | other (source : String)
deriving DecidableEq, Repr

namespace ExpressionNode

/-- A shape as messages write it. -/
def render : ExpressionNode → String
  | .qualified owner column => owner ++ "." ++ column
  | .bare name => name
  | .number literal => literal
  | .text value => "'" ++ value ++ "'"
  | .placeholder _ => "?"
  | .other source => source

/-- Whether a list of arguments may follow a shape. -/
def isCallable : ExpressionNode → Bool
  | .qualified _ _ => true
  | .bare _ => true
  | .other _ => true
  | _ => false

end ExpressionNode

/-- An expression with the part of the statement it was read from. -/
structure Expression where
  /-- The shape. -/
  node : ExpressionNode
  /-- The part of the statement. -/
  span : Span
deriving DecidableEq, Repr

end SqlRouting
