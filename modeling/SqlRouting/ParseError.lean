import SqlRouting.Token.Basic

/-!
# Parse errors

A statement is refused as a whole, with one cause and the span of the input that gave rise to it.
The causes are data; their wording is in the functions `text` and `message`.

## Main definitions

* `SqlRouting.Expectation` — what the grammar required at some place.
* `SqlRouting.Construct` — what the router refuses to handle.
* `SqlRouting.ParseError` — the causes of a refusal.
* `SqlRouting.ParseError.ofToken` — the error of meeting an unwanted token.
-/

set_option autoImplicit false

namespace SqlRouting

/-! ## What was expected -/

/-- What the grammar required at some place. -/
inductive Expectation
  | kind (kind : TokenKind)
  | keyword (keyword : Keyword)
  | identifier
  | aliasName
  | expression
  | columnName
  | columnPosition
  | negatedPredicate
  | limitValue
  | nonNegativeInteger
  /-- The values of an insertion, which the given words may introduce besides the usual one. -/
  | insertedValues (keywords : List Keyword)
  | statement
  /-- Anything else, in words. -/
  | described (text : String)
deriving DecidableEq, Repr

/-- An expectation as messages write it. -/
def Expectation.text : Expectation → String
  | .kind k => k.render
  | .keyword k => k.word
  | .identifier => "identifier"
  | .aliasName => "alias"
  | .expression => "expression"
  | .columnName => "column name"
  | .columnPosition => "column position"
  | .negatedPredicate => "IN, BETWEEN or LIKE"
  | .limitValue => "LIMIT value"
  | .nonNegativeInteger => "non-negative integer"
  | .insertedValues keywords =>
    String.intercalate " or " (Keyword.VALUES.word :: keywords.map Keyword.word)
  | .statement => "SELECT or INSERT"
  | .described text => text

/-! ## What is not supported -/

/-- What the router refuses to handle. -/
inductive Construct
  | keyword (keyword : Keyword)
  | derivedTableInJoin
  | insertOfQuery
  | updateOfShardingColumn (name : String)
  | orderingByLiteral (literal : String)
deriving DecidableEq, Repr

/-- A construct as messages write it. -/
def Construct.text : Construct → String
  | .keyword k => k.word
  | .derivedTableInJoin => "derived table in join"
  | .insertOfQuery => "INSERT ... SELECT"
  | .updateOfShardingColumn name => "update of sharding column " ++ name
  | .orderingByLiteral literal => "ordering by literal " ++ literal

/-! ## Errors -/

/-- Why a statement is refused. -/
inductive ParseError
  /-- A required token was absent. -/
  | unexpected (expected : Expectation) (found : TokenKind) (span : Span)
  /-- The router does not handle a construct. -/
  | unsupported (construct : Construct) (span : Span)
  /-- An expression stands where a column has to be named. -/
  | invalidColumn (found : String) (span : Span)
  /-- An item to order by has neither a name nor a position. -/
  | missingOrderItemName (span : Span)
  /-- The input could not be cut into tokens. -/
  | lexical (reason : String) (span : Span)
deriving DecidableEq, Repr

namespace ParseError

/-- The error of meeting a token of kind `found` where `expected` is required. Input that is no
token is reported as such. -/
def ofToken (expected : Expectation) (found : TokenKind) (span : Span) : ParseError :=
  match found with
  | .invalid reason => .lexical reason span
  | found => .unexpected expected found span

/-- The place of an error. -/
def span : ParseError → Span
  | .unexpected _ _ span => span
  | .unsupported _ span => span
  | .invalidColumn _ span => span
  | .missingOrderItemName span => span
  | .lexical _ span => span

/-- An error in words. -/
def message : ParseError → String
  | .unexpected expected found span =>
    "unexpected " ++ found.render ++ " at " ++ span.render ++ ": expected " ++ expected.text
  | .unsupported construct span => "unsupported " ++ construct.text ++ " at " ++ span.render
  | .invalidColumn found span =>
    "expected a column reference at " ++ span.render ++ ", found " ++ found
  | .missingOrderItemName span => "order item at " ++ span.render ++ " has no column name"
  | .lexical reason span => "invalid input at " ++ span.render ++ ": " ++ reason

end ParseError

end SqlRouting
