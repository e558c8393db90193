import SqlRouting.Parser

/-!
# Reading expressions

An expression is read only as far as routing needs it. A lone reference or literal keeps its
shape; a call, an operator, parentheses or a conditional make the whole expression a piece of
source text. The placeholders in it are counted in every case.

An expression may have operands, which are expressions of fewer tokens. The parsers of the parts
take the parser of an operand as an argument, and `expressionUpTo` ties them together: it reads an
expression while at most a given number of tokens is left.

## Main definitions

* `SqlRouting.Grammar.expression` — reads an expression.
* `SqlRouting.Grammar.composite` — steps past operators with their operands.
* `SqlRouting.Grammar.aliasName` — reads an alias, if there is one.
-/

set_option autoImplicit false

namespace SqlRouting.Grammar

open SqlRouting.Parser

/-! ## The parts of an expression -/

section Parts

variable (operand : Parser Expression)

/-- Steps past at most `n` operators, each with its right operand. -/
def compositeUpTo : Nat → Parser Unit
  | 0 => return ()
  | n + 1 => do
    if ← checkComposite then
      let _ ← advance
      let _ ← operand
      compositeUpTo n
    else return ()

/-- Steps past operators with their right operands. There are no more of them than tokens. -/
def compositeWith : Parser Unit := do
  compositeUpTo operand (← remaining)

/-- The rest of an expression that starts with an operator of one operand. -/
def unaryWith (start : Nat) : Parser ExpressionNode := do
  let _ ← advance
  let _ ← operand
  return .other (← textFrom start)

/-- A number after its sign, of which only a minus is kept, or else the operand of the sign. -/
def signedWith (start : Nat) (sign : String) : Parser ExpressionNode := do
  match ← peek with
  | .number literal =>
    let _ ← advance
    let _ ← advance
    return .number (sign ++ literal)
  | _ => unaryWith operand start

/-- Whether a keyword stands for a value. -/
def isValueKeyword (keyword : Keyword) : Bool :=
  [.NULL, .TRUE, .FALSE, .KEY, .VALUE].contains keyword

/-- What starts with a keyword: an operator, a conditional, a value, or the name of a function in
front of its arguments. -/
def keywordWith (start : Nat) (keyword : Keyword) : Parser ExpressionNode := do
  if keyword == .NOT || keyword == .EXISTS then unaryWith operand start
  else if keyword == .CASE then
    skipGroup .conditional
    return .other (← textFrom start)
  else if isValueKeyword keyword || (← peek) == .symbol .leftParen then
    let _ ← advance
    return .other (← textFrom start)
  else unexpected .expression

/-- What starts with a symbol: a placeholder, a sign, an operator or parentheses. -/
def symbolWith (start : Nat) (symbol : Symbol) : Parser ExpressionNode := do
  match symbol with
  | .question => return .placeholder (← placeholder)
  | .minus => signedWith operand start "-"
  | .plus => signedWith operand start ""
  | .tilde | .bang => unaryWith operand start
  | .leftParen =>
    skipParentheses
    return .other (← textFrom start)
  | _ => unexpected .expression

/-- The part of an expression before any operator or arguments. -/
def primaryWith : Parser ExpressionNode := do
  let start ← offset
  match ← kind with
  | .string value =>
    let _ ← advance
    return .text value
  | .number literal =>
    let _ ← advance
    return .number literal
  | .identifier name =>
    let _ ← advance
    return .bare name
  | .userVariable _ =>
    let _ ← advance
    return .other (← textFrom start)
  | .keyword keyword => keywordWith operand start keyword
  | .symbol symbol => symbolWith operand start symbol
  | _ => unexpected .expression

/-- The name of a column after its owner: an identifier, or a keyword or star by its spelling. -/
def columnName : Parser String := do
  let token ← current
  match token.kind with
  | .identifier name => return name
  | .keyword _ => textOf token.span
  | .symbol .star => return Symbol.star.text
  | _ => unexpected .columnName

/-- Records an owner that names a sharded table as an edit. -/
def recordOwner (rules : ShardingRule) (owner : String) (span : Span) : Parser Unit := do
  if (rules.find? owner).isSome then addEdit (.table span owner (← textOf span))
  else return ()

/-- The rest of a reference after its owner and the dot. -/
def qualifiedWith (rules : ShardingRule) (owner : String) (ownerSpan : Span) :
    Parser ExpressionNode := do
  let name ← columnName
  let _ ← advance
  recordOwner rules owner ownerSpan
  if (← checkComposite) || name == "*" then
    compositeWith operand
    return .other (← textFrom ownerSpan.start)
  else return .qualified owner name

/-- A reference to a column after its first name: with a dot the name is the owner of another. -/
def referenceWith (rules : ShardingRule) (start : Nat) :
    ExpressionNode → Parser ExpressionNode
  | .bare owner => do
    if ← checkSymbol .dot then
      let dot ← advance
      qualifiedWith operand rules owner ⟨start, dot.span.start⟩
    else return .bare owner
  | node => return node

/-- The list of arguments after the part of an expression that may be called. -/
def argumentsAfter (start : Nat) (node : ExpressionNode) : Parser ExpressionNode := do
  if (← checkSymbol .leftParen) && node.isCallable then
    skipParentheses
    return .other (← textFrom start)
  else return node

/-- The operators after an expression, with their right operands. -/
def operatorsWith (start : Nat) (node : ExpressionNode) : Parser ExpressionNode := do
  if ← checkComposite then
    compositeWith operand
    return .other (← textFrom start)
  else return node

/-- An expression with given operands. -/
def expressionWith (rules : ShardingRule) : Parser Expression := do
  let start ← offset
  let node ← primaryWith operand
  let node ← referenceWith operand rules start node
  let node ← argumentsAfter start node
  let node ← operatorsWith operand start node
  return ⟨node, ⟨start, ← previousEnd⟩⟩

end Parts

/-! ## Whole expressions -/

/-- Reads an expression while at most `n` tokens are left. With none left there is no
expression. -/
def expressionUpTo (rules : ShardingRule) : Nat → Parser Expression
  | 0 => unexpected .expression
  | n + 1 => expressionWith (expressionUpTo rules n) rules

/-- Reads an expression. -/
def expression (rules : ShardingRule) : Parser Expression := do
  expressionUpTo rules (← remaining)

/-- Steps past operators with their right operands. -/
def composite (rules : ShardingRule) : Parser Unit :=
  compositeWith (expression rules)

/-! ## Aliases -/

/-- Reads an alias: after a word of its own a name, a string or a keyword by its spelling, else a
name alone. -/
def aliasName : Parser (Option String) := do
  if ← skipKeyword [.AS] then
    let token ← current
    match token.kind with
    | .identifier name =>
      let _ ← advance
      return some name
    | .string name =>
      let _ ← advance
      return some name
    | .keyword _ =>
      let _ ← advance
      return some (← textOf token.span)
    | _ => unexpected .aliasName
  else
    match ← kind with
    | .identifier name =>
      let _ ← advance
      return some name
    | _ => return none

end SqlRouting.Grammar
