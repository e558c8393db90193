import SqlRouting.Grammar.Expression
import SqlRouting.Statement.Select

/-!
# Reading select lists

## Main definitions

* `SqlRouting.Grammar.selectItem` — reads an item of a select list.
* `SqlRouting.Grammar.foldDistinct` — the items of a list without repetitions.
* `SqlRouting.Grammar.selectList` — reads a select list.
-/

set_option autoImplicit false

namespace SqlRouting.Grammar

open SqlRouting.Parser Text

/-! ## Items -/

/-- The aggregate function that a keyword names. -/
def aggregateFunction? : Keyword → Option AggregateFunction
  | .COUNT => some .count
  | .SUM => some .sum
  | .AVG => some .avg
  | .MIN => some .min
  | .MAX => some .max
  | _ => none

/-- The aggregate function that is called at the current token. -/
def calledAggregate? : Parser (Option AggregateFunction) := do
  match ← kind with
  | .keyword keyword =>
    if (← peek) == .symbol .leftParen then return aggregateFunction? keyword else return none
  | _ => return none

/-- The owner of a star that starts at the current token. -/
def starOwner? : Parser (Option String) := do
  match ← kind with
  | .identifier owner =>
    let stream ← stream
    if stream.peekNth 1 == .symbol .dot && stream.peekNth 2 == .symbol .star then
      return some owner
    else return none
  | _ => return none

/-- Reads an aggregate call with its alias. With an operator after it, it is a part of a plain
expression. -/
def aggregateItem (rules : ShardingRule) (function : AggregateFunction) : Parser SelectItem := do
  let start ← offset
  let _ ← advance
  let innerStart ← offset
  skipParentheses
  let inner := unquoted (← textFrom innerStart)
  if ← checkComposite then
    composite rules
    let text := unquoted (← textFrom start)
    return .plain text (← aliasName) false
  else return .aggregate ⟨function, inner, ← aliasName, []⟩

/-- Reads an expression with its alias. -/
def plainItem (rules : ShardingRule) : Parser SelectItem := do
  let expression ← expression rules
  let text := unquoted (← textOf expression.span)
  return .plain text (← aliasName) false

/-- Reads an item of a select list. -/
def selectItem (rules : ShardingRule) : Parser SelectItem := do
  if ← skipSymbol .star then return .star none
  else
    match ← starOwner? with
    | some owner =>
      let _ ← advance
      let _ ← advance
      let _ ← advance
      return .star (some (unquoted owner))
    | none =>
      match ← calledAggregate? with
      | some function => aggregateItem rules function
      | none => plainItem rules

/-! ## Lists without repetitions -/

/-- Whether `c` may stand in an unquoted reference. -/
def isReferenceCharacter (c : Char) : Bool :=
  c.isAlphanum || c == '_' || c == '.' || c == '$'

/-- The name that the result gives to a column without an alias: that of a plain reference without
its owner, else the whole expression. -/
def columnLabel (expression : String) : String :=
  let cs := expression.toList
  let name := (cs.reverse.takeWhile (· != '.')).reverse
  if cs.all isReferenceCharacter && cs.contains '.' && !name.isEmpty then String.ofList name
  else expression

/-- The label of a plain item. -/
def label? : SelectItem → Option String
  | .plain expression aliasName _ => some (aliasName.getD (columnLabel expression))
  | _ => none

/-- The items of a list without repetitions: its plain items become one, which stands in front of
the others. -/
def foldDistinct (items : List SelectItem) : List SelectItem :=
  let labels := items.filterMap label?
  let others := items.filter fun item => (label? item).isNone
  if labels.isEmpty then others else .distinct labels :: others

/-! ## Select lists -/

/-- Whether an item is a star, with or without an owner. -/
def isStar : SelectItem → Bool
  | .star _ => true
  | _ => false

/-- Reads a select list, whose items are added to those of `shape`. -/
def selectList (rules : ShardingRule) (shape : ResultShape) : Parser ResultShape := do
  let distinct ← skipKeyword [.DISTINCT]
  if !distinct then
    let _ ← skipKeyword [.ALL]
  let items ← commaSeparated (selectItem rules)
  return {
    shape with
    items := shape.items ++ (if distinct then foldDistinct items else items)
    containsStar := shape.containsStar || items.any isStar
    selectListStop := ← offset }

end SqlRouting.Grammar
