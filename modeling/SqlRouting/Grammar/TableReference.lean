import SqlRouting.Grammar.Predicate

/-!
# Reading tables

The tables of a statement are listed with commas, and each may be joined with others. A table in
the list is recorded together with an edit at its name; a group in parentheses is stepped over.

## Main definitions

* `SqlRouting.Grammar.tableFactor` — reads one table with its alias.
* `SqlRouting.Grammar.joins` — reads the tables joined with one before.
* `SqlRouting.Grammar.tableReferences` — reads a list of tables with their joins.
-/

set_option autoImplicit false

namespace SqlRouting.Grammar

open SqlRouting.Parser

/-- Reads the name of a table, of which a schema in front is dropped, and gives it with the end of
its span. -/
def tableName : Parser (String × Nat) := do
  let (first, span) ← acceptIdentifier
  if ← skipSymbol .dot then
    let (name, span) ← acceptIdentifier
    return (name, span.stop)
  else return (first, span.stop)

/-- Reads a named table with its alias, and records the table and an edit at its name. -/
def namedTable : Parser Unit := do
  let start ← offset
  let (name, stop) ← tableName
  let span : Span := ⟨start, stop⟩
  let aliasName ← aliasName
  let table : Table := ⟨Text.unquoted name, aliasName⟩
  addEdit (.table span table.name (← textOf span))
  modifyContext (·.addTable table)

/-- Reads one table with its alias. -/
def tableFactor : Parser Unit := do
  if ← checkQueryInParentheses then
    unsupported .derivedTableInJoin (← current).span
  else if ← checkSymbol .leftParen then
    skipParentheses
    let _ ← aliasName
  else namedTable

/-- Steps past the words of a join, if there are any. -/
def joinWords : Parser Bool := do
  if ← skipKeyword [.JOIN] then return true
  else if ← skipKeyword [.INNER, .CROSS] then
    let _ ← acceptKeyword .JOIN
    return true
  else if ← skipKeyword [.LEFT, .RIGHT, .FULL] then
    let _ ← skipKeyword [.OUTER]
    let _ ← acceptKeyword .JOIN
    return true
  else return false

/-- Reads the condition of a join, if there is one. It says nothing about the route. -/
def joinCondition (rules : ShardingRule) : Parser Unit := do
  if ← skipKeyword [.ON] then
    let _ ← predicates rules
  else if ← skipKeyword [.USING] then skipParentheses
  else return ()

/-- Reads at most `n` joined tables. -/
def joinsUpTo (rules : ShardingRule) : Nat → Parser Unit
  | 0 => return ()
  | n + 1 => do
    if ← joinWords then
      tableFactor
      joinCondition rules
      joinsUpTo rules n
    else return ()

/-- Reads the tables joined with one before. There are no more of them than tokens. -/
def joins (rules : ShardingRule) : Parser Unit := do
  joinsUpTo rules (← remaining)

/-- Reads a list of tables with their joins. -/
def tableReferences (rules : ShardingRule) : Parser Unit := do
  let _ ← commaSeparated do
    tableFactor
    joins rules

end SqlRouting.Grammar
