import SqlRouting.Text.Basic

/-!
# Sharding rules

A table whose rows are spread over shards has a rule: the columns whose values select the shard,
how they do, and possibly a column that is filled with a generated key. Names of tables and
columns are compared ignoring ASCII case.

## Main definitions

* `SqlRouting.TableRule` — the rule of one table.
* `SqlRouting.ShardingRule` — the rules of all tables.
-/

set_option autoImplicit false

namespace SqlRouting

open Text

/-- The rule of one table. -/
structure TableRule where
  /-- The name of the table. -/
  table : String
  /-- The columns whose values select the shard. -/
  shardingColumns : List String := []
  /-- The expression that computes the shard. -/
  algorithm : Option String := none
  /-- The column that is filled with a generated key. -/
  generateKeyColumn : Option String := none
deriving DecidableEq, Repr

/-- Whether `column` is one of the columns that select the shard. -/
def TableRule.isShardingColumn (rule : TableRule) (column : String) : Bool :=
  containsName rule.shardingColumns column

/-- The rules of all tables. -/
structure ShardingRule where
  /-- The rules in their order. -/
  toList : List TableRule := []
deriving DecidableEq, Repr

namespace ShardingRule

/-- Adds the rule of a table. -/
def add (rules : ShardingRule) (rule : TableRule) : ShardingRule :=
  ⟨rules.toList ++ [rule]⟩

/-- The rule of a table; the first one, if there are several. -/
def find? (rules : ShardingRule) (table : String) : Option TableRule :=
  rules.toList.find? (sameName ·.table table)

/-- Changes the first rule of a table in a list. -/
def updateFirst (table : String) (change : TableRule → TableRule) :
    List TableRule → List TableRule
  | [] => []
  | rule :: rules =>
    if sameName rule.table table then change rule :: rules
    else rule :: updateFirst table change rules

/-- Replaces the expression that computes the shard in the rule of a table. -/
def setAlgorithm (rules : ShardingRule) (table expression : String) : ShardingRule :=
  ⟨updateFirst table (fun rule => { rule with algorithm := some expression }) rules.toList⟩

/-- Whether `column` of `table` selects the shard. -/
def isShardingColumn (rules : ShardingRule) (column table : String) : Bool :=
  (rules.find? table).any (·.isShardingColumn column)

/-- The column of `table` that is filled with a generated key. -/
def generateKeyColumn? (rules : ShardingRule) (table : String) : Option String :=
  (rules.find? table).bind TableRule.generateKeyColumn

end ShardingRule

end SqlRouting
