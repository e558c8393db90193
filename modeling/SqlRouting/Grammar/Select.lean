import SqlRouting.Derivation
import SqlRouting.Grammar.Limit
import SqlRouting.Grammar.Ordering
import SqlRouting.Grammar.SelectList
import SqlRouting.Grammar.TableReference

/-!
# Reading queries

The clauses of a level are read in the order of the dialect. A derived table is a level of its own:
it collects a context of its own, but goes on counting the placeholders of the level above.

The clauses take the parser of the levels below as an argument, and `levelsUpTo` ties them
together: it reads a level while at most a given number of tokens is left.

## Main definitions

* `SqlRouting.Grammar.clause` — reads a clause of a level.
* `SqlRouting.Grammar.levels` — reads a level with those below it.
* `SqlRouting.Grammar.select` — reads a query and prepares it for merging results.
-/

set_option autoImplicit false

namespace SqlRouting.Grammar

open SqlRouting.Parser

/-- What is known of a level while its clauses are read: the shape of its result, and the levels
below it. -/
structure PartialLevel where
  /-- The shape of the result. -/
  shape : ResultShape := {}
  /-- The levels below, from the outside in. -/
  below : List SelectLevel := []
deriving DecidableEq, Repr

/-- Reads a derived table by the parser `level` in a context of its own, and gives its levels. -/
def derivedTable (level : Parser PartialLevel) : Parser (List SelectLevel) := do
  let outer ← context
  modifyContext fun outer => { parameters := outer.parameters }
  let read ← level
  let inner ← context
  modifyContext fun inner => { outer with parameters := inner.parameters }
  return ⟨inner, read.shape⟩ :: read.below

/-- Reads the tables after a derived table in front of the list, up to the next clause. -/
def tablesAfterDerived (rules : ShardingRule) : Parser Unit := do
  if (← checkKeyword .WHERE) || (← stream).atEnd then return ()
  else
    joins rules
    if ← skipSymbol .comma then tableReferences rules
    else return ()

/-- Reads the tables of a level, if there are any, and gives the levels below it. -/
def tables (rules : ShardingRule) (level : Parser PartialLevel) (below : List SelectLevel) :
    Parser (List SelectLevel) := do
  refuseKeywords [.INTO]
  if ← skipKeyword [.FROM] then
    if ← checkQueryInParentheses then
      let _ ← advance
      let below ← derivedTable level
      let _ ← acceptSymbol .rightParen
      let _ ← aliasName
      tablesAfterDerived rules
      return below
    else
      tableReferences rules
      return below
  else return below

/-- Reads a clause of a level of which `read` is known, where `level` reads the levels below. -/
def clause (env : Environment) (level : Parser PartialLevel) (read : PartialLevel) :
    SelectClause → Parser PartialLevel
  | .selectList => return { read with shape := ← selectList env.rules read.shape }
  | .tables => return { read with below := ← tables env.rules level read.below }
  | .condition => do
    condition env.rules
    return read
  | .grouping => return { read with shape := ← grouping env.dialect env.rules read.shape }
  | .groupCondition => do
    refuseKeywords [.HAVING]
    return read
  | .ordering => return { read with shape := ← ordering env.rules read.shape }
  | .limit => return { read with shape := ← limit env.dialect.limitStyle read.shape }
  | .trailing => do
    refuseKeywords env.dialect.refusedTrailing
    return read

/-- Reads a level, where `level` reads the levels below. -/
def levelWith (env : Environment) (level : Parser PartialLevel) : Parser PartialLevel := do
  let _ ← acceptKeyword .SELECT
  env.dialect.clauses.foldlM (clause env level) {}

/-- Reads a level with those below it while at most `n` tokens are left. With none left there is
no level. -/
def levelsUpTo (env : Environment) : Nat → Parser PartialLevel
  | 0 => unexpected (.keyword .SELECT)
  | n + 1 => levelWith env (levelsUpTo env n)

/-- Reads a level with those below it. -/
def levels (env : Environment) : Parser SelectStatement := do
  let read ← levelsUpTo env (← remaining)
  return { context := ← context, shape := read.shape, derivedTables := read.below }

/-- Reads a query, merges its levels, and adds what is needed to merge the results of shards. -/
def select (env : Environment) : Parser SelectStatement := do
  (← levels env).merge.prepare env.metadata

end SqlRouting.Grammar
