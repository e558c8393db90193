import SqlRouting.Grammar.TableReference
import SqlRouting.Statement.Insert

/-!
# Reading insertions

An insertion names a table and possibly its columns, and then has rows of values or, in some
dialects, assignments. Without a list of columns, those that are known of the table stand in. A
column for a generated key that the statement leaves out is added by an edit.

The parts of an insertion are read one after the other, each adding to what the ones before it have
found; what every statement collects stays in the context.

## Main definitions

* `SqlRouting.Grammar.Target` — the columns of an insertion, and the key that is added to them.
* `SqlRouting.Grammar.targetColumns` — reads or finds the columns of an insertion.
* `SqlRouting.Grammar.valueRows` — reads the rows of values.
* `SqlRouting.Grammar.assignments` — reads assignments in place of rows of values.
* `SqlRouting.Grammar.duplicateKeyUpdate` — reads what to do with rows that are already there.
* `SqlRouting.Grammar.insert` — reads an insertion.
-/

set_option autoImplicit false

namespace SqlRouting.Grammar

open SqlRouting.Parser Text

/-! ## Columns -/

/-- The columns of an insertion. -/
structure Target where
  /-- The columns that values are given to. -/
  columns : List Column := []
  /-- The column for a generated key, if the statement leaves it out. -/
  generatedKey : Option String := none
deriving DecidableEq, Repr

/-- The column of `table` that an expression names. -/
def assignedColumn (table : String) (expression : Expression) : Except ParseError Column :=
  match expression.node with
  | .qualified _ name => .ok ⟨unquoted name, table⟩
  | .bare name => .ok ⟨unquoted name, table⟩
  | .other source => .ok ⟨unquoted source, table⟩
  | node => .error (.invalidColumn node.render expression.span)

/-- Reads an expression that names a column of `table`. -/
def listedColumn (rules : ShardingRule) (table : String) : Parser Column := do
  assignedColumn table (← expression rules)

/-- Reads a list of columns. A column for a generated key that is not in it is added by an edit. -/
def columnList (rules : ShardingRule) (table : String) : Parser Target := do
  let _ ← advance
  let columns ← commaSeparated (listedColumn rules table)
  let close ← acceptSymbol .rightParen
  match (rules.generateKeyColumn? table).filter
      (fun key => !containsName (columns.map Column.name) key) with
  | some key =>
    addEdit (.items close.span.start [key])
    return ⟨columns, some key⟩
  | none => return ⟨columns, none⟩

/-- Makes the known columns of a table the columns of an insertion by an edit, with the column for
a generated key at their end if it is not one of them. -/
def knownColumns (rules : ShardingRule) (table : String) (known : List String) :
    Parser Target := do
  let key := (rules.generateKeyColumn? table).filter (fun key => !containsName known key)
  let columns := known ++ key.toList
  addEdit (.insertColumns (← previousEnd) columns)
  return ⟨columns.map (⟨·, table⟩), key⟩

/-- Reads the columns of an insertion into `table`, or finds them, and records where the values
start. -/
def targetColumns (env : Environment) (table : String) : Parser Target := do
  let target ←
    if (← checkSymbol .leftParen) && !(← checkQueryInParentheses) then
      columnList env.rules table
    else
      match env.metadata.columns? table with
      | some known => knownColumns env.rules table known
      | none => pure {}
  addEdit (.insertValues (← offset) .values)
  return target

/-! ## Rows of values -/

/-- The conditions that the values of a row set on sharding columns. -/
def rowConditions (rules : ShardingRule) (columns : List Column) (values : List Expression) :
    List RouteCondition :=
  (columns.zip values).filterMap fun (column, value) =>
    if rules.isShardingColumn column.name column.tableName then
      equalCondition? (some column) value.node
    else none

/-- Reads a row of values for `columns`. -/
def valueRow (rules : ShardingRule) (columns : List Column) : Parser InsertRow := do
  let opening ← acceptSymbol .leftParen
  let first := (← context).parameters
  let values ← commaSeparated (expression rules)
  let closing ← acceptSymbol .rightParen
  modifyContext (·.addConditions (rowConditions rules columns values))
  return .ofRange .values first (← context).parameters (opening.span.merge closing.span)

/-- Reads the rows of values, if there are any. -/
def valueRows (rules : ShardingRule) (columns : List Column) : Parser (List InsertRow) := do
  if ← skipKeyword [.VALUES, .VALUE] then commaSeparated (valueRow rules columns)
  else return []

/-! ## Assignments -/

/-- Reads an assignment to a column of `table`. -/
def assignment (rules : ShardingRule) (table : String) : Parser Column := do
  let column ← listedColumn rules table
  let _ ← acceptSymbol .eq
  let value ← expression rules
  modifyContext (·.addConditions (rowConditions rules [column] [value]))
  return column

/-- Forgets the columns found before, because assignments name their own. -/
def forgetColumns (context : Context) : Context :=
  (context.removeEdits [.insertColumns, .items]).setInsertForm .set

/-- Reads assignments, if there are any, and gives their columns, to which no key is added, with the
one row they make. -/
def assignments (env : Environment) (table : String) :
    Parser (Option (Target × InsertRow)) := do
  if ← skipKeyword env.dialect.insertKeywords then
    let start ← previousEnd
    modifyContext forgetColumns
    let first := (← context).parameters
    let columns ← commaSeparated (assignment env.rules table)
    let span : Span := ⟨start, ← previousEnd⟩
    return some (⟨columns, none⟩, .ofRange .set first (← context).parameters span)
  else return none

/-! ## Rows that are already there -/

/-- Reads an assignment to a row that is already there, which must not move it to another
shard. -/
def update (rules : ShardingRule) (table : String) : Parser Unit := do
  let left ← expression rules
  let column ← assignedColumn table left
  if rules.isShardingColumn column.name column.tableName then
    unsupported (.updateOfShardingColumn column.name) left.span
  let _ ← acceptSymbol .eq
  let _ ← expression rules

/-- Reads what to do with rows that are already there, if it is given. -/
def duplicateKeyUpdate (rules : ShardingRule) (table : String) : Parser Unit := do
  if ← skipKeyword [.ON] then
    let _ ← acceptKeyword .DUPLICATE
    let _ ← acceptKeyword .KEY
    let _ ← acceptKeyword .UPDATE
    let _ ← commaSeparated (update rules table)
  else return ()

/-! ## Insertions -/

/-- Fails if a query stands in place of the values. -/
def refuseQuery : Parser Unit := do
  if (← checkKeyword .SELECT) || (← checkQueryInParentheses) then
    unsupported .insertOfQuery (← current).span
  else return ()

/-- Reads an insertion. -/
def insert (env : Environment) : Parser InsertStatement := do
  let _ ← acceptKeyword .INSERT
  let _ ← skipKeyword [.INTO]
  tableFactor
  let table := (← context).tables.firstName?.getD ""
  let target ← targetColumns env table
  refuseQuery
  let rows ← valueRows env.rules target.columns
  let assigned ← assignments env table
  let target := (assigned.map (·.1)).getD target
  let rows := rows ++ (assigned.map (·.2)).toList
  if rows.isEmpty then unexpected (.insertedValues env.dialect.insertKeywords)
  else
    duplicateKeyUpdate env.rules table
    return {
      context := ← context
      columns := target.columns
      rows
      generatedKey := target.generatedKey }

end SqlRouting.Grammar
