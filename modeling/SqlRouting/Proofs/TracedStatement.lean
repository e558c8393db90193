import SqlRouting.Proofs.Insertion
import SqlRouting.Proofs.TracedClause

/-!
# Traced statements

The parsers of statements with their events. A level of a query is a call, in which the levels of derived
tables begin behind its first word. An insertion repeats its columns, rows, values and assignments behind
commas.

## Main definitions

* `SqlRouting.Traced.levels`, `SqlRouting.Traced.select` — read a query.
* `SqlRouting.Traced.insert` — reads an insertion.
* `SqlRouting.Traced.statement` — reads a statement.

## Main results

* `SqlRouting.Traced.parser_statement` — without its events it is the parser of statements.
* `SqlRouting.Traced.orderly_statement` — its events are in order.
-/

set_option autoImplicit false

namespace SqlRouting.Traced

open SqlRouting.Parser SqlRouting.Grammar Text

/-! ## Queries -/

/-- Reads a derived table by the parser `level` in a context of its own. -/
def derivedTable (level : Traced PartialLevel) : Traced (List SelectLevel) := counted do
  let outer ← still context
  still (modifyContext fun outer => { parameters := outer.parameters })
  let read ← level
  let inner ← still context
  still (modifyContext fun inner => { outer with parameters := inner.parameters })
  return ⟨inner, read.shape⟩ :: read.below

/-- Reads the tables after a derived table in front of the list. -/
def tablesAfterDerived (rules : ShardingRule) : Traced Unit := do
  if (← still (checkKeyword .WHERE)) || (← still stream).atEnd then return ()
  else
    joins rules
    if ← skipSymbol .comma then tableReferences rules
    else return ()

/-- Reads the tables of a level, if there are any. -/
def tables (rules : ShardingRule) (level : Traced PartialLevel) (below : List SelectLevel) :
    Traced (List SelectLevel) := counted do
  still (refuseKeywords [.INTO])
  if ← skipKeyword [.FROM] then
    if ← still checkQueryInParentheses then
      let _ ← advance
      let below ← derivedTable level
      let _ ← acceptSymbol .rightParen
      let _ ← aliasName
      tablesAfterDerived rules
      return below
    else
      tableReferences rules
      return below
  else return below

/-- Reads a clause of a level of which `read` is known, where `level` reads the levels below. -/
def clause (env : Environment) (level : Traced PartialLevel) (read : PartialLevel) :
    SelectClause → Traced PartialLevel
  | .selectList => return { read with shape := ← selectList env.rules read.shape }
  | .tables => return { read with below := ← tables env.rules level read.below }
  | .condition => do
    condition env.rules
    return read
  | .grouping => return { read with shape := ← grouping env.dialect env.rules read.shape }
  | .groupCondition => do
    still (refuseKeywords [.HAVING])
    return read
  | .ordering => return { read with shape := ← ordering env.rules read.shape }
  | .limit => return { read with shape := ← limit env.dialect.limitStyle read.shape }
  | .trailing => do
    still (refuseKeywords env.dialect.refusedTrailing)
    return read

/-- Reads a level, where `level` reads the levels below. -/
def levelWith (env : Environment) (level : Traced PartialLevel) : Traced PartialLevel := do
  let _ ← acceptKeyword .SELECT
  env.dialect.clauses.foldlM (fun read next => counted (clause env level read next)) {}

/-- Reads a level with those below it while at most `n` tokens are left. -/
def levelsUpTo (env : Environment) : Nat → Traced PartialLevel
  | 0 => call (bounded (still (unexpected (.keyword .SELECT))))
  | n + 1 => counted (call (levelWith env (levelsUpTo env n)))

/-- Reads a level with those below it. -/
def levels (env : Environment) : Traced SelectStatement := do
  let read ← levelsUpTo env (← still remaining)
  return { context := ← still context, shape := read.shape, derivedTables := read.below }

/-- Reads a query. -/
def select (env : Environment) : Traced SelectStatement := counted do
  still (liftM ((← levels env).merge.prepare env.metadata))

/-! ## Insertions -/

/-- Reads an expression that names a column of `table`. -/
def listedColumn (rules : ShardingRule) (table : String) : Traced Column := do
  still (liftM (assignedColumn table (← expression rules)))

/-- Reads a list of columns. -/
def columnList (rules : ShardingRule) (table : String) : Traced Target := do
  let _ ← advance
  let columns ← commaSeparated (listedColumn rules table)
  let close ← acceptSymbol .rightParen
  match (rules.generateKeyColumn? table).filter
      (fun key => !containsName (columns.map Column.name) key) with
  | some key =>
    still (addEdit (.items close.span.start [key]))
    return ⟨columns, some key⟩
  | none => return ⟨columns, none⟩

instance (rules : ShardingRule) (table : String) (known : List String) :
    Rests (knownColumns rules table known) :=
  inferInstanceAs (Rests (previousEnd >>= fun _ => addEdit _ >>= fun _ => pure _))

/-- Reads the columns of an insertion into `table`, or finds them. -/
def targetColumns (env : Environment) (table : String) : Traced Target := counted do
  let target ←
    if (← still (checkSymbol .leftParen)) && !(← still checkQueryInParentheses) then
      columnList env.rules table
    else
      match env.metadata.columns? table with
      | some known => still (knownColumns env.rules table known)
      | none => pure {}
  still (addEdit (.insertValues (← still offset) .values))
  return target

/-- Reads a row of values for `columns`. -/
def valueRow (rules : ShardingRule) (columns : List Column) : Traced InsertRow := counted do
  let opening ← acceptSymbol .leftParen
  let first := (← still context).parameters
  let values ← commaSeparated (expression rules)
  let closing ← acceptSymbol .rightParen
  still (modifyContext (·.addConditions (rowConditions rules columns values)))
  return .ofRange .values first (← still context).parameters (opening.span.merge closing.span)

/-- Reads the rows of values, if there are any. -/
def valueRows (rules : ShardingRule) (columns : List Column) : Traced (List InsertRow) := counted do
  if ← skipKeyword [.VALUES, .VALUE] then commaSeparated (valueRow rules columns)
  else return []

/-- Reads an assignment to a column of `table`. -/
def assignment (rules : ShardingRule) (table : String) : Traced Column := counted do
  let column ← listedColumn rules table
  let _ ← acceptSymbol .eq
  let value ← expression rules
  still (modifyContext (·.addConditions (rowConditions rules [column] [value])))
  return column

/-- Reads assignments, if there are any. -/
def assignments (env : Environment) (table : String) :
    Traced (Option (Target × InsertRow)) := counted do
  if ← skipKeyword env.dialect.insertKeywords then
    let start ← still previousEnd
    still (modifyContext forgetColumns)
    let first := (← still context).parameters
    let columns ← commaSeparated (assignment env.rules table)
    let span : Span := ⟨start, ← still previousEnd⟩
    return some (⟨columns, none⟩, .ofRange .set first (← still context).parameters span)
  else return none

/-- Reads an assignment to a row that is already there. -/
def update (rules : ShardingRule) (table : String) : Traced Unit := counted do
  let left ← expression rules
  let column ← still (liftM (assignedColumn table left))
  if rules.isShardingColumn column.name column.tableName then
    still (unsupported (.updateOfShardingColumn column.name) left.span)
  let _ ← acceptSymbol .eq
  let _ ← expression rules

/-- Reads what to do with rows that are already there, if it is given. -/
def duplicateKeyUpdate (rules : ShardingRule) (table : String) : Traced Unit := counted do
  if ← skipKeyword [.ON] then
    let _ ← acceptKeyword .DUPLICATE
    let _ ← acceptKeyword .KEY
    let _ ← acceptKeyword .UPDATE
    let _ ← commaSeparated (update rules table)
  else return ()

instance : Rests refuseQuery where
  stream_eq success := by rw [run_refuseQuery_ok success]

/-- Reads an insertion. -/
def insert (env : Environment) : Traced InsertStatement := counted do
  let _ ← acceptKeyword .INSERT
  let _ ← skipKeyword [.INTO]
  tableFactor
  let table := (← still context).tables.firstName?.getD ""
  let target ← targetColumns env table
  still refuseQuery
  let rows ← valueRows env.rules target.columns
  let assigned ← assignments env table
  let target := (assigned.map (·.1)).getD target
  let rows := rows ++ (assigned.map (·.2)).toList
  if rows.isEmpty then still (unexpected (.insertedValues env.dialect.insertKeywords))
  else
    duplicateKeyUpdate env.rules table
    return {
      context := ← still context
      columns := target.columns
      rows
      generatedKey := target.generatedKey }

/-! ## Statements -/

/-- Reads the end of the text, before which a semicolon may stand. -/
def finish : Traced Unit := do
  let _ ← skipSymbol .semicolon
  if (← still stream).atEnd then return ()
  else still (unexpected (.kind .endOfInput))

/-- Reads a statement. -/
def statement (env : Environment) : Traced Statement := do
  let statement ←
    if ← still (checkKeyword .SELECT) then pure (Statement.select (← select env))
    else if ← still (checkKeyword .INSERT) then pure (Statement.insert (← insert env))
    else still (unexpected .statement)
  finish
  return statement

/-! ## Without events -/

section Erasure

variable {env : Environment} {rules : ShardingRule} {table : String} {level : Traced PartialLevel}

/-- A derived table. -/
@[simp] lemma parser_derivedTable : (derivedTable level).parser = Grammar.derivedTable level.parser := rfl

/-- The tables after a derived table. -/
@[simp] lemma parser_tablesAfterDerived :
    (tablesAfterDerived rules).parser = Grammar.tablesAfterDerived rules := by
  simp [tablesAfterDerived, Grammar.tablesAfterDerived]

/-- The tables of a level. -/
@[simp] lemma parser_tables (below : List SelectLevel) :
    (tables rules level below).parser = Grammar.tables rules level.parser below := by
  simp [tables, Grammar.tables]

/-- A clause. -/
@[simp] lemma parser_clause (read : PartialLevel) (c : SelectClause) :
    (clause env level read c).parser = Grammar.clause env level.parser read c := by
  cases c <;> simp [clause, Grammar.clause]

/-- A level. -/
@[simp] lemma parser_levelWith : (levelWith env level).parser = Grammar.levelWith env level.parser := by
  simp [levelWith, Grammar.levelWith]

/-- A level within a bound. -/
lemma parser_levelsUpTo (n : Nat) : (levelsUpTo env n).parser = Grammar.levelsUpTo env n := by
  induction n with
  | zero => rfl
  | succ n ih => simp [levelsUpTo, Grammar.levelsUpTo, ih]

/-- A level with those below it. -/
@[simp] lemma parser_levels : (levels env).parser = Grammar.levels env := by
  simp [levels, Grammar.levels, parser_levelsUpTo]

/-- A query. -/
@[simp] lemma parser_select : (select env).parser = Grammar.select env := by
  simp [select, Grammar.select]

/-- A column in a list. -/
@[simp] lemma parser_listedColumn :
    (listedColumn rules table).parser = Grammar.listedColumn rules table := by
  simp [listedColumn, Grammar.listedColumn]

/-- A list of columns. -/
@[simp] lemma parser_columnList : (columnList rules table).parser = Grammar.columnList rules table := by
  refine bind_congr fun _ => ?_
  rw [parser_bind, parser_commaSeparated, parser_listedColumn]
  refine bind_congr fun columns => ?_
  rw [parser_bind, parser_acceptSymbol]
  refine bind_congr fun close => ?_
  cases (rules.generateKeyColumn? table).filter fun key => !containsName (columns.map Column.name) key <;> rfl

/-- The columns of an insertion. -/
@[simp] lemma parser_targetColumns :
    (targetColumns env table).parser = Grammar.targetColumns env table := by
  cases known : env.metadata.columns? table <;> simp [targetColumns, Grammar.targetColumns, known]

/-- A row of values. -/
@[simp] lemma parser_valueRow (columns : List Column) :
    (valueRow rules columns).parser = Grammar.valueRow rules columns := by
  simp [valueRow, Grammar.valueRow]

/-- The rows of values. -/
@[simp] lemma parser_valueRows (columns : List Column) :
    (valueRows rules columns).parser = Grammar.valueRows rules columns := by
  simp [valueRows, Grammar.valueRows]

/-- An assignment. -/
@[simp] lemma parser_assignment :
    (assignment rules table).parser = Grammar.assignment rules table := by
  simp [assignment, Grammar.assignment]

/-- Assignments. -/
@[simp] lemma parser_assignments :
    (assignments env table).parser = Grammar.assignments env table := by
  simp [assignments, Grammar.assignments]

/-- An assignment to a row that is already there. -/
@[simp] lemma parser_update : (update rules table).parser = Grammar.update rules table := by
  simp [update, Grammar.update]

/-- What to do with rows that are already there. -/
@[simp] lemma parser_duplicateKeyUpdate :
    (duplicateKeyUpdate rules table).parser = Grammar.duplicateKeyUpdate rules table := by
  simp [duplicateKeyUpdate, Grammar.duplicateKeyUpdate]

/-- An insertion. -/
@[simp] lemma parser_insert : (insert env).parser = Grammar.insert env := by
  simp [insert, Grammar.insert]

/-- The end of the text. -/
@[simp] lemma parser_finish : finish.parser = Grammar.finish := by
  simp [finish, Grammar.finish]

/-- A statement. -/
@[simp] lemma parser_statement : (statement env).parser = Grammar.statement env := by
  simp [statement, Grammar.statement]

end Erasure

/-! ## In order -/

variable {top low high : Nat} {env : Environment} {rules : ShardingRule} {table : String}

section Level

variable {level : Traced PartialLevel} (later : ∀ {low high}, high < top → Orderly top low high level)

include later

/-- A derived table is passed in order if its level is. -/
lemma orderly_derivedTable (begun : high < top) : Orderly top low high (derivedTable level) := by
  refine .counted (.look fun outer => (Orderly.still _).bind fun _ => (later begun).bind fun read => ?_)
  exact .look fun inner => (Orderly.still _).bind fun _ => .pure _

omit later in
/-- The tables after a derived table are passed in order. -/
lemma orderly_tablesAfterDerived (begun : high < top) :
    Orderly top low high (tablesAfterDerived rules) := by
  refine .look fun atWhere => .look fun stream => .ite (fun _ => .pure _) fun _ => ?_
  refine (orderly_joins begun).bind fun _ => ?_
  exact .skipSymbol (fun _ => orderly_tableReferences (by omega)) (.pure _)

/-- The tables of a level are passed in order if the levels below are. -/
lemma orderly_tables (begun : high < top) (below : List SelectLevel) :
    Orderly top low high (tables rules level below) := by
  refine .counted (.look fun _ => .skipKeyword (fun remains => ?_) (.pure _))
  refine .see_queryInParentheses fun derived left least most one => .ite (fun isTrue => ?_) fun _ => ?_
  · refine .pass (one isTrue) fun _ => (orderly_derivedTable later (by omega)).bind fun below => ?_
    refine .acceptSymbol fun _ _ => orderly_aliasName.bind fun _ => ?_
    exact (orderly_tablesAfterDerived (by omega)).bind fun _ => .pure _
  · exact (orderly_tableReferences (by omega)).bind fun _ => .pure _

/-- A clause is passed in order if the levels below are. -/
lemma orderly_clause (begun : high < top) (read : PartialLevel) (c : SelectClause) :
    Orderly top low high (clause env level read c) := by
  cases c with
  | selectList => exact (orderly_selectList begun _).bind fun _ => .pure _
  | tables => exact (orderly_tables later begun _).bind fun _ => .pure _
  | condition => exact (orderly_condition begun).bind fun _ => .pure _
  | grouping => exact (orderly_grouping begun _ _).bind fun _ => .pure _
  | groupCondition => exact .look fun _ => .pure _
  | ordering => exact (orderly_ordering begun _).bind fun _ => .pure _
  | limit => exact (orderly_limit _ _).bind fun _ => .pure _
  | trailing => exact .look fun _ => .pure _

/-- A level is passed in order if the levels below are, wherever they begin behind its first word. -/
lemma orderly_levelWith (within : high ≤ top) : Orderly top low high (levelWith env level) :=
  .acceptKeyword fun _ _ => .mono (Orderly.foldlM (fun read next =>
    .counted (orderly_clause later (by omega) read next)) _ _) (Nat.zero_le _) (Nat.le_refl _)

end Level

/-- A level is passed in order within a bound that the tokens that are left fit in.

**Proof sketch.** Induction on the bound. The level of a derived table begins behind the first word of the
level around it, so that one token less is left, and one less is the bound. -/
lemma orderly_levelsUpTo {n : Nat} (begun : high < top) (enough : high ≤ n) :
    Orderly top low high (levelsUpTo env n) := by
  induction n generalizing top low high with
  | zero => exact .call begun fun left most => .bounded (by omega) (.still _)
  | succ n ih =>
    refine .counted (.call begun fun left most => ?_)
    exact orderly_levelWith (fun {low high} later => ih later (by omega)) (Nat.le_refl _)

/-- A query is passed in order. -/
lemma orderly_select (begun : high < top) : Orderly top low high (select env) := by
  have levels : Orderly top low high (levels env) := by
    refine .see_remaining fun left least most => ?_
    refine (orderly_levelsUpTo (by omega) (Nat.le_refl left)).bind fun read => ?_
    exact .look fun _ => .pure _
  exact .counted (levels.bind fun _ => .still _)

/-- A column in a list is passed in order. -/
lemma orderly_listedColumn (begun : high < top) : Orderly top low high (listedColumn rules table) :=
  (orderly_expression begun).bind fun _ => .still _

/-- The columns of an insertion are passed in order. -/
lemma orderly_targetColumns (begun : high < top) : Orderly top low high (targetColumns env table) := by
  have listed {left : Nat} (remains : 1 ≤ left) (begun : left < top) :
      Orderly top left left (columnList env.rules table) := by
    refine .pass remains fun _ => ?_
    refine (Orderly.commaSeparated (orderly_listedColumn (by omega))).bind fun columns => ?_
    refine .acceptSymbol fun close _ => ?_
    split
    · exact .look fun _ => .pure _
    · exact .pure _
  refine .counted (.see_symbol fun opened left least most remains => .look fun derived => ?_)
  refine .ite (fun isList => ?_) fun _ => ?_
  · refine (listed (remains (Bool.and_eq_true_iff.1 isList).1) (by omega)).bind fun target => ?_
    exact .look fun _ => .look fun _ => .pure _
  · split
    · exact .look fun target => .look fun _ => .look fun _ => .pure _
    · exact (Orderly.pure _).bind fun target => .look fun _ => .look fun _ => .pure _

/-- The rows of values are passed in order. -/
lemma orderly_valueRows (begun : high < top) (columns : List Column) :
    Orderly top low high (valueRows rules columns) := by
  refine .counted (.skipKeyword (fun _ => .commaSeparated (.counted ?_)) (.pure _))
  refine .acceptSymbol fun opening _ => .look fun first => ?_
  refine (Orderly.commaSeparated (orderly_expression (by omega))).bind fun values => ?_
  exact .acceptSymbol fun closing _ => .look fun _ => .look fun _ => .pure _

/-- Assignments are passed in order. -/
lemma orderly_assignments (begun : high < top) : Orderly top low high (assignments env table) := by
  refine .counted (.skipKeyword (fun _ => ?_) (.pure _))
  refine .look fun start => .look fun _ => .look fun first => ?_
  refine (Orderly.commaSeparated (.counted ?_)).bind fun columns => .look fun _ => .look fun _ => .pure _
  refine (orderly_listedColumn (by omega)).bind fun column => .acceptSymbol fun _ _ => ?_
  exact (orderly_expression (by omega)).bind fun value => .look fun _ => .pure _

/-- What to do with rows that are already there is passed in order. -/
lemma orderly_duplicateKeyUpdate (begun : high < top) :
    Orderly top low high (duplicateKeyUpdate rules table) := by
  refine .counted (.skipKeyword (fun _ => .acceptKeyword fun _ _ => ?_) (.pure _))
  refine .acceptKeyword fun _ _ => .acceptKeyword fun _ _ => ?_
  refine (Orderly.commaSeparated (.counted ?_)).bind fun _ => .pure _
  refine (orderly_expression (by omega)).bind fun left => .look fun column => ?_
  refine .ite (fun _ => .look fun _ => ?_) fun _ => ?_
  · exact .acceptSymbol fun _ _ => (orderly_expression (by omega)).bind fun _ => .pure _
  · exact .acceptSymbol fun _ _ => (orderly_expression (by omega)).bind fun _ => .pure _

/-- An insertion is passed in order. -/
lemma orderly_insert (begun : high < top) : Orderly top low high (insert env) := by
  refine .counted (.acceptKeyword fun _ _ => (Orderly.keyword _).bind fun _ => ?_)
  refine orderly_tableFactor.bind fun _ => ?_
  refine .look fun context => (orderly_targetColumns (by omega)).bind fun target => .look fun _ => ?_
  refine (orderly_valueRows (by omega) _).bind fun rows => ?_
  refine (orderly_assignments (by omega)).bind fun assigned => ?_
  refine .ite (fun _ => .still _) fun _ => (orderly_duplicateKeyUpdate (by omega)).bind fun _ => ?_
  exact .look fun _ => .pure _

/-- The end of the text is not passed. -/
lemma orderly_finish : Orderly top low high finish :=
  (Orderly.symbol _).bind fun _ => .look fun _ => .ite (fun _ => .pure _) fun _ => .still _

/-- A statement is passed in order. -/
lemma orderly_statement (begun : high < top) : Orderly top low high (statement env) := by
  refine .look fun isSelect => .look fun isInsert => .ite (fun _ => ?_) fun _ => ?_
  · refine (orderly_select begun).bind fun query => (Orderly.pure _).bind fun statement => ?_
    exact orderly_finish.bind fun _ => .pure _
  · refine .ite (fun _ => ?_) fun _ => .look fun statement => orderly_finish.bind fun _ => .pure _
    refine (orderly_insert begun).bind fun insertion => (Orderly.pure _).bind fun statement => ?_
    exact orderly_finish.bind fun _ => .pure _

end SqlRouting.Traced
