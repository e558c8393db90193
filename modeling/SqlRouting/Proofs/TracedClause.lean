import SqlRouting.Proofs.Level
import SqlRouting.Proofs.TracedExpression

/-!
# Traced clauses

The parsers of the clauses of a query with their events: conditions, tables with their joins, select lists,
orderings, groupings and limits. Each repetition in them goes on behind a comma, or behind a word that
joins.

## Main definitions

* `SqlRouting.Traced.predicates`, `SqlRouting.Traced.condition` — read predicates.
* `SqlRouting.Traced.tableReferences` — reads a list of tables with their joins.
* `SqlRouting.Traced.selectList`, `SqlRouting.Traced.ordering`, `SqlRouting.Traced.grouping`,
  `SqlRouting.Traced.limit` — read the other clauses.

## Main results

* `SqlRouting.Traced.orderly_predicates` — the events of a list of predicates are in order.
* `SqlRouting.Traced.orderly_tableReferences` — the events of a list of tables are in order.
-/

set_option autoImplicit false

namespace SqlRouting.Traced

open SqlRouting.Parser SqlRouting.Grammar Text

/-! ## Predicates -/

section Predicates

variable (rules : ShardingRule)

/-- The values after `IN`, if they are not those of a query. -/
def valueList : Traced (Option (List ExpressionNode)) := counted do
  if (← still peek) == .keyword .SELECT then
    skipParentheses
    return none
  else
    let _ ← acceptSymbol .leftParen
    let values ← commaSeparated (expression rules)
    let _ ← acceptSymbol .rightParen
    return some (values.map Expression.node)

/-- The two values after `BETWEEN`. -/
def range : Traced (ExpressionNode × ExpressionNode) := do
  let low ← expression rules
  let _ ← acceptKeyword .AND
  let high ← expression rules
  return (low.node, high.node)

/-- The rest of a predicate after `NOT`. -/
def negated : Traced Unit := counted do
  match ← still kind with
  | .keyword .IN =>
    let _ ← advance
    skipParentheses
  | .keyword .BETWEEN =>
    let _ ← advance
    let _ ← range rules
  | .keyword .LIKE =>
    let _ ← advance
    let _ ← expression rules
  | _ => still (unexpected .negatedPredicate)

/-- The rest of a predicate after `IS`. -/
def truthTest : Traced Unit := do
  let _ ← skipKeyword [.NOT]
  if ← skipKeyword [.NULL, .TRUE, .FALSE] then return ()
  else still (unexpected (.keyword .NULL))

/-- The rest of a predicate after its left side. -/
def comparison (column : Option Column) : Traced (Option RouteCondition) := do
  match ← still kind with
  | .symbol symbol =>
    if symbol == .eq then
      let _ ← advance
      let right ← expression rules
      return equalCondition? column right.node
    else if symbol.isComparison then
      let _ ← advance
      let _ ← expression rules
      return none
    else return none
  | .keyword .IN =>
    let _ ← advance
    match ← valueList rules with
    | some values => return withinCondition? column values
    | none => return none
  | .keyword .BETWEEN =>
    let _ ← advance
    let (low, high) ← range rules
    return betweenCondition? column low high
  | .keyword .NOT =>
    let _ ← advance
    negated rules
    return none
  | .keyword .LIKE =>
    let _ ← advance
    let _ ← expression rules
    return none
  | .keyword .IS =>
    let _ ← advance
    truthTest
    return none
  | _ => return none

/-- Reads a predicate. -/
def predicate : Traced (Option RouteCondition) := counted do
  let left ← expression rules
  let column := shardingColumn? rules (← still context).tables left.node
  comparison rules column

/-- Reads a list of predicates with at most `n` words between them. -/
def predicatesUpTo : Nat → Traced Predicates
  | 0 => bounded do
    let condition ← predicate rules
    return ⟨condition.toList, false⟩
  | n + 1 => do
    let left ← still remaining
    let condition ← predicate rules
    if ← skipKeyword [.AND] then
      return .cons condition false (← again left (predicatesUpTo n))
    else if ← skipKeyword [.OR] then
      return .cons condition true (← again left (predicatesUpTo n))
    else return ⟨condition.toList, false⟩

/-- Reads a list of predicates. -/
def predicates : Traced Predicates := counted do
  predicatesUpTo rules (← still remaining)

/-- Reads the condition of a query, if there is one. -/
def condition : Traced Unit := counted do
  if ← skipKeyword [.WHERE] then
    let read ← predicates rules
    still (modifyContext (·.addConditions read.routeConditions))
  else return ()

end Predicates

/-! ## Tables -/

/-- Reads the name of a table. -/
def tableName : Traced (String × Nat) := do
  let (first, span) ← acceptIdentifier
  if ← skipSymbol .dot then
    let (name, span) ← acceptIdentifier
    return (name, span.stop)
  else return (first, span.stop)

/-- Reads a named table with its alias. -/
def namedTable : Traced Unit := do
  let start ← still offset
  let (name, stop) ← tableName
  let span : Span := ⟨start, stop⟩
  let aliasName ← aliasName
  let table : Table := ⟨Text.unquoted name, aliasName⟩
  still (addEdit (.table span table.name (← still (textOf span))))
  still (modifyContext (·.addTable table))

/-- Reads one table with its alias. -/
def tableFactor : Traced Unit := counted do
  if ← still checkQueryInParentheses then
    still (unsupported .derivedTableInJoin (← still current).span)
  else if ← still (checkSymbol .leftParen) then
    skipParentheses
    let _ ← aliasName
  else namedTable

/-- Steps past the words of a join, if there are any. -/
def joinWords : Traced Bool := do
  if ← skipKeyword [.JOIN] then return true
  else if ← skipKeyword [.INNER, .CROSS] then
    let _ ← acceptKeyword .JOIN
    return true
  else if ← skipKeyword [.LEFT, .RIGHT, .FULL] then
    let _ ← skipKeyword [.OUTER]
    let _ ← acceptKeyword .JOIN
    return true
  else return false

/-- Reads the condition of a join, if there is one. -/
def joinCondition (rules : ShardingRule) : Traced Unit := do
  if ← skipKeyword [.ON] then
    let _ ← predicates rules
  else if ← skipKeyword [.USING] then skipParentheses
  else return ()

/-- Reads at most `n` joined tables. -/
def joinsUpTo (rules : ShardingRule) : Nat → Traced Unit
  | 0 => bounded (return ())
  | n + 1 => do
    let left ← still remaining
    if ← joinWords then
      tableFactor
      joinCondition rules
      again left (joinsUpTo rules n)
    else return ()

/-- Reads the tables joined with one before. -/
def joins (rules : ShardingRule) : Traced Unit := counted do
  joinsUpTo rules (← still remaining)

/-- Reads a list of tables with their joins. -/
def tableReferences (rules : ShardingRule) : Traced Unit := counted do
  let _ ← commaSeparated do
    tableFactor
    joins rules

/-! ## Select lists -/

instance : Rests calledAggregate? where
  stream_eq success := by rw [(run_calledAggregate_ok success).1]

instance : Rests starOwner? where
  stream_eq success := by rw [(run_starOwner_ok success).1]

/-- Reads an aggregate call with its alias. -/
def aggregateItem (rules : ShardingRule) (function : AggregateFunction) : Traced SelectItem := counted do
  let start ← still offset
  let _ ← advance
  let innerStart ← still offset
  skipParentheses
  let inner := unquoted (← still (textFrom innerStart))
  if ← still checkComposite then
    composite rules
    let text := unquoted (← still (textFrom start))
    return .plain text (← aliasName) false
  else return .aggregate ⟨function, inner, ← aliasName, []⟩

/-- Reads an expression with its alias. -/
def plainItem (rules : ShardingRule) : Traced SelectItem := do
  let expression ← expression rules
  let text := unquoted (← still (textOf expression.span))
  return .plain text (← aliasName) false

/-- Reads an item of a select list. -/
def selectItem (rules : ShardingRule) : Traced SelectItem := counted do
  if ← skipSymbol .star then return .star none
  else
    match ← still starOwner? with
    | some owner =>
      let _ ← advance
      let _ ← advance
      let _ ← advance
      return .star (some (unquoted owner))
    | none =>
      match ← still calledAggregate? with
      | some function => aggregateItem rules function
      | none => plainItem rules

/-- Reads a select list. -/
def selectList (rules : ShardingRule) (shape : ResultShape) : Traced ResultShape := counted do
  let distinct ← skipKeyword [.DISTINCT]
  if !distinct then
    let _ ← skipKeyword [.ALL]
  let items ← commaSeparated (selectItem rules)
  return {
    shape with
    items := shape.items ++ (if distinct then foldDistinct items else items)
    containsStar := shape.containsStar || items.any isStar
    selectListStop := ← still offset }

/-! ## Orderings and groupings -/

/-- Reads a direction. -/
def direction : Traced OrderDirection := do
  if ← skipKeyword [.DESC] then return .descending
  else
    let _ ← skipKeyword [.ASC]
    return .ascending

/-- Reads an item to order or group by. -/
def orderItem (rules : ShardingRule) (shape : ResultShape) : Traced OrderItem := counted do
  let expression ← expression rules
  let direction ← direction
  still (liftM (itemOf shape direction expression.span expression.node))

/-- Reads the ordering of a query, if there is one. -/
def ordering (rules : ShardingRule) (shape : ResultShape) : Traced ResultShape := counted do
  if ← skipKeyword [.ORDER] then
    let _ ← acceptKeyword .BY
    let items ← commaSeparated (orderItem rules shape)
    return { shape with orderBy := shape.orderBy ++ items }
  else return shape

/-- Reads the grouping of a query, if there is one, with the words that may follow it. -/
def grouping (dialect : Dialect) (rules : ShardingRule) (shape : ResultShape) :
    Traced ResultShape := counted do
  if ← skipKeyword [.GROUP] then
    let _ ← acceptKeyword .BY
    let items ← commaSeparated (orderItem rules shape)
    skipAllKeywords dialect.afterGroupBy
    return { shape with
      groupBy := shape.groupBy ++ items
      groupByStop := some (← still previousEnd) }
  else return shape

/-! ## Limits -/

instance (edits : List Edit) : Rests (edits.forM addEdit) where
  stream_eq success := by rw [addEdits_ok.1 success]; rfl

/-- Reads an operand of a limit. -/
def limitValue : Traced (LimitValue × Span) := counted do
  let token ← still current
  match token.kind with
  | .number literal =>
    let _ ← advance
    match Text.decimal64? literal with
    | some value => return (.literal value, token.span)
    | none => still (throw (.ofToken .nonNegativeInteger token.kind token.span))
  | .symbol .question => return (.placeholder (← placeholder), token.span)
  | _ => still (unexpected .limitValue)

/-- Reads the operands of a limit. -/
def limitOperands (style : LimitStyle) : Traced (Option (LimitValue × Span) × LimitValue × Span) :=
  do
  let first ← limitValue
  if style == .commaSeparated && (← still (checkSymbol .comma)) then
    let _ ← advance
    return (some first, ← limitValue)
  else if ← skipKeyword [.OFFSET] then return (some (← limitValue), first)
  else return (none, first)

/-- Reads the limit of a query, if there is one. -/
def limit (style : LimitStyle) (shape : ResultShape) : Traced ResultShape := counted do
  let start ← still offset
  if ← skipKeyword [.LIMIT] then
    let (skipped, rowCount) ← limitOperands style
    still ((skipped.toList.flatMap (limitEdit .offset) ++ limitEdit .rowCount rowCount).forM addEdit)
    return { shape with
      limit := some
        { offset := skipped.map (·.1)
          rowCount := some rowCount.1
          span := ⟨start, ← still previousEnd⟩ } }
  else return shape

/-! ## Without events -/

section Erasure

variable {rules : ShardingRule}

/-- The values after `IN`. -/
@[simp] lemma parser_valueList : (valueList rules).parser = Grammar.valueList rules := by
  simp [valueList, Grammar.valueList]

/-- The values after `BETWEEN`. -/
@[simp] lemma parser_range : (range rules).parser = Grammar.range rules := by
  simp [range, Grammar.range]

/-- The rest after `NOT`. -/
@[simp] lemma parser_negated : (negated rules).parser = Grammar.negated rules := by
  refine bind_congr fun kind => ?_
  split <;> simp

/-- The rest after `IS`. -/
@[simp] lemma parser_truthTest : truthTest.parser = Grammar.truthTest := by
  simp [truthTest, Grammar.truthTest]

/-- The rest after a left side. -/
@[simp] lemma parser_comparison (column : Option Column) :
    (comparison rules column).parser = Grammar.comparison rules column := by
  refine bind_congr fun kind => ?_
  split
  · simp
  · rw [parser_bind]
    refine bind_congr fun _ => ?_
    rw [parser_bind, parser_valueList]
    refine bind_congr fun values => ?_
    cases values <;> rfl
  · simp
  · simp
  · simp
  · simp
  · simp

/-- A predicate. -/
@[simp] lemma parser_predicate : (predicate rules).parser = Grammar.predicate rules := by
  simp [predicate, Grammar.predicate]

/-- At most `n` words between predicates. -/
lemma parser_predicatesUpTo (n : Nat) :
    (predicatesUpTo rules n).parser = Grammar.predicatesUpTo rules n := by
  induction n with
  | zero => simp [predicatesUpTo, Grammar.predicatesUpTo]
  | succ n ih => simp [predicatesUpTo, Grammar.predicatesUpTo, look_bind looks_remaining, ih]

/-- A list of predicates. -/
@[simp] lemma parser_predicates : (predicates rules).parser = Grammar.predicates rules := by
  simp [predicates, Grammar.predicates, parser_predicatesUpTo]

/-- A condition. -/
@[simp] lemma parser_condition : (condition rules).parser = Grammar.condition rules := by
  simp [condition, Grammar.condition]

/-- The name of a table. -/
@[simp] lemma parser_tableName : tableName.parser = Grammar.tableName := by
  simp [tableName, Grammar.tableName]

/-- A named table. -/
@[simp] lemma parser_namedTable : namedTable.parser = Grammar.namedTable := by
  simp [namedTable, Grammar.namedTable]

/-- One table. -/
@[simp] lemma parser_tableFactor : tableFactor.parser = Grammar.tableFactor := by
  simp [tableFactor, Grammar.tableFactor]

/-- The words of a join. -/
@[simp] lemma parser_joinWords : joinWords.parser = Grammar.joinWords := by
  simp [joinWords, Grammar.joinWords]

/-- The condition of a join. -/
@[simp] lemma parser_joinCondition : (joinCondition rules).parser = Grammar.joinCondition rules := by
  simp [joinCondition, Grammar.joinCondition]

/-- At most `n` joined tables. -/
lemma parser_joinsUpTo (n : Nat) : (joinsUpTo rules n).parser = Grammar.joinsUpTo rules n := by
  induction n with
  | zero => rfl
  | succ n ih => simp [joinsUpTo, Grammar.joinsUpTo, look_bind looks_remaining, ih]

/-- Joined tables. -/
@[simp] lemma parser_joins : (joins rules).parser = Grammar.joins rules := by
  simp [joins, Grammar.joins, parser_joinsUpTo]

/-- A list of tables. -/
@[simp] lemma parser_tableReferences :
    (tableReferences rules).parser = Grammar.tableReferences rules := by
  simp [tableReferences, Grammar.tableReferences]

/-- An aggregate call. -/
@[simp] lemma parser_aggregateItem (function : AggregateFunction) :
    (aggregateItem rules function).parser = Grammar.aggregateItem rules function := by
  simp [aggregateItem, Grammar.aggregateItem]

/-- A plain item. -/
@[simp] lemma parser_plainItem : (plainItem rules).parser = Grammar.plainItem rules := by
  simp [plainItem, Grammar.plainItem]

/-- An item of a select list. -/
@[simp] lemma parser_selectItem : (selectItem rules).parser = Grammar.selectItem rules := by
  rw [selectItem, parser_counted, parser_bind, parser_skipSymbol]
  refine bind_congr fun present => ?_
  cases present with
  | true => rfl
  | false =>
    refine bind_congr fun owner => ?_
    cases owner with
    | some owner => rfl
    | none =>
      refine bind_congr fun function => ?_
      cases function <;> simp

/-- A select list. -/
@[simp] lemma parser_selectList (shape : ResultShape) :
    (selectList rules shape).parser = Grammar.selectList rules shape := by
  simp [selectList, Grammar.selectList]

/-- A direction. -/
@[simp] lemma parser_direction : direction.parser = Grammar.direction := by
  simp [direction, Grammar.direction]

/-- An item to order or group by. -/
@[simp] lemma parser_orderItem (shape : ResultShape) :
    (orderItem rules shape).parser = Grammar.orderItem rules shape := by
  simp [orderItem, Grammar.orderItem]

/-- An ordering. -/
@[simp] lemma parser_ordering (shape : ResultShape) :
    (ordering rules shape).parser = Grammar.ordering rules shape := by
  simp [ordering, Grammar.ordering]

/-- A grouping. -/
@[simp] lemma parser_grouping (dialect : Dialect) (shape : ResultShape) :
    (grouping dialect rules shape).parser = Grammar.grouping dialect rules shape := by
  simp [grouping, Grammar.grouping]

/-- An operand of a limit. -/
@[simp] lemma parser_limitValue : limitValue.parser = Grammar.limitValue := by
  refine bind_congr fun ⟨kind, span⟩ => ?_
  cases kind with
  | number literal => exact bind_congr fun _ => by dsimp only; cases decimal64? literal <;> rfl
  | symbol symbol => cases symbol <;> rfl
  | _ => rfl

/-- The operands of a limit. -/
@[simp] lemma parser_limitOperands (style : LimitStyle) :
    (limitOperands style).parser = Grammar.limitOperands style := by
  simp [limitOperands, Grammar.limitOperands]

/-- A limit. -/
@[simp] lemma parser_limit (style : LimitStyle) (shape : ResultShape) :
    (limit style shape).parser = Grammar.limit style shape := by
  simp [limit, Grammar.limit]

end Erasure

/-! ## In order -/

variable {top low high : Nat} {rules : ShardingRule}

/-- The values after `IN` are passed in order. -/
lemma orderly_valueList (begun : high < top) : Orderly top low high (valueList rules) := by
  refine .counted (.look fun next => .ite (fun _ => ?_) fun _ => ?_)
  · exact Orderly.skipParentheses.bind fun _ => .pure _
  · refine .acceptSymbol fun _ _ => ?_
    refine (Orderly.commaSeparated (orderly_expression (by omega))).bind fun values => ?_
    exact .acceptSymbol fun _ _ => .pure _

/-- The values after `BETWEEN` are passed in order. -/
lemma orderly_range (begun : high < top) : Orderly top low high (range rules) := by
  refine (orderly_expression begun).bind fun low => .acceptKeyword fun _ _ => ?_
  exact (orderly_expression (by omega)).bind fun high => .pure _

/-- The rest of a predicate after `NOT` is passed in order. -/
lemma orderly_negated (begun : high < top) : Orderly top low high (negated rules) := by
  refine .counted (.see_kind fun kind left least most remains => ?_)
  split
  · exact .pass (remains (by simp)) fun _ => .skipParentheses
  · exact .pass (remains (by simp)) fun _ => (orderly_range (by omega)).bind fun _ => .pure _
  · exact .pass (remains (by simp)) fun _ => (orderly_expression (by omega)).bind fun _ => .pure _
  · exact .still _

/-- The rest of a predicate after `IS` is passed in order. -/
lemma orderly_truthTest : Orderly top low high truthTest :=
  (Orderly.keyword _).bind fun _ => .skipKeyword (fun _ => .pure _) (.still _)

/-- The rest of a predicate after its left side is passed in order. -/
lemma orderly_comparison (begun : high < top) (column : Option Column) :
    Orderly top low high (comparison rules column) := by
  refine .see_kind fun kind left least most remains => ?_
  split
  · refine .ite (fun _ => ?_) fun _ => .ite (fun _ => ?_) fun _ => .pure _
    · exact .pass (remains (by simp)) fun _ => (orderly_expression (by omega)).bind fun _ => .pure _
    · exact .pass (remains (by simp)) fun _ => (orderly_expression (by omega)).bind fun _ => .pure _
  · refine .pass (remains (by simp)) fun _ => (orderly_valueList (by omega)).bind fun values => ?_
    split
    · exact .pure _
    · exact .pure _
  · exact .pass (remains (by simp)) fun _ => (orderly_range (by omega)).bind fun _ => .pure _
  · exact .pass (remains (by simp)) fun _ => (orderly_negated (by omega)).bind fun _ => .pure _
  · exact .pass (remains (by simp)) fun _ => (orderly_expression (by omega)).bind fun _ => .pure _
  · exact .pass (remains (by simp)) fun _ => orderly_truthTest.bind fun _ => .pure _
  · exact .pure _

/-- A predicate is passed in order. -/
lemma orderly_predicate (begun : high < top) : Orderly top low high (predicate rules) :=
  .counted ((orderly_expression begun).bind fun _ => .look fun _ => orderly_comparison begun _)

/-- A list of predicates is passed in order. Behind each predicate of it but the last a word is passed. -/
lemma orderly_predicates (begun : high < top) : Orderly top low high (predicates rules) := by
  have upTo (n : Nat) : ∀ {low high}, high < top → high ≤ n →
      Orderly top low high (predicatesUpTo rules n) := by
    induction n with
    | zero =>
      exact fun begun enough =>
        .bounded (Nat.le_zero.1 enough) ((orderly_predicate begun).bind fun _ => .pure _)
    | succ n ih =>
      intro low high begun enough
      refine .see_remaining fun left least most => (orderly_predicate (by omega)).bind fun condition => ?_
      have next (remains : 1 ≤ left) : Orderly top (0 - 1) (left - 1) (again left (predicatesUpTo rules n)) :=
        .again (by omega) (ih (by omega) (by omega))
      refine .skipKeyword (fun remains => (next remains).bind fun _ => .pure _) ?_
      exact .skipKeyword (fun remains => (next remains).bind fun _ => .pure _) (.pure _)
  exact .counted (.see_remaining fun left least most => upTo left (by omega) (Nat.le_refl _))

/-- The condition of a query is passed in order. -/
lemma orderly_condition (begun : high < top) : Orderly top low high (condition rules) :=
  .counted (.skipKeyword (fun _ => (orderly_predicates (by omega)).bind fun _ => .still _) (.pure _))

/-- The name of a table is passed in order. -/
lemma orderly_tableName : Orderly top low high tableName :=
  .acceptIdentifier fun _ _ => .skipSymbol (fun _ => .acceptIdentifier fun _ _ => .pure _) (.pure _)

/-- A named table is passed in order. -/
lemma orderly_namedTable : Orderly top low high namedTable := by
  refine .look fun start => orderly_tableName.bind fun name => orderly_aliasName.bind fun aliasName => ?_
  exact .look fun text => (Orderly.still _).bind fun _ => .still _

/-- One table is passed in order. -/
lemma orderly_tableFactor : Orderly top low high tableFactor := by
  refine .counted (.look fun derived => .ite (fun _ => .look fun token => .still _) fun _ => ?_)
  refine .look fun opened => .ite (fun _ => ?_) fun _ => orderly_namedTable
  exact Orderly.skipParentheses.bind fun _ => orderly_aliasName.bind fun _ => .pure _

/-- The words of a join are passed in order. -/
lemma orderly_joinWords : Orderly top low high joinWords := by
  refine .skipKeyword (fun _ => .pure _) (.skipKeyword (fun _ => ?_) (.skipKeyword (fun _ => ?_) (.pure _)))
  · exact .acceptKeyword fun _ _ => .pure _
  · exact (Orderly.keyword _).bind fun _ => .acceptKeyword fun _ _ => .pure _

/-- The condition of a join is passed in order. -/
lemma orderly_joinCondition (begun : high < top) : Orderly top low high (joinCondition rules) := by
  refine .skipKeyword (fun _ => (orderly_predicates (by omega)).bind fun _ => .pure _) ?_
  exact .skipKeyword (fun _ => .skipParentheses) (.pure _)

/-- Joined tables are passed in order. Each of them stands behind the words of its join. -/
lemma orderly_joins (begun : high < top) : Orderly top low high (joins rules) := by
  have upTo (n : Nat) : ∀ {low high}, high < top → high ≤ n →
      Orderly top low high (joinsUpTo rules n) := by
    induction n with
    | zero => exact fun _ enough => .bounded (Nat.le_zero.1 enough) (.pure _)
    | succ n ih =>
      intro low high begun enough
      refine .see_remaining fun left least most => ?_
      refine orderly_joinWords.bind_of fun {s joined s'} _ most' read _ => ?_
      refine .ite (fun isJoined => ?_) fun _ => .pure _
      have fewer : s'.stream.remaining < left := by
        rw [parser_joinWords, isJoined] at read
        rcases joinWords_reads read with ⟨-, words, isJoin, run⟩ | ⟨noJoin, -⟩
        · have passed := run.remaining_eq
          have nonempty : 0 < words.length := by cases isJoin <;> exact Nat.succ_pos _
          omega
        · cases noJoin
      refine orderly_tableFactor.bind fun _ => (orderly_joinCondition (by omega)).bind fun _ => ?_
      exact .again fewer (ih (by omega) (by omega))
  exact .counted (.see_remaining fun left least most => upTo left (by omega) (Nat.le_refl _))

/-- A list of tables is passed in order. -/
lemma orderly_tableReferences (begun : high < top) : Orderly top low high (tableReferences rules) :=
  .counted ((Orderly.commaSeparated (orderly_tableFactor.bind fun _ => orderly_joins begun)).bind
    fun _ => .pure _)

/-- An aggregate call is passed in order. -/
lemma orderly_aggregateItem {left : Nat} (remains : 1 ≤ left) (begun : left < top)
    (function : AggregateFunction) : Orderly top left left (aggregateItem rules function) := by
  refine .counted (.look fun start => .pass remains fun _ => .look fun innerStart => ?_)
  refine Orderly.skipParentheses.bind fun _ => .look fun inner => .look fun joined => ?_
  refine .ite (fun _ => ?_) fun _ => orderly_aliasName.bind fun _ => .pure _
  refine (orderly_composite (by omega)).bind fun _ => .look fun text => ?_
  exact orderly_aliasName.bind fun _ => .pure _

/-- A plain item is passed in order. -/
lemma orderly_plainItem (begun : high < top) : Orderly top low high (plainItem rules) :=
  (orderly_expression begun).bind fun _ => .look fun _ => orderly_aliasName.bind fun _ => .pure _

/-- An item of a select list is passed in order. -/
lemma orderly_selectItem (begun : high < top) : Orderly top low high (selectItem rules) := by
  refine .counted (.skipSymbol (fun _ => .pure _) ?_)
  have three {s : ParserState} {found : Option String} {s' : ParserState}
      (success : starOwner?.run s = .ok (found, s')) (isSome : found.isSome = true) :
      3 ≤ s.stream.remaining := by
    obtain ⟨owner, rfl⟩ := Option.isSome_iff_exists.1 isSome
    obtain ⟨isOwner, isDot, isStar⟩ := (run_starOwner_ok success).2 owner rfl
    have tail : s.stream.advance.advance.remaining = s.stream.remaining - 1 - 1 := by
      rw [TokenStream.remaining, TokenStream.advance, List.length_tail, TokenStream.advance, List.length_tail,
        TokenStream.remaining]
    have last := TokenStream.remaining_pos isStar (by simp)
    omega
  have one {s : ParserState} {found : Option AggregateFunction} {s' : ParserState}
      (success : calledAggregate?.run s = .ok (found, s')) (isSome : found.isSome = true) :
      1 ≤ s.stream.remaining := by
    obtain ⟨function, rfl⟩ := Option.isSome_iff_exists.1 isSome
    obtain ⟨keyword, isKeyword⟩ := (run_calledAggregate_ok success).2 function rfl
    exact TokenStream.remaining_pos isKeyword (by simp)
  refine .see (S := fun found left => found.isSome = true → 3 ≤ left) three
    fun owner left _ most remains => ?_
  cases owner with
  | some owner =>
    have remains := remains rfl
    exact .pass (by omega) fun _ => .pass (by omega) fun _ => .pass (by omega) fun _ => .pure _
  | none =>
    refine .see (S := fun found left => found.isSome = true → 1 ≤ left) one
      fun found left' _ most' remains' => ?_
    cases found with
    | some function => exact orderly_aggregateItem (remains' rfl) (by omega) function
    | none => exact orderly_plainItem (by omega)

/-- A select list is passed in order. -/
lemma orderly_selectList (begun : high < top) (shape : ResultShape) :
    Orderly top low high (selectList rules shape) := by
  refine .counted ((Orderly.keyword _).bind fun distinct => .ite (fun _ => ?_) fun _ => ?_)
  · refine (Orderly.keyword _).bind fun _ => ?_
    exact (Orderly.commaSeparated (orderly_selectItem begun)).bind fun _ => .look fun _ => .pure _
  · exact (Orderly.commaSeparated (orderly_selectItem begun)).bind fun _ => .look fun _ => .pure _

/-- A direction is passed in order. -/
lemma orderly_direction : Orderly top low high direction :=
  .skipKeyword (fun _ => .pure _) ((Orderly.keyword _).bind fun _ => .pure _)

/-- An item to order or group by is passed in order. -/
lemma orderly_orderItem (begun : high < top) (shape : ResultShape) :
    Orderly top low high (orderItem rules shape) :=
  .counted ((orderly_expression begun).bind fun _ => orderly_direction.bind fun _ => .still _)

/-- An ordering is passed in order. -/
lemma orderly_ordering (begun : high < top) (shape : ResultShape) :
    Orderly top low high (ordering rules shape) := by
  refine .counted (.skipKeyword (fun _ => .acceptKeyword fun _ _ => ?_) (.pure _))
  exact (Orderly.commaSeparated (orderly_orderItem (by omega) shape)).bind fun _ => .pure _

/-- A grouping is passed in order. -/
lemma orderly_grouping (begun : high < top) (dialect : Dialect) (shape : ResultShape) :
    Orderly top low high (grouping dialect rules shape) := by
  refine .counted (.skipKeyword (fun _ => .acceptKeyword fun _ _ => ?_) (.pure _))
  refine (Orderly.commaSeparated (orderly_orderItem (by omega) shape)).bind fun _ => ?_
  exact (Orderly.skipAllKeywords _).bind fun _ => .look fun _ => .pure _

/-- An operand of a limit is passed in order. -/
lemma orderly_limitValue : Orderly top low high limitValue := by
  refine .counted (.see_current fun token left least most remains => ?_)
  split <;> rename_i same
  · refine .pass (remains (by simp [same])) fun _ => ?_
    split
    · exact .pure _
    · exact .still _
  · exact (Orderly.placeholder (remains (by simp [same]))).bind fun _ => .pure _
  · exact .still _

/-- The operands of a limit are passed in order. -/
lemma orderly_limitOperands (style : LimitStyle) : Orderly top low high (limitOperands style) := by
  refine orderly_limitValue.bind fun first => .see_symbol fun isComma left least most remains => ?_
  refine .ite (fun isFirst => ?_) fun _ => .skipKeyword (fun _ => ?_) (.pure _)
  · exact .pass (remains (Bool.and_eq_true_iff.1 isFirst).2) fun _ => orderly_limitValue.bind fun _ => .pure _
  · exact orderly_limitValue.bind fun _ => .pure _

/-- A limit is passed in order. -/
lemma orderly_limit (style : LimitStyle) (shape : ResultShape) :
    Orderly top low high (limit style shape) := by
  refine .counted (.look fun start => .skipKeyword (fun _ => ?_) (.pure _))
  refine (orderly_limitOperands style).bind fun operands => ?_
  exact (Orderly.still _).bind fun _ => .look fun _ => .pure _

end SqlRouting.Traced
