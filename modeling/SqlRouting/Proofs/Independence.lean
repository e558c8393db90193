import SqlRouting.Proofs.Consultation

/-!
# What a parse depends on

A statement is read in the same way, with the same result or the same error, under any two
configurations that agree on the names in it. So the rules of tables that the statement does not name,
and how the shard of any table is computed, have no influence.

## Main results

* `SqlRouting.Grammar.alike_expression`, `SqlRouting.Grammar.alike_select`,
  `SqlRouting.Grammar.alike_insert` — the parsers run alike under configurations that agree.
* `SqlRouting.Statement.ofText_congr` — the statement of a text depends on what is configured for its
  names.
-/

set_option autoImplicit false

namespace SqlRouting

namespace Grammar

open SqlRouting.Parser TokenStream

variable {names : List String} {rules rules' : ShardingRule} {env env' : Environment}

/-! ## Expressions -/

section Parts

variable {operand operand' : Parser Expression} (like : Alike names (fun _ => True) operand operand')

/-- A shape that is a name alone has a name in the list. -/
def BareIn (names : List String) (node : ExpressionNode) : Prop :=
  ∀ name, node = .bare name → name ∈ names

/-- The source text from some place on is no name alone. -/
lemma alike_text (start : Nat) : Alike names (BareIn names) (do return .other (← textFrom start))
    (do return .other (← textFrom start)) :=
  (Alike.looks (looks_textFrom start)).bind fun _ _ => .pure (by simp [BareIn])

include like

/-- Operators run alike if their operands do. -/
lemma alike_compositeWith : Alike names (fun _ => True) (compositeWith operand) (compositeWith operand') := by
  have upTo (n : Nat) :
      Alike names (fun _ => True) (compositeUpTo operand n) (compositeUpTo operand' n) := by
    induction n with
    | zero => exact .pure trivial
    | succ n ih =>
      refine (Alike.looks looks_checkComposite).bind fun present _ => .ite ?_ (.pure trivial)
      exact Alike.advance.bind fun _ _ => like.bind fun _ _ => ih
  exact (Alike.looks looks_remaining).bind fun n _ => upTo n

/-- An operator of one operand runs alike if the operand does. -/
lemma alike_unaryWith (start : Nat) :
    Alike names (BareIn names) (unaryWith operand start) (unaryWith operand' start) :=
  Alike.advance.bind fun _ _ => like.bind fun _ _ => alike_text start

/-- A sign runs alike if operands do. -/
lemma alike_signedWith (start : Nat) (sign : String) :
    Alike names (BareIn names) (signedWith operand start sign) (signedWith operand' start sign) := by
  refine (Alike.looks looks_peek).bind fun next _ => ?_
  split
  · exact Alike.advance.bind fun _ _ => Alike.advance.bind fun _ _ => .pure (by simp [BareIn])
  · exact alike_unaryWith like start

/-- What starts with a keyword runs alike if operands do. -/
lemma alike_keywordWith (start : Nat) (keyword : Keyword) :
    Alike names (BareIn names) (keywordWith operand start keyword)
      (keywordWith operand' start keyword) := by
  refine .ite (alike_unaryWith like start) (.ite ?_ ?_)
  · exact (Alike.skipGroup _).bind fun _ _ => alike_text start
  · refine (Alike.looks looks_peek).bind fun next _ => .ite ?_ (.unexpected _)
    exact Alike.advance.bind fun _ _ => alike_text start

/-- What starts with a symbol runs alike if operands do. -/
lemma alike_symbolWith (start : Nat) (symbol : Symbol) :
    Alike names (BareIn names) (symbolWith operand start symbol) (symbolWith operand' start symbol) := by
  unfold symbolWith
  split
  · exact Alike.placeholder.bind fun _ _ => .pure (by simp [BareIn])
  · exact alike_signedWith like start _
  · exact alike_signedWith like start _
  · exact alike_unaryWith like start
  · exact alike_unaryWith like start
  · exact (Alike.runs runs_skipParentheses).bind fun _ _ => alike_text start
  · exact .unexpected _

/-- The part of an expression before any operator or arguments runs alike if operands do. -/
lemma alike_primaryWith :
    Alike names (BareIn names) (primaryWith operand) (primaryWith operand') := by
  refine (Alike.looks looks_offset).bind fun start _ => ?_
  refine Alike.kind.bind fun kind inNames => ?_
  split
  · exact Alike.advance.bind fun _ _ => .pure (by simp [BareIn])
  · exact Alike.advance.bind fun _ _ => .pure (by simp [BareIn])
  · refine Alike.advance.bind fun _ _ => .pure ?_
    rintro name ⟨⟩
    exact inNames _ List.mem_cons_self
  · exact Alike.advance.bind fun _ _ => alike_text start
  · exact alike_keywordWith like start _
  · exact alike_symbolWith like start _
  · exact .unexpected _

/-- A reference runs alike if operands do, for its owner is a name in the list. -/
lemma alike_referenceWith (agree : ShardingRule.AgreeOn names rules rules') (start : Nat)
    {node : ExpressionNode} (bare : BareIn names node) : Alike names (fun _ => True)
      (referenceWith operand rules start node) (referenceWith operand' rules' start node) := by
  unfold referenceWith
  split
  · rename_i owner
    refine (Alike.looks (looks_checkSymbol _)).bind fun isDot _ => .ite ?_ (.pure trivial)
    refine Alike.advance.bind fun dot _ => ?_
    have name : Alike names (fun _ => True) columnName columnName := by
      refine (Alike.looks looks_current).bind fun token _ => ?_
      split
      · exact .pure trivial
      · exact Alike.looks (looks_textOf _)
      · exact .pure trivial
      · exact .unexpected _
    have record (span : Span) :
        Alike names (fun _ => True) (recordOwner rules owner span) (recordOwner rules' owner span) := by
      rw [recordOwner, recordOwner, agree.isSome_find (bare owner rfl)]
      refine .ite ((Alike.looks (looks_textOf span)).bind fun _ _ => .addEdit _) (.pure trivial)
    refine name.bind fun _ _ => Alike.advance.bind fun _ _ => (record _).bind fun _ _ => ?_
    refine (Alike.looks looks_checkComposite).bind fun _ _ => .ite ?_ (.pure trivial)
    exact (alike_compositeWith like).bind fun _ _ =>
      (Alike.looks (looks_textFrom _)).bind fun _ _ => .pure trivial
  · exact .pure trivial

/-- An expression runs alike if operands do. -/
lemma alike_expressionWith (agree : ShardingRule.AgreeOn names rules rules') :
    Alike names (fun _ => True) (expressionWith operand rules) (expressionWith operand' rules') := by
  have text (start : Nat) : Alike names (fun _ => True) (do return .other (← textFrom start))
      (do return .other (← textFrom start) : Parser ExpressionNode) :=
    (alike_text start).mono fun _ _ => trivial
  refine (Alike.looks looks_offset).bind fun start _ => ?_
  refine (alike_primaryWith like).bind fun node bare => ?_
  refine (alike_referenceWith like agree start bare).bind fun node _ => ?_
  refine Alike.bind (?_ : Alike names (fun _ => True) _ _) fun node _ =>
    Alike.bind (?_ : Alike names (fun _ => True) _ _) fun node _ =>
      (Alike.looks looks_previousEnd).bind fun _ _ => .pure trivial
  · refine (Alike.looks (looks_checkSymbol _)).bind fun _ _ => .ite ?_ (.pure trivial)
    exact (Alike.runs runs_skipParentheses).bind fun _ _ => text start
  · refine (Alike.looks looks_checkComposite).bind fun _ _ => .ite ?_ (.pure trivial)
    exact (alike_compositeWith like).bind fun _ _ => text start

end Parts

/-- The column that an expression denotes is one of a known table. -/
lemma exists_table_of_column {tables : Tables} {node : ExpressionNode} {column : Column}
    (denotes : column? tables node = some column) :
    ∃ table ∈ tables.toList, table.name = column.tableName := by
  unfold column? at denotes
  split at denotes
  · obtain ⟨table, found, rfl⟩ := Option.map_eq_some_iff.1 denotes
    exact ⟨table, Tables.mem_of_find found, rfl⟩
  · split at denotes
    · obtain ⟨name, first, rfl⟩ := Option.map_eq_some_iff.1 denotes
      obtain ⟨table, isFirst, rfl⟩ := Option.map_eq_some_iff.1 first
      exact ⟨table, List.mem_of_mem_head? isFirst, rfl⟩
    · cases denotes
  · cases denotes

section Rules

variable (agree : ShardingRule.AgreeOn names rules rules')

include agree

/-- Expressions run alike under rules that agree. -/
lemma alike_expression : Alike names (fun _ => True) (expression rules) (expression rules') := by
  have upTo (n : Nat) :
      Alike names (fun _ => True) (expressionUpTo rules n) (expressionUpTo rules' n) := by
    induction n with
    | zero => exact .unexpected _
    | succ n ih => exact alike_expressionWith ih agree
  exact (Alike.looks looks_remaining).bind fun n _ => upTo n

/-! ## Predicates -/

/-- Values after `IN` run alike. -/
lemma alike_valueList : Alike names (fun _ => True) (valueList rules) (valueList rules') := by
  refine (Alike.looks looks_peek).bind fun _ _ => .ite ?_ ?_
  · exact (Alike.runs runs_skipParentheses).bind fun _ _ => .pure trivial
  · refine (Alike.runs (runs_acceptSymbol (by decide))).bind fun _ _ => ?_
    refine (alike_expression agree).commaSeparated.bind fun _ _ => ?_
    exact (Alike.runs (runs_acceptSymbol (by decide))).bind fun _ _ => .pure trivial

/-- Values after `BETWEEN` run alike. -/
lemma alike_range : Alike names (fun _ => True) (range rules) (range rules') :=
  (alike_expression agree).bind fun _ _ => (Alike.runs (runs_acceptKeyword _)).bind fun _ _ =>
    (alike_expression agree).bind fun _ _ => .pure trivial

/-- What comes after `NOT` runs alike. -/
lemma alike_negated : Alike names (fun _ => True) (negated rules) (negated rules') := by
  refine (Alike.looks looks_kind).bind fun kind _ => ?_
  split
  · exact Alike.advance.bind fun _ _ => .runs runs_skipParentheses
  · exact Alike.advance.bind fun _ _ => (alike_range agree).bind fun _ _ => .pure trivial
  · exact Alike.advance.bind fun _ _ => (alike_expression agree).bind fun _ _ => .pure trivial
  · exact .unexpected _

/-- The rest of a predicate runs alike. -/
lemma alike_comparison (column : Option Column) :
    Alike names (fun _ => True) (comparison rules column) (comparison rules' column) := by
  refine (Alike.looks looks_kind).bind fun kind _ => ?_
  split
  · refine .ite ?_ (.ite ?_ (.pure trivial))
    · exact Alike.advance.bind fun _ _ => (alike_expression agree).bind fun _ _ => .pure trivial
    · exact Alike.advance.bind fun _ _ => (alike_expression agree).bind fun _ _ => .pure trivial
  · refine Alike.advance.bind fun _ _ => (alike_valueList agree).bind fun values _ => ?_
    split <;> exact .pure trivial
  · exact Alike.advance.bind fun _ _ => (alike_range agree).bind fun _ _ => .pure trivial
  · exact Alike.advance.bind fun _ _ => (alike_negated agree).bind fun _ _ => .pure trivial
  · exact Alike.advance.bind fun _ _ => (alike_expression agree).bind fun _ _ => .pure trivial
  · refine Alike.advance.bind fun _ _ => ?_
    refine Alike.bind (?_ : Alike names (fun _ => True) _ _) fun _ _ => .pure trivial
    refine (Alike.runs (runs_skipKeyword _)).bind fun _ _ =>
      (Alike.runs (runs_skipKeyword _)).bind fun _ _ => .ite (.pure trivial) (.unexpected _)
  · exact .pure trivial

/-- Whether an expression denotes a sharding column is told by the rules of the tables. -/
lemma shardingColumn_congr {tables : Tables} (inNames : ∀ table ∈ tables.toList, table.name ∈ names)
    (node : ExpressionNode) : shardingColumn? rules tables node = shardingColumn? rules' tables node := by
  unfold shardingColumn?
  cases denoted : column? tables node with
  | none => rfl
  | some column =>
    obtain ⟨table, mem, same⟩ := exists_table_of_column denoted
    have known : column.tableName ∈ names := same ▸ inNames table mem
    simp only [Option.filter_some, agree.isShardingColumn known]

/-- Predicates run alike. -/
lemma alike_predicates : Alike names (fun _ => True) (predicates rules) (predicates rules') := by
  have single : Alike names (fun _ => True) (predicate rules) (predicate rules') := by
    refine (alike_expression agree).bind fun left _ => ?_
    refine Alike.context.bind fun context inNames => ?_
    rw [shardingColumn_congr agree inNames]
    exact alike_comparison agree _
  have upTo (n : Nat) :
      Alike names (fun _ => True) (predicatesUpTo rules n) (predicatesUpTo rules' n) := by
    induction n with
    | zero => exact single.bind fun _ _ => .pure trivial
    | succ n ih =>
      refine single.bind fun condition _ => (Alike.runs (runs_skipKeyword _)).bind fun _ _ => .ite ?_ ?_
      · exact ih.bind fun _ _ => .pure trivial
      · refine (Alike.runs (runs_skipKeyword _)).bind fun _ _ => .ite ?_ (.pure trivial)
        exact ih.bind fun _ _ => .pure trivial
  exact (Alike.looks looks_remaining).bind fun n _ => upTo n

/-- The condition of a query runs alike. -/
lemma alike_condition : Alike names (fun _ => True) (condition rules) (condition rules') := by
  refine (Alike.runs (runs_skipKeyword _)).bind fun _ _ => .ite ?_ (.pure trivial)
  exact (alike_predicates agree).bind fun _ _ => .recordPlain fun _ => rfl

/-! ## Tables -/

omit agree in
/-- A table with its alias runs like itself, and has a name in the list. -/
lemma alike_tableFactor : Alike names (fun _ => True) tableFactor tableFactor := by
  have identifier : Alike names (fun read => ∀ name ∈ (TokenKind.identifier read.1).names, name ∈ names)
      acceptIdentifier acceptIdentifier := by
    intro s within
    refine ⟨rfl, fun read s' success => ?_⟩
    obtain ⟨name, span⟩ := read
    obtain ⟨isName, -, rfl⟩ := run_acceptIdentifier_ok.1 success
    obtain ⟨passed, -⟩ := (Alike.advance s within).2 _ _ rfl
    refine ⟨passed, fun other mem => within.current other ?_⟩
    rwa [isName]
  have tableName : Alike names (fun read => Text.unquoted read.1 ∈ names) tableName tableName := by
    refine identifier.bind fun first inNames => ?_
    obtain ⟨first, span⟩ := first
    refine (Alike.edits (runs_skipSymbol (by decide))).bind fun _ _ => .ite ?_ ?_
    · refine identifier.bind fun name inNames => .pure ?_
      exact inNames _ (by simp [TokenKind.names])
    · exact .pure (inNames _ (by simp [TokenKind.names]))
  refine (Alike.looks looks_checkQueryInParentheses).bind fun _ _ => .ite ?_ ?_
  · exact (Alike.looks looks_current).bind fun _ _ => .unsupported _ _
  · refine (Alike.looks (looks_checkSymbol _)).bind fun _ _ => .ite ?_ ?_
    · exact (Alike.runs runs_skipParentheses).bind fun _ _ =>
        (Alike.edits runs_aliasName).bind fun _ _ => .pure trivial
    · refine (Alike.looks looks_offset).bind fun start _ => tableName.bind fun read inNames => ?_
      obtain ⟨name, stop⟩ := read
      refine (Alike.edits runs_aliasName).bind fun aliasName _ => ?_
      refine (Alike.looks (looks_textOf _)).bind fun _ _ => (Alike.addEdit _).bind fun _ _ => ?_
      refine .record fun context known => Tables.forall_add known inNames

/-- Joined tables run alike. -/
lemma alike_joins : Alike names (fun _ => True) (joins rules) (joins rules') := by
  have joinCondition : Alike names (fun _ => True) (joinCondition rules) (joinCondition rules') := by
    refine (Alike.runs (runs_skipKeyword _)).bind fun _ _ => .ite ?_ ?_
    · exact (alike_predicates agree).bind fun _ _ => .pure trivial
    · exact (Alike.runs (runs_skipKeyword _)).bind fun _ _ =>
        .ite (.runs runs_skipParentheses) (.pure trivial)
  have joinWords : Alike names (fun _ => True) joinWords joinWords := by
    refine (Alike.runs (runs_skipKeyword _)).bind fun _ _ => .ite (.pure trivial) ?_
    refine (Alike.runs (runs_skipKeyword _)).bind fun _ _ => .ite ?_ ?_
    · exact (Alike.runs (runs_acceptKeyword _)).bind fun _ _ => .pure trivial
    · refine (Alike.runs (runs_skipKeyword _)).bind fun _ _ => .ite ?_ (.pure trivial)
      exact (Alike.runs (runs_skipKeyword _)).bind fun _ _ =>
        (Alike.runs (runs_acceptKeyword _)).bind fun _ _ => .pure trivial
  have upTo (n : Nat) : Alike names (fun _ => True) (joinsUpTo rules n) (joinsUpTo rules' n) := by
    induction n with
    | zero => exact .pure trivial
    | succ n ih =>
      refine joinWords.bind fun _ _ => .ite ?_ (.pure trivial)
      exact alike_tableFactor.bind fun _ _ => joinCondition.bind fun _ _ => ih
  exact (Alike.looks looks_remaining).bind fun n _ => upTo n

/-- Lists of tables run alike. -/
lemma alike_tableReferences :
    Alike names (fun _ => True) (tableReferences rules) (tableReferences rules') := by
  have item : Alike names (fun _ => True) (do tableFactor; joins rules) (do tableFactor; joins rules') :=
    alike_tableFactor.bind fun _ _ => alike_joins agree
  exact item.commaSeparated.bind fun _ _ => .pure trivial

/-! ## Select lists, grouping and ordering -/

/-- Items of a select list run alike. -/
lemma alike_selectItem : Alike names (fun _ => True) (selectItem rules) (selectItem rules') := by
  have owner : Alike names (fun _ => True) starOwner? starOwner? := by
    refine Alike.kind.bind fun _ _ => ?_
    split
    · exact (Alike.looks looks_stream).bind fun _ _ => .ite (.pure trivial) (.pure trivial)
    · exact .pure trivial
  have called : Alike names (fun _ => True) calledAggregate? calledAggregate? := by
    refine Alike.kind.bind fun _ _ => ?_
    split
    · exact (Alike.looks looks_peek).bind fun _ _ => .ite (.pure trivial) (.pure trivial)
    · exact .pure trivial
  have aliasName : Alike names (fun _ => True) aliasName aliasName := .edits runs_aliasName
  have aggregate (function : AggregateFunction) :
      Alike names (fun _ => True) (aggregateItem rules function) (aggregateItem rules' function) := by
    refine (Alike.looks looks_offset).bind fun start _ => Alike.advance.bind fun _ _ => ?_
    refine (Alike.looks looks_offset).bind fun _ _ => (Alike.runs runs_skipParentheses).bind fun _ _ => ?_
    refine (Alike.looks (looks_textFrom _)).bind fun _ _ =>
      (Alike.looks looks_checkComposite).bind fun _ _ => .ite ?_ ?_
    · refine (alike_compositeWith (alike_expression agree)).bind fun _ _ => ?_
      exact (Alike.looks (looks_textFrom _)).bind fun _ _ => aliasName.bind fun _ _ => .pure trivial
    · exact aliasName.bind fun _ _ => .pure trivial
  refine (Alike.edits (runs_skipSymbol (by decide))).bind fun _ _ => .ite (.pure trivial) ?_
  refine owner.bind fun owner? _ => ?_
  split
  · exact Alike.advance.bind fun _ _ => Alike.advance.bind fun _ _ => Alike.advance.bind fun _ _ =>
      .pure trivial
  · refine called.bind fun function? _ => ?_
    split
    · exact aggregate _
    · exact (alike_expression agree).bind fun _ _ => (Alike.looks (looks_textOf _)).bind fun _ _ =>
        aliasName.bind fun _ _ => .pure trivial

/-- Select lists run alike. -/
lemma alike_selectList (shape : ResultShape) :
    Alike names (fun _ => True) (selectList rules shape) (selectList rules' shape) := by
  have rest (distinct : Bool) : Alike names (fun _ => True)
      (do
        let items ← commaSeparated (selectItem rules)
        return {
          shape with
          items := shape.items ++ (if distinct then foldDistinct items else items)
          containsStar := shape.containsStar || items.any isStar
          selectListStop := ← offset } : Parser ResultShape)
      (do
        let items ← commaSeparated (selectItem rules')
        return {
          shape with
          items := shape.items ++ (if distinct then foldDistinct items else items)
          containsStar := shape.containsStar || items.any isStar
          selectListStop := ← offset }) :=
    (alike_selectItem agree).commaSeparated.bind fun _ _ =>
      (Alike.looks looks_offset).bind fun _ _ => .pure trivial
  refine (Alike.runs (runs_skipKeyword _)).bind fun distinct _ => .ite ?_ (rest _)
  exact (Alike.runs (runs_skipKeyword _)).bind fun _ _ => rest _

/-- Items to order or group by run alike. -/
lemma alike_orderItem (shape : ResultShape) :
    Alike names (fun _ => True) (orderItem rules shape) (orderItem rules' shape) :=
  (alike_expression agree).bind fun _ _ => (Alike.edits runs_direction).bind fun _ _ =>
    .edits (runs_lift _)

/-- The ordering runs alike. -/
lemma alike_ordering (shape : ResultShape) :
    Alike names (fun _ => True) (ordering rules shape) (ordering rules' shape) := by
  refine (Alike.runs (runs_skipKeyword _)).bind fun _ _ => .ite ?_ (.pure trivial)
  exact (Alike.runs (runs_acceptKeyword _)).bind fun _ _ =>
    (alike_orderItem agree shape).commaSeparated.bind fun _ _ => .pure trivial

/-- The grouping runs alike. -/
lemma alike_grouping (dialect : Dialect) (shape : ResultShape) :
    Alike names (fun _ => True) (grouping dialect rules shape) (grouping dialect rules' shape) := by
  refine (Alike.runs (runs_skipKeyword _)).bind fun _ _ => .ite ?_ (.pure trivial)
  refine (Alike.runs (runs_acceptKeyword _)).bind fun _ _ => ?_
  refine (alike_orderItem agree shape).commaSeparated.bind fun _ _ => ?_
  exact (Alike.runs (runs_skipAllKeywords _)).bind fun _ _ =>
    (Alike.looks looks_previousEnd).bind fun _ _ => .pure trivial

end Rules

/-! ## Levels -/

/-- The levels below have no other names of tables. -/
def BelowIn (names : List String) (read : PartialLevel) : Prop :=
  ∀ level ∈ read.below, level.TablesIn names

section Environment

variable (agree : env.AgreeOn names env') {level level' : Parser PartialLevel}

include agree

/-- Tables of a level run alike, if the levels below do. -/
lemma alike_tables (like : Alike names (BelowIn names) level level') {below : List SelectLevel}
    (inNames : ∀ level ∈ below, level.TablesIn names) :
    Alike names (fun below => ∀ level ∈ below, level.TablesIn names)
      (tables env.rules level below) (tables env'.rules level' below) := by
  have derived : Alike names (fun below => ∀ level ∈ below, level.TablesIn names)
      (derivedTable level) (derivedTable level') := by
    refine Alike.context.bind fun outer outerIn => (Alike.record fun _ _ _ mem => ?_).bind fun _ _ => ?_
    · cases mem
    · refine like.bind fun read below => Alike.context.bind fun inner innerIn => ?_
      refine Alike.bind (Alike.record ?_) fun _ _ => .pure (List.forall_mem_cons.2 ⟨innerIn, below⟩)
      exact fun _ _ => outerIn
  have after : Alike names (fun _ => True)
      (tablesAfterDerived env.rules) (tablesAfterDerived env'.rules) := by
    refine (Alike.looks (looks_checkKeyword _)).bind fun _ _ =>
      (Alike.looks looks_stream).bind fun _ _ => .ite (.pure trivial) ?_
    refine (alike_joins agree.rules).bind fun _ _ => ?_
    exact (Alike.edits (runs_skipSymbol (by decide))).bind fun _ _ =>
      .ite (alike_tableReferences agree.rules) (.pure trivial)
  refine (Alike.runs (runs_refuseKeywords _)).bind fun _ _ =>
    (Alike.runs (runs_skipKeyword _)).bind fun _ _ => .ite ?_ (.pure inNames)
  refine (Alike.looks looks_checkQueryInParentheses).bind fun _ _ => .ite ?_ ?_
  · refine Alike.advance.bind fun _ _ => derived.bind fun below belowIn => ?_
    refine (Alike.runs (runs_acceptSymbol (by decide))).bind fun _ _ => ?_
    exact (Alike.edits runs_aliasName).bind fun _ _ => after.bind fun _ _ => .pure belowIn
  · exact (alike_tableReferences agree.rules).bind fun _ _ => .pure inNames

/-- Clauses run alike, if the levels below do. -/
lemma alike_clause (like : Alike names (BelowIn names) level level') {read : PartialLevel}
    (inNames : BelowIn names read) (next : SelectClause) : Alike names (BelowIn names)
      (clause env level read next) (clause env' level' read next) := by
  cases next with
  | selectList => exact (alike_selectList agree.rules _).bind fun _ _ => .pure inNames
  | tables => exact (alike_tables agree like inNames).bind fun below belowIn => .pure belowIn
  | condition => exact (alike_condition agree.rules).bind fun _ _ => .pure inNames
  | grouping =>
    rw [clause, clause, agree.dialect]
    exact (alike_grouping agree.rules _ _).bind fun _ _ => .pure inNames
  | groupCondition => exact (Alike.runs (runs_refuseKeywords _)).bind fun _ _ => .pure inNames
  | ordering => exact (alike_ordering agree.rules _).bind fun _ _ => .pure inNames
  | limit =>
    rw [clause, clause, agree.dialect]
    exact (Alike.edits (runs_limit _ _)).bind fun _ _ => .pure inNames
  | trailing =>
    rw [clause, clause, agree.dialect]
    exact (Alike.runs (runs_refuseKeywords _)).bind fun _ _ => .pure inNames

/-- Levels run alike. -/
lemma alike_levelsUpTo (n : Nat) :
    Alike names (BelowIn names) (levelsUpTo env n) (levelsUpTo env' n) := by
  induction n with
  | zero => exact .unexpected _
  | succ n ih =>
    have fold (clauses : List SelectClause) : ∀ read, BelowIn names read → Alike names (BelowIn names)
        (clauses.foldlM (clause env (levelsUpTo env n)) read)
        (clauses.foldlM (clause env' (levelsUpTo env' n)) read) := by
      induction clauses with
      | nil => exact fun read inNames => .pure inNames
      | cons next clauses foldIh =>
        intro read inNames
        rw [List.foldlM_cons, List.foldlM_cons]
        exact (alike_clause agree ih inNames next).bind foldIh
    rw [levelsUpTo, levelsUpTo, levelWith, levelWith, agree.dialect]
    exact (Alike.runs (runs_acceptKeyword _)).bind fun _ _ => fold _ {} (by simp [BelowIn])

/-- Queries run alike. -/
lemma alike_select : Alike names (fun _ => True) (select env) (select env') := by
  have levels : Alike names (fun query => query.merge.TablesIn names) (levels env) (levels env') := by
    refine (Alike.looks looks_remaining).bind fun n _ =>
      (alike_levelsUpTo agree n).bind fun read below => Alike.context.bind fun context inNames => ?_
    refine .pure ?_
    rw [SelectStatement.merge, SelectLevel.TablesIn, SelectLevel.mergeAll_tables]
    exact List.forall_mem_cons.2 ⟨inNames, below⟩ _ (List.getLast_mem _)
  refine levels.bind fun query inNames => ?_
  rw [SelectStatement.prepare_congr agree.columns inNames]
  exact .edits (runs_lift _)

/-! ## Insertions -/

variable {table : String} (inNames : table ∈ names)

/-- Columns of tables in the list set the same conditions. -/
lemma rowConditions_congr {columns : List Column}
    (known : ∀ column ∈ columns, column.tableName ∈ names) (values : List Expression) :
    rowConditions env.rules columns values = rowConditions env'.rules columns values := by
  refine List.filterMap_congr fun pair mem => ?_
  simp only [agree.rules.isShardingColumn (known pair.1 (List.of_mem_zip mem).1)]

/-- Columns that are listed run alike. -/
lemma alike_listedColumn : Alike names (fun column => column.tableName = table)
    (listedColumn env.rules table) (listedColumn env'.rules table) := by
  refine (alike_expression agree.rules).bind fun expression _ s within => ⟨rfl, ?_⟩
  intro column s' success
  obtain ⟨names, rfl⟩ := run_lift_ok.1 success
  exact ⟨within, tableName_of_assignedColumn names⟩

include inNames

/-- The columns of an insertion run alike. -/
lemma alike_targetColumns :
    Alike names (fun target => ∀ column ∈ target.columns, column.tableName = table)
      (targetColumns env table) (targetColumns env' table) := by
  have values (target : Target) (inTable : ∀ column ∈ target.columns, column.tableName = table) :
      Alike names (fun target => ∀ column ∈ target.columns, column.tableName = table)
        (do addEdit (.insertValues (← offset) .values); return target)
        (do addEdit (.insertValues (← offset) .values); return target) :=
    (Alike.looks looks_offset).bind fun _ _ => (Alike.addEdit _).bind fun _ _ => .pure inTable
  have listed : Alike names (fun target => ∀ column ∈ target.columns, column.tableName = table)
      (columnList env.rules table) (columnList env'.rules table) := by
    refine Alike.advance.bind fun _ _ =>
      (alike_listedColumn agree).commaSeparated.bind fun columns inTable => ?_
    refine (Alike.runs (runs_acceptSymbol (by decide))).bind fun _ _ => ?_
    rw [agree.rules.generateKeyColumn inNames]
    split
    · exact (Alike.addEdit _).bind fun _ _ => .pure inTable
    · exact .pure inTable
  have known (columns : List String) :
      Alike names (fun target => ∀ column ∈ target.columns, column.tableName = table)
        (knownColumns env.rules table columns) (knownColumns env'.rules table columns) := by
    rw [knownColumns, knownColumns, agree.rules.generateKeyColumn inNames]
    refine (Alike.looks looks_previousEnd).bind fun _ _ => (Alike.addEdit _).bind fun _ _ => .pure ?_
    intro column mem
    obtain ⟨name, -, rfl⟩ := List.mem_map.1 mem
    rfl
  refine (Alike.looks (looks_checkSymbol _)).bind fun _ _ =>
    (Alike.looks looks_checkQueryInParentheses).bind fun _ _ => .ite (listed.bind values) ?_
  rw [agree.columns table inNames]
  split
  · exact (known _).bind values
  · exact Alike.bind (.pure (by simp)) values

/-- Rows of values run alike. -/
lemma alike_valueRows {columns : List Column}
    (inTable : ∀ column ∈ columns, column.tableName = table) : Alike names (fun _ => True)
      (valueRows env.rules columns) (valueRows env'.rules columns) := by
  have known : ∀ column ∈ columns, column.tableName ∈ names :=
    fun column mem => inTable column mem ▸ inNames
  have row : Alike names (fun _ => True) (valueRow env.rules columns) (valueRow env'.rules columns) := by
    refine (Alike.runs (runs_acceptSymbol (by decide))).bind fun _ _ =>
      (Alike.looks looks_context).bind fun _ _ => ?_
    refine (alike_expression agree.rules).commaSeparated.bind fun values _ => ?_
    refine (Alike.runs (runs_acceptSymbol (by decide))).bind fun _ _ => ?_
    rw [rowConditions_congr agree known]
    exact Alike.bind (.recordPlain fun _ => rfl) fun _ _ =>
      (Alike.looks looks_context).bind fun _ _ => .pure trivial
  exact (Alike.runs (runs_skipKeyword _)).bind fun _ _ =>
    .ite (row.commaSeparated.mono fun _ _ => trivial) (.pure trivial)

/-- Assignments run alike. -/
lemma alike_assignments :
    Alike names (fun _ => True) (assignments env table) (assignments env' table) := by
  have single : Alike names (fun _ => True)
      (assignment env.rules table) (assignment env'.rules table) := by
    refine (alike_listedColumn agree).bind fun column inTable => ?_
    refine (Alike.runs (runs_acceptSymbol (by decide))).bind fun _ _ => ?_
    refine (alike_expression agree.rules).bind fun value _ => ?_
    rw [rowConditions_congr agree (by simpa [inTable] using inNames)]
    exact Alike.bind (.recordPlain fun _ => rfl) fun _ _ => .pure trivial
  rw [assignments, assignments, agree.dialect]
  refine (Alike.runs (runs_skipKeyword _)).bind fun _ _ => .ite ?_ (.pure trivial)
  refine (Alike.looks looks_previousEnd).bind fun _ _ =>
    Alike.bind (.recordPlain fun _ => rfl) fun _ _ => ?_
  refine (Alike.looks looks_context).bind fun _ _ => single.commaSeparated.bind fun _ _ => ?_
  exact (Alike.looks looks_previousEnd).bind fun _ _ =>
    (Alike.looks looks_context).bind fun _ _ => .pure trivial

/-- What to do with rows that are already there runs alike. -/
lemma alike_duplicateKeyUpdate : Alike names (fun _ => True)
    (duplicateKeyUpdate env.rules table) (duplicateKeyUpdate env'.rules table) := by
  have single : Alike names (fun _ => True) (update env.rules table) (update env'.rules table) := by
    refine (alike_expression agree.rules).bind fun left _ => ?_
    have column : Alike names (fun column => column.tableName = table)
        (liftM (assignedColumn table left)) (liftM (assignedColumn table left)) := by
      intro s within
      refine ⟨rfl, fun column s' success => ?_⟩
      obtain ⟨names, rfl⟩ := run_lift_ok.1 success
      exact ⟨within, tableName_of_assignedColumn names⟩
    refine column.bind fun column inTable => ?_
    rw [agree.rules.isShardingColumn (inTable ▸ inNames)]
    have rest : Alike names (fun _ => True)
        (do let _ ← acceptSymbol .eq; let _ ← expression env.rules : Parser Unit)
        (do let _ ← acceptSymbol .eq; let _ ← expression env'.rules) :=
      (Alike.runs (runs_acceptSymbol (by decide))).bind fun _ _ =>
        (alike_expression agree.rules).bind fun _ _ => .pure trivial
    exact .ite (Alike.bind (.unsupported _ _ : Alike names (fun _ => True) _ _) fun _ _ => rest) rest
  refine (Alike.runs (runs_skipKeyword _)).bind fun _ _ => .ite ?_ (.pure trivial)
  refine (Alike.runs (runs_acceptKeyword _)).bind fun _ _ =>
    (Alike.runs (runs_acceptKeyword _)).bind fun _ _ =>
      (Alike.runs (runs_acceptKeyword _)).bind fun _ _ => ?_
  exact single.commaSeparated.bind fun _ _ => .pure trivial

omit inNames in
/-- Insertions run alike, where the empty name is in the list. -/
lemma alike_insert (empty : "" ∈ names) : Alike names (fun _ => True) (insert env) (insert env') := by
  refine (Alike.runs (runs_acceptKeyword _)).bind fun _ _ =>
    (Alike.runs (runs_skipKeyword _)).bind fun _ _ => alike_tableFactor.bind fun _ _ => ?_
  refine Alike.context.bind fun context known => ?_
  have inNames : context.tables.firstName?.getD "" ∈ names := by
    rw [Tables.firstName?]
    cases first : context.tables.toList.head? with
    | none => exact empty
    | some table => exact known table (List.mem_of_mem_head? first)
  dsimp only
  generalize context.tables.firstName?.getD "" = table at inNames ⊢
  have refusal : Alike names (fun _ => True) refuseQuery refuseQuery := by
    refine (Alike.looks (looks_checkKeyword _)).bind fun _ _ =>
      (Alike.looks looks_checkQueryInParentheses).bind fun _ _ => .ite ?_ (.pure trivial)
    exact (Alike.looks looks_current).bind fun _ _ => .unsupported _ _
  refine (alike_targetColumns agree inNames).bind fun target inTable => refusal.bind fun _ _ => ?_
  refine (alike_valueRows agree inNames inTable).bind fun rows _ => ?_
  refine (alike_assignments agree inNames).bind fun assigned _ => ?_
  rw [agree.dialect]
  refine .ite (.unexpected _) ((alike_duplicateKeyUpdate agree inNames).bind fun _ _ => ?_)
  exact (Alike.looks looks_context).bind fun _ _ => .pure trivial

omit inNames in
/-- Statements run alike, where the empty name is in the list. -/
lemma alike_statement (empty : "" ∈ names) :
    Alike names (fun _ => True) (statement env) (statement env') := by
  have ends : Alike names (fun _ => True) finish finish :=
    (Alike.edits (runs_skipSymbol (by decide))).bind fun _ _ =>
      (Alike.looks looks_stream).bind fun _ _ => .ite (.pure trivial) (.unexpected _)
  have rest (read : Statement) : Alike names (fun _ => True)
      (do finish; return read) (do finish; return read) :=
    ends.bind fun _ _ => .pure trivial
  refine (Alike.looks (looks_checkKeyword _)).bind fun _ _ =>
    (Alike.looks (looks_checkKeyword _)).bind fun _ _ => .ite ?_ (.ite ?_ ?_)
  · exact (alike_select agree).bind fun _ _ => rest _
  · exact (alike_insert agree empty).bind fun _ _ => rest _
  · exact Alike.bind (.unexpected _ : Alike names (fun _ => True) _ _) fun _ _ => rest _

end Environment

end Grammar

/-! ## Statements -/

namespace Statement

open Grammar

/-- The names of a statement are all that it depends on: it is read with the same result, or the same
error, under any two configurations that say the same of them. So it depends neither on how the shard of
a table is computed, nor on the rules of tables that it does not name.

**Proof sketch.** The configuration is consulted for names only that are the value of a token of the text,
or empty. So two runs under configurations that agree on these go through the same states, reader by reader.
A rule without its algorithm, or among rules of other tables, says the same of these names. -/
theorem ofText_congr (dialect : Dialect) (text : String) :
    (∀ (rules rules' : ShardingRule) (metadata metadata' : TableMetadata),
      (∀ name ∈ names text, rules.consulted? name = rules'.consulted? name ∧
        metadata.columns? name = metadata'.columns? name) →
      ofText ⟨dialect, rules, metadata⟩ text = ofText ⟨dialect, rules', metadata'⟩ text) ∧
    (∀ (rules rules' : ShardingRule) (metadata : TableMetadata),
      rules.toList.map TableRule.withoutAlgorithm = rules'.toList.map TableRule.withoutAlgorithm →
      ofText ⟨dialect, rules, metadata⟩ text = ofText ⟨dialect, rules', metadata⟩ text) ∧
    ∀ (rules : ShardingRule) (metadata : TableMetadata) (keep : TableRule → Bool),
      (∀ rule ∈ rules.toList, ∀ name ∈ names text, Text.sameName rule.table name = true →
        keep rule = true) →
      ofText ⟨dialect, ⟨rules.toList.filter keep⟩, metadata⟩ text =
        ofText ⟨dialect, rules, metadata⟩ text := by
  have congr {rules rules' : ShardingRule} {metadata metadata' : TableMetadata}
      (agree : ∀ name ∈ names text, rules.consulted? name = rules'.consulted? name ∧
        metadata.columns? name = metadata'.columns? name) :
      ofText ⟨dialect, rules, metadata⟩ text = ofText ⟨dialect, rules', metadata'⟩ text := by
    have environments : Environment.AgreeOn (names text) ⟨dialect, rules, metadata⟩
        ⟨dialect, rules', metadata'⟩ :=
      ⟨rfl, fun name mem => (agree name mem).1, fun name mem => (agree name mem).2⟩
    have same := (alike_statement environments List.mem_cons_self _ (Parser.within_start text)).1
    rw [ofText, ofText, same]
  refine ⟨fun _ _ _ _ agree => congr agree, fun _ _ _ same => ?_, fun rules _ keep kept => ?_⟩
  · exact congr fun name _ => ⟨ShardingRule.consulted_eq_of_map same name, rfl⟩
  · refine congr fun name mem => ⟨ShardingRule.consulted_filter fun rule isRule isNamed => ?_, rfl⟩
    exact kept rule isRule name mem isNamed

/-- A query is read in the same way if other columns are known of a table that it does not name, and
there is a rule for that table. -/
theorem ofText_congr_join : ∃ (env env' : Environment) (text : String) (query : SelectStatement),
    env.rules ≠ env'.rules ∧ env.metadata ≠ env'.metadata ∧
      (∀ name ∈ names text, env.rules.consulted? name = env'.rules.consulted? name ∧
        env.metadata.columns? name = env'.metadata.columns? name) ∧
      query.context.conditions = [.equal ⟨"a", "t"⟩ (.number "1")] ∧
      ofText env text = .ok (.select query) ∧ ofText env' text = .ok (.select query) := by
  let env : Environment :=
    { rules := ⟨[{ table := "t", shardingColumns := ["a"] }]⟩
      metadata := ⟨[("t", ["a", "b"])]⟩ }
  let env' : Environment :=
    { rules := ⟨[{ table := "v", shardingColumns := ["b"], generateKeyColumn := some "a" },
        { table := "t", shardingColumns := ["a"], algorithm := some "a % 2" }]⟩
      metadata := ⟨[("v", ["a"]), ("t", ["a", "b"])]⟩ }
  let text := "SELECT t.* FROM t JOIN u ON t.a = u.a WHERE t.a = 1 ORDER BY b"
  have seen : (query? env text).map (·.context.conditions) =
      some [.equal ⟨"a", "t"⟩ (.number "1")] := by decide +kernel
  obtain ⟨query, success, conditions⟩ := exists_of_query seen
  have agree : ∀ name ∈ names text, env.rules.consulted? name = env'.rules.consulted? name ∧
      env.metadata.columns? name = env'.metadata.columns? name := by decide +kernel
  refine ⟨env, env', text, query, by decide, by decide, agree, conditions, success, ?_⟩
  rw [← (ofText_congr .generic text).1 env.rules env'.rules env.metadata env'.metadata agree]
  exact success

end Statement

end SqlRouting
