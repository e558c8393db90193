import SqlRouting.Proofs.Insertion

/-!
# Tables of conditions

A condition is set on a column of a table that its level knows. Levels are merged, however, and the
merged query has the tables of the innermost level alone, so a condition of a level around it need
not be on one of the tables of the query. A name without an owner is taken for a column only while
a single table is known, which is decided by the names of the tables: the same table under another
alias is not another table.

## Main definitions

* `SqlRouting.Context.NamesTables` — each condition is on a table that is known.
* `SqlRouting.TableSource.NameOne` — sources that name one table, and no other.

## Main results

* `SqlRouting.Grammar.Sets.names` — a predicate sets a condition on a table that is known.
* `SqlRouting.Tables.isSingle_withSources` — when a single table is known.
* `SqlRouting.Statement.namesTables_iff` — when the conditions of a statement are on its tables.
* `SqlRouting.SelectStatement.qualified_of_condition` — what conditions on columns without an owner
  need.
-/

set_option autoImplicit false

namespace SqlRouting

open TokenStream Text

/-! ## Tables are never lost -/

namespace Tables

/-- The known tables stay in front when some are added. -/
lemma isPrefix_foldl_add (tables : Tables) (named : List Table) :
    tables.toList <+: (named.foldl add tables).toList := by
  induction named generalizing tables with
  | nil => exact List.prefix_rfl
  | cons table named ih =>
    refine List.IsPrefix.trans ?_ (ih (tables.add table))
    unfold add
    split
    · exact List.prefix_rfl
    · exact List.prefix_append _ _

/-- The known tables stay known when sources are added. -/
lemma subset_withSources (tables : Tables) (sources : List TableSource) :
    tables.toList ⊆ (tables.withSources sources).toList :=
  (isPrefix_foldl_add tables _).subset

/-- A table that a name or an alias denotes is a known one. -/
lemma mem_of_find {tables : Tables} {key : String} {table : Table}
    (found : tables.find? key = some table) : table ∈ tables.toList := by
  rcases Option.or_eq_some_iff.1 found with byAlias | ⟨-, byName⟩
  · exact List.mem_of_find?_eq_some byAlias
  · exact List.mem_of_find?_eq_some byName

/-- A single table stays the only one if those that are added are of its name. -/
lemma isSingle_foldl_add (table : Table) (named : List Table) :
    (named.foldl add ⟨[table]⟩).isSingle = true ↔
      ∀ other ∈ named, sameName table.name other.name = true := by
  induction named with
  | nil => simp [isSingle]
  | cons other named ih =>
    rw [List.foldl_cons, List.forall_mem_cons]
    -- a table of the same name is not added, and any other makes two
    cases same : sameName table.name other.name with
    | true =>
      have kept : add ⟨[table]⟩ other = ⟨[table]⟩ := by simp [add, contains, same]
      rw [kept, ih]
      simp
    | false =>
      have added : add ⟨[table]⟩ other = ⟨[table, other]⟩ := by simp [add, contains, same]
      have more := (isPrefix_foldl_add ⟨[table, other]⟩ named).length_le
      rw [added, isSingle, beq_iff_eq]
      simp only [List.length_cons, List.length_nil] at more
      simp only [Bool.false_eq_true, false_and, iff_false]
      omega

end Tables

/-- The sources name one table, and no other by its name. -/
def TableSource.NameOne (sources : List TableSource) : Prop :=
  ∃ table named, sources.filterMap TableSource.table? = table :: named ∧
    ∀ other ∈ named, sameName table.name other.name = true

/-- A single table is known after some sources exactly if they name one. -/
lemma Tables.isSingle_withSources (sources : List TableSource) :
    (({} : Tables).withSources sources).isSingle = true ↔ TableSource.NameOne sources := by
  rw [withSources, TableSource.NameOne]
  cases same : sources.filterMap TableSource.table? with
  | nil => simp [isSingle]
  | cons table named =>
    rw [List.foldl_cons, show add {} table = ⟨[table]⟩ from rfl, isSingle_foldl_add]
    constructor
    · exact fun all => ⟨table, named, rfl, all⟩
    · rintro ⟨_, _, split, all⟩
      obtain ⟨rfl, rfl⟩ := List.cons.inj split
      exact all

/-! ## Conditions name tables -/

/-- The condition is on a column of one of the tables. -/
def RouteCondition.Names (tables : Tables) (condition : RouteCondition) : Prop :=
  ∃ table ∈ tables.toList, table.name = condition.column.tableName

/-- Each condition is on a column of one of the tables. -/
def Context.NamesTables (context : Context) : Prop :=
  ∀ condition ∈ context.conditions, condition.Names context.tables

namespace Grammar

variable {rules : ShardingRule} {text : String} {tables : Tables} {index : Nat}
  {tokens : List Token} {condition : RouteCondition}

/-- A restriction is one of its column. -/
lemma Restricts.column_eq {column : Column} (h : Restricts index column tokens condition) :
    condition.column = column := by
  cases h <;> rfl

/-- A reference is to a column of a known table. -/
lemma Refers.exists_table {column : Column} (h : Refers text tables tokens column) :
    ∃ table ∈ tables.toList, table.name = column.tableName := by
  cases h with
  | qualified owner name span dot token table named found =>
    exact ⟨table, Tables.mem_of_find found, rfl⟩
  | bare name span table single => exact ⟨table, by simp [single], rfl⟩

/-- A predicate sets a condition on a column of a known table. -/
lemma Sets.names (h : Sets rules text tables index tokens condition) : condition.Names tables := by
  cases h with
  | intro refers sharding restricts =>
    obtain ⟨table, mem, same⟩ := refers.exists_table
    exact ⟨table, mem, by rw [same, restricts.column_eq]⟩

/-- The conditions of a level are on its tables. -/
lemma names_of_eventsMean {events : List LevelEvent} (mean : EventsMean rules text {} events) :
    ∀ condition ∈ LevelEvent.conditions events, condition.Names (LevelEvent.tables events) := by
  intro condition mem
  obtain ⟨before, formula, after, predicate, split, isPredicate, isCondition⟩ :=
    LevelEvent.mem_conditions mem
  have means := mean before formula after split predicate isPredicate
  obtain ⟨table, known, isTable⟩ := ((means.condition condition).1 isCondition).1.names
  have grown : LevelEvent.tables events = (({} : Tables).withSources
      (LevelEvent.sources before)).withSources (LevelEvent.sources after) := by
    rw [← Tables.withSources_append, split, LevelEvent.tables, LevelEvent.sources,
      List.filterMap_append]
    rfl
  rw [grown]
  exact ⟨table, Tables.subset_withSources _ _ known, isTable⟩

/-- The conditions of an insertion are on the table that it names first. -/
lemma InsertionRead.tableName_eq {env : Environment} {insertion : InsertStatement}
    {reads : List ReadRow} (h : InsertionRead env text insertion reads) :
    ∀ condition ∈ insertion.context.conditions,
      condition.column.tableName = insertion.tableName?.getD "" := by
  intro condition mem
  rw [h.conditions] at mem
  obtain ⟨read, isRead, mem⟩ := List.mem_flatMap.1 mem
  obtain ⟨before, tokens, after, -, isRow⟩ := h.means read isRead
  obtain ⟨column, value, plain, isPair, -, -, rfl⟩ := isRow.mem_conditions.1 mem
  exact isRow.tableName_eq column (List.of_mem_zip isPair).1

/-- The conditions of an insertion are on its tables exactly if it names a table or has no
conditions. -/
lemma InsertionRead.names_iff {env : Environment} {insertion : InsertStatement}
    {reads : List ReadRow} (h : InsertionRead env text insertion reads) :
    insertion.context.NamesTables ↔
      insertion.context.tables.toList ≠ [] ∨ insertion.context.conditions = [] := by
  constructor
  · intro names
    by_cases noTables : insertion.context.tables.toList = []
    · refine .inr (List.eq_nil_iff_forall_not_mem.2 fun condition mem => ?_)
      obtain ⟨table, known, -⟩ := names condition mem
      simp [noTables] at known
    · exact .inl noTables
  · rintro (named | noConditions) condition mem
    · obtain ⟨table, others, same⟩ := List.exists_cons_of_ne_nil named
      refine ⟨table, by simp [same], ?_⟩
      rw [h.tableName_eq condition mem, InsertStatement.tableName?, Tables.firstName?, same]
      rfl
    · simp [noConditions] at mem

end Grammar

/-! ## Conditions without an owner -/

namespace Grammar

variable {rules : ShardingRule} {text : String} {env : Environment}

/-- The tokens of a predicate start with the owner of a column and a dot. -/
def Qualified (tokens : List Token) : Prop :=
  ∃ owner dot rest, tokens = owner :: dot :: rest ∧ dot.kind = .symbol .dot

/-- A predicate sets a condition on a column without an owner only while a single table is known. -/
lemma Sets.qualified_or {tables : Tables} {index : Nat} {tokens : List Token}
    {condition : RouteCondition} (h : Sets rules text tables index tokens condition) :
    Qualified tokens ∨ tables.isSingle = true := by
  cases h with
  | intro refers sharding restricts =>
    cases refers with
    | qualified owner name span dot token table named found => exact .inl ⟨_, _, _, rfl, rfl⟩
    | bare name span table single => exact .inr (by simp [Tables.isSingle, single])

/-- No source of a level comes after its condition. -/
def SourcesFirst (events : List LevelEvent) : Prop :=
  ∀ before formula after, events = before ++ .condition formula :: after →
    LevelEvent.sources after = []

/-- A source in front comes after no condition. -/
lemma sourcesFirst_sources {front : List TableSource} {events : List LevelEvent}
    (rest : SourcesFirst events) : SourcesFirst (front.map .source ++ events) := by
  induction front with
  | nil => exact rest
  | cons source front ih =>
    intro before formula after split
    cases before with
    | nil => cases split
    | cons event before => exact ih before formula after (List.cons.inj split).2

/-- A condition in front comes before no source, if there is none. -/
lemma sourcesFirst_condition {formula : Formula} {events : List LevelEvent}
    (noSources : LevelEvent.sources events = []) (rest : SourcesFirst events) :
    SourcesFirst (.condition formula :: events) := by
  intro before other after split
  cases before with
  | nil =>
    obtain ⟨-, rfl⟩ := List.cons.inj split
    exact noSources
  | cons event before => exact rest before other after (List.cons.inj split).2

/-- Clauses without tables have no sources. -/
lemma ClausesRead.sources_eq_nil {clauses : List SelectClause} {s s' : ParserState}
    {below below' : List (List LevelEvent)} {events : List LevelEvent}
    (h : ClausesRead env clauses s below events s' below') (noTables : .tables ∉ clauses) :
    LevelEvent.sources events = [] := by
  induction h with
  | nil => rfl
  | plain _ _ _ _ _ ih | noCondition _ _ ih | condition _ _ _ ih =>
    exact ih fun mem => noTables (List.mem_cons_of_mem _ mem)
  | noTables | tables | derived => exact absurd List.mem_cons_self noTables

/-- The tables of a level are read before its condition. -/
def TablesFirst (clauses : List SelectClause) : Prop :=
  clauses.Pairwise fun first later => first = .condition → later ≠ .tables

/-- Where the tables are read before the condition, no source of a level comes after its
condition. -/
lemma ClausesRead.sourcesFirst {clauses : List SelectClause} {s s' : ParserState}
    {below below' : List (List LevelEvent)} {events : List LevelEvent}
    (h : ClausesRead env clauses s below events s' below')
    (tablesFirst : TablesFirst env.dialect.clauses) (ordered : TablesFirst clauses)
    (orderedBelow : ∀ level ∈ below, SourcesFirst level) :
    SourcesFirst events ∧ ∀ level ∈ below', SourcesFirst level := by
  induction h with
  | nil =>
    refine ⟨fun before formula after split => ?_, orderedBelow⟩
    cases before <;> cases split
  | plain _ _ _ _ _ ih | noCondition _ _ ih | noTables _ _ ih =>
    exact ih (List.Pairwise.of_cons ordered) orderedBelow
  | condition word read rest ih =>
    obtain ⟨later, tail⟩ := List.pairwise_cons.1 ordered
    obtain ⟨first, inner⟩ := ih tail orderedBelow
    exact ⟨sourcesFirst_condition (rest.sources_eq_nil fun mem => later _ mem rfl rfl) first, inner⟩
  | tables word read rest ih =>
    obtain ⟨first, inner⟩ := ih (List.Pairwise.of_cons ordered) orderedBelow
    exact ⟨sourcesFirst_sources first, inner⟩
  | @derived clauses s s₁ s₂ s₃ s' below below' innerBelow events inner sources aliasTokens _ word
      opening query innerRead closing isAlias run after rest innerIh ih =>
    obtain ⟨innerFirst, innerBelowFirst⟩ := innerIh tablesFirst (by simp)
    obtain ⟨first, outer⟩ := ih (List.Pairwise.of_cons ordered) (List.forall_mem_cons.2
      ⟨innerFirst, innerBelowFirst⟩)
    exact ⟨@sourcesFirst_sources (.derived :: sources) events first, outer⟩

end Grammar

/-! ## Merged queries -/

/-- The conditions of merged levels are on the tables of the innermost one exactly if those of the
levels around it are.

**Proof sketch.** The conditions of the innermost level are on its tables, so only those of the
others are in question. -/
lemma names_merged_iff {rules : ShardingRule} {text : String} {levels : List (List LevelEvent)}
    (nonempty : levels ≠ []) (mean : ∀ level ∈ levels, Grammar.EventsMean rules text {} level) :
    (∀ condition ∈ levels.flatMap LevelEvent.conditions,
        condition.Names (LevelEvent.tables (levels.getLast nonempty))) ↔
      ∀ level ∈ levels.dropLast, ∀ condition ∈ LevelEvent.conditions level,
        condition.Names (LevelEvent.tables (levels.getLast nonempty)) := by
  constructor
  · intro names level mem condition recorded
    exact names condition (List.mem_flatMap.2 ⟨level, List.dropLast_subset levels mem, recorded⟩)
  · intro names condition recorded
    obtain ⟨level, mem, recorded⟩ := List.mem_flatMap.1 recorded
    rw [← List.dropLast_append_getLast nonempty, List.mem_append, List.mem_singleton] at mem
    rcases mem with mem | rfl
    · exact names level mem condition recorded
    · exact Grammar.names_of_eventsMean (mean _ (List.getLast_mem nonempty)) condition recorded

namespace Statement

open Grammar

/-- The conditions of each level of an accepted query are on tables of the level. Those of the query
are on its tables exactly if those of the levels around the innermost one are on tables of the
innermost one, of which there are none to check without derived tables. The conditions of an
accepted insertion are on its tables exactly if it names a table or has no conditions.

**Proof sketch.** A condition is set on a column that is looked up among the tables before it, and all of
these are tables of the level. Merging keeps the conditions of all levels and the tables of the innermost
one, whose own conditions are on them, so only the levels around it are in question. The values of an
insertion are given to columns of its one table. -/
theorem namesTables_iff {env : Environment} {text : String} {statement : Statement}
    (success : ofText env text = .ok statement) :
    (∃ query levels, ∃ nonempty : levels ≠ [], statement = .select query ∧
      QueryRead env text levels ∧
      query.context.conditions = levels.flatMap LevelEvent.conditions ∧
      query.context.tables = LevelEvent.tables (levels.getLast nonempty) ∧
      (∀ level ∈ levels, ∀ condition ∈ LevelEvent.conditions level,
        condition.Names (LevelEvent.tables level)) ∧
      (query.context.NamesTables ↔ ∀ level ∈ levels.dropLast,
        ∀ condition ∈ LevelEvent.conditions level, condition.Names query.context.tables)) ∨
    ∃ insertion, statement = .insert insertion ∧ (insertion.context.NamesTables ↔
      insertion.context.tables.toList ≠ [] ∨ insertion.context.conditions = []) := by
  cases statement with
  | select query =>
    obtain ⟨outer, below, read, mean, conditions, tables, -⟩ := query_read success
    refine .inl ⟨query, outer :: below, List.cons_ne_nil outer below, rfl, read, conditions, tables,
      fun level mem => names_of_eventsMean (mean level mem), ?_⟩
    rw [Context.NamesTables, conditions, tables]
    exact names_merged_iff (List.cons_ne_nil outer below) mean
  | insert insertion =>
    obtain ⟨-, reads, reading⟩ := insertion_read success
    exact .inr ⟨insertion, rfl, reading.names_iff⟩

/-- The condition of an insertion is on the table that rows are inserted into. -/
theorem namesTables_of_insertion :
    ∃ (env : Environment) (text : String) (insertion : InsertStatement),
      ofText env text = .ok (.insert insertion) ∧
        insertion.context.conditions = [.equal ⟨"a", "t"⟩ (.number "1")] ∧
        insertion.context.NamesTables := by
  let env : Environment := { rules := ⟨[{ table := "t", shardingColumns := ["a"] }]⟩ }
  let text := "INSERT INTO t (a) VALUES (1)"
  have seen : (ofText env text).toOption.map (fun statement => (statement matches .insert _,
      statement.context.tables, statement.context.conditions)) =
      some (true, ⟨[⟨"t", none⟩]⟩, [.equal ⟨"a", "t"⟩ (.number "1")]) := by
    decide +kernel
  cases success : ofText env text with
  | error error => simp [success, Except.toOption] at seen
  | ok statement =>
    rcases namesTables_iff success with ⟨query, -, -, rfl, -⟩ | ⟨insertion, rfl, names⟩
    · simp [success, Except.toOption] at seen
    · simp only [success, Except.toOption, Option.map_some, Option.some.injEq, Prod.mk.injEq,
        true_and, context] at seen
      obtain ⟨tables, conditions⟩ := seen
      exact ⟨env, text, insertion, success, conditions, names.2 (.inl (by simp [tables]))⟩

/-- A condition on a table that is joined with a derived table is on no table of the query. -/
theorem joined_condition_names_no_table :
    ∃ (env : Environment) (text : String) (query : SelectStatement),
      ofText env text = .ok (.select query) ∧ ¬ query.context.NamesTables := by
  let env : Environment := { rules := ⟨[{ table := "t_order", shardingColumns := ["user_id"] }]⟩ }
  let text := "SELECT * FROM (SELECT * FROM t_user) x JOIN t_order o WHERE o.user_id = 1"
  have seen : (query? env text).map (fun query => (query.context.tables, query.context.conditions)) =
      some (⟨[⟨"t_user", none⟩]⟩, [.equal ⟨"user_id", "t_order"⟩ (.number "1")]) := by
    decide +kernel
  obtain ⟨query, success, same⟩ := exists_of_query seen
  obtain ⟨tables, conditions⟩ := Prod.mk.inj same
  refine ⟨env, text, query, success, fun names => ?_⟩
  obtain ⟨table, known, isTable⟩ := names (.equal ⟨"user_id", "t_order"⟩ (.number "1"))
    (by simp [conditions])
  rw [tables] at known
  obtain rfl := List.mem_singleton.1 known
  exact absurd isTable (by decide)

end Statement

namespace SelectStatement

open Grammar

/-- A condition is recorded for a column without an owner only where the sources before it name one
table, and no other by its name: with two tables, or with none, each recorded condition is that of a
predicate whose column has an owner. If the dialect has the tables in front of the condition, these
are all sources of the level.

**Proof sketch.** A name alone refers to a column only while a single table is known. The tables
that are known are those that the sources name, each name once. -/
theorem qualified_of_condition {env : Environment} {text : String} {query : SelectStatement}
    (success : Statement.ofText env text = .ok (.select query)) :
    ∃ levels, QueryRead env text levels ∧
      query.context.conditions = levels.flatMap LevelEvent.conditions ∧
      ∀ level ∈ levels, ∀ before formula after, level = before ++ .condition formula :: after →
        (∀ predicate ∈ formula.predicates,
          predicate.Means env.rules text (LevelEvent.tables before)) ∧
        (¬ TableSource.NameOne (LevelEvent.sources before) →
          ∀ predicate ∈ formula.predicates, ∀ condition, predicate.condition = some condition →
            Qualified predicate.tokens) ∧
        (TablesFirst env.dialect.clauses → LevelEvent.sources before = LevelEvent.sources level) := by
  obtain ⟨outer, below, read, mean, conditions, -, -⟩ := query_read success
  refine ⟨outer :: below, read, conditions, fun level mem before formula after split => ?_⟩
  have means := mean level mem before formula after split
  refine ⟨means, fun notOne predicate isPredicate condition isSome => ?_, fun ordered => ?_⟩
  · have sets := (((means predicate isPredicate).condition condition).1 isSome).1
    refine sets.qualified_or.resolve_right fun single => notOne ?_
    exact (Tables.isSingle_withSources _).1 single
  · obtain ⟨_, _, s, same, reading, -⟩ := read
    obtain ⟨rfl, rfl⟩ := List.cons.inj same
    obtain ⟨first, inner⟩ := reading.2.sourcesFirst ordered ordered (by simp)
    have sourcesFirst : SourcesFirst level := by
      rcases List.mem_cons.1 mem with rfl | mem
      · exact first
      · exact inner level mem
    rw [split, LevelEvent.sources, LevelEvent.sources, List.filterMap_append]
    have noSources := sourcesFirst before formula after split
    exact (List.append_nil _).symm.trans (congrArg (_ ++ ·) noSources.symm)

/-- With two tables, a condition is recorded for the column with an owner alone. -/
theorem qualified_of_condition_join :
    ∃ (env : Environment) (text : String) (query : SelectStatement),
      Statement.ofText env text = .ok (.select query) ∧
        query.context.conditions = [.equal ⟨"a", "t"⟩ (.number "1")] ∧
        ∃ levels, QueryRead env text levels ∧
          levels.flatMap LevelEvent.conditions = [.equal ⟨"a", "t"⟩ (.number "1")] := by
  let env : Environment := { rules := ⟨[{ table := "t", shardingColumns := ["a"] }]⟩ }
  let text := "SELECT * FROM t JOIN u WHERE t.a = 1 AND a = 2"
  have seen : (query? env text).map (·.context.conditions) =
      some [.equal ⟨"a", "t"⟩ (.number "1")] := by decide +kernel
  obtain ⟨query, success, recorded⟩ := exists_of_query seen
  obtain ⟨levels, read, conditions, -⟩ := qualified_of_condition success
  exact ⟨env, text, query, success, recorded, levels, read, conditions.symm.trans recorded⟩

/-- Both dialects have the tables in front of the condition. -/
example : TablesFirst Dialect.generic.clauses ∧ TablesFirst Dialect.mysql.clauses := by
  unfold TablesFirst
  decide

/-- A condition is recorded for a column without an owner where a table is named twice, under two
aliases, and likewise where a derived table comes before the table or a group after it. -/
theorem condition_of_unqualified_column : ∃ env : Environment,
    (∃ (text : String) (query : SelectStatement) (front first second tokens : List Token)
        (comma word : Token),
      Statement.ofText env text = .ok (.select query) ∧
        Lexer.tokens text = front ++ first ++ comma :: second ++ word :: tokens ∧
        (∃ name aliasTokens, first = name ++ aliasTokens ∧ NameTokens name "t" ∧
          AliasTokens text aliasTokens (some "x")) ∧ comma.kind = .symbol .comma ∧
        (∃ name aliasTokens, second = name ++ aliasTokens ∧ NameTokens name "t" ∧
          AliasTokens text aliasTokens (some "y")) ∧ word.kind = .keyword .WHERE ∧
        PredicateTokens tokens ∧ ¬ Qualified tokens ∧
        query.context.conditions = [.equal ⟨"a", "t"⟩ (.number "1")]) ∧
    ∀ text ∈ ["SELECT * FROM (SELECT * FROM u) x, t WHERE a = 1", "SELECT * FROM t, (u) WHERE a = 1"],
      ∃ query, Statement.ofText env text = .ok (.select query) ∧
        query.context.conditions = [.equal ⟨"a", "t"⟩ (.number "1")] := by
  let env : Environment := { rules := ⟨[{ table := "t", shardingColumns := ["a"] }]⟩ }
  have seen : ∀ text ∈ ["SELECT * FROM t x, t y WHERE a = 1",
      "SELECT * FROM (SELECT * FROM u) x, t WHERE a = 1", "SELECT * FROM t, (u) WHERE a = 1"],
      (query? env text).map (·.context.conditions) = some [.equal ⟨"a", "t"⟩ (.number "1")] := by
    decide +kernel
  refine ⟨env, ?_, fun text mem => exists_of_query (seen text (List.mem_cons_of_mem _ mem))⟩
  let text := "SELECT * FROM t x, t y WHERE a = 1"
  obtain ⟨query, success, conditions⟩ := exists_of_query (seen text List.mem_cons_self)
  let front : List Token :=
    [⟨.keyword .SELECT, ⟨0, 6⟩⟩, ⟨.symbol .star, ⟨7, 8⟩⟩, ⟨.keyword .FROM, ⟨9, 13⟩⟩]
  let first : List Token := [⟨.identifier "t", ⟨14, 15⟩⟩, ⟨.identifier "x", ⟨16, 17⟩⟩]
  let second : List Token := [⟨.identifier "t", ⟨19, 20⟩⟩, ⟨.identifier "y", ⟨21, 22⟩⟩]
  let tokens : List Token :=
    [⟨.identifier "a", ⟨29, 30⟩⟩, ⟨.symbol .eq, ⟨31, 32⟩⟩, ⟨.number "1", ⟨33, 34⟩⟩]
  have split : Lexer.tokens text = front ++ first ++ ⟨.symbol .comma, ⟨17, 18⟩⟩ :: second ++
      ⟨.keyword .WHERE, ⟨23, 28⟩⟩ :: tokens := by decide +kernel
  have unqualified : ¬ Qualified tokens := by
    rintro ⟨owner, dot, rest, same, isDot⟩
    obtain ⟨-, same⟩ := List.cons.inj same
    obtain ⟨rfl, -⟩ := List.cons.inj same
    cases isDot
  exact ⟨text, query, front, first, second, tokens, _, _, success, split,
    ⟨[_], [_], rfl, .alone "t" _, .bare "x" _⟩, rfl,
    ⟨[_], [_], rfl, .alone "t" _, .bare "y" _⟩, rfl,
    ⟨[_], _, rfl, .alone rfl, .comparison rfl rfl (.alone rfl)⟩, unqualified, conditions⟩

end SelectStatement

end SqlRouting
