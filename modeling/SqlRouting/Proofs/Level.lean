import Mathlib.Data.List.Forall2
import SqlRouting.Grammar.Select
import SqlRouting.Proofs.Clause
import SqlRouting.Proofs.TableReference

/-!
# Reading levels

A level of a query says two things about its route: which sources it reads rows from, and which
predicates the rows have to satisfy. The reading of a level lists both in the order in which they
are written, and the readings of the levels below it come after. What a level collects, its tables
and its conditions, is determined by its reading.

## Main definitions

* `SqlRouting.LevelEvent` — a source or a list of predicates, as a level has them.
* `SqlRouting.LevelEvent.tables`, `LevelEvent.conditions` — what a level collects.
* `SqlRouting.Grammar.ClausesRead` — the reading of some clauses of a level.

## Main results

* `SqlRouting.Grammar.levelsUpTo_read` — a level that is read has a reading.
* `SqlRouting.Grammar.ClausesRead.tables_eq`, `ClausesRead.conditions_eq` — a level collects what
  its reading says.
* `SqlRouting.Grammar.ClausesRead.mean` — the conditions of a level are those that its predicates
  set on the tables before them.
-/

set_option autoImplicit false

namespace SqlRouting

open TokenStream

/-! ## What a level says about its route -/

/-- A source of rows or a list of predicates, as a level has them. -/
inductive LevelEvent
  /-- A source. -/
  | source (source : TableSource)
  /-- The predicates of the condition of the level. -/
  | condition (formula : Grammar.Formula)

namespace LevelEvent

/-- The source that an event is. -/
def source? : LevelEvent → Option TableSource
  | .source found => some found
  | .condition _ => none

/-- The predicates that an event is. -/
def formula? : LevelEvent → Option Grammar.Formula
  | .source _ => none
  | .condition found => some found

/-- The sources among some events. -/
def sources (events : List LevelEvent) : List TableSource :=
  events.filterMap source?

/-- The tables that some events name. -/
def tables (events : List LevelEvent) : Tables :=
  ({} : Tables).withSources (sources events)

/-- The conditions that some events set. -/
def conditions (events : List LevelEvent) : List RouteCondition :=
  (events.filterMap formula?).flatMap Grammar.Formula.conditions

/-- Sources in front of events are sources of all. -/
@[simp] lemma sources_map_append (front : List TableSource) (events : List LevelEvent) :
    sources (front.map source ++ events) = front ++ sources events := by
  rw [sources, List.filterMap_append, List.filterMap_map]
  simp [Function.comp_def, source?, sources]

/-- A source in front is a source of all. -/
@[simp] lemma sources_cons_source (front : TableSource) (events : List LevelEvent) :
    sources (source front :: events) = front :: sources events := rfl

/-- Predicates in front add no source. -/
@[simp] lemma sources_cons_condition (formula : Grammar.Formula) (events : List LevelEvent) :
    sources (condition formula :: events) = sources events := rfl

/-- Sources in front set no condition. -/
@[simp] lemma conditions_map_append (front : List TableSource) (events : List LevelEvent) :
    conditions (front.map source ++ events) = conditions events := by
  rw [conditions, List.filterMap_append, List.filterMap_map]
  simp [Function.comp_def, formula?, conditions]

/-- A source in front sets no condition. -/
@[simp] lemma conditions_cons_source (front : TableSource) (events : List LevelEvent) :
    conditions (source front :: events) = conditions events := rfl

/-- Predicates in front set their conditions. -/
@[simp] lemma conditions_cons_condition (formula : Grammar.Formula) (events : List LevelEvent) :
    conditions (condition formula :: events) = formula.conditions ++ conditions events := rfl

/-- A condition that some events set is one of a predicate of one of them. -/
lemma mem_conditions {events : List LevelEvent} {found : RouteCondition}
    (mem : found ∈ conditions events) : ∃ before formula after predicate,
      events = before ++ condition formula :: after ∧
        predicate ∈ formula.predicates ∧ predicate.condition = some found := by
  obtain ⟨formula, isFormula, mem⟩ := List.mem_flatMap.1 mem
  obtain ⟨event, isEvent, same⟩ := List.mem_filterMap.1 isFormula
  cases event with
  | source source => cases same
  | condition known =>
    obtain rfl : known = formula := Option.some.inj same
    obtain ⟨before, after, split⟩ := List.append_of_mem isEvent
    rw [Grammar.Formula.conditions] at mem
    split at mem
    · cases mem
    · obtain ⟨predicate, isPredicate, isCondition⟩ := List.mem_filterMap.1 mem
      exact ⟨before, known, after, predicate, split, isPredicate, isCondition⟩

end LevelEvent

namespace Grammar

open SqlRouting.Parser LevelEvent

variable {env : Environment} {rules : ShardingRule} {s s' : ParserState}

/-! ## The reading of a level -/

/-- The reading of the sources after a derived table in front of the list. -/
inductive AfterDerivedRead (rules : ShardingRule) :
    ParserState → List TableSource → ParserState → Prop
  /-- Joined sources only. -/
  | joins {s s' : ParserState} {joined : List TableSource} (joins : JoinsRead rules s joined s')
      (noComma : s'.stream.kind ≠ .symbol .comma) : AfterDerivedRead rules s joined s'
  /-- Joined sources, and a list of others after a comma. -/
  | list {s s₁ s' : ParserState} {joined sources : List TableSource}
      (joins : JoinsRead rules s joined s₁) (comma : s₁.stream.kind = .symbol .comma)
      (rest : ReferencesRead rules s₁.advance sources s') :
      AfterDerivedRead rules s (joined ++ sources) s'

/-- The state at the first clause of a derived table that starts after the current token: its
context is its own, but it goes on counting placeholders. -/
def derivedStart (s : ParserState) : ParserState :=
  ⟨s.stream.advance.advance, { parameters := s.context.parameters }⟩

/-- The state after a derived table of the level with context `outer`. -/
def derivedStop (outer : Context) (s : ParserState) : ParserState :=
  ⟨s.stream.advance, { outer with parameters := s.context.parameters }⟩

/-- A derived table starts with the count of the level around it. -/
lemma keepsCount_derivedStart {text : String} (keeps : KeepsCount text s)
    (word : s.stream.kind = .keyword .FROM)
    (opening : s.advance.stream.kind = .symbol .leftParen) : KeepsCount text (derivedStart s) := by
  have first : Run Context.EditsOnly s _ s.advance := run_token word
  have second : Run Context.EditsOnly s.advance _ s.advance.advance := run_token opening
  have entered := (keeps.editsOnly first).editsOnly second
  exact ⟨entered.source, entered.passed⟩

/-- The reading of some clauses of a level, with the events of the level and those of the levels
below it before and after. -/
inductive ClausesRead (env : Environment) : List SelectClause → ParserState →
    List (List LevelEvent) → List LevelEvent → ParserState → List (List LevelEvent) → Prop
  /-- No clause. -/
  | nil {s : ParserState} {below : List (List LevelEvent)} : ClausesRead env [] s below [] s below
  /-- A clause that says nothing about the route. -/
  | plain {clauses : List SelectClause} {next : SelectClause} {s s₁ s' : ParserState}
      {below below' : List (List LevelEvent)} {events : List LevelEvent}
      {level : Parser PartialLevel} {known known' : PartialLevel} {tokens : List Token}
      (noTables : next ≠ .tables) (noCondition : next ≠ .condition)
      (read : (clause env level known next).run s = .ok (known', s₁))
      (run : Run Context.EditsOnly s tokens s₁)
      (rest : ClausesRead env clauses s₁ below events s' below') :
      ClausesRead env (next :: clauses) s below events s' below'
  /-- No condition. -/
  | noCondition {clauses : List SelectClause} {s s' : ParserState}
      {below below' : List (List LevelEvent)} {events : List LevelEvent}
      (absent : s.stream.kind ≠ .keyword .WHERE)
      (rest : ClausesRead env clauses s below events s' below') :
      ClausesRead env (.condition :: clauses) s below events s' below'
  /-- A condition, whose route conditions are recorded. -/
  | condition {clauses : List SelectClause} {s s₁ s' : ParserState}
      {below below' : List (List LevelEvent)} {events : List LevelEvent} {formula : Formula}
      (word : s.stream.kind = .keyword .WHERE) (read : FormulaRead env.rules s.advance formula s₁)
      (rest : ClausesRead env clauses
        ⟨s₁.stream, s₁.context.addConditions formula.conditions⟩ below events s' below') :
      ClausesRead env (.condition :: clauses) s below (.condition formula :: events) s' below'
  /-- No tables. -/
  | noTables {clauses : List SelectClause} {s s' : ParserState}
      {below below' : List (List LevelEvent)} {events : List LevelEvent}
      (absent : s.stream.kind ≠ .keyword .FROM)
      (rest : ClausesRead env clauses s below events s' below') :
      ClausesRead env (.tables :: clauses) s below events s' below'
  /-- A list of tables. -/
  | tables {clauses : List SelectClause} {s s₁ s' : ParserState}
      {below below' : List (List LevelEvent)} {events : List LevelEvent}
      {sources : List TableSource} (word : s.stream.kind = .keyword .FROM)
      (read : ReferencesRead env.rules s.advance sources s₁)
      (rest : ClausesRead env clauses s₁ below events s' below') :
      ClausesRead env (.tables :: clauses) s below (sources.map .source ++ events) s' below'
  /-- A derived table with its alias, and the sources after it. -/
  | derived {clauses : List SelectClause} {s s₁ s₂ s₃ s' : ParserState}
      {below below' innerBelow : List (List LevelEvent)} {events inner : List LevelEvent}
      {sources : List TableSource} {aliasTokens : List Token} {aliasName : Option String}
      (word : s.stream.kind = .keyword .FROM)
      (opening : s.advance.stream.kind = .symbol .leftParen)
      (query : (derivedStart s).stream.kind = .keyword .SELECT)
      (innerRead : ClausesRead env env.dialect.clauses (derivedStart s).advance [] inner s₁
        innerBelow)
      (closing : s₁.stream.kind = .symbol .rightParen)
      (isAlias : AliasTokens s₁.stream.source aliasTokens aliasName)
      (run : Run Context.EditsOnly (derivedStop s.context s₁) aliasTokens s₂)
      (after : AfterDerivedRead env.rules s₂ sources s₃)
      (rest : ClausesRead env clauses s₃ (inner :: innerBelow) events s' below') :
      ClausesRead env (.tables :: clauses) s below
        (.source .derived :: (sources.map .source ++ events)) s' below'

/-! ## Clauses have readings -/

/-- A clause that says nothing about the route is passed by a run, and leaves the levels below. -/
lemma plain_read {level : Parser PartialLevel} {known known' : PartialLevel} {next : SelectClause}
    (noTables : next ≠ .tables) (noCondition : next ≠ .condition)
    (success : (clause env level known next).run s = .ok (known', s')) :
    (∃ tokens, Run Context.EditsOnly s tokens s') ∧ known'.below = known.below := by
  cases next with
  | tables => exact absurd rfl noTables
  | condition => exact absurd rfl noCondition
  | selectList =>
    obtain ⟨shape, s₁, read, done⟩ := run_bind_ok.1 success
    obtain ⟨rfl, rfl⟩ := run_pure_ok.1 done
    exact ⟨(runs_selectList known.shape).exists_run read, rfl⟩
  | grouping =>
    obtain ⟨shape, s₁, read, done⟩ := run_bind_ok.1 success
    obtain ⟨rfl, rfl⟩ := run_pure_ok.1 done
    exact ⟨(runs_grouping env.dialect known.shape).exists_run read, rfl⟩
  | groupCondition =>
    obtain ⟨_, s₁, read, done⟩ := run_bind_ok.1 success
    obtain ⟨rfl, rfl⟩ := run_pure_ok.1 done
    exact ⟨(runs_refuseKeywords [.HAVING]).exists_run read, rfl⟩
  | ordering =>
    obtain ⟨shape, s₁, read, done⟩ := run_bind_ok.1 success
    obtain ⟨rfl, rfl⟩ := run_pure_ok.1 done
    exact ⟨(runs_ordering known.shape).exists_run read, rfl⟩
  | limit =>
    obtain ⟨shape, s₁, read, done⟩ := run_bind_ok.1 success
    obtain ⟨rfl, rfl⟩ := run_pure_ok.1 done
    exact ⟨(runs_limit env.dialect.limitStyle known.shape).exists_run read, rfl⟩
  | trailing =>
    obtain ⟨_, s₁, read, done⟩ := run_bind_ok.1 success
    obtain ⟨rfl, rfl⟩ := run_pure_ok.1 done
    exact ⟨(runs_refuseKeywords env.dialect.refusedTrailing).exists_run read, rfl⟩

/-- The sources after a derived table are read up to the next clause. -/
lemma tablesAfterDerived_read {result : Unit}
    (success : (tablesAfterDerived rules).run s = .ok (result, s')) :
    ∃ sources, AfterDerivedRead rules s sources s' := by
  rw [tablesAfterDerived, (looks_checkKeyword _).run_bind, looks_stream.run_bind] at success
  split at success
  · rename_i stops
    obtain ⟨-, rfl⟩ := run_pure_ok.1 success
    have stop : s.stream.kind = .keyword .WHERE ∨ s.stream.kind = .endOfInput := by
      rw [Bool.or_eq_true, checkKeyword_iff, atEnd, beq_iff_eq] at stops
      exact stops
    refine ⟨[], .joins (.nil fun keyword mem same => ?_) fun comma => ?_⟩
    · simp only [joinKeywords, List.mem_cons, List.not_mem_nil, or_false] at mem
      rcases stop with stop | stop
      · rw [stop] at same
        obtain rfl := TokenKind.keyword.inj same
        simp at mem
      · rw [stop] at same
        cases same
    · rcases stop with stop | stop
      · simp [stop] at comma
      · simp [stop] at comma
  · obtain ⟨_, s₁, joined, rest⟩ := run_bind_ok.1 success
    obtain ⟨sources, joins⟩ := joins_read joined
    rw [run_skipSymbol_bind] at rest
    split at rest
    · rename_i comma
      obtain ⟨others, references⟩ := tableReferences_read rest
      exact ⟨_, .list joins comma references⟩
    · rename_i noComma
      obtain ⟨-, rfl⟩ := run_pure_ok.1 rest
      exact ⟨_, .joins joins noComma⟩

/-- The sources after a derived table are passed by a run that records tables and edits alone, and each of
them has a joint in front of it. -/
lemma AfterDerivedRead.exists_joints {sources : List TableSource} (h : AfterDerivedRead rules s sources s') :
    ∃ tokens, Run Context.TablesOnly s tokens s' ∧ sources.length ≤ tokens.countP isJoint := by
  cases h with
  | joins joins noComma => exact joins.exists_joints
  | list joins comma rest =>
    obtain ⟨tokens, run, fewer⟩ := joins.exists_joints
    obtain ⟨tokens', run', fewer'⟩ := rest.exists_joints
    refine ⟨_, run.trans ((run_token comma).trans run'), ?_⟩
    simp only [List.countP_append, List.length_append, List.countP_singleton, isJoint, beq_self_eq_true,
      Bool.or_true, if_true]
    omega

/-- The sources after a derived table are passed by a run that records tables and edits alone. -/
lemma AfterDerivedRead.exists_run {sources : List TableSource}
    (h : AfterDerivedRead rules s sources s') : ∃ tokens, Run Context.TablesOnly s tokens s' := by
  obtain ⟨tokens, run, -⟩ := h.exists_joints
  exact ⟨tokens, run⟩

/-- The sources after a derived table add the tables they name. -/
lemma AfterDerivedRead.tables_eq {sources : List TableSource}
    (h : AfterDerivedRead rules s sources s') :
    s'.context.tables = s.context.tables.withSources sources := by
  cases h with
  | joins joins noComma => exact joins.tables_eq
  | @list s₁ _ joined sources joins comma rest =>
    have next : s₁.advance.context.tables = s₁.context.tables := rfl
    rw [rest.tables_eq, next, joins.tables_eq, Tables.withSources_append]

/-! ## What a level collects -/

namespace ClausesRead

variable {clauses : List SelectClause} {below below' : List (List LevelEvent)}
  {events : List LevelEvent}

/-- A level collects the tables that its events name. -/
lemma tables_eq (h : ClausesRead env clauses s below events s' below') :
    s'.context.tables = s.context.tables.withSources (sources events) := by
  induction h with
  | nil => rfl
  | plain noTables noCondition read run rest ih => rw [ih, run.tables_eq]
  | noCondition absent rest ih => exact ih
  | condition word read rest ih =>
    obtain ⟨tokens, run⟩ := read.exists_run
    exact ih.trans (congrArg (Tables.withSources · _) run.tables_eq)
  | noTables absent rest ih => exact ih
  | tables word read rest ih =>
    rw [ih, read.tables_eq, sources_map_append, Tables.withSources_append]
    rfl
  | derived word opening query innerRead closing isAlias run after rest innerIh ih =>
    rw [ih, after.tables_eq, run.tables_eq, sources_cons_source, sources_map_append,
      Tables.withSources_derived, Tables.withSources_append]
    rfl

/-- A level collects the conditions that its events set. -/
lemma conditions_eq (h : ClausesRead env clauses s below events s' below') :
    s'.context.conditions = s.context.conditions ++ conditions events := by
  induction h with
  | nil => simp [conditions]
  | plain noTables noCondition read run rest ih =>
    rw [ih, run.conditions_eq_of_editsOnly]
  | noCondition absent rest ih => exact ih
  | @condition clauses s s₁ s' below below' events formula word read rest ih =>
    obtain ⟨tokens, run⟩ := read.exists_run
    have same : s₁.context.conditions = s.context.conditions := run.conditions_eq_of_editsOnly
    rw [ih, conditions_cons_condition, ← List.append_assoc, ← same]
    rfl
  | noTables absent rest ih => exact ih
  | tables word read rest ih =>
    obtain ⟨tokens, run⟩ := read.exists_run
    rw [ih, run.conditions_eq, conditions_map_append]
    rfl
  | derived word opening query innerRead closing isAlias run after rest innerIh ih =>
    obtain ⟨tokens, run'⟩ := after.exists_run
    rw [ih, run'.conditions_eq, run.conditions_eq_of_editsOnly,
      conditions_cons_source, conditions_map_append]
    rfl

/-- Clauses are passed by a run that keeps count, whatever else it records. Each source of the level has a
joint in front of it, but for the first one of each clause that lists tables.

**Proof sketch.** Induction on the reading. A derived table starts with a context of its own and
hands its count back, so neither changes the count. -/
lemma exists_joints (h : ClausesRead env clauses s below events s' below') :
    ∃ tokens, Run Context.SameCount s tokens s' ∧
      (sources events).length ≤ tokens.countP isJoint + clauses.count .tables := by
  induction h with
  | nil => exact ⟨[], .refl _, Nat.zero_le _⟩
  | plain noTables noCondition read run rest ih =>
    obtain ⟨tokens', run', fewer⟩ := ih
    refine ⟨_, (run.mono sameCount_of_editsOnly).trans run', ?_⟩
    rw [List.count_cons_of_ne noTables, List.countP_append]
    omega
  | noCondition absent rest ih => exact ih
  | @condition clauses s s₁ s' below below' events formula word read rest ih =>
    obtain ⟨tokens, run⟩ := read.exists_run
    obtain ⟨tokens', run', fewer⟩ := ih
    have first : Run Context.SameCount s _ s.advance := run_token word
    have recorded :
        Run Context.SameCount s _ ⟨s₁.stream, s₁.context.addConditions formula.conditions⟩ :=
      (first.trans (run.mono sameCount_of_editsOnly)).record rfl
    refine ⟨_, recorded.trans run', ?_⟩
    rw [sources_cons_condition, List.count_cons_of_ne (by decide), List.countP_append]
    omega
  | noTables absent rest ih =>
    obtain ⟨tokens, run, fewer⟩ := ih
    refine ⟨tokens, run, ?_⟩
    rw [List.count_cons_self]
    omega
  | tables word read rest ih =>
    obtain ⟨tokens, run, fewer⟩ := read.exists_joints
    obtain ⟨tokens', run', fewer'⟩ := ih
    refine ⟨_, (run_token word).trans ((run.mono sameCount_of_tablesOnly).trans run'), ?_⟩
    rw [sources_map_append, List.length_append, List.count_cons_self, List.countP_append,
      List.countP_append]
    omega
  | @derived clauses s s₁ s₂ s₃ s' below below' innerBelow events inner sources aliasTokens _ word
      opening query innerRead closing isAlias run after rest innerIh ih =>
    obtain ⟨innerTokens, innerRun, -⟩ := innerIh
    obtain ⟨tokens', run', fewer⟩ := after.exists_joints
    obtain ⟨tokens'', run'', fewer'⟩ := ih
    have first : Run Context.SameCount s _ s.advance := run_token word
    have second : Run Context.SameCount s.advance _ s.advance.advance := run_token opening
    have entered : Run Context.SameCount s _ (derivedStart s) := (first.trans second).record rfl
    have third : Run Context.SameCount (derivedStart s) _ (derivedStart s).advance :=
      run_token query
    have fourth : Run Context.SameCount s₁ _ s₁.advance := run_token closing
    have left : Run Context.SameCount s _ (derivedStop s.context s₁) :=
      (entered.trans (third.trans (innerRun.trans fourth))).record rfl
    refine ⟨_, left.trans ((run.mono sameCount_of_editsOnly).trans
      ((run'.mono sameCount_of_tablesOnly).trans run'')), ?_⟩
    rw [sources_cons_source, sources_map_append, List.length_cons, List.length_append,
      List.count_cons_self]
    simp only [List.countP_append]
    omega

/-- Clauses are passed by a run that keeps count, whatever else it records. -/
lemma exists_run (h : ClausesRead env clauses s below events s' below') :
    ∃ tokens, Run Context.SameCount s tokens s' := by
  obtain ⟨tokens, run, -⟩ := h.exists_joints
  exact ⟨tokens, run⟩

end ClausesRead

/-! ## What the predicates of a level mean -/

/-- Each predicate of some events has its meaning on the tables that come before it: those of `start`
and those that the events name. -/
def EventsMean (rules : ShardingRule) (text : String) (start : Tables) (events : List LevelEvent) :
    Prop :=
  ∀ before formula after, events = before ++ .condition formula :: after →
    ∀ predicate ∈ formula.predicates,
      predicate.Means rules text (start.withSources (sources before))

section Events

variable {text : String} {start : Tables} {events : List LevelEvent}

/-- Where there are no events, there is nothing to mean. -/
lemma eventsMean_nil : EventsMean rules text start [] := by
  intro before formula after split
  cases before <;> cases split

/-- Predicates in front have their meaning on the tables at the start. -/
lemma eventsMean_condition {formula : Formula}
    (first : ∀ predicate ∈ formula.predicates, predicate.Means rules text start)
    (rest : EventsMean rules text start events) :
    EventsMean rules text start (.condition formula :: events) := by
  intro before other after split
  cases before with
  | nil =>
    obtain ⟨same, -⟩ := List.cons.inj split
    cases same
    exact first
  | cons event before =>
    obtain ⟨rfl, split'⟩ := List.cons.inj split
    exact rest before other after split'

/-- A source in front adds its table for the predicates after it. -/
lemma eventsMean_source {source : TableSource}
    (rest : EventsMean rules text (start.withSources [source]) events) :
    EventsMean rules text start (.source source :: events) := by
  intro before formula after split
  cases before with
  | nil => cases split
  | cons event before =>
    obtain ⟨rfl, split'⟩ := List.cons.inj split
    have later := rest before formula after split'
    rwa [← Tables.withSources_append] at later

/-- Sources in front add their tables for the predicates after them. -/
lemma eventsMean_sources {front : List TableSource}
    (rest : EventsMean rules text (start.withSources front) events) :
    EventsMean rules text start (front.map .source ++ events) := by
  induction front generalizing start with
  | nil => exact rest
  | cons source front ih =>
    refine eventsMean_source (ih ?_)
    rwa [← Tables.withSources_append]

end Events

/-- The predicates of a level and of the levels below it have their meaning.

**Proof sketch.** Induction on the reading, which is the one of a text that has kept count up to
there. The tables that a list of predicates is read on are those of the sources before it. -/
lemma ClausesRead.mean {text : String} {clauses : List SelectClause}
    {below below' : List (List LevelEvent)} {events : List LevelEvent}
    (h : ClausesRead env clauses s below events s' below') (keeps : KeepsCount text s)
    (meanBelow : ∀ level ∈ below, EventsMean env.rules text {} level) :
    EventsMean env.rules text s.context.tables events ∧
      ∀ level ∈ below', EventsMean env.rules text {} level := by
  induction h with
  | nil => exact ⟨eventsMean_nil, meanBelow⟩
  | plain noTables noCondition read run rest ih =>
    have later := ih (keeps.editsOnly run) meanBelow
    rwa [run.tables_eq] at later
  | noCondition absent rest ih => exact ih keeps meanBelow
  | @condition clauses s s₁ s' below below' events formula word read rest ih =>
    have first : Run Context.EditsOnly s _ s.advance := run_token word
    have keepsFirst := keeps.editsOnly first
    obtain ⟨tokens, run⟩ := read.exists_run
    have keepsRead := keepsFirst.editsOnly run
    obtain ⟨later, inner⟩ := ih ⟨keepsRead.source, keepsRead.passed⟩ meanBelow
    have sameTables : s₁.context.tables = s.context.tables := run.tables_eq
    refine ⟨eventsMean_condition (read.means keepsFirst) ?_, inner⟩
    rw [← sameTables]
    exact later
  | noTables absent rest ih => exact ih keeps meanBelow
  | @tables clauses s s₁ s' below below' events sources word read rest ih =>
    have first : Run Context.EditsOnly s _ s.advance := run_token word
    obtain ⟨tokens, run⟩ := read.exists_run
    obtain ⟨later, inner⟩ := ih ((keeps.editsOnly first).tablesOnly run) meanBelow
    refine ⟨eventsMean_sources ?_, inner⟩
    rw [read.tables_eq] at later
    exact later
  | @derived clauses s s₁ s₂ s₃ s' below below' innerBelow events inner sources aliasTokens _ word
      opening query innerRead closing isAlias run after rest innerIh ih =>
    have third : Run Context.EditsOnly (derivedStart s) _ (derivedStart s).advance :=
      run_token query
    -- the levels below start with the count so far and with no tables
    have keepsInner := (keepsCount_derivedStart keeps word opening).editsOnly third
    obtain ⟨innerMean, innerMeanBelow⟩ := innerIh keepsInner (by simp)
    obtain ⟨innerTokens, innerRun⟩ := innerRead.exists_run
    have fourth : Run Context.EditsOnly s₁ _ s₁.advance := run_token closing
    have left := (keepsInner.sameCount innerRun).editsOnly fourth
    have keepsStop : KeepsCount text (derivedStop s.context s₁) := ⟨left.source, left.passed⟩
    obtain ⟨tokens, run'⟩ := after.exists_run
    have keepsAfter := (keepsStop.editsOnly run).tablesOnly run'
    have meanInner : ∀ level ∈ inner :: innerBelow, EventsMean env.rules text {} level := by
      intro level mem
      rcases List.mem_cons.1 mem with rfl | mem
      · exact innerMean
      · exact innerMeanBelow level mem
    obtain ⟨later, meanBelow'⟩ := ih keepsAfter meanInner
    refine ⟨eventsMean_source (eventsMean_sources ?_), meanBelow'⟩
    rw [after.tables_eq, run.tables_eq] at later
    exact later

/-! ## Levels have readings -/

/-- The tables of a level are absent, or a list of sources, or a derived table with the sources after
it. -/
lemma tables_reads {level : Parser PartialLevel} {below below' : List SelectLevel}
    (success : (tables rules level below).run s = .ok (below', s')) :
    s.stream.kind ≠ .keyword .FROM ∧ s' = s ∧ below' = below ∨
      s.stream.kind = .keyword .FROM ∧
        ((∃ sources, ReferencesRead rules s.advance sources s' ∧ below' = below) ∨
          s.advance.stream.kind = .symbol .leftParen ∧
            ∃ known s₁ s₂ sources aliasTokens aliasName,
              level.run (derivedStart s) = .ok (known, s₁) ∧
              s₁.stream.kind = .symbol .rightParen ∧
              AliasTokens s₁.stream.source aliasTokens aliasName ∧
              Run Context.EditsOnly (derivedStop s.context s₁) aliasTokens s₂ ∧
              AfterDerivedRead rules s₂ sources s' ∧
              below' = ⟨s₁.context, known.shape⟩ :: known.below) := by
  obtain ⟨_, s₀, refused, rest⟩ := run_bind_ok.1 success
  obtain rfl := run_refuseKeywords_ok refused
  rw [run_skipKeyword_bind] at rest
  split at rest
  · rename_i present
    obtain ⟨keyword, isFrom, word⟩ := checkAnyKeyword_iff.1 present
    obtain rfl := List.mem_singleton.1 isFrom
    rw [if_pos rfl, looks_checkQueryInParentheses.run_bind] at rest
    split at rest
    · rename_i isQuery
      rw [Bool.and_eq_true, check_symbol] at isQuery
      rw [run_advance_bind] at rest
      obtain ⟨levels, s₁, derived, afterLevels⟩ := run_bind_ok.1 rest
      obtain ⟨_, s₂, closed, afterClosing⟩ := run_bind_ok.1 afterLevels
      obtain ⟨aliasName, s₃, aliasRead, afterAlias⟩ := run_bind_ok.1 afterClosing
      obtain ⟨_, s₄, after, done⟩ := run_bind_ok.1 afterAlias
      obtain ⟨rfl, rfl⟩ := run_pure_ok.1 done
      rw [derivedTable, looks_context.run_bind, run_modifyContext_bind] at derived
      obtain ⟨known, s₅, inner, restored⟩ := run_bind_ok.1 derived
      rw [looks_context.run_bind, run_modifyContext_bind, run_pure_ok] at restored
      obtain ⟨rfl, rfl⟩ := restored
      obtain ⟨closing, -, rfl⟩ := run_acceptSymbol_ok.1 closed
      obtain ⟨aliasTokens, isAlias, run⟩ := aliasName_reads aliasRead
      obtain ⟨sources, afterRead⟩ := tablesAfterDerived_read after
      exact .inr ⟨word, .inr ⟨isQuery.1, known, s₅, s₃, sources, aliasTokens, aliasName, inner,
        closing, isAlias, run, afterRead, rfl⟩⟩
    · obtain ⟨_, s₁, references, done⟩ := run_bind_ok.1 rest
      obtain ⟨rfl, rfl⟩ := run_pure_ok.1 done
      obtain ⟨sources, read⟩ := tableReferences_read references
      exact .inr ⟨word, .inl ⟨sources, read, rfl⟩⟩
  · rename_i absent
    obtain ⟨rfl, rfl⟩ := run_pure_ok.1 rest
    simp only [checkAnyKeyword_iff, List.mem_singleton, exists_eq_left] at absent
    exact .inl ⟨absent, rfl, rfl⟩

/-- What levels collect is what their readings say. -/
def Collects (level : SelectLevel) (events : List LevelEvent) : Prop :=
  level.context.tables = LevelEvent.tables events ∧
    level.context.conditions = LevelEvent.conditions events

/-- The reading of a whole level, from the word it starts with. -/
def LevelRead (env : Environment) (s : ParserState) (events : List LevelEvent) (s' : ParserState)
    (below : List (List LevelEvent)) : Prop :=
  s.stream.kind = .keyword .SELECT ∧
    ClausesRead env env.dialect.clauses s.advance [] events s' below

/-- A level that starts with an empty context collects what its reading says. -/
lemma LevelRead.collects {k : Nat} {stream : TokenStream} {events : List LevelEvent}
    {below : List (List LevelEvent)} (shape : ResultShape)
    (h : LevelRead env ⟨stream, { parameters := k }⟩ events s' below) :
    Collects ⟨s'.context, shape⟩ events :=
  ⟨h.2.tables_eq, h.2.conditions_eq⟩

/-- Clauses that are read have a reading, where the levels below have one.

**Proof sketch.** Induction on the clauses. A clause that says nothing about the route is passed by
a run; the condition and the tables are what their readers say; and a derived table is read by the
parser of the levels below, whose reading starts with a context of its own. -/
lemma clauses_read {level : Parser PartialLevel} {clauses : List SelectClause}
    (levelRead : ∀ t t' known, level.run t = .ok (known, t') → ∃ inner below,
      LevelRead env t inner t' below ∧ List.Forall₂ Collects known.below below)
    {known known' : PartialLevel} {below : List (List LevelEvent)}
    (collects : List.Forall₂ Collects known.below below)
    (success : (clauses.foldlM (clause env level) known).run s = .ok (known', s')) :
    ∃ events below', ClausesRead env clauses s below events s' below' ∧
      List.Forall₂ Collects known'.below below' := by
  induction clauses generalizing s known below with
  | nil =>
    obtain ⟨rfl, rfl⟩ := run_pure_ok.1 success
    exact ⟨[], below, .nil, collects⟩
  | cons next clauses ih =>
    rw [List.foldlM_cons] at success
    obtain ⟨known₁, s₁, first, rest⟩ := run_bind_ok.1 success
    by_cases isTables : next = .tables
    · subst isTables
      obtain ⟨levels, s₂, read, done⟩ := run_bind_ok.1 first
      obtain ⟨rfl, rfl⟩ := run_pure_ok.1 done
      rcases tables_reads read with ⟨absent, rfl, rfl⟩ | ⟨word, ⟨sources, references, rfl⟩ |
        ⟨opening, inside, t, t', sources, aliasTokens, aliasName, inner, closing, isAlias, run,
          after, rfl⟩⟩
      · obtain ⟨events, below', reading, collects'⟩ := ih collects rest
        exact ⟨events, below', .noTables absent reading, collects'⟩
      · obtain ⟨events, below', reading, collects'⟩ := ih collects rest
        exact ⟨_, below', .tables word references reading, collects'⟩
      · obtain ⟨innerEvents, innerBelow, innerRead, innerCollects⟩ := levelRead _ _ _ inner
        have collected : List.Forall₂ Collects (⟨t.context, inside.shape⟩ :: inside.below)
            (innerEvents :: innerBelow) := .cons (innerRead.collects inside.shape) innerCollects
        obtain ⟨events, below', reading, collects'⟩ := ih collected rest
        exact ⟨_, below', .derived word opening innerRead.1 innerRead.2 closing isAlias run after
          reading, collects'⟩
    by_cases isCondition : next = .condition
    · subst isCondition
      obtain ⟨_, s₂, read, done⟩ := run_bind_ok.1 first
      obtain ⟨rfl, rfl⟩ := run_pure_ok.1 done
      rcases condition_reads read with ⟨absent, rfl⟩ | ⟨word, formula, t, formulaRead, rfl⟩
      · obtain ⟨events, below', reading, collects'⟩ := ih collects rest
        exact ⟨events, below', .noCondition absent reading, collects'⟩
      · obtain ⟨events, below', reading, collects'⟩ := ih collects rest
        exact ⟨_, below', .condition word formulaRead reading, collects'⟩
    · obtain ⟨⟨tokens, run⟩, sameBelow⟩ := plain_read isTables isCondition first
      obtain ⟨events, below', reading, collects'⟩ := ih (sameBelow ▸ collects) rest
      exact ⟨events, below', .plain isTables isCondition first run reading, collects'⟩

/-- A level that is read has a reading.

**Proof sketch.** Induction on the bound on the tokens, which bounds the levels below. -/
lemma levelsUpTo_read {n : Nat} {known : PartialLevel}
    (success : (levelsUpTo env n).run s = .ok (known, s')) :
    ∃ events below, LevelRead env s events s' below ∧ List.Forall₂ Collects known.below below := by
  induction n generalizing s s' known with
  | zero => exact absurd success run_unexpected_ne
  | succ n ih =>
    obtain ⟨_, s₁, accepted, rest⟩ := run_bind_ok.1 success
    obtain ⟨word, -, rfl⟩ := run_acceptKeyword_ok.1 accepted
    obtain ⟨events, below, reading, collects⟩ :=
      clauses_read (fun t t' known read => ih read) .nil rest
    exact ⟨events, below, ⟨word, reading⟩, collects⟩

end Grammar

end SqlRouting
