import SqlRouting.Proofs.CountedReaders
import SqlRouting.Proofs.Progress

/-!
# Counting placeholders

The index of a bound parameter is the number of placeholders before it in the text. A parse hands
one count through all of its readers, and a derived table, which has a context of its own, starts
with the count of the level around it and hands its own count back. So the count is right behind
every expression and every clause, and with it the index of each placeholder that is recorded.

## Main definitions

* `SqlRouting.Grammar.LimitFrom` — a limit that is written by tokens of a text.
* `SqlRouting.Statement.Numbered` — a statement whose placeholders are numbered as in a text.

## Main results

* `SqlRouting.Grammar.limitsFrom_levelsUpTo` — the limits of a query are written by its text.
* `SqlRouting.Statement.placeholders_counted` — the count is right behind every expression and every
  clause that is read, the count of a statement is that of its text, and its placeholders are
  numbered in the order of the text.
-/

set_option autoImplicit false

namespace SqlRouting

open TokenStream

namespace Grammar

open SqlRouting.Parser

variable {env : Environment} {rules : ShardingRule} {text table : String} {s s' : ParserState}

/-! ## Readers of levels -/

/-- A derived table counts the placeholders it passes, in a context of its own. -/
lemma runs_derivedTable {level : Parser PartialLevel} (runs : Runs Context.SameCount level) :
    Runs Context.SameCount (derivedTable level) := by
  refine .look looks_context fun outer => .bind ?_ fun _ => ?_
  · exact runs_modifyContext fun _ => rfl
  · refine .bind runs fun known => .look looks_context fun inner => ?_
    exact .bind (runs_modifyContext fun _ => rfl) fun _ => .pure _

/-- The sources after a derived table count the placeholders they pass. -/
lemma runs_tablesAfterDerived : Runs Context.TablesOnly (tablesAfterDerived rules) := by
  intro s result s' _ success
  obtain ⟨sources, read⟩ := tablesAfterDerived_read success
  exact read.exists_run

/-- A list of sources counts the placeholders it passes. -/
lemma runs_tableReferences : Runs Context.TablesOnly (tableReferences rules) := by
  intro s result s' _ success
  obtain ⟨sources, read⟩ := tableReferences_read success
  exact read.exists_run

/-- The tables of a level count the placeholders they pass. -/
lemma runs_tables {level : Parser PartialLevel} (runs : Runs Context.SameCount level)
    (below : List SelectLevel) : Runs Context.SameCount (tables rules level below) := by
  refine .bind (runs_refuseKeywords [.INTO]) fun _ => .bind (runs_skipKeyword [.FROM]) fun _ => ?_
  refine .ite (fun _ => .look looks_checkQueryInParentheses fun isQuery => .ite (fun isTrue => ?_)
    fun _ => ?_) fun _ => .pure _
  · have opened (s : ParserState) (seen : True ∧ (s.stream.check (.symbol .leftParen) &&
        s.stream.peek == .keyword .SELECT) = isQuery) : s.stream.kind = .symbol .leftParen := by
      rw [isTrue, Bool.and_eq_true, check_symbol] at seen
      exact seen.2.1
    refine .bind (.advance opened (by simp) (by simp)) fun _ => ?_
    refine .bind (runs_derivedTable runs) fun _ => ?_
    refine .bind (runs_acceptSymbol (by decide)) fun _ => ?_
    refine .bind (runs_aliasName.mono sameCount_of_editsOnly) fun _ => ?_
    exact .bind (runs_tablesAfterDerived.mono sameCount_of_tablesOnly) fun _ => .pure _
  · exact .bind (runs_tableReferences.mono sameCount_of_tablesOnly).runsFrom fun _ => .pure _

/-- The condition of a level counts the placeholders it passes. -/
lemma runs_condition : Runs Context.SameCount (condition rules) := by
  intro s result s' _ success
  rcases condition_reads success with ⟨-, rfl⟩ | ⟨word, formula, s₁, read, rfl⟩
  · exact ⟨[], .refl _⟩
  · obtain ⟨tokens, run⟩ := read.exists_run
    have first : Run Context.EditsOnly s _ s.advance := run_token word
    exact ⟨_, ((first.trans run).mono sameCount_of_editsOnly).record rfl⟩

/-- Each clause counts the placeholders it passes, if the levels below do. -/
lemma runs_clause {level : Parser PartialLevel} (runs : Runs Context.SameCount level)
    (known : PartialLevel) (next : SelectClause) :
    Runs Context.SameCount (clause env level known next) := by
  cases next with
  | selectList =>
    exact .bind ((runs_selectList known.shape).mono sameCount_of_editsOnly) fun _ => .pure _
  | tables => exact .bind (runs_tables runs known.below) fun _ => .pure _
  | condition => exact .bind runs_condition fun _ => .pure _
  | grouping =>
    exact .bind ((runs_grouping env.dialect known.shape).mono sameCount_of_editsOnly)
      fun _ => .pure _
  | groupCondition => exact .bind (runs_refuseKeywords [.HAVING]) fun _ => .pure _
  | ordering =>
    exact .bind ((runs_ordering known.shape).mono sameCount_of_editsOnly) fun _ => .pure _
  | limit =>
    exact .bind ((runs_limit env.dialect.limitStyle known.shape).mono sameCount_of_editsOnly)
      fun _ => .pure _
  | trailing => exact .bind (runs_refuseKeywords env.dialect.refusedTrailing) fun _ => .pure _

/-- The levels of a query count the placeholders they pass. -/
lemma runs_levelsUpTo (n : Nat) : Runs Context.SameCount (levelsUpTo env n) := by
  induction n with
  | zero => exact runs_unexpected _
  | succ n ih =>
    exact .bind (runs_acceptKeyword .SELECT) fun _ => .foldlM (runs_clause ih) env.dialect.clauses {}

/-! ## Limits -/

/-- The limit is written by tokens of a text, in which its placeholders are numbered. -/
def LimitFrom (text : String) (limit : Limit) : Prop :=
  ∃ before tokens after rowCount, Lexer.tokens text = before ++ tokens ++ after ∧
    limit.rowCount = some rowCount ∧
    LimitTokens (placeholders before) tokens limit.offset rowCount

/-- The limits that are known of a level and of those below it are written by a text. -/
def LimitsFrom (text : String) (known : PartialLevel) : Prop :=
  (∀ limit, known.shape.limit = some limit → LimitFrom text limit) ∧
    ∀ level ∈ known.below, ∀ limit, level.shape.limit = some limit → LimitFrom text limit

/-- A select list leaves the limit. -/
lemma limit_of_selectList {shape shape' : ResultShape}
    (success : (selectList rules shape).run s = .ok (shape', s')) : shape'.limit = shape.limit := by
  have rest (distinct : Bool) {t : ParserState} (done : (do
      let items ← commaSeparated (selectItem rules)
      return {
        shape with
        items := shape.items ++ (if distinct then foldDistinct items else items)
        containsStar := shape.containsStar || items.any isStar
        selectListStop := ← offset } : Parser ResultShape).run t = .ok (shape', s')) :
      shape'.limit = shape.limit := by
    obtain ⟨items, t₁, -, done⟩ := run_bind_ok.1 done
    cases done
    rfl
  obtain ⟨distinct, s₁, -, success⟩ := run_bind_ok.1 success
  cases distinct with
  | true => exact rest true success
  | false =>
    obtain ⟨_, s₂, -, success⟩ := run_bind_ok.1 success
    exact rest false success

/-- A grouping leaves the limit. -/
lemma limit_of_grouping {dialect : Dialect} {shape shape' : ResultShape}
    (success : (grouping dialect rules shape).run s = .ok (shape', s')) :
    shape'.limit = shape.limit := by
  obtain ⟨_, s₁, -, success⟩ := run_bind_ok.1 success
  split at success
  · obtain ⟨_, s₂, -, success⟩ := run_bind_ok.1 success
    obtain ⟨_, s₃, -, success⟩ := run_bind_ok.1 success
    obtain ⟨_, s₄, -, success⟩ := run_bind_ok.1 success
    cases success
    rfl
  · cases success
    rfl

/-- An ordering leaves the limit. -/
lemma limit_of_ordering {shape shape' : ResultShape}
    (success : (ordering rules shape).run s = .ok (shape', s')) : shape'.limit = shape.limit := by
  obtain ⟨_, s₁, -, success⟩ := run_bind_ok.1 success
  split at success
  · obtain ⟨_, s₂, -, success⟩ := run_bind_ok.1 success
    obtain ⟨_, s₃, -, success⟩ := run_bind_ok.1 success
    cases success
    rfl
  · cases success
    rfl

/-- A clause whose limits are written by the text, as are those of the levels below, keeps them
so. -/
lemma limitsFrom_clause {level : Parser PartialLevel} {known known' : PartialLevel}
    {next : SelectClause} (keeps : KeepsCount text s)
    (levelLimits : ∀ t t' known, KeepsCount text t → level.run t = .ok (known, t') →
      LimitsFrom text known)
    (limits : LimitsFrom text known)
    (success : (clause env level known next).run s = .ok (known', s')) :
    LimitsFrom text known' := by
  have sameLimit {shape : ResultShape} (same : shape.limit = known.shape.limit) :
      LimitsFrom text { known with shape } :=
    ⟨fun limit isLimit => limits.1 limit (same ▸ isLimit), limits.2⟩
  cases next with
  | selectList =>
    obtain ⟨shape, s₁, read, done⟩ := run_bind_ok.1 success
    obtain ⟨rfl, rfl⟩ := run_pure_ok.1 done
    exact sameLimit (limit_of_selectList read)
  | grouping =>
    obtain ⟨shape, s₁, read, done⟩ := run_bind_ok.1 success
    obtain ⟨rfl, rfl⟩ := run_pure_ok.1 done
    exact sameLimit (limit_of_grouping read)
  | ordering =>
    obtain ⟨shape, s₁, read, done⟩ := run_bind_ok.1 success
    obtain ⟨rfl, rfl⟩ := run_pure_ok.1 done
    exact sameLimit (limit_of_ordering read)
  | condition | groupCondition | trailing =>
    obtain ⟨_, s₁, read, done⟩ := run_bind_ok.1 success
    obtain ⟨rfl, rfl⟩ := run_pure_ok.1 done
    exact limits
  | limit =>
    obtain ⟨shape, s₁, read, done⟩ := run_bind_ok.1 success
    obtain ⟨rfl, rfl⟩ := run_pure_ok.1 done
    rcases limit_reads read with ⟨rfl, rfl⟩ |
      ⟨tokens, read, offset, rowCount, run, isLimit, rfl, rfl, isCount⟩
    · exact limits
    · refine ⟨fun limit same => ?_, limits.2⟩
      obtain rfl := Option.some.inj same
      obtain ⟨before, after, split, counted⟩ := keeps.located run
      rw [counted] at isLimit
      exact ⟨before, tokens, after, rowCount, split, isCount, isLimit⟩
  | tables =>
    obtain ⟨below, s₁, read, done⟩ := run_bind_ok.1 success
    obtain ⟨rfl, rfl⟩ := run_pure_ok.1 done
    rcases tables_reads read with ⟨-, -, rfl⟩ | ⟨word, ⟨sources, -, rfl⟩ |
      ⟨opening, inside, t, t', sources, aliasTokens, aliasName, inner, -, -, -, -, rfl⟩⟩
    · exact limits
    · exact limits
    · obtain ⟨own, others⟩ := levelLimits _ _ _ (keepsCount_derivedStart keeps word opening) inner
      refine ⟨limits.1, fun level mem => ?_⟩
      rcases List.mem_cons.1 mem with rfl | mem
      · exact own
      · exact others level mem

/-- The limits of levels that are read are written by the text.

**Proof sketch.** Induction on the bound on the tokens, which bounds the levels below, and on the
clauses. The count is right at each clause, so the limit clause numbers its placeholders as in the
text, and no other clause has a limit. -/
lemma limitsFrom_levelsUpTo {n : Nat} : ∀ {s s' : ParserState} {known : PartialLevel},
    KeepsCount text s → (levelsUpTo env n).run s = .ok (known, s') → LimitsFrom text known := by
  induction n with
  | zero => exact fun _ success => absurd success run_unexpected_ne
  | succ n ih =>
    intro s s' known keeps success
    obtain ⟨_, s₁, accepted, rest⟩ := run_bind_ok.1 success
    obtain ⟨word, -, rfl⟩ := run_acceptKeyword_ok.1 accepted
    have first : Run Context.EditsOnly s _ s.advance := run_token word
    have opened : KeepsCount text s.advance ∧ LimitsFrom text {} :=
      ⟨keeps.editsOnly first, by simp, by simp⟩
    refine (run_foldlM_keeps (P := fun known t => KeepsCount text t ∧ LimitsFrom text known)
      (fun next _ known known' t t' holds read => ?_) opened rest).2
    obtain ⟨keeps, limits⟩ := holds
    obtain ⟨tokens, run⟩ := (runs_clause (runs_levelsUpTo n) known next).exists_run read
    exact ⟨keeps.sameCount run, limitsFrom_clause keeps (fun _ _ _ keeps => ih keeps) limits read⟩

/-- The limit of an accepted query is written by its text. -/
lemma limitFrom_of_ofText {query : SelectStatement} {limit : Limit}
    (success : Statement.ofText env text = .ok (.select query))
    (isLimit : query.shape.limit = some limit) : LimitFrom text limit := by
  obtain ⟨s, s', -, ⟨_, same, selected⟩ | ⟨_, same, -⟩⟩ := ofText_reads success
  · cases same
    obtain ⟨whole, s₁, read, prepared⟩ := run_bind_ok.1 selected
    obtain ⟨isPrepared, rfl⟩ := run_lift_ok.1 prepared
    rw [(SelectStatement.prepare_keeps isPrepared).limit] at isLimit
    obtain ⟨n, known, levelsRead, rfl⟩ := levels_run read
    obtain ⟨own, others⟩ := limitsFrom_levelsUpTo (KeepsCount.start text) levelsRead
    exact SelectStatement.merge_shape (P := fun shape => ∀ limit, shape.limit = some limit →
      LimitFrom text limit) (List.forall_mem_cons.2 ⟨own, others⟩) limit isLimit
  · cases same

/-! ## Placeholders of conditions -/

section Ranks

variable {source : String} {index rank : Nat} {tokens : List Token} {condition : RouteCondition}

/-- The number of a placeholder that is a value is its rank. -/
lemma PlainValue.mem_ranks (h : PlainValue index tokens (.placeholder rank)) :
    rank ∈ ranks index tokens := by
  cases h
  simp [ranks]

/-- The number of a placeholder in a list of values is its rank. -/
lemma PlainValues.mem_ranks {values : List RoutingValue} (h : PlainValues index tokens values)
    (mem : .placeholder rank ∈ values) : rank ∈ ranks index tokens := by
  unfold PlainValues at h
  induction h with
  | one first =>
    obtain rfl := List.mem_singleton.1 mem
    exact first.mem_ranks
  | @cons index tokens rest comma value values first isComma more ih =>
    rw [ranks_append, List.mem_append]
    rcases List.mem_cons.1 mem with rfl | mem
    · exact .inl first.mem_ranks
    · refine .inr ?_
      have plain : comma.kind ≠ .symbol .question := by simp [isComma]
      rw [ranks, if_neg (by simpa using plain)]
      exact ih mem

/-- The number of a placeholder in a restriction is its rank. -/
lemma Restricts.mem_ranks {column : Column} (h : Restricts index column tokens condition)
    (mem : .placeholder rank ∈ condition.values) : rank ∈ ranks index tokens := by
  cases h with
  | @equal sign right value isSign plain =>
    obtain rfl := List.mem_singleton.1 mem
    rw [ranks, if_neg (by simp [isSign])]
    exact plain.mem_ranks
  | @within word opening closing list values isWord opens plain closes =>
    rw [ranks, if_neg (by simp [isWord]), ranks, if_neg (by simp [opens]), ranks_append]
    exact List.mem_append_left _ (plain.mem_ranks mem)
  | @between word range low high isWord plain =>
    obtain ⟨left, conjunction, right, rfl, isLow, isAnd, isHigh⟩ := plain
    rw [ranks, if_neg (by simp [isWord]), ranks_append, ranks, if_neg (by simp [isAnd]),
      List.mem_append]
    rcases List.mem_pair.1 mem with rfl | rfl
    · exact .inl isLow.mem_ranks
    · exact .inr isHigh.mem_ranks

/-- The number of a placeholder in a condition that a predicate sets is its rank. -/
lemma Sets.mem_ranks {tables : Tables} (h : Sets rules source tables index tokens condition)
    (mem : .placeholder rank ∈ condition.values) : rank ∈ ranks index tokens := by
  cases h with
  | intro refers sharding restricts =>
    rw [ranks_append, refers.placeholders_eq]
    exact List.mem_append_right _ (restricts.mem_ranks mem)

end Ranks

end Grammar

namespace Lexer

/-- The end of the input is no placeholder. -/
lemma placeholders_tokenize (text : String) :
    placeholders (tokenize text) = placeholders (tokens text) := by
  rw [tokenize, placeholders_append, placeholders_cons_of_ne (by simp [ending]),
    placeholders_nil, Nat.add_zero]

end Lexer

/-! ## Statements -/

namespace Statement

open Grammar

/-- The placeholders of the statement are numbered as in the text: those of each condition and of
the limit by the tokens that they are read from, and those of a row as all placeholders among its
tokens. -/
def Numbered (env : Environment) (text : String) : Statement → Prop
  | .select query =>
    (∀ limit, query.shape.limit = some limit → LimitFrom text limit) ∧
      ∀ condition ∈ query.context.conditions, ∃ tables before tokens after,
        Lexer.tokens text = before ++ tokens ++ after ∧
          Sets env.rules text tables (placeholders before) tokens condition ∧
          ∀ rank, .placeholder rank ∈ condition.values → rank ∈ ranks (placeholders before) tokens
  | .insert insertion =>
    (∀ row ∈ insertion.rows, ∃ read before tokens after,
      Lexer.tokens text = before ++ tokens ++ after ∧
        RowTokens env.dialect.insertKeywords text (insertion.tableName?.getD "")
          (placeholders before) tokens read ∧
        read.row = row ∧ row.placeholders = ranks (placeholders before) tokens) ∧
      ∀ condition ∈ insertion.context.conditions, ∃ (read : ReadRow) (column : Column)
        (value : ReadValue) (plain : RoutingValue) (before after : List Token),
        read.Means env.dialect.insertKeywords text (insertion.tableName?.getD "") ∧
          (column, value) ∈ read.columns.zip read.values ∧
          Lexer.tokens text = before ++ value.tokens ++ after ∧
          PlainValue (placeholders before) value.tokens plain ∧ condition = .equal column plain

/-- The placeholders of an accepted query are numbered as in its text. -/
lemma numbered_select {env : Environment} {text : String} {query : SelectStatement}
    (success : ofText env text = .ok (.select query)) : (select query).Numbered env text := by
  refine ⟨fun limit isLimit => limitFrom_of_ofText success isLimit, fun condition mem => ?_⟩
  obtain ⟨outer, below, -, mean, conditions, -, -⟩ := query_read success
  rw [conditions, List.mem_flatMap] at mem
  obtain ⟨level, isLevel, mem⟩ := mem
  obtain ⟨before, formula, after, predicate, split, isPredicate, isCondition⟩ :=
    LevelEvent.mem_conditions mem
  have means := mean level isLevel before formula after split predicate isPredicate
  obtain ⟨front, back, located, counted⟩ := means.located
  have sets := ((means.condition condition).1 isCondition).1
  rw [counted] at sets
  exact ⟨_, front, predicate.tokens, back, located, sets, fun rank => sets.mem_ranks⟩

/-- The placeholders of an accepted insertion are numbered as in its text. -/
lemma numbered_insert {env : Environment} {text : String} {insertion : InsertStatement}
    (success : ofText env text = .ok (.insert insertion)) :
    (insert insertion).Numbered env text := by
  obtain ⟨-, reads, reading⟩ := insertion_read success
  refine ⟨fun row mem => ?_, fun condition mem => ?_⟩
  · rw [reading.rows] at mem
    obtain ⟨read, isRead, rfl⟩ := List.mem_map.1 mem
    obtain ⟨before, tokens, after, split, isRow⟩ := reading.means read isRead
    exact ⟨read, before, tokens, after, split, isRow, rfl, isRow.placeholders_eq⟩
  · rw [reading.conditions] at mem
    obtain ⟨read, isRead, mem⟩ := List.mem_flatMap.1 mem
    obtain ⟨before, tokens, after, split, isRow⟩ := reading.means read isRead
    obtain ⟨column, value, plain, isValue, -, isPlain, rfl⟩ := isRow.mem_conditions.1 mem
    obtain ⟨front, back, rfl, written⟩ := isRow.located value (List.of_mem_zip isValue).2
    refine ⟨read, column, value, plain, before ++ front, back ++ after,
      ⟨before, _, after, split, isRow⟩, isValue, by simp [split], ?_, rfl⟩
    rwa [placeholders_append, ← written.numbered]

/-- **Placeholders are counted in the order of the text**, whatever the dialect, the rules, the known
columns and the text are. Behind each expression and each clause that is read, in a query, at any
nesting of derived tables, or in an insertion, and whether or not the text is accepted, the context
has counted exactly the placeholders among the tokens passed so far, which are the first ones of the
text. The count of an accepted statement is that of its text, and the placeholders it records are
numbered by it.

**Proof sketch.** The traced parser of statements is the parser of statements, and it counts: the only
step past a placeholder counts it, a group is passed with the placeholders in it, and a derived table
goes on with the count around it. The readings of queries and insertions say which tokens a condition,
a limit or a row is read from; the count at these tokens is the number of placeholders before them. -/
theorem placeholders_counted (env : Environment) (text : String) :
    ((Traced.statement env).parser = Grammar.statement env ∧
      Event.passed (trace env text) <+: Lexer.tokens text ∧
      ∀ before count after, trace env text = before ++ .read count :: after →
        count = placeholders (Event.passed before)) ∧
    ∀ statement, ofText env text = .ok statement →
      statement.context.parameters = placeholders (Lexer.tokenize text) ∧
        statement.Numbered env text := by
  refine ⟨⟨Traced.parser_statement, (orderlyAt_trace env text).passed, fun before count after split => ?_⟩,
    fun statement success => ?_⟩
  · have counts : Traced.CountsAt (Traced.statement env) ⟨.ofText text, {}⟩ :=
      Traced.counts_statement _ trivial
    exact (counts.counted before count after split).trans (Nat.zero_add _)
  · rw [Lexer.placeholders_tokenize]
    cases statement with
    | select query =>
      obtain ⟨outer, below, -, -, -, -, parameters⟩ := query_read success
      exact ⟨parameters, numbered_select success⟩
    | insert insertion =>
      exact ⟨(insertion_read success).1, numbered_insert success⟩

/-- A placeholder of a condition and one of a limit are counted and numbered. -/
theorem placeholders_counted_limit : ∃ (env : Environment) (text : String) (statement : Statement),
    ofText env text = .ok statement ∧ statement.context.conditions =
      [.equal ⟨"a", "t"⟩ (.placeholder 0)] ∧ statement.context.parameters = 2 ∧
      statement.Numbered env text := by
  let env : Environment := { rules := ⟨[{ table := "t", shardingColumns := ["a"] }]⟩ }
  let text := "SELECT a FROM t WHERE a = ? LIMIT ?"
  have accepted : (ofText env text).toOption.map (·.context.conditions) =
      some [.equal ⟨"a", "t"⟩ (.placeholder 0)] := by decide +kernel
  have two : placeholders (Lexer.tokenize text) = 2 := by decide +kernel
  cases success : ofText env text with
  | error error => simp [success, Except.toOption] at accepted
  | ok statement =>
    obtain ⟨parameters, numbered⟩ := (placeholders_counted env text).2 statement success
    have conditions : statement.context.conditions = [.equal ⟨"a", "t"⟩ (.placeholder 0)] := by
      simpa [success, Except.toOption] using accepted
    exact ⟨env, text, statement, success, conditions, parameters.trans two, numbered⟩

/-- The count is told behind an expression, its alias and the item they make up, also where the list is not
accepted. -/
example : trace {} "SELECT ?," =
    [.call [3], .pass ⟨.keyword .SELECT, ⟨0, 6⟩⟩, .call [2, 3], .pass ⟨.symbol .question, ⟨7, 8⟩⟩,
      .read 1, .read 1, .read 1, .pass ⟨.symbol .comma, ⟨8, 9⟩⟩, .turn 2 0, .call [0, 3], .bound 0] := by
  decide +kernel

end Statement

end SqlRouting
