import SqlRouting.Proofs.Counting
import SqlRouting.Proofs.TracedStatement

/-!
# Counted readers

The readers of expressions, clauses and statements count. Each of them passes placeholders only by the step
that counts them, within a group, or by another reader. A derived table has a context of its own, which starts
with the count of the level around it and hands its own count back.

## Main results

* `SqlRouting.Traced.counts_expression` — expressions count.
* `SqlRouting.Traced.counts_levelsUpTo` — the levels of a query count.
* `SqlRouting.Traced.counts_statement` — statements count.
-/

set_option autoImplicit false

namespace SqlRouting.Traced

open SqlRouting.Parser SqlRouting.Grammar

variable {start : ParserState → Prop} {rules : ShardingRule} {offset : Nat}

/-! ## Expressions -/

section Parts

variable {operand : Traced Expression} (counts : Counts operand)

include counts

/-- Operators count if their operands do. -/
lemma counts_compositeWith : Counts (compositeWith operand) := by
  have upTo (n : Nat) : Counts (compositeUpTo operand n) := by
    induction n with
    | zero => exact .bounded (.pure _)
    | succ n ih =>
      refine .look looks_remaining fun left => .look looks_checkComposite fun joined => ?_
      refine .ite (fun isTrue => ?_) fun _ => .pure _
      refine .bind (.advance fun s seen isPlaceholder => ?_) fun _ => counts.bind fun _ => .again ih
      rw [← seen.2, isPlaceholder] at isTrue
      cases isTrue
  exact .counted (.look looks_remaining fun n => (upTo n).countsFrom)

/-- An operator of one operand counts. -/
lemma counts_unaryWith (plain : ∀ s, start s → s.stream.kind ≠ .symbol .question) :
    CountsFrom start (unaryWith operand offset) :=
  .bind (.advance plain) fun _ => counts.bind fun _ => .look (looks_textFrom _) fun _ => .pure _

/-- A sign counts. -/
lemma counts_signedWith (plain : ∀ s, start s → s.stream.kind ≠ .symbol .question) (sign : String) :
    CountsFrom start (signedWith operand offset sign) := by
  refine .look looks_peek fun kind => ?_
  split
  · refine .pass (fun s seen => plain s seen.1) fun _ => .bind (.advance ?_) fun _ => .pure _
    rintro s' ⟨s, seen, rfl⟩
    have isNumber := TokenStream.kind_advance.trans seen.2
    simp [ParserState.advance, isNumber]
  · exact counts_unaryWith counts fun s seen => plain s seen.1

/-- What starts with a keyword counts. -/
lemma counts_keywordWith (plain : ∀ s, start s → s.stream.kind ≠ .symbol .question) (keyword : Keyword) :
    CountsFrom start (keywordWith operand offset keyword) := by
  refine .ite (fun _ => counts_unaryWith counts plain) fun _ => .ite (fun _ => ?_) fun _ => ?_
  · exact .bind (counts_skipGroup _).countsFrom fun _ => .look (looks_textFrom _) fun _ => .pure _
  · refine .look looks_peek fun kind => .ite (fun _ => ?_) fun _ => .still (runs_unexpected _)
    exact .bind (.advance fun s seen => plain s seen.1) fun _ => .look (looks_textFrom _) fun _ => .pure _

/-- What starts with a symbol counts. -/
lemma counts_symbolWith {symbol : Symbol} (isSymbol : ∀ s, start s → s.stream.kind = .symbol symbol) :
    CountsFrom start (symbolWith operand offset symbol) := by
  have plain (other : symbol ≠ .question) (s : ParserState) (holds : start s) :
      s.stream.kind ≠ .symbol .question := by
    rw [isSymbol s holds]
    simpa using other
  unfold symbolWith
  split
  · exact .bind (.placeholder isSymbol) fun _ => .pure _
  · exact counts_signedWith counts (plain (by simp)) _
  · exact counts_signedWith counts (plain (by simp)) _
  · exact counts_unaryWith counts (plain (by simp))
  · exact counts_unaryWith counts (plain (by simp))
  · exact .bind counts_skipParentheses.countsFrom fun _ => .look (looks_textFrom _) fun _ => .pure _
  · exact .still (runs_unexpected _)

/-- The part before any operator or arguments counts. -/
lemma counts_primaryWith : Counts (primaryWith operand) := by
  refine .look looks_offset fun offset => .look looks_kind fun kind => ?_
  have plain {kind : TokenKind} (other : kind ≠ .symbol .question) (s : ParserState)
      (seen : (True ∧ s.stream.offset = offset) ∧ s.stream.kind = kind) :
      s.stream.kind ≠ .symbol .question := seen.2 ▸ other
  split
  · exact .bind (.advance (plain (by simp))) fun _ => .pure _
  · exact .bind (.advance (plain (by simp))) fun _ => .pure _
  · exact .bind (.advance (plain (by simp))) fun _ => .pure _
  · exact .bind (.advance (plain (by simp))) fun _ => .look (looks_textFrom _) fun _ => .pure _
  · exact counts_keywordWith counts (plain (by simp)) _
  · exact counts_symbolWith counts fun s seen => seen.2
  · exact .still (runs_unexpected _)

/-- The rest of a reference counts. -/
lemma counts_qualifiedWith (owner : String) (span : Span) :
    Counts (qualifiedWith operand rules owner span) := by
  have sees {s s' : ParserState} {name : String} (success : columnName.run s = .ok (name, s')) :
      s' = s ∧ s.stream.kind ≠ .symbol .question := by
    obtain ⟨same, isName, -⟩ := run_columnName_ok success
    exact ⟨same, (ne_of_namesColumn isName).1⟩
  have records (start : ParserState → Prop) :
      RunsFrom Context.SameCount start (recordOwner rules owner span) := by
    intro s _ s' _ success
    exact ⟨[], (recordOwner_run success).1.mono sameCount_of_editsOnly⟩
  refine .see sees fun name => ?_
  refine .bind (.advance fun s seen => seen.2) fun _ => .bind (.still (records _)) fun _ => ?_
  refine .look looks_checkComposite fun joined => .ite (fun _ => ?_) fun _ => .pure _
  exact .bind (counts_compositeWith counts).countsFrom fun _ => .look (looks_textFrom _) fun _ => .pure _

/-- A reference counts. -/
lemma counts_referenceWith (node : ExpressionNode) : Counts (referenceWith operand rules offset node) := by
  unfold referenceWith
  split
  · refine .look (looks_checkSymbol _) fun isDot => .ite (fun isTrue => ?_) fun _ => .pure _
    refine .bind (.advance fun s seen => ?_) fun dot => counts_qualifiedWith counts _ _
    rw [TokenStream.check_symbol.1 (seen.2.trans isTrue)]
    simp
  · exact .pure _

omit counts in
/-- A list of arguments counts. -/
lemma counts_argumentsAfter (node : ExpressionNode) : Counts (argumentsAfter offset node) := by
  refine .look (looks_checkSymbol _) fun opened => .ite (fun _ => ?_) fun _ => .pure _
  exact .bind counts_skipParentheses.countsFrom fun _ => .look (looks_textFrom _) fun _ => .pure _

/-- Operators after an expression count. -/
lemma counts_operatorsWith (node : ExpressionNode) : Counts (operatorsWith operand offset node) := by
  refine .look looks_checkComposite fun joined => .ite (fun _ => ?_) fun _ => .pure _
  exact .bind (counts_compositeWith counts).countsFrom fun _ => .look (looks_textFrom _) fun _ => .pure _

/-- An expression counts if its operands do. -/
lemma counts_expressionWith : Counts (expressionWith operand rules) := by
  refine .look looks_offset fun offset => .bind (counts_primaryWith counts).countsFrom fun node => ?_
  refine .bind (counts_referenceWith counts node) fun node => ?_
  refine .bind (counts_argumentsAfter node) fun node => ?_
  exact .bind (counts_operatorsWith counts node) fun node => .look looks_previousEnd fun _ => .pure _

end Parts

/-- An expression counts within any bound. -/
lemma counts_expressionUpTo (n : Nat) : Counts (expressionUpTo rules n) := by
  induction n with
  | zero => exact .call (.bounded (.still (runs_unexpected _)))
  | succ n ih => exact .counted (.call (counts_expressionWith ih))

/-- An expression counts. -/
lemma counts_expression : Counts (expression rules) :=
  .look looks_remaining fun n => (counts_expressionUpTo n).countsFrom

/-- Operators with their operands count. -/
lemma counts_composite : Counts (composite rules) :=
  counts_compositeWith counts_expression

/-- An alias counts. -/
lemma counts_aliasName : Counts aliasName := by
  refine .counted (.bind (counts_skipKeyword _) fun present => .ite (fun _ => ?_) fun _ => ?_)
  · refine .look looks_current fun token => ?_
    have plain (other : token.kind ≠ .symbol .question) (s : ParserState)
        (seen : True ∧ s.stream.current = token) : s.stream.kind ≠ .symbol .question := by
      rw [TokenStream.kind, seen.2]
      exact other
    split <;> rename_i same
    · exact .bind (.advance (plain (by simp [same]))) fun _ => .pure _
    · exact .bind (.advance (plain (by simp [same]))) fun _ => .pure _
    · exact .bind (.advance (plain (by simp [same]))) fun _ => .look (looks_textOf _) fun _ => .pure _
    · exact .still (runs_unexpected _)
  · refine .look looks_kind fun kind => ?_
    split
    · exact .bind (.advance fun s seen => by simp [seen.2]) fun _ => .pure _
    · exact .pure _

/-! ## Conditions -/

/-- The values after `IN` count. -/
lemma counts_valueList : Counts (valueList rules) := by
  refine .counted (.look looks_peek fun next => .ite (fun _ => ?_) fun _ => ?_)
  · exact .bind counts_skipParentheses.countsFrom fun _ => .pure _
  · refine .bind (counts_acceptSymbol (by decide)).countsFrom fun _ => ?_
    refine .bind counts_expression.commaSeparated fun values => ?_
    exact .bind (counts_acceptSymbol (by decide)) fun _ => .pure _

/-- The values after `BETWEEN` count. -/
lemma counts_range : Counts (range rules) := by
  refine .bind counts_expression fun low => .bind (counts_acceptKeyword _) fun _ => ?_
  exact .bind counts_expression fun high => .pure _

/-- The rest of a predicate after `NOT` counts. -/
lemma counts_negated : Counts (negated rules) := by
  refine .counted (.look looks_kind fun kind => ?_)
  split
  · exact .bind (.advance fun s seen => by simp [seen.2]) fun _ => counts_skipParentheses
  · refine .bind (.advance fun s seen => by simp [seen.2]) fun _ => ?_
    exact .bind counts_range fun _ => .pure _
  · refine .bind (.advance fun s seen => by simp [seen.2]) fun _ => ?_
    exact .bind counts_expression fun _ => .pure _
  · exact .still (runs_unexpected _)

/-- The rest of a predicate after `IS` counts. -/
lemma counts_truthTest : Counts truthTest := by
  refine .bind (counts_skipKeyword _) fun _ => .bind (counts_skipKeyword _) fun _ => ?_
  exact .ite (fun _ => .pure _) fun _ => .still (runs_unexpected _)

/-- The rest of a predicate after its left side counts. -/
lemma counts_comparison (column : Option Column) : Counts (comparison rules column) := by
  refine .look looks_kind fun kind => ?_
  split
  · rename_i symbol
    have plain (s : ParserState) (seen : True ∧ s.stream.kind = .symbol symbol) (other : symbol ≠ .question) :
        s.stream.kind ≠ .symbol .question := by
      rw [seen.2]
      simpa using other
    refine .ite (fun isEqual => ?_) fun _ => .ite (fun isComparison => ?_) fun _ => .pure _
    · have other : symbol ≠ .question := by
        rintro rfl
        cases isEqual
      refine .bind (.advance fun s seen => plain s seen other) fun _ => ?_
      exact .bind counts_expression fun _ => .pure _
    · have other : symbol ≠ .question := by
        rintro rfl
        cases isComparison
      refine .bind (.advance fun s seen => plain s seen other) fun _ => ?_
      exact .bind counts_expression fun _ => .pure _
  · refine .bind (.advance fun s seen => by simp [seen.2]) fun _ => .bind counts_valueList fun values => ?_
    split
    · exact .pure _
    · exact .pure _
  · refine .bind (.advance fun s seen => by simp [seen.2]) fun _ => ?_
    exact .bind counts_range fun _ => .pure _
  · refine .bind (.advance fun s seen => by simp [seen.2]) fun _ => ?_
    exact .bind counts_negated fun _ => .pure _
  · refine .bind (.advance fun s seen => by simp [seen.2]) fun _ => ?_
    exact .bind counts_expression fun _ => .pure _
  · refine .bind (.advance fun s seen => by simp [seen.2]) fun _ => ?_
    exact .bind counts_truthTest fun _ => .pure _
  · exact .pure _

/-- A predicate counts. -/
lemma counts_predicate : Counts (predicate rules) :=
  .counted (.bind counts_expression fun _ => .look looks_context fun _ =>
    (counts_comparison _).countsFrom)

/-- A list of predicates counts. -/
lemma counts_predicates : Counts (predicates rules) := by
  have upTo (n : Nat) : Counts (predicatesUpTo rules n) := by
    induction n with
    | zero => exact .bounded (.bind counts_predicate fun _ => .pure _)
    | succ n ih =>
      refine .look looks_remaining fun left => .bind counts_predicate.countsFrom fun condition => ?_
      refine .bind (counts_skipKeyword _) fun _ => .ite (fun _ => ?_) fun _ => ?_
      · exact .bind (.again ih) fun _ => .pure _
      · refine .bind (counts_skipKeyword _).countsFrom fun _ => .ite (fun _ => ?_) fun _ => .pure _
        exact .bind (.again ih) fun _ => .pure _
  exact .counted (.look looks_remaining fun n => (upTo n).countsFrom)

/-- The condition of a query counts. -/
lemma counts_condition : Counts (condition rules) := by
  refine .counted (.bind (counts_skipKeyword _) fun _ => .ite (fun _ => ?_) fun _ => .pure _)
  exact .bind counts_predicates.countsFrom fun _ => .still (runs_modifyContext fun _ => rfl)

/-! ## Tables -/

/-- The name of a table counts. -/
lemma counts_tableName : Counts tableName := by
  refine .bind counts_acceptIdentifier fun first => .bind (counts_skipSymbol (by decide)) fun _ => ?_
  exact .ite (fun _ => .bind counts_acceptIdentifier.countsFrom fun name => .pure _) fun _ => .pure _

/-- A named table counts. -/
lemma counts_namedTable : Counts namedTable := by
  refine .look looks_offset fun start => .bind counts_tableName.countsFrom fun name => ?_
  refine .bind counts_aliasName fun aliasName => .look (looks_textOf _) fun text => ?_
  refine .bind (.still (runs_modifyContext fun _ => rfl)) fun _ => ?_
  exact .still (runs_modifyContext fun _ => rfl)

/-- One table counts. -/
lemma counts_tableFactor : Counts tableFactor := by
  refine .counted (.look looks_checkQueryInParentheses fun derived => .ite (fun _ => ?_) fun _ => ?_)
  · exact .look looks_current fun token => .still (runs_unsupported _ _)
  · refine .look (looks_checkSymbol _) fun opened => .ite (fun _ => ?_) fun _ => counts_namedTable.countsFrom
    refine .bind counts_skipParentheses.countsFrom fun _ => ?_
    exact .bind counts_aliasName fun _ => .pure _

/-- The words of a join count. -/
lemma counts_joinWords : Counts joinWords := by
  refine .bind (counts_skipKeyword _) fun _ => .ite (fun _ => .pure _) fun _ => ?_
  refine .bind (counts_skipKeyword _).countsFrom fun _ => .ite (fun _ => ?_) fun _ => ?_
  · exact .bind (counts_acceptKeyword _).countsFrom fun _ => .pure _
  · refine .bind (counts_skipKeyword _).countsFrom fun _ => .ite (fun _ => ?_) fun _ => .pure _
    refine .bind (counts_skipKeyword _).countsFrom fun _ => ?_
    exact .bind (counts_acceptKeyword _) fun _ => .pure _

/-- The condition of a join counts. -/
lemma counts_joinCondition : Counts (joinCondition rules) := by
  refine .bind (counts_skipKeyword _) fun _ => .ite (fun _ => ?_) fun _ => ?_
  · exact .bind counts_predicates.countsFrom fun _ => .pure _
  · refine .bind (counts_skipKeyword _).countsFrom fun _ => .ite (fun _ => ?_) fun _ => .pure _
    exact counts_skipParentheses.countsFrom

/-- Joined tables count. -/
lemma counts_joins : Counts (joins rules) := by
  have upTo (n : Nat) : Counts (joinsUpTo rules n) := by
    induction n with
    | zero => exact .bounded (.pure _)
    | succ n ih =>
      refine .look looks_remaining fun left => .bind counts_joinWords.countsFrom fun joined => ?_
      refine .ite (fun _ => ?_) fun _ => .pure _
      refine .bind counts_tableFactor.countsFrom fun _ => ?_
      exact .bind counts_joinCondition fun _ => .again ih
  exact .counted (.look looks_remaining fun n => (upTo n).countsFrom)

/-- A list of tables counts. -/
lemma counts_tableReferences : Counts (tableReferences rules) := by
  have factors : Counts (do tableFactor; joins rules : Traced Unit) :=
    .bind counts_tableFactor fun _ => counts_joins
  exact .counted (.bind factors.commaSeparated fun _ => .pure _)

/-! ## Select lists -/

/-- An aggregate call counts. -/
lemma counts_aggregateItem (plain : ∀ s, start s → s.stream.kind ≠ .symbol .question)
    (function : AggregateFunction) : CountsFrom start (aggregateItem rules function) := by
  refine .counted (.look looks_offset fun start => .bind (.advance fun s seen => plain s seen.1) fun _ => ?_)
  refine .look looks_offset fun innerStart => .bind counts_skipParentheses.countsFrom fun _ => ?_
  refine .look (looks_textFrom _) fun inner => .look looks_checkComposite fun joined => ?_
  refine .ite (fun _ => ?_) fun _ => .bind counts_aliasName.countsFrom fun _ => .pure _
  refine .bind counts_composite.countsFrom fun _ => .look (looks_textFrom _) fun text => ?_
  exact .bind counts_aliasName.countsFrom fun _ => .pure _

/-- A plain item counts. -/
lemma counts_plainItem : Counts (plainItem rules) := by
  refine .bind counts_expression fun expression => .look (looks_textOf _) fun text => ?_
  exact .bind counts_aliasName.countsFrom fun _ => .pure _

/-- An item of a select list counts. -/
lemma counts_selectItem : Counts (selectItem rules) := by
  refine .counted (.bind (counts_skipSymbol (by decide)) fun star => .ite (fun _ => .pure _) fun _ => ?_)
  refine .see run_starOwner_ok fun owner => ?_
  cases owner with
  | some owner =>
    refine .pass (fun s seen => ?_) fun _ => .pass ?_ fun _ => .bind (.advance ?_) fun _ => .pure _
    · simp [(seen.2 owner rfl).1]
    · rintro s' ⟨s, seen, rfl⟩
      simp [ParserState.advance, (seen.2 owner rfl).2.1]
    · rintro s'' ⟨s', ⟨s, seen, rfl⟩, rfl⟩
      simp [ParserState.advance, (seen.2 owner rfl).2.2]
  | none =>
    refine .see run_calledAggregate_ok fun found => ?_
    cases found with
    | some function =>
      refine counts_aggregateItem (fun s seen => ?_) function
      obtain ⟨keyword, isKeyword⟩ := seen.2 function rfl
      simp [isKeyword]
    | none => exact counts_plainItem.countsFrom

/-- A select list counts. -/
lemma counts_selectList (shape : ResultShape) : Counts (selectList rules shape) := by
  refine .counted (.bind (counts_skipKeyword _) fun distinct => .ite (fun _ => ?_) fun _ => ?_)
  · refine .bind (counts_skipKeyword _).countsFrom fun _ => ?_
    exact .bind counts_selectItem.commaSeparated fun _ => .look looks_offset fun _ => .pure _
  · exact .bind counts_selectItem.commaSeparated.countsFrom fun _ => .look looks_offset fun _ => .pure _

/-! ## Orderings, groupings and limits -/

/-- A direction counts. -/
lemma counts_direction : Counts direction := by
  refine .bind (counts_skipKeyword _) fun _ => .ite (fun _ => .pure _) fun _ => ?_
  exact .bind (counts_skipKeyword _).countsFrom fun _ => .pure _

/-- An item to order or group by counts. -/
lemma counts_orderItem (shape : ResultShape) : Counts (orderItem rules shape) :=
  .counted (.bind counts_expression fun _ => .bind counts_direction fun _ => .still (runs_lift _))

/-- An ordering counts. -/
lemma counts_ordering (shape : ResultShape) : Counts (ordering rules shape) := by
  refine .counted (.bind (counts_skipKeyword _) fun _ => .ite (fun _ => ?_) fun _ => .pure _)
  refine .bind (counts_acceptKeyword _).countsFrom fun _ => ?_
  exact .bind (counts_orderItem shape).commaSeparated fun _ => .pure _

/-- A grouping counts. -/
lemma counts_grouping (dialect : Dialect) (shape : ResultShape) : Counts (grouping dialect rules shape) := by
  refine .counted (.bind (counts_skipKeyword _) fun _ => .ite (fun _ => ?_) fun _ => .pure _)
  refine .bind (counts_acceptKeyword _).countsFrom fun _ => ?_
  refine .bind (counts_orderItem shape).commaSeparated fun _ => .bind (counts_skipAllKeywords _) fun _ => ?_
  exact .look looks_previousEnd fun _ => .pure _

/-- An operand of a limit counts. -/
lemma counts_limitValue : Counts limitValue := by
  refine .counted (.look looks_current fun token => ?_)
  split <;> rename_i same
  · refine .bind (.advance fun s seen => ?_) fun _ => ?_
    · rw [TokenStream.kind, seen.2, same]
      simp
    · split
      · exact .pure _
      · exact .still fun s _ s' _ success => by cases success
  · refine .bind (.placeholder fun s seen => ?_) fun _ => .pure _
    rw [TokenStream.kind, seen.2, same]
  · exact .still (runs_unexpected _)

/-- The operands of a limit count. -/
lemma counts_limitOperands (style : LimitStyle) : Counts (limitOperands style) := by
  refine .bind counts_limitValue fun first => .look (looks_checkSymbol _) fun isComma => ?_
  refine .ite (fun isFirst => ?_) fun _ => ?_
  · refine .bind (.advance fun s seen => ?_) fun _ => .bind counts_limitValue fun _ => .pure _
    rw [TokenStream.check_symbol.1 (seen.2.trans (Bool.and_eq_true_iff.1 isFirst).2)]
    simp
  · refine .bind (counts_skipKeyword _).countsFrom fun _ => .ite (fun _ => ?_) fun _ => .pure _
    exact .bind counts_limitValue.countsFrom fun _ => .pure _

/-- A limit counts. -/
lemma counts_limit (style : LimitStyle) (shape : ResultShape) : Counts (limit style shape) := by
  refine .counted (.look looks_offset fun start => .bind (counts_skipKeyword _).countsFrom fun _ => ?_)
  refine .ite (fun _ => ?_) fun _ => .pure _
  refine .bind (counts_limitOperands style).countsFrom fun operands => .bind (.still ?_) fun _ => ?_
  · intro s _ s' _ success
    rw [addEdits_ok.1 success]
    exact ⟨[], .single (.record rfl)⟩
  · exact .look looks_previousEnd fun _ => .pure _

/-! ## Queries -/

section Level

variable {env : Environment} {level : Traced PartialLevel} (counts : Counts level)

include counts

/-- A derived table counts in a context of its own if its level does: the context starts with the count of
the one around it, which goes on with the count behind the level. -/
lemma counts_derivedTable : Counts (derivedTable level) := by
  refine .counted (.look looks_context fun outer => ?_)
  refine .bind (.still (runs_modifyContext fun _ => rfl)) fun _ => ?_
  refine .bind counts fun read => .look looks_context fun inner => ?_
  exact .bind (.still (runs_modifyContext fun _ => rfl)) fun _ => .pure _

omit counts in
/-- The tables after a derived table count. -/
lemma counts_tablesAfterDerived : Counts (tablesAfterDerived rules) := by
  refine .look (looks_checkKeyword _) fun atWhere => .look looks_stream fun stream => ?_
  refine .ite (fun _ => .pure _) fun _ => .bind counts_joins.countsFrom fun _ => ?_
  refine .bind (counts_skipSymbol (by decide)) fun _ => .ite (fun _ => ?_) fun _ => .pure _
  exact counts_tableReferences.countsFrom

/-- The tables of a level count if the levels below do. -/
lemma counts_tables (below : List SelectLevel) : Counts (tables rules level below) := by
  refine .counted (.bind (.still (runs_refuseKeywords _).runsFrom) fun _ => ?_)
  refine .bind (counts_skipKeyword _) fun _ => .ite (fun _ => ?_) fun _ => .pure _
  refine .look looks_checkQueryInParentheses fun derived => .ite (fun isDerived => ?_) fun _ => ?_
  · refine .bind (.advance fun s seen => ?_) fun _ => .bind (counts_derivedTable counts) fun below => ?_
    · rw [TokenStream.check_symbol.1 (Bool.and_eq_true_iff.1 (seen.2.trans isDerived)).1]
      simp
    · refine .bind (counts_acceptSymbol (by decide)) fun _ => .bind counts_aliasName fun _ => ?_
      exact .bind counts_tablesAfterDerived fun _ => .pure _
  · exact .bind counts_tableReferences.countsFrom fun _ => .pure _

/-- A clause counts if the levels below do. -/
lemma counts_clause (read : PartialLevel) (next : SelectClause) : Counts (clause env level read next) := by
  cases next with
  | selectList => exact .bind (counts_selectList _) fun _ => .pure _
  | tables => exact .bind (counts_tables counts _) fun _ => .pure _
  | condition => exact .bind counts_condition fun _ => .pure _
  | grouping => exact .bind (counts_grouping _ _) fun _ => .pure _
  | groupCondition => exact .bind (.still (runs_refuseKeywords _)) fun _ => .pure _
  | ordering => exact .bind (counts_ordering _) fun _ => .pure _
  | limit => exact .bind (counts_limit _ _) fun _ => .pure _
  | trailing => exact .bind (.still (runs_refuseKeywords _)) fun _ => .pure _

/-- A level counts if the levels below do. -/
lemma counts_levelWith : Counts (levelWith env level) :=
  .bind (counts_acceptKeyword _) fun _ =>
    .foldlM (fun read next => .counted (counts_clause counts read next)) _ _

end Level

variable {env : Environment} {table : String}

/-- A level counts within any bound, and so do those below it.

**Proof sketch.** Induction on the bound. The level of a derived table is read within the bound that is one
less, and in a context that starts with the count of the level around it. -/
lemma counts_levelsUpTo (n : Nat) : Counts (levelsUpTo env n) := by
  induction n with
  | zero => exact .call (.bounded (.still (runs_unexpected _)))
  | succ n ih => exact .counted (.call (counts_levelWith ih))

/-- A query counts. -/
lemma counts_select : Counts (select env) := by
  have levels : Counts (levels env) := by
    refine .look looks_remaining fun n => .bind (counts_levelsUpTo n).countsFrom fun read => ?_
    exact .look looks_context fun _ => .pure _
  exact .counted (.bind levels fun _ => .still (runs_lift _))

/-! ## Insertions -/

/-- A column in a list counts. -/
lemma counts_listedColumn : Counts (listedColumn rules table) :=
  .bind counts_expression fun _ => .still (runs_lift _)

/-- A list of columns counts. -/
lemma counts_columnList (plain : ∀ s, start s → s.stream.kind ≠ .symbol .question) :
    CountsFrom start (columnList rules table) := by
  refine .bind (.advance plain) fun _ => .bind counts_listedColumn.commaSeparated fun columns => ?_
  refine .bind (counts_acceptSymbol (by decide)) fun close => ?_
  split
  · exact .bind (.still (runs_modifyContext fun _ => rfl)) fun _ => .pure _
  · exact .pure _

/-- The columns of an insertion count. -/
lemma counts_targetColumns : Counts (targetColumns env table) := by
  have edited {target : Target} : Counts (do
      still (addEdit (.insertValues (← still Parser.offset) .values))
      return target) :=
    .look looks_offset fun _ => .bind (.still (runs_modifyContext fun _ => rfl)) fun _ => .pure _
  refine .counted (.look (looks_checkSymbol _) fun opened => ?_)
  refine .look looks_checkQueryInParentheses fun query => ?_
  refine .ite (fun isList => ?_) fun _ => ?_
  · refine .bind (counts_columnList fun s seen => ?_) fun target => edited
    rw [TokenStream.check_symbol.1 (seen.1.2.trans (Bool.and_eq_true_iff.1 isList).1)]
    simp
  · split
    · refine .bind (.still ?_) fun target => edited
      exact .look looks_previousEnd fun _ => .bind (runs_modifyContext fun _ => rfl) fun _ => .pure _
    · exact .bind (.pure _) fun target => edited

/-- A row of values counts. -/
lemma counts_valueRow (columns : List Column) : Counts (valueRow rules columns) := by
  refine .counted (.bind (counts_acceptSymbol (by decide)) fun opening => .look looks_context fun _ => ?_)
  refine .bind counts_expression.commaSeparated.countsFrom fun values => ?_
  refine .bind (counts_acceptSymbol (by decide)) fun closing => ?_
  refine .bind (.still (runs_modifyContext fun _ => rfl)) fun _ => ?_
  exact .look looks_context fun _ => .pure _

/-- Rows of values count. -/
lemma counts_valueRows (columns : List Column) : Counts (valueRows rules columns) := by
  refine .counted (.bind (counts_skipKeyword _) fun _ => .ite (fun _ => ?_) fun _ => .pure _)
  exact (counts_valueRow columns).commaSeparated.countsFrom

/-- An assignment counts. -/
lemma counts_assignment : Counts (assignment rules table) := by
  refine .counted (.bind counts_listedColumn fun column => ?_)
  refine .bind (counts_acceptSymbol (by decide)) fun _ => ?_
  refine .bind counts_expression fun value => ?_
  exact .bind (.still (runs_modifyContext fun _ => rfl)) fun _ => .pure _

/-- Assignments count. -/
lemma counts_assignments : Counts (assignments env table) := by
  refine .counted (.bind (counts_skipKeyword _) fun _ => .ite (fun _ => ?_) fun _ => .pure _)
  refine .look looks_previousEnd fun start => .bind (.still (runs_modifyContext fun _ => rfl)) fun _ => ?_
  refine .look looks_context fun _ => .bind counts_assignment.commaSeparated.countsFrom fun columns => ?_
  exact .look looks_previousEnd fun _ => .look looks_context fun _ => .pure _

/-- An assignment to a row that is already there counts. -/
lemma counts_update : Counts (update rules table) := by
  refine .counted (.bind counts_expression fun left => .bind (.still (runs_lift _)) fun column => ?_)
  have rest : Counts (do
      let _ ← acceptSymbol .eq
      let _ ← expression rules : Traced Unit) :=
    .bind (counts_acceptSymbol (by decide)) fun _ => .bind counts_expression fun _ => .pure _
  exact .ite (fun _ => .bind (.still (runs_unsupported _ _)) fun _ => rest) fun _ => rest

/-- What to do with rows that are already there counts. -/
lemma counts_duplicateKeyUpdate : Counts (duplicateKeyUpdate rules table) := by
  refine .counted (.bind (counts_skipKeyword _) fun _ => .ite (fun _ => ?_) fun _ => .pure _)
  refine .bind (counts_acceptKeyword _).countsFrom fun _ => .bind (counts_acceptKeyword _) fun _ => ?_
  refine .bind (counts_acceptKeyword _) fun _ => ?_
  exact .bind counts_update.commaSeparated fun _ => .pure _

/-- An insertion counts. -/
lemma counts_insert : Counts (insert env) := by
  refine .counted (.bind (counts_acceptKeyword _) fun _ => .bind (counts_skipKeyword _) fun _ => ?_)
  refine .bind counts_tableFactor fun _ => .look looks_context fun context => ?_
  refine .bind counts_targetColumns.countsFrom fun target => ?_
  refine .bind (.still fun s _ s' _ success => ?_) fun _ => ?_
  · rw [run_refuseQuery_ok success]
    exact ⟨[], .refl s⟩
  · refine .bind (counts_valueRows _) fun rows => .bind counts_assignments fun assigned => ?_
    refine .ite (fun _ => .still (runs_unexpected _)) fun _ => ?_
    refine .bind counts_duplicateKeyUpdate.countsFrom fun _ => ?_
    exact .look looks_context fun _ => .pure _

/-! ## Statements -/

/-- The end of the text counts. -/
lemma counts_finish : Counts finish := by
  refine .bind (counts_skipSymbol (by decide)) fun _ => .look looks_stream fun _ => ?_
  exact .ite (fun _ => .pure _) fun _ => .still (runs_unexpected _)

/-- A statement counts. -/
lemma counts_statement : Counts (statement env) := by
  have finished {found : Statement} : Counts (do finish; return found : Traced Statement) :=
    .bind counts_finish fun _ => .pure _
  refine .look (looks_checkKeyword _) fun isSelect => .look (looks_checkKeyword _) fun isInsert => ?_
  refine .ite (fun _ => ?_) fun _ => .ite (fun _ => ?_) fun _ => ?_
  · exact .bind counts_select.countsFrom fun query => .bind (.pure _) fun statement => finished
  · exact .bind counts_insert.countsFrom fun insertion => .bind (.pure _) fun statement => finished
  · exact .bind (.still (runs_unexpected _)) fun statement => finished

end SqlRouting.Traced
