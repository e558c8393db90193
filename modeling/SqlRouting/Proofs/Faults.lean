import SqlRouting.Proofs.Refusal

/-!
# Faults in the input

Every parser of the grammar passes valid tokens or fails with a refusal, so input that is no token is
never stepped over: not in groups, conditionals, aliases or behind whatever is looked ahead for. A
statement with such input is refused, and if the refusal says so it names the first of it.

## Main definitions

* `SqlRouting.OrderItem.Keyed` — an item has either a name or a position.

## Main results

* `SqlRouting.Grammar.answers_statement` — a statement passes valid tokens, or fails with a refusal.
* `SqlRouting.Grammar.prepare_ne_error` — the levels that are read can always be prepared.
* `SqlRouting.Statement.refusal_of_ofText` — the error of a text is a refusal.
* `SqlRouting.Statement.ofText_lexical` — input that is no token is always refused.
-/

set_option autoImplicit false

namespace SqlRouting

open TokenStream SqlRouting.Parser

namespace Grammar

variable {rules : ShardingRule} {env : Environment} {text table : String} {s s' : ParserState}

/-! ## Expressions -/

section Parts

variable {operand : Parser Expression} (answers : Answers text operand)

include answers

/-- Operators with their operands answer if operands do. -/
lemma answers_compositeWith : Answers text (compositeWith operand) := by
  have upTo (n : Nat) : Answers text (compositeUpTo operand n) := by
    induction n with
    | zero => exact .pure _
    | succ n ih =>
      refine .look looks_checkComposite fun isComposite => .ite (fun isTrue => ?_) fun _ => .pure _
      refine .bind (answers_advance fun s seen => ?_) fun _ => answers.bind fun _ => ih
      exact (passable_of_isComposite (seen.2.trans isTrue)).1
  exact .look looks_remaining fun n => (upTo n).answersFrom

/-- An operator of one operand answers if the operand does. -/
lemma answers_unaryWith (start : Nat) :
    AnswersFrom text (fun s => s.stream.kind.isBroken = false) (unaryWith operand start) := by
  refine .bind (answers_advance fun s valid => valid) fun _ => answers.bind fun _ => ?_
  exact .look (looks_textFrom start) fun _ => .pure _

/-- A sign answers if operands do. -/
lemma answers_signedWith (start : Nat) (sign : String) :
    AnswersFrom text (fun s => s.stream.kind.isBroken = false) (signedWith operand start sign) := by
  refine .look looks_peek fun next => ?_
  split
  · rename_i literal
    refine .advance_bind (fun s seen => seen.1) fun _ => .bind (answers_advance ?_) fun _ => .pure _
    rintro _ ⟨s, seen, rfl⟩
    show s.stream.advance.kind.isBroken = false
    rw [kind_advance.trans seen.2]
    rfl
  · exact (answers_unaryWith answers start).weaken fun _ seen => seen.1

/-- What starts with a keyword answers if operands do. -/
lemma answers_keywordWith (start : Nat) (keyword : Keyword) :
    AnswersFrom text (fun s => s.stream.kind = .keyword keyword) (keywordWith operand start keyword) := by
  have valid (s : ParserState) (same : s.stream.kind = .keyword keyword) :
      s.stream.kind.isBroken = false := by rw [same]; rfl
  refine .ite (fun _ => ?_) fun _ => .ite (fun _ => ?_) fun _ => ?_
  · exact (answers_unaryWith answers start).weaken valid
  · exact .bind (answers_skipGroup _) fun _ => .look (looks_textFrom start) fun _ => .pure _
  · refine .look looks_peek fun next => .ite (fun _ => ?_) fun _ => answers_unexpected _
    refine .bind (answers_advance fun s seen => valid s seen.1) fun _ => ?_
    exact .look (looks_textFrom start) fun _ => .pure _

/-- What starts with a symbol answers if operands do. -/
lemma answers_symbolWith (start : Nat) (symbol : Symbol) :
    AnswersFrom text (fun s => s.stream.kind = .symbol symbol) (symbolWith operand start symbol) := by
  have valid (s : ParserState) (symbol : Symbol) (same : s.stream.kind = .symbol symbol) :
      s.stream.kind.isBroken = false := by rw [same]; rfl
  unfold symbolWith
  split
  · exact .bind (answers_placeholder fun s same => same) fun _ => .pure _
  · exact (answers_signedWith answers start _).weaken fun s => valid s _
  · exact (answers_signedWith answers start _).weaken fun s => valid s _
  · exact (answers_unaryWith answers start).weaken fun s => valid s _
  · exact (answers_unaryWith answers start).weaken fun s => valid s _
  · exact .bind answers_skipParentheses fun _ => .look (looks_textFrom start) fun _ => .pure _
  · exact answers_unexpected _

/-- The part of an expression before any operator or arguments answers if operands do. -/
lemma answers_primaryWith : Answers text (primaryWith operand) := by
  refine .look looks_offset fun start => .look looks_kind fun kind => ?_
  split
  · exact .pass (fun s seen => seen.2) rfl fun _ => .pure _
  · exact .pass (fun s seen => seen.2) rfl fun _ => .pure _
  · exact .pass (fun s seen => seen.2) rfl fun _ => .pure _
  · exact .pass (fun s seen => seen.2) rfl fun _ => .look (looks_textFrom start) fun _ => .pure _
  · exact (answers_keywordWith answers start _).weaken fun _ seen => seen.2
  · exact (answers_symbolWith answers start _).weaken fun _ seen => seen.2
  · exact answers_unexpected _

omit answers in
/-- The name of a column is that of a valid token, which is left to be passed. -/
lemma answers_columnName : Answers text columnName := by
  refine .look looks_current fun token => ?_
  split
  · exact .pure _
  · exact .looks (looks_textOf _)
  · exact .pure _
  · exact answers_unexpected _

/-- The rest of a reference after its owner and the dot answers if operands do. -/
lemma answers_qualifiedWith (owner : String) (span : Span) :
    Answers text (qualifiedWith operand rules owner span) := by
  have record : Answers text (recordOwner rules owner span) :=
    .ite (fun _ => .look (looks_textOf span) fun _ => answers_modifyContext _) fun _ => .pure _
  refine .bindKnown (fun _ s => namesColumn s.stream.kind = true)
    answers_columnName ?_ fun name => ?_
  · intro s name s' _ _ success
    obtain ⟨rfl, isName, -⟩ := run_columnName_ok success
    exact isName
  · refine .bind (answers_advance fun s isName => ?_) fun _ => record.bind fun _ => ?_
    · cases kind : s.stream.kind <;> rw [kind] at isName <;> first | rfl | cases isName
    · refine .look looks_checkComposite fun _ => .ite (fun _ => ?_) fun _ => .pure _
      exact (answers_compositeWith answers).bind fun _ => .look (looks_textFrom _) fun _ => .pure _

/-- A reference answers if operands do. -/
lemma answers_referenceWith (start : Nat) (node : ExpressionNode) :
    Answers text (referenceWith operand rules start node) := by
  unfold referenceWith
  split
  · refine .look (looks_checkSymbol _) fun isDot => .ite (fun isTrue => ?_) fun _ => .pure _
    exact .pass (fun s seen => check_symbol.1 (seen.2.trans isTrue)) rfl fun dot =>
      answers_qualifiedWith answers _ _
  · exact .pure _

/-- The operators after an expression answer if operands do. -/
lemma answers_operatorsWith (start : Nat) (node : ExpressionNode) :
    Answers text (operatorsWith operand start node) := by
  refine .look looks_checkComposite fun _ => .ite (fun _ => ?_) fun _ => .pure _
  exact (answers_compositeWith answers).bind fun _ => .look (looks_textFrom start) fun _ => .pure _

/-- An expression answers if its operands do. -/
lemma answers_expressionWith : Answers text (expressionWith operand rules) := by
  have arguments (start : Nat) (node : ExpressionNode) : Answers text (argumentsAfter start node) := by
    refine .look (looks_checkSymbol _) fun _ => .ite (fun _ => ?_) fun _ => .pure _
    exact .bind answers_skipParentheses fun _ => .look (looks_textFrom start) fun _ => .pure _
  refine .look looks_offset fun start => (answers_primaryWith answers).bind fun node => ?_
  refine (answers_referenceWith answers start node).bind fun node => ?_
  refine (arguments start node).bind fun node => ?_
  refine (answers_operatorsWith answers start node).bind fun node => ?_
  exact .look looks_previousEnd fun _ => .pure _

end Parts

/-- An expression answers. -/
lemma answers_expression : Answers text (expression rules) := by
  have upTo (n : Nat) : Answers text (expressionUpTo rules n) := by
    induction n with
    | zero => exact answers_unexpected _
    | succ n ih => exact answers_expressionWith ih
  exact .look looks_remaining fun n => (upTo n).answersFrom

/-- An alias answers. -/
lemma answers_aliasName : Answers text aliasName := by
  refine .bind (answers_skipKeyword _) fun _ => .ite (fun _ => ?_) fun _ => ?_
  · refine .look looks_current fun token => ?_
    split
    · exact .pass (fun s seen => kind_of_current seen.2 ‹_›) rfl fun _ => .pure _
    · exact .pass (fun s seen => kind_of_current seen.2 ‹_›) rfl fun _ => .pure _
    · exact .pass (fun s seen => kind_of_current seen.2 ‹_›) rfl fun _ =>
        .look (looks_textOf _) fun _ => .pure _
    · exact answers_unexpected _
  · refine .look looks_kind fun kind => ?_
    split
    · exact .pass (fun s seen => seen.2) rfl fun _ => .pure _
    · exact .pure _

/-! ## Predicates -/

/-- The two values after `BETWEEN` answer. -/
lemma answers_range : Answers text (range rules) :=
  .bind answers_expression fun _ => .bind (answers_acceptKeyword _) fun _ =>
    .bind answers_expression fun _ => .pure _

/-- The rest of a predicate after `NOT` answers. -/
lemma answers_negated : Answers text (negated rules) := by
  refine .look looks_kind fun kind => ?_
  split
  · exact .pass (fun s seen => seen.2) rfl fun _ => answers_skipParentheses
  · exact .pass (fun s seen => seen.2) rfl fun _ => .bind answers_range fun _ => .pure _
  · exact .pass (fun s seen => seen.2) rfl fun _ => .bind answers_expression fun _ => .pure _
  · exact answers_unexpected _

/-- The rest of a predicate after its left side answers. -/
lemma answers_comparison (column : Option Column) : Answers text (comparison rules column) := by
  have values : Answers text (valueList rules) := by
    refine .look looks_peek fun _ => .ite (fun _ => ?_) fun _ => ?_
    · exact .bind answers_skipParentheses fun _ => .pure _
    · exact .bind (answers_acceptSymbol _) fun _ => .bind (.commaSeparated answers_expression) fun _ =>
        .bind (answers_acceptSymbol _) fun _ => .pure _
  have truth : Answers text truthTest :=
    .bind (answers_skipKeyword _) fun _ => .bind (answers_skipKeyword _) fun _ =>
      .ite (fun _ => .pure _) fun _ => answers_unexpected _
  refine .look looks_kind fun kind => ?_
  split
  · refine .ite (fun _ => ?_) fun _ => .ite (fun _ => ?_) fun _ => .pure _
    · exact .pass (fun s seen => seen.2) rfl fun _ => .bind answers_expression fun _ => .pure _
    · exact .pass (fun s seen => seen.2) rfl fun _ => .bind answers_expression fun _ => .pure _
  · refine .pass (fun s seen => seen.2) rfl fun _ => values.bind fun values => ?_
    split <;> exact .pure _
  · exact .pass (fun s seen => seen.2) rfl fun _ => .bind answers_range fun _ => .pure _
  · exact .pass (fun s seen => seen.2) rfl fun _ => .bind answers_negated fun _ => .pure _
  · exact .pass (fun s seen => seen.2) rfl fun _ => .bind answers_expression fun _ => .pure _
  · exact .pass (fun s seen => seen.2) rfl fun _ => truth.bind fun _ => .pure _
  · exact .pure _

/-- A list of predicates answers. -/
lemma answers_predicates : Answers text (predicates rules) := by
  have single : Answers text (predicate rules) :=
    .bind answers_expression fun _ => .look looks_context fun _ => (answers_comparison _).answersFrom
  have upTo (n : Nat) : Answers text (predicatesUpTo rules n) := by
    induction n with
    | zero => exact single.bind fun _ => .pure _
    | succ n ih =>
      refine single.bind fun condition => .bind (answers_skipKeyword _) fun _ => .ite (fun _ => ?_)
        fun _ => .bind (answers_skipKeyword _) fun _ => .ite (fun _ => ?_) fun _ => .pure _
      · exact ih.bind fun _ => .pure _
      · exact ih.bind fun _ => .pure _
  exact .look looks_remaining fun n => (upTo n).answersFrom

/-! ## Tables -/

/-- A table with its alias answers. -/
lemma answers_tableFactor : Answers text tableFactor := by
  have name : Answers text tableName := by
    refine .bind answers_acceptIdentifier fun first => .bind (answers_skipSymbol _) fun _ =>
      .ite (fun _ => ?_) fun _ => .pure _
    exact .bind answers_acceptIdentifier fun _ => .pure _
  have named : Answers text namedTable := by
    refine .look looks_offset fun _ => name.answersFrom.bind fun _ => .bind answers_aliasName fun _ => ?_
    exact .look (looks_textOf _) fun _ => .bind (answers_modifyContext _) fun _ => answers_modifyContext _
  refine .look looks_checkQueryInParentheses fun _ => .ite (fun _ => ?_) fun _ => ?_
  · refine .look looks_current fun token => answers_unsupported _ fun s reaches seen => ?_
    exact seen.2 ▸ Lexer.stretch_of_mem reaches.current_mem_tokenize
  · refine .look (looks_checkSymbol _) fun _ => .ite (fun _ => ?_) fun _ => named.answersFrom
    exact .bind answers_skipParentheses fun _ => .bind answers_aliasName fun _ => .pure _

/-- Joined tables answer. -/
lemma answers_joins : Answers text (joins rules) := by
  have words : Answers text joinWords := by
    refine .bind (answers_skipKeyword _) fun _ => .ite (fun _ => .pure _) fun _ => ?_
    refine .bind (answers_skipKeyword _) fun _ => .ite (fun _ => ?_) fun _ => ?_
    · exact .bind (answers_acceptKeyword _) fun _ => .pure _
    · refine .bind (answers_skipKeyword _) fun _ => .ite (fun _ => ?_) fun _ => .pure _
      exact .bind (answers_skipKeyword _) fun _ => .bind (answers_acceptKeyword _) fun _ => .pure _
  have condition : Answers text (joinCondition rules) := by
    refine .bind (answers_skipKeyword _) fun _ => .ite (fun _ => ?_) fun _ => ?_
    · exact .bind answers_predicates fun _ => .pure _
    · exact .bind (answers_skipKeyword _) fun _ =>
        .ite (fun _ => answers_skipParentheses) fun _ => .pure _
  have upTo (n : Nat) : Answers text (joinsUpTo rules n) := by
    induction n with
    | zero => exact .pure _
    | succ n ih =>
      refine words.bind fun _ => .ite (fun _ => ?_) fun _ => .pure _
      exact .bind answers_tableFactor fun _ => condition.bind fun _ => ih
  exact .look looks_remaining fun n => (upTo n).answersFrom

/-- A list of tables answers. -/
lemma answers_tableReferences : Answers text (tableReferences rules) := by
  have single : Answers text (do tableFactor; joins rules) :=
    .bind answers_tableFactor fun _ => answers_joins
  exact single.commaSeparated.bind fun _ => .pure _

/-! ## Select lists -/

/-- An aggregate call answers. -/
lemma answers_aggregateItem (function : AggregateFunction) :
    AnswersFrom text (fun s => s.stream.kind.isBroken = false) (aggregateItem rules function) := by
  refine .look looks_offset fun _ => .bind (answers_advance fun s seen => seen.1) fun _ => ?_
  refine .look looks_offset fun _ => .bind answers_skipParentheses fun _ => ?_
  refine .look (looks_textFrom _) fun _ => .look looks_checkComposite fun _ => .ite (fun _ => ?_) fun _ => ?_
  · exact (answers_compositeWith answers_expression).bind fun _ => .look (looks_textFrom _) fun _ =>
      Answers.bind answers_aliasName fun _ => .pure _
  · exact Answers.bind answers_aliasName fun _ => .pure _

/-- A plain item answers. -/
lemma answers_plainItem : Answers text (plainItem rules) :=
  .bind answers_expression fun _ => .look (looks_textOf _) fun _ =>
    Answers.bind answers_aliasName fun _ => .pure _

/-- The owner of a star answers. -/
lemma answers_starOwner : Answers text starOwner? := by
  refine .look looks_kind fun kind => ?_
  split
  · exact .look looks_stream fun _ => .ite (fun _ => .pure _) fun _ => .pure _
  · exact .pure _

/-- The function of an aggregate call answers. -/
lemma answers_calledAggregate : Answers text calledAggregate? := by
  refine .look looks_kind fun kind => ?_
  split
  · exact .look looks_peek fun _ => .ite (fun _ => .pure _) fun _ => .pure _
  · exact .pure _

/-- An item of a select list answers. -/
lemma answers_selectItem : Answers text (selectItem rules) := by
  refine .bind (answers_skipSymbol _) fun _ => .ite (fun _ => .pure _) fun _ => ?_
  refine .bindKnown (fun found s => ∀ owner, found = some owner →
      s.stream.kind = .identifier owner ∧ s.stream.advance.kind = .symbol .dot ∧
        s.stream.advance.advance.kind = .symbol .star) answers_starOwner ?_ fun found => ?_
  · intro s found s' _ _ success
    obtain ⟨rfl, isStar⟩ := run_starOwner_ok success
    exact isStar
  · split
    · rename_i owner
      refine .advance_bind (fun s isStar => ?_) fun _ => .advance_bind ?_ fun _ =>
        .bind (answers_advance ?_) fun _ => .pure _
      · rw [(isStar owner rfl).1]
        rfl
      · rintro _ ⟨s, isStar, rfl⟩
        show s.stream.advance.kind.isBroken = false
        rw [(isStar owner rfl).2.1]
        rfl
      · rintro _ ⟨_, ⟨s, isStar, rfl⟩, rfl⟩
        show s.stream.advance.advance.kind.isBroken = false
        rw [(isStar owner rfl).2.2]
        rfl
    · refine .bindKnown (fun found s => ∀ function, found = some function →
        s.stream.kind.isBroken = false) answers_calledAggregate.answersFrom ?_ fun found => ?_
      · intro s found s' _ _ success function isSome
        obtain ⟨rfl, isKeyword⟩ := run_calledAggregate_ok success
        obtain ⟨keyword, same⟩ := isKeyword function isSome
        rw [same]
        rfl
      · split
        · exact (answers_aggregateItem _).weaken fun s valid => valid _ rfl
        · exact answers_plainItem.answersFrom

/-- A select list answers. -/
lemma answers_selectList (shape : ResultShape) : Answers text (selectList rules shape) := by
  have items (distinct : Bool) : Answers text (do
      let items ← commaSeparated (selectItem rules)
      return {
        shape with
        items := shape.items ++ (if distinct then foldDistinct items else items)
        containsStar := shape.containsStar || items.any isStar
        selectListStop := ← offset }) :=
    .bind (.commaSeparated answers_selectItem) fun _ => .look looks_offset fun _ => .pure _
  refine .bind (answers_skipKeyword _) fun distinct => .ite (fun _ => ?_) fun _ => items _
  exact .bind (answers_skipKeyword _) fun _ => items _

/-! ## Orderings, groupings and limits -/

/-- The item that an expression gives, or a refusal of the expression. -/
lemma refusal_of_itemOf {shape : ResultShape} {direction : OrderDirection} {span : Span}
    {node : ExpressionNode} {error : ParseError} (place : Lexer.Stretch text span)
    (failure : itemOf shape direction span node = .error error) : Refusal text error := by
  unfold itemOf at failure
  split at failure
  · split at failure
    · cases failure
    · cases failure
      exact .unexpected place
  · cases failure
  · cases failure
  · cases failure
  · cases failure
    exact .unsupported place

/-- An item to order or group by answers. -/
lemma answers_orderItem (shape : ResultShape) : Answers text (orderItem rules shape) := by
  have direction : Answers text direction :=
    .bind (answers_skipKeyword _) fun _ => .ite (fun _ => .pure _) fun _ =>
      .bind (answers_skipKeyword _) fun _ => .pure _
  refine .bindKnown (fun expression _ => Lexer.Stretch text expression.span)
    answers_expression (fun s e s' reaches _ read => reaches.stretch_expression read) fun expression => ?_
  refine .bindKnown (fun _ _ => Lexer.Stretch text expression.span)
    direction.answersFrom (fun _ _ _ _ place _ => place) fun direction => ?_
  exact answers_lift fun s error _ place failure => refusal_of_itemOf place failure

/-- An ordering answers. -/
lemma answers_ordering (shape : ResultShape) : Answers text (ordering rules shape) := by
  refine .bind (answers_skipKeyword _) fun _ => .ite (fun _ => ?_) fun _ => .pure _
  exact .bind (answers_acceptKeyword _) fun _ => (answers_orderItem shape).commaSeparated.bind fun _ =>
    .pure _

/-- A grouping answers. -/
lemma answers_grouping (dialect : Dialect) (shape : ResultShape) :
    Answers text (grouping dialect rules shape) := by
  refine .bind (answers_skipKeyword _) fun _ => .ite (fun _ => ?_) fun _ => .pure _
  refine .bind (answers_acceptKeyword _) fun _ => (answers_orderItem shape).commaSeparated.bind fun _ => ?_
  exact .bind (answers_skipAllKeywords _) fun _ => .look looks_previousEnd fun _ => .pure _

/-- An operand of a limit answers. -/
lemma answers_limitValue : Answers text limitValue := by
  refine .look looks_current fun token => ?_
  split
  · rename_i literal isNumber
    refine .bindKnown (fun _ _ => Lexer.Stretch text token.span)
      (answers_advance fun s seen => by rw [kind_of_current seen.2 isNumber]; rfl) ?_ fun _ => ?_
    · intro s _ s' reaches seen _
      exact seen.2 ▸ Lexer.stretch_of_mem reaches.current_mem_tokenize
    · split
      · exact .pure _
      · rw [isNumber]
        refine answers_lift fun s error _ place (failure : Except.error _ = _) => ?_
        cases failure
        exact .unexpected place
  · rename_i isQuestion
    exact .bind (answers_placeholder fun s seen => kind_of_current seen.2 isQuestion) fun _ => .pure _
  · exact answers_unexpected _

/-- A limit answers. -/
lemma answers_limit (style : LimitStyle) (shape : ResultShape) : Answers text (limit style shape) := by
  have operands : Answers text (limitOperands style) := by
    refine .bind answers_limitValue fun first => .look (looks_checkSymbol _) fun isComma => ?_
    refine .ite (fun isTrue => ?_) fun _ => ?_
    · have isComma : isComma = true := (Bool.and_eq_true_iff.1 isTrue).2
      exact .pass (fun s seen => check_symbol.1 (seen.2.trans isComma)) rfl fun _ =>
        .bind answers_limitValue fun _ => .pure _
    · refine .bind (answers_skipKeyword _) fun _ => .ite (fun _ => ?_) fun _ => .pure _
      exact .bind answers_limitValue fun _ => .pure _
  have record (edits : List Edit) : Answers text (edits.forM addEdit) := by
    induction edits with
    | nil => exact .pure _
    | cons edit edits ih => exact .bind (answers_modifyContext _) fun _ => ih
  refine .look looks_offset fun start => .bind (answers_skipKeyword _) fun _ => .ite (fun _ => ?_)
    fun _ => .pure _
  exact operands.bind fun _ => (record _).bind fun _ => .look looks_previousEnd fun _ => .pure _

/-! ## Levels -/

/-- The tables of a level answer if the levels below do. -/
lemma answers_tables {level : Parser PartialLevel} (answers : Answers text level)
    (below : List SelectLevel) : Answers text (tables rules level below) := by
  have derived : Answers text (derivedTable level) := by
    refine .look looks_context fun outer => .bind (answers_modifyContext _) fun _ => ?_
    refine answers.bind fun read => .look looks_context fun inner => ?_
    exact .bind (answers_modifyContext _) fun _ => .pure _
  have others : Answers text (tablesAfterDerived rules) := by
    refine .look (looks_checkKeyword _) fun _ => .look looks_stream fun _ => .ite (fun _ => .pure _)
      fun _ => Answers.bind answers_joins fun _ => .bind (answers_skipSymbol _) fun _ => ?_
    exact .ite (fun _ => answers_tableReferences) fun _ => .pure _
  refine .bind (answers_refuseKeywords _) fun _ => .bind (answers_skipKeyword _) fun _ => .ite (fun _ => ?_)
    fun _ => .pure _
  refine .look looks_checkQueryInParentheses fun isQuery => .ite (fun isTrue => ?_) fun _ =>
    Answers.bind answers_tableReferences fun _ => .pure _
  have opens (s : ParserState) (seen : (s.stream.check (.symbol .leftParen) &&
      s.stream.peek == .keyword .SELECT) = isQuery) : s.stream.kind = .symbol .leftParen :=
    check_symbol.1 (Bool.and_eq_true_iff.1 (seen.trans isTrue)).1
  exact .pass (fun s seen => opens s seen.2) rfl fun _ => derived.bind fun _ =>
    .bind (answers_acceptSymbol _) fun _ => .bind answers_aliasName fun _ => others.bind fun _ => .pure _

/-- Each clause answers if the levels below do. -/
lemma answers_clause {level : Parser PartialLevel} (answers : Answers text level)
    (known : PartialLevel) (next : SelectClause) : Answers text (clause env level known next) := by
  cases next with
  | selectList => exact (answers_selectList _).bind fun _ => .pure _
  | tables => exact (answers_tables answers _).bind fun _ => .pure _
  | condition =>
    have condition : Answers text (condition env.rules) :=
      .bind (answers_skipKeyword _) fun _ => .ite
        (fun _ => .bind answers_predicates fun _ => answers_modifyContext _) fun _ => .pure _
    exact condition.bind fun _ => .pure _
  | grouping => exact (answers_grouping _ _).bind fun _ => .pure _
  | groupCondition => exact .bind (answers_refuseKeywords _) fun _ => .pure _
  | ordering => exact (answers_ordering _).bind fun _ => .pure _
  | limit => exact (answers_limit _ _).bind fun _ => .pure _
  | trailing => exact .bind (answers_refuseKeywords _) fun _ => .pure _

/-- Levels answer. -/
lemma answers_levelsUpTo (n : Nat) : Answers text (levelsUpTo env n) := by
  induction n with
  | zero => exact answers_unexpected _
  | succ n ih =>
    exact .bind (answers_acceptKeyword _) fun _ => .foldlM (answers_clause ih) env.dialect.clauses {}

end Grammar

/-! ## Preparing -/

/-- An item to order or group by has either a name or a position, and with a position it has neither an
owner nor an alias. -/
def OrderItem.Keyed (item : OrderItem) : Prop :=
  (item.name.isSome = true ∧ item.index = none) ∨
    (item.index.isSome = true ∧ item.name = none ∧ item.owner = none ∧ item.aliasName = none)

/-- All items to order and group by have either a name or a position. -/
def ResultShape.Keyed (shape : ResultShape) : Prop :=
  ∀ item ∈ shape.orderBy ++ shape.groupBy, item.Keyed

namespace SelectLevel

variable {metadata : TableMetadata}

/-- It can be told of each item that has a name or a position whether its column is selected. -/
lemma covers_ne_error {level : SelectLevel} {item : OrderItem} {error : ParseError}
    (keyed : item.Keyed) : level.covers metadata item ≠ .error error := by
  unfold covers
  rcases keyed with ⟨named, -⟩ | ⟨placed, -⟩
  · obtain ⟨name, named⟩ := Option.isSome_iff_exists.1 named
    obtain ⟨starred, decided⟩ : ∃ starred, level.coveredByStar metadata item = .ok starred := by
      unfold coveredByStar
      rw [named]
      split
      · exact ⟨_, rfl⟩
      · exact ⟨_, rfl⟩
    rw [decided]
    split <;> simp
  · have isIndex : item.isIndex = true := placed
    simp [isIndex]

/-- A column can be derived for each item that has a name or a position. -/
lemma deriveOrder_failure {kind : DerivedColumn} {n : Nat} {level : SelectLevel} {items : List OrderItem}
    (keyed : ∀ item ∈ items, item.Keyed) :
    (deriveOrder metadata kind n level items).failure = none := by
  induction items generalizing n level with
  | nil => rfl
  | cons item items ih =>
    obtain ⟨own, others⟩ := List.forall_mem_cons.1 keyed
    rw [deriveOrder]
    split
    · exact absurd ‹_› (covers_ne_error own)
    · exact ih others
    · rename_i missing unnamed
      have noName : item.name = none := by simpa [OrderItem.qualifiedName?] using unnamed
      have placed : item.isIndex = true := (own.resolve_left (by simp [noName])).1
      simp [covers, placed] at missing
    · exact ih others

/-- All that is needed can be derived for a level whose items have names or positions. -/
lemma deriveColumns_failure {level : SelectLevel} (keyed : level.shape.Keyed) :
    (level.deriveColumns metadata).failure = none := by
  obtain ⟨orderBy, groupBy⟩ := List.forall_mem_append.1 keyed
  have ordered : (level.orderColumns metadata).failure = none := deriveOrder_failure orderBy
  obtain ⟨selected, columns⟩ := level.withOrderColumns_eq metadata
  have grouped : (level.groupColumns metadata).failure = none := by
    refine deriveOrder_failure ?_
    rw [columns]
    exact groupBy
  simp only [orderColumns, groupColumns, withOrderColumns] at ordered grouped
  simp only [deriveColumns, ordered, grouped]

end SelectLevel

namespace Grammar

variable {rules : ShardingRule} {env : Environment} {text table : String} {s s' : ParserState}

/-- The items of a parse have either names or positions. -/
lemma keyed_orderItem {shape : ResultShape} {item : OrderItem}
    (success : (orderItem rules shape).run s = .ok (item, s')) : item.Keyed := by
  obtain ⟨expression, s₁, -, rest⟩ := run_bind_ok.1 success
  obtain ⟨direction, s₂, -, made⟩ := run_bind_ok.1 rest
  obtain ⟨made, -⟩ := run_lift_ok.1 made
  unfold itemOf at made
  split at made
  · split at made
    · cases made
      exact .inr ⟨rfl, rfl, rfl, rfl⟩
    · cases made
  · cases made
    exact .inl ⟨rfl, rfl⟩
  · cases made
    exact .inl ⟨rfl, rfl⟩
  · cases made
    exact .inl ⟨rfl, rfl⟩
  · cases made

/-- Clauses read items with either names or positions. -/
lemma keepsShape_keyed : KeepsShape env text ResultShape.Keyed :=
  keepsShape_items fun _ read => keyed_orderItem read

/-- The levels that are read can always be prepared.

**Proof sketch.** No column can be derived only for an item that has neither a name nor a position, and
none is read. -/
lemma prepare_ne_error {query : SelectStatement} {error : ParseError} (reaches : Reaches text s)
    (success : (levels env).run s = .ok (query, s')) :
    query.merge.prepare env.metadata ≠ .error error := by
  have keyed : query.merge.shape.Keyed :=
    SelectStatement.merge_shape (shapes_levels keepsShape_keyed reaches success)
  rw [SelectStatement.prepare]
  simp [SelectLevel.deriveColumns_failure keyed]

/-- A query answers. -/
lemma answers_select : Answers text (select env) := by
  have levels : Answers text (levels env) :=
    .look looks_remaining fun n => (answers_levelsUpTo n).bind fun _ => .look looks_context fun _ => .pure _
  refine .bindKnown (fun query _ => ∀ error, query.merge.prepare env.metadata ≠ .error error)
    levels (fun s query s' reaches _ read error => prepare_ne_error reaches read) fun query => ?_
  exact answers_lift fun s error _ prepares failed => absurd failed (prepares error)

/-! ## Insertions -/

/-- The column that an expression names, or a refusal of the expression. -/
lemma answers_assignedColumn (expression : Expression) :
    AnswersFrom text (fun _ => Lexer.Stretch text expression.span)
      (liftM (assignedColumn table expression) : Parser Column) := by
  refine answers_lift fun s error _ place failure => ?_
  unfold assignedColumn at failure
  split at failure
  · cases failure
  · cases failure
  · cases failure
  · cases failure
    exact .invalidColumn place

/-- A column that is listed answers. -/
lemma answers_listedColumn : Answers text (listedColumn rules table) :=
  .bindKnown (fun expression _ => Lexer.Stretch text expression.span) answers_expression
    (fun _ _ _ reaches _ read => reaches.stretch_expression read) answers_assignedColumn

/-- The columns of an insertion answer. -/
lemma answers_targetColumns : Answers text (targetColumns env table) := by
  have values (target : Target) : Answers text
      (do addEdit (.insertValues (← offset) .values); return target) :=
    .look looks_offset fun _ => .bind (answers_modifyContext _) fun _ => .pure _
  have known (columns : List String) : Answers text (knownColumns env.rules table columns) :=
    .look looks_previousEnd fun _ => .bind (answers_modifyContext _) fun _ => .pure _
  refine .look (looks_checkSymbol _) fun opens => .look looks_checkQueryInParentheses fun _ =>
    .ite (fun isTrue => ?_) fun _ => ?_
  · have opens : opens = true := (Bool.and_eq_true_iff.1 isTrue).1
    refine .bind (.pass (fun s seen => check_symbol.1 (seen.1.2.trans opens)) rfl fun _ =>
      .bind (.commaSeparated answers_listedColumn) fun _ => .bind (answers_acceptSymbol _) fun _ => ?_) values
    split
    · exact .bind (answers_modifyContext _) fun _ => .pure _
    · exact .pure _
  · split
    · exact (known _).bind values
    · exact .bind (.pure _) values

/-- Rows of values answer. -/
lemma answers_valueRows (columns : List Column) : Answers text (valueRows rules columns) := by
  have row : Answers text (valueRow rules columns) := by
    refine .bind (answers_acceptSymbol _) fun _ => .look looks_context fun _ =>
      Answers.bind (.commaSeparated answers_expression) fun _ => .bind (answers_acceptSymbol _) fun _ => ?_
    exact .bind (answers_modifyContext _) fun _ => .look looks_context fun _ => .pure _
  exact .bind (answers_skipKeyword _) fun _ =>
    .ite (fun _ => row.commaSeparated.answersFrom) fun _ => .pure _

/-- Assignments answer. -/
lemma answers_assignments : Answers text (assignments env table) := by
  have single : Answers text (assignment env.rules table) := by
    refine .bind answers_listedColumn fun _ => .bind (answers_acceptSymbol _) fun _ => ?_
    exact .bind answers_expression fun _ => .bind (answers_modifyContext _) fun _ => .pure _
  refine .bind (answers_skipKeyword _) fun _ => .ite (fun _ => ?_) fun _ => .pure _
  refine .look looks_previousEnd fun _ => .bind (answers_modifyContext _) fun _ => ?_
  refine .look looks_context fun _ => single.commaSeparated.bind fun _ => ?_
  exact .look looks_previousEnd fun _ => .look looks_context fun _ => .pure _

/-- What to do with rows that are already there answers. -/
lemma answers_duplicateKeyUpdate : Answers text (duplicateKeyUpdate rules table) := by
  have single : Answers text (update rules table) := by
    refine .bindKnown (fun expression _ => Lexer.Stretch text expression.span) answers_expression
      (fun _ _ _ reaches _ read => reaches.stretch_expression read) fun left => ?_
    have rest : Answers text (do let _ ← acceptSymbol .eq; let _ ← expression rules : Parser Unit) :=
      .bind (answers_acceptSymbol _) fun _ => .bind answers_expression fun _ => .pure _
    refine .bindKnown (fun _ _ => Lexer.Stretch text left.span) (answers_assignedColumn left)
      (fun _ _ _ _ place _ => place) fun column => .ite (fun _ => ?_) fun _ => rest.answersFrom
    exact .bind (answers_unsupported _ fun _ _ place => place) fun _ => rest
  refine .bind (answers_skipKeyword _) fun _ => .ite (fun _ => ?_) fun _ => .pure _
  exact .bind (answers_acceptKeyword _) fun _ => .bind (answers_acceptKeyword _) fun _ =>
    .bind (answers_acceptKeyword _) fun _ => single.commaSeparated.bind fun _ => .pure _

/-- An insertion answers. -/
lemma answers_insert : Answers text (insert env) := by
  have refusal : Answers text refuseQuery := by
    refine .look (looks_checkKeyword _) fun _ => .look looks_checkQueryInParentheses fun _ =>
      .ite (fun _ => ?_) fun _ => .pure _
    refine .look looks_current fun token => answers_unsupported _ fun s reaches seen => ?_
    exact seen.2 ▸ Lexer.stretch_of_mem reaches.current_mem_tokenize
  refine .bind (answers_acceptKeyword _) fun _ => .bind (answers_skipKeyword _) fun _ =>
    .bind answers_tableFactor fun _ => .look looks_context fun context => ?_
  refine Answers.bind answers_targetColumns fun target => refusal.bind fun _ =>
    (answers_valueRows _).bind fun rows => .bind answers_assignments fun assigned => ?_
  refine .ite (fun _ => answers_unexpected _) fun _ => .bind answers_duplicateKeyUpdate fun _ => ?_
  exact .look looks_context fun _ => .pure _

/-! ## Statements -/

/-- A statement passes valid tokens, or fails with a refusal. -/
lemma answers_statement : Answers text (statement env) := by
  have rest (read : Statement) : Answers text (do finish; return read) := by
    have ends : Answers text finish :=
      .bind (answers_skipSymbol _) fun _ => .look looks_stream fun _ =>
        .ite (fun _ => .pure _) fun _ => answers_unexpected _
    exact ends.bind fun _ => .pure _
  refine .look (looks_checkKeyword _) fun _ => .look (looks_checkKeyword _) fun _ =>
    .ite (fun _ => ?_) fun _ => .ite (fun _ => ?_) fun _ => ?_
  · exact Answers.bind answers_select fun _ => rest _
  · exact Answers.bind answers_insert fun _ => rest _
  · exact .bind (answers_unexpected _) fun _ => rest _

end Grammar

/-! ## Faults -/

namespace Statement

open Grammar

variable {env : Environment} {text : String}

/-- The error of a text is a refusal. -/
lemma refusal_of_ofText {error : ParseError} (failure : ofText env text = .error error) :
    Refusal text error := by
  rw [ofText] at failure
  cases read : (Grammar.statement env).run ⟨.ofText text, {}⟩ with
  | error other =>
    rw [read] at failure
    cases failure
    exact AnswersFrom.refused answers_statement (Reaches.start text) trivial read
  | ok result =>
    rw [read] at failure
    cases failure

/-- An accepted text has valid tokens only.

**Proof sketch.** The statement passes valid tokens, and behind it nothing is left but a semicolon. -/
lemma valid_of_ofText {statement : Statement} (success : ofText env text = .ok statement) :
    ∀ token ∈ Lexer.tokens text, token.kind.isBroken = false := by
  obtain ⟨s, ended, reaches⟩ : ∃ s, Ended s ∧ Reaches text s := by
    obtain ⟨s, s', finished, ⟨query, -, selected⟩ | ⟨insertion, -, inserted⟩⟩ := ofText_reads success
    · have passes := AnswersFrom.passes answers_select (Reaches.start text) trivial selected
      obtain ⟨whole, s₁, read, merged⟩ := run_bind_ok.1 selected
      obtain ⟨-, rfl⟩ := run_lift_ok.1 merged
      obtain ⟨outer, below, reading, -⟩ := levels_read read
      obtain ⟨tokens, run⟩ := reading.exists_run
      exact ⟨s₁, finish_reads ((KeepsCount.start text).sameCount run) finished, passes⟩
    · have passes := AnswersFrom.passes answers_insert (Reaches.start text) trivial inserted
      obtain ⟨-, keeps, -⟩ := insert_reads inserted
      exact ⟨s, finish_reads keeps finished, passes⟩
  obtain ⟨passed, valid, split⟩ := reaches.exists_passed
  rw [split]
  refine List.forall_mem_append.2 ⟨valid, fun token mem => ?_⟩
  rcases ended with nothing | ⟨last, left, isSemicolon⟩
  · rw [nothing] at mem
    cases mem
  · rw [left] at mem
    obtain rfl := List.mem_singleton.1 mem
    exact Passage.valid_of_symbol isSemicolon

/-- A text with input that is no token is refused, whatever the configuration; and a refusal for such
input names the reason and the span of the first one in the text.

**Proof sketch.** Every parser passes valid tokens, or fails at the current token, which then is the
first that is not valid. -/
theorem ofText_lexical (env : Environment) (text : String) :
    ((∃ token ∈ Lexer.tokenize text, token.kind.isInvalid = true) →
      ∃ error, ofText env text = .error error) ∧
    ∀ reason span, ofText env text = .error (.lexical reason span) →
      (Lexer.tokenize text).find? (·.kind.isInvalid) = some ⟨.invalid reason, span⟩ := by
  constructor
  · rintro ⟨token, mem, invalid⟩
    cases outcome : ofText env text with
    | error error => exact ⟨error, rfl⟩
    | ok statement =>
      have valid : token.kind.isInvalid = false := by
        rcases List.mem_append.1 mem with mem | mem
        · exact TokenKind.isInvalid_of_valid (valid_of_ofText outcome token mem)
        · rw [List.mem_singleton.1 mem]
          rfl
      rw [valid] at invalid
      cases invalid
  · intro reason span failure
    cases refusal_of_ofText failure with
    | lexical first => exact first

/-- A string without its end is met in the arguments of a call; behind a refused keyword it is not met, and
the text is refused all the same. -/
theorem ofText_lexical_arguments :
    (∃ error, ofText {} "SELECT a INTO b, 'c" = .error error) ∧
    ∃ reason span, ofText {} "SELECT f(a, 'b) FROM t" = .error (.lexical reason span) ∧
      (Lexer.tokenize "SELECT f(a, 'b) FROM t").find? (·.kind.isInvalid) =
        some ⟨.invalid reason, span⟩ := by
  have failure : ofText {} "SELECT f(a, 'b) FROM t" =
      .error (.lexical "unterminated string literal" ⟨12, 22⟩) := by
    decide +kernel
  exact ⟨(ofText_lexical {} _).1 (by decide +kernel), _, _, failure, (ofText_lexical {} _).2 _ _ failure⟩

end Statement

end SqlRouting
