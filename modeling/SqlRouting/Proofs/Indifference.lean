import SqlRouting.Proofs.Spacing

/-!
# Indifference to blanks and comments

Source text that is kept as it is written, with the blanks and comments in it, has no influence on
whether a query is accepted, nor on its route: two queries with the same tokens are read in step. What
may differ are the places, the edits, and the texts of expressions that have no shape of their own.

## Main definitions

* `SqlRouting.ExpressionNode.Matches` — shapes that are equal, but for source text.
* `SqlRouting.ResultShape.Matches`, `SqlRouting.SelectLevel.Matches` — levels that agree on what the
  route depends on.

## Main results

* `SqlRouting.Grammar.inStep_expression`, `SqlRouting.Grammar.inStep_select` — the parsers run in step on
  texts with the same tokens.
* `SqlRouting.Statement.ofText_respaced` — the route of a query does not depend on blanks and comments.
-/

set_option autoImplicit false

namespace SqlRouting

open TokenStream SqlRouting.Parser

/-! ## What is compared -/

/-- Two shapes are equal, or both are source text. -/
def ExpressionNode.Matches (node node' : ExpressionNode) : Prop :=
  node = node' ∨ ∃ source source', node = .other source ∧ node' = .other source'

namespace ExpressionNode.Matches

variable {node node' : ExpressionNode}

/-- A shape matches itself. -/
lemma refl (node : ExpressionNode) : node.Matches node :=
  .inl rfl

/-- Source text matches any other. -/
lemma other (source source' : String) : Matches (.other source) (.other source') :=
  .inr ⟨source, source', rfl, rfl⟩

/-- Arguments may follow both shapes or neither. -/
lemma isCallable_eq (h : node.Matches node') : node.isCallable = node'.isCallable := by
  rcases h with rfl | ⟨_, _, rfl, rfl⟩ <;> rfl

/-- Both shapes stand for the same value, or for none. -/
lemma ofNode_eq (h : node.Matches node') : RoutingValue.ofNode? node = RoutingValue.ofNode? node' := by
  rcases h with rfl | ⟨_, _, rfl, rfl⟩ <;> rfl

/-- Both shapes denote the same sharding column, or none. -/
lemma shardingColumn_eq (h : node.Matches node') (rules : ShardingRule) (tables : Tables) :
    Grammar.shardingColumn? rules tables node = Grammar.shardingColumn? rules tables node' := by
  rcases h with rfl | ⟨_, _, rfl, rfl⟩ <;> rfl

end ExpressionNode.Matches

/-- The operands of a limit. -/
def Limit.operands (limit : Limit) : Option LimitValue × Option LimitValue :=
  (limit.offset, limit.rowCount)

/-- Two shapes agree on whether there is a star, and on the operands of the limit. -/
structure ResultShape.Matches (shape shape' : ResultShape) : Prop where
  /-- Both have a star or neither. -/
  containsStar : shape.containsStar = shape'.containsStar
  /-- The operands of the limit are the same. -/
  operands : shape.limit.map Limit.operands = shape'.limit.map Limit.operands

/-- Two levels agree on what they collect, edits aside, and on their shapes. -/
structure SelectLevel.Matches (level level' : SelectLevel) : Prop where
  /-- Edits aside, the same is collected. -/
  context : level.context.EditsOnly level'.context
  /-- The shapes agree. -/
  shape : level.shape.Matches level'.shape

/-- Two levels that are partly read agree, and so do those below them. -/
structure Grammar.PartialLevel.Matches (known known' : PartialLevel) : Prop where
  /-- The shapes agree. -/
  shape : known.shape.Matches known'.shape
  /-- The levels below agree one by one. -/
  below : List.Forall₂ SelectLevel.Matches known.below known'.below

namespace Grammar

variable {rules : ShardingRule} {env : Environment} {text text' : String}

/-! ## Expressions -/

/-- Source text is taken in step. -/
lemma inStep_text (start start' : Nat) : InStep text text' ExpressionNode.Matches
    (do return .other (← textFrom start)) (do return .other (← textFrom start')) := by
  intro s t abreast
  exact .ok (.other _ _) abreast

section Parts

variable {operand operand' : Parser Expression}
  (inStep : InStep text text' (fun e e' => e.node.Matches e'.node) operand operand')

include inStep

/-- Operators with their operands run in step if operands do. -/
lemma inStep_compositeWith :
    InStep text text' Eq (compositeWith operand) (compositeWith operand') := by
  have upTo (n : Nat) : InStep text text' Eq (compositeUpTo operand n) (compositeUpTo operand' n) := by
    induction n with
    | zero => exact .pure rfl
    | succ n ih =>
      refine .see looks_checkComposite (fun _ _ abreast => abreast.isComposite_eq) fun _ =>
        .ite ?_ (.pure rfl)
      exact InStep.advance.bind fun _ _ _ => inStep.bind fun _ _ _ => ih
  exact .see looks_remaining (fun _ _ abreast => abreast.remaining_eq) upTo

/-- An operator of one operand runs in step if the operand does. -/
lemma inStep_unaryWith (start start' : Nat) : InStep text text' ExpressionNode.Matches
    (unaryWith operand start) (unaryWith operand' start') :=
  InStep.advance.bind fun _ _ _ => inStep.bind fun _ _ _ => inStep_text start start'

/-- A sign runs in step if operands do. -/
lemma inStep_signedWith (start start' : Nat) (sign : String) : InStep text text' ExpressionNode.Matches
    (signedWith operand start sign) (signedWith operand' start' sign) := by
  refine .see looks_peek (fun _ _ abreast => abreast.peekNth_eq 1) fun next => ?_
  split
  · exact InStep.advance.bind fun _ _ _ => InStep.advance.bind fun _ _ _ => .pure (.refl _)
  · exact inStep_unaryWith inStep start start'

/-- What starts with a keyword runs in step if operands do. -/
lemma inStep_keywordWith (start start' : Nat) (keyword : Keyword) :
    InStep text text' ExpressionNode.Matches (keywordWith operand start keyword)
      (keywordWith operand' start' keyword) := by
  refine .ite (inStep_unaryWith inStep start start') (.ite ?_ ?_)
  · exact (InStep.skipGroup _).bind fun _ _ _ => inStep_text start start'
  · refine .see looks_peek (fun _ _ abreast => abreast.peekNth_eq 1) fun next => .ite ?_ (.unexpected _)
    exact InStep.advance.bind fun _ _ _ => inStep_text start start'

/-- What starts with a symbol runs in step if operands do. -/
lemma inStep_symbolWith (start start' : Nat) (symbol : Symbol) :
    InStep text text' ExpressionNode.Matches (symbolWith operand start symbol)
      (symbolWith operand' start' symbol) := by
  unfold symbolWith
  split
  · exact InStep.placeholder.bind fun _ _ same => .pure (same ▸ .refl _)
  · exact inStep_signedWith inStep start start' _
  · exact inStep_signedWith inStep start start' _
  · exact inStep_unaryWith inStep start start'
  · exact inStep_unaryWith inStep start start'
  · exact InStep.skipParentheses.bind fun _ _ _ => inStep_text start start'
  · exact .unexpected _

/-- The part of an expression before any operator or arguments runs in step if operands do. -/
lemma inStep_primaryWith : InStep text text' ExpressionNode.Matches (primaryWith operand)
    (primaryWith operand') := by
  refine (InStep.looks looks_offset looks_offset).bind fun start start' _ => ?_
  refine .see looks_kind (fun _ _ abreast => abreast.kind_eq) fun kind => ?_
  split
  · exact InStep.advance.bind fun _ _ _ => .pure (.refl _)
  · exact InStep.advance.bind fun _ _ _ => .pure (.refl _)
  · exact InStep.advance.bind fun _ _ _ => .pure (.refl _)
  · exact InStep.advance.bind fun _ _ _ => inStep_text start start'
  · exact inStep_keywordWith inStep start start' _
  · exact inStep_symbolWith inStep start start' _
  · exact .unexpected _

omit inStep in
/-- The name of a column is the same in both texts: a keyword is taken by the source text of its token. -/
lemma inStep_columnName : InStep text text' Eq columnName columnName := by
  refine InStep.current.bind fun token token' seen => ?_
  obtain ⟨kind, written⟩ := seen
  rw [kind]
  split
  · exact .pure rfl
  · exact .textOf (written (by simp [*]))
  · exact .pure rfl
  · exact .unexpected _

/-- The rest of a reference after its owner and the dot runs in step if operands do. -/
lemma inStep_qualifiedWith (owner : String) (span span' : Span) :
    InStep text text' ExpressionNode.Matches (qualifiedWith operand rules owner span)
      (qualifiedWith operand' rules owner span') := by
  have record : InStep text text' Eq (recordOwner rules owner span) (recordOwner rules owner span') :=
    .ite ((InStep.looks (looks_textOf span) (looks_textOf span')).bind fun _ _ _ => .addEdit _ _)
      (.pure rfl)
  refine .bind inStep_columnName fun name name' same => InStep.advance.bind fun _ _ _ =>
    record.bind fun _ _ _ => ?_
  obtain rfl := same
  refine .see looks_checkComposite (fun _ _ abreast => abreast.isComposite_eq) fun _ =>
    .ite ?_ (.pure (.refl _))
  exact (inStep_compositeWith inStep).bind fun _ _ _ => inStep_text _ _

/-- A reference runs in step if operands do. -/
lemma inStep_referenceWith (start start' : Nat) {node node' : ExpressionNode}
    (same : node.Matches node') : InStep text text' ExpressionNode.Matches
      (referenceWith operand rules start node) (referenceWith operand' rules start' node') := by
  rcases same with rfl | ⟨source, source', rfl, rfl⟩
  · unfold referenceWith
    split
    · refine .see (looks_checkSymbol _) (fun _ _ abreast => abreast.check_eq _) fun _ =>
        .ite ?_ (.pure (.refl _))
      exact InStep.advance.bind fun _ _ _ => inStep_qualifiedWith inStep _ _ _
    · exact .pure (.refl _)
  · exact .pure (.other _ _)

/-- The operators after an expression run in step if operands do. -/
lemma inStep_operatorsWith (start start' : Nat) {node node' : ExpressionNode}
    (same : node.Matches node') : InStep text text' ExpressionNode.Matches
      (operatorsWith operand start node) (operatorsWith operand' start' node') := by
  refine .see looks_checkComposite (fun _ _ abreast => abreast.isComposite_eq) fun _ =>
    .ite ?_ (.pure same)
  exact (inStep_compositeWith inStep).bind fun _ _ _ => inStep_text start start'

/-- An expression runs in step if operands do. -/
lemma inStep_expressionWith : InStep text text' (fun e e' => e.node.Matches e'.node)
    (expressionWith operand rules) (expressionWith operand' rules) := by
  have arguments (start start' : Nat) {node node' : ExpressionNode} (same : node.Matches node') :
      InStep text text' ExpressionNode.Matches (argumentsAfter start node) (argumentsAfter start' node') := by
    refine .see (looks_checkSymbol _) (fun _ _ abreast => abreast.check_eq _) fun _ => ?_
    rw [same.isCallable_eq]
    refine .ite ?_ (.pure same)
    exact InStep.skipParentheses.bind fun _ _ _ => inStep_text start start'
  refine (InStep.looks looks_offset looks_offset).bind fun start start' _ => ?_
  refine (inStep_primaryWith inStep).bind fun _ _ primary => ?_
  refine (inStep_referenceWith inStep start start' primary).bind fun _ _ reference => ?_
  refine (arguments start start' reference).bind fun _ _ called => ?_
  refine (inStep_operatorsWith inStep start start' called).bind fun _ _ whole => ?_
  exact (InStep.looks looks_previousEnd looks_previousEnd).bind fun _ _ _ => .pure whole

end Parts

/-- Expressions run in step. -/
lemma inStep_expression : InStep text text' (fun e e' => e.node.Matches e'.node)
    (expression rules) (expression rules) := by
  have upTo (n : Nat) : InStep text text' (fun e e' => e.node.Matches e'.node)
      (expressionUpTo rules n) (expressionUpTo rules n) := by
    induction n with
    | zero => exact .unexpected _
    | succ n ih => exact inStep_expressionWith ih
  exact .see looks_remaining (fun _ _ abreast => abreast.remaining_eq) upTo

/-- Aliases are the same in both texts: a keyword is taken by the source text of its token. -/
lemma inStep_aliasName : InStep text text' Eq aliasName aliasName := by
  refine (InStep.skipKeyword _).bind fun _ _ same => same ▸ .ite ?_ ?_
  · refine InStep.current.bind fun token token' seen => ?_
    obtain ⟨kind, written⟩ := seen
    rw [kind]
    split
    · exact InStep.advance.bind fun _ _ _ => .pure rfl
    · exact InStep.advance.bind fun _ _ _ => .pure rfl
    · exact InStep.advance.bind fun _ _ _ => (InStep.textOf (written (by simp [*]))).bind fun _ _ same =>
        .pure (congrArg some same)
    · exact .unexpected _
  · refine .see looks_kind (fun _ _ abreast => abreast.kind_eq) fun kind => ?_
    split
    · exact InStep.advance.bind fun _ _ _ => .pure rfl
    · exact .pure rfl

/-! ## Predicates -/

/-- Values that match set the same condition. -/
lemma equalCondition_eq (column : Option Column) {node node' : ExpressionNode} (same : node.Matches node') :
    equalCondition? column node = equalCondition? column node' := by
  simp only [equalCondition?, same.ofNode_eq]

/-- Lists of values that match set the same condition. -/
lemma withinCondition_eq (column : Option Column) {nodes nodes' : List ExpressionNode}
    (same : List.Forall₂ ExpressionNode.Matches nodes nodes') :
    withinCondition? column nodes = withinCondition? column nodes' := by
  have values : nodes.mapM RoutingValue.ofNode? = nodes'.mapM RoutingValue.ofNode? := by
    induction same with
    | nil => rfl
    | cons first _ ih => rw [List.mapM_cons, List.mapM_cons, first.ofNode_eq, ih]
  simp only [withinCondition?, values]

/-- Bounds that match set the same condition. -/
lemma betweenCondition_eq (column : Option Column) {low low' high high' : ExpressionNode}
    (sameLow : low.Matches low') (sameHigh : high.Matches high') :
    betweenCondition? column low high = betweenCondition? column low' high' := by
  simp only [betweenCondition?, sameLow.ofNode_eq, sameHigh.ofNode_eq]

/-- The values after `IN` are read in step. -/
lemma inStep_valueList : InStep text text' (Option.Rel (List.Forall₂ ExpressionNode.Matches))
    (valueList rules) (valueList rules) := by
  refine .see looks_peek (fun _ _ abreast => abreast.peekNth_eq 1) fun _ => .ite ?_ ?_
  · exact InStep.skipParentheses.bind fun _ _ _ => .pure .none
  · refine (InStep.acceptSymbol _).bind fun _ _ _ => ?_
    refine .bind (.commaSeparated inStep_expression) fun _ _ same => ?_
    refine (InStep.acceptSymbol _).bind fun _ _ _ => .pure (.some ?_)
    exact List.forall₂_map_left_iff.2 (List.forall₂_map_right_iff.2 same)

/-- The two values after `BETWEEN` are read in step. -/
lemma inStep_range : InStep text text' (fun bounds bounds' => bounds.1.Matches bounds'.1 ∧
    bounds.2.Matches bounds'.2) (range rules) (range rules) :=
  .bind inStep_expression fun _ _ low => (InStep.acceptKeyword _).bind fun _ _ _ =>
    .bind inStep_expression fun _ _ high => .pure ⟨low, high⟩

/-- The rest of a predicate after `NOT` is read in step. -/
lemma inStep_negated : InStep text text' Eq (negated rules) (negated rules) := by
  refine .see looks_kind (fun _ _ abreast => abreast.kind_eq) fun kind => ?_
  split
  · exact InStep.advance.bind fun _ _ _ => .skipParentheses
  · exact InStep.advance.bind fun _ _ _ => .bind inStep_range fun _ _ _ => .pure rfl
  · exact InStep.advance.bind fun _ _ _ => .bind inStep_expression fun _ _ _ => .pure rfl
  · exact .unexpected _

/-- The rest of a predicate after its left side is read in step, with the same condition. -/
lemma inStep_comparison (column : Option Column) :
    InStep text text' Eq (comparison rules column) (comparison rules column) := by
  have truth : InStep text text' Eq truthTest truthTest :=
    (InStep.skipKeyword _).bind fun _ _ _ => (InStep.skipKeyword _).bind fun _ _ same =>
      same ▸ .ite (.pure rfl) (.unexpected _)
  refine .see looks_kind (fun _ _ abreast => abreast.kind_eq) fun kind => ?_
  split
  · refine .ite ?_ (.ite ?_ (.pure rfl))
    · exact InStep.advance.bind fun _ _ _ => .bind inStep_expression fun _ _ same =>
        .pure (equalCondition_eq column same)
    · exact InStep.advance.bind fun _ _ _ => .bind inStep_expression fun _ _ _ => .pure rfl
  · refine InStep.advance.bind fun _ _ _ => .bind inStep_valueList fun _ _ same => ?_
    cases same with
    | none => exact .pure rfl
    | some same => exact .pure (withinCondition_eq column same)
  · exact InStep.advance.bind fun _ _ _ => .bind inStep_range fun _ _ same =>
      .pure (betweenCondition_eq column same.1 same.2)
  · exact InStep.advance.bind fun _ _ _ => .bind inStep_negated fun _ _ _ => .pure rfl
  · exact InStep.advance.bind fun _ _ _ => .bind inStep_expression fun _ _ _ => .pure rfl
  · exact InStep.advance.bind fun _ _ _ => truth.bind fun _ _ _ => .pure rfl
  · exact .pure rfl

/-- Lists of predicates are read in step, with the same conditions. -/
lemma inStep_predicates : InStep text text' Eq (predicates rules) (predicates rules) := by
  have single : InStep text text' Eq (predicate rules) (predicate rules) := by
    refine .bind inStep_expression fun _ _ left => InStep.context.bind fun context context' same => ?_
    rw [left.shardingColumn_eq, same.tables]
    exact inStep_comparison _
  have upTo (n : Nat) : InStep text text' Eq (predicatesUpTo rules n) (predicatesUpTo rules n) := by
    induction n with
    | zero => exact single.bind fun _ _ same => .pure (same ▸ rfl)
    | succ n ih =>
      refine single.bind fun condition _ same => same ▸ (InStep.skipKeyword _).bind fun _ _ same =>
        same ▸ .ite ?_ ?_
      · exact ih.bind fun _ _ same => .pure (same ▸ rfl)
      · refine (InStep.skipKeyword _).bind fun _ _ same => same ▸ .ite ?_ (.pure rfl)
        exact ih.bind fun _ _ same => .pure (same ▸ rfl)
  exact .see looks_remaining (fun _ _ abreast => abreast.remaining_eq) upTo

/-- The condition of a query is read in step. -/
lemma inStep_condition : InStep text text' Eq (condition rules) (condition rules) := by
  refine (InStep.skipKeyword _).bind fun _ _ same => same ▸ .ite ?_ (.pure rfl)
  refine .bind inStep_predicates fun read _ same => same ▸ .modifyContext fun _ _ same => ?_
  exact ⟨same.tables, congrArg (· ++ read.routeConditions) same.conditions, same.parameters⟩

/-! ## Tables -/

/-- A table with its alias is read in step. -/
lemma inStep_tableFactor : InStep text text' Eq tableFactor tableFactor := by
  have name : InStep text text' (fun read read' => read.1 = read'.1) tableName tableName := by
    refine InStep.acceptIdentifier.bind fun first first' same => ?_
    refine (InStep.skipSymbol _).bind fun _ _ dotted => dotted ▸ .ite ?_ (.pure same)
    exact InStep.acceptIdentifier.bind fun _ _ same => .pure same
  have named : InStep text text' Eq namedTable namedTable := by
    refine (InStep.looks looks_offset looks_offset).bind fun start start' _ => ?_
    refine name.bind fun read read' same => ?_
    refine .bind inStep_aliasName fun aliasName _ sameAlias => ?_
    refine (InStep.looks (looks_textOf _) (looks_textOf _)).bind fun _ _ _ =>
      (InStep.addEdit _ _).bind fun _ _ _ => .modifyContext fun context context' keeps => ?_
    obtain rfl := sameAlias
    rw [same]
    exact ⟨congrArg (fun tables : Tables => tables.add _) keeps.tables, keeps.conditions, keeps.parameters⟩
  refine .see looks_checkQueryInParentheses (fun _ _ abreast => abreast.query_eq) fun _ => .ite ?_ ?_
  · exact InStep.current.bind fun _ _ _ => .unsupported _ _ _
  · refine .see (looks_checkSymbol _) (fun _ _ abreast => abreast.check_eq _) fun _ => .ite ?_ named
    exact InStep.skipParentheses.bind fun _ _ _ => .bind inStep_aliasName fun _ _ _ => .pure rfl

/-- Joined tables are read in step. -/
lemma inStep_joins : InStep text text' Eq (joins rules) (joins rules) := by
  have words : InStep text text' Eq joinWords joinWords := by
    refine (InStep.skipKeyword _).bind fun _ _ same => same ▸ .ite (.pure rfl) ?_
    refine (InStep.skipKeyword _).bind fun _ _ same => same ▸ .ite ?_ ?_
    · exact (InStep.acceptKeyword _).bind fun _ _ _ => .pure rfl
    · refine (InStep.skipKeyword _).bind fun _ _ same => same ▸ .ite ?_ (.pure rfl)
      exact (InStep.skipKeyword _).bind fun _ _ _ => (InStep.acceptKeyword _).bind fun _ _ _ => .pure rfl
  have condition : InStep text text' Eq (joinCondition rules) (joinCondition rules) := by
    refine (InStep.skipKeyword _).bind fun _ _ same => same ▸ .ite ?_ ?_
    · exact .bind inStep_predicates fun _ _ _ => .pure rfl
    · exact (InStep.skipKeyword _).bind fun _ _ same => same ▸ .ite .skipParentheses (.pure rfl)
  have upTo (n : Nat) : InStep text text' Eq (joinsUpTo rules n) (joinsUpTo rules n) := by
    induction n with
    | zero => exact .pure rfl
    | succ n ih =>
      refine words.bind fun _ _ same => same ▸ .ite ?_ (.pure rfl)
      exact .bind inStep_tableFactor fun _ _ _ => condition.bind fun _ _ _ => ih
  exact .see looks_remaining (fun _ _ abreast => abreast.remaining_eq) upTo

/-- Lists of tables are read in step. -/
lemma inStep_tableReferences : InStep text text' Eq (tableReferences rules) (tableReferences rules) := by
  have single : InStep text text' Eq (do tableFactor; joins rules) (do tableFactor; joins rules) :=
    .bind inStep_tableFactor fun _ _ _ => inStep_joins
  exact single.commaSeparated.bind fun _ _ _ => .pure rfl

/-! ## Select lists -/

/-- Items of select lists are read in step; both are stars, or neither. -/
lemma inStep_selectItem : InStep text text' (fun item item' => isStar item = isStar item')
    (selectItem rules) (selectItem rules) := by
  have aggregate (function : AggregateFunction) : InStep text text'
      (fun item item' => isStar item = isStar item') (aggregateItem rules function)
      (aggregateItem rules function) := by
    refine (InStep.looks looks_offset looks_offset).bind fun _ _ _ => InStep.advance.bind fun _ _ _ => ?_
    refine (InStep.looks looks_offset looks_offset).bind fun _ _ _ => ?_
    refine InStep.skipParentheses.bind fun _ _ _ => ?_
    refine (InStep.looks (looks_textFrom _) (looks_textFrom _)).bind fun _ _ _ => ?_
    refine .see looks_checkComposite (fun _ _ abreast => abreast.isComposite_eq) fun _ => .ite ?_ ?_
    · exact (inStep_compositeWith inStep_expression).bind fun _ _ _ =>
        (InStep.looks (looks_textFrom _) (looks_textFrom _)).bind fun _ _ _ =>
          .bind inStep_aliasName fun _ _ _ => .pure rfl
    · exact .bind inStep_aliasName fun _ _ _ => .pure rfl
  have plain : InStep text text' (fun item item' => isStar item = isStar item')
      (plainItem rules) (plainItem rules) :=
    .bind inStep_expression fun _ _ _ => (InStep.looks (looks_textOf _) (looks_textOf _)).bind fun _ _ _ =>
      .bind inStep_aliasName fun _ _ _ => .pure rfl
  have owner : InStep text text' Eq starOwner? starOwner? := by
    refine .see looks_kind (fun _ _ abreast => abreast.kind_eq) fun kind => ?_
    split
    · refine InStep.stream.bind fun _ _ same => ?_
      rw [same.2, same.2]
      exact .ite (.pure rfl) (.pure rfl)
    · exact .pure rfl
  have called : InStep text text' Eq calledAggregate? calledAggregate? := by
    refine .see looks_kind (fun _ _ abreast => abreast.kind_eq) fun kind => ?_
    split
    · exact .see looks_peek (fun _ _ abreast => abreast.peekNth_eq 1) fun _ => .ite (.pure rfl) (.pure rfl)
    · exact .pure rfl
  refine (InStep.skipSymbol _).bind fun _ _ same => same ▸ .ite (.pure rfl) ?_
  refine owner.bind fun found _ same => same ▸ ?_
  split
  · exact InStep.advance.bind fun _ _ _ => InStep.advance.bind fun _ _ _ =>
      InStep.advance.bind fun _ _ _ => .pure rfl
  · refine called.bind fun found _ same => same ▸ ?_
    split
    · exact aggregate _
    · exact plain

/-- Select lists are read in step. -/
lemma inStep_selectList {shape shape' : ResultShape} (same : shape.Matches shape') :
    InStep text text' ResultShape.Matches (selectList rules shape) (selectList rules shape') := by
  have items (distinct : Bool) : InStep text text' ResultShape.Matches
      (do
        let items ← commaSeparated (selectItem rules)
        return {
          shape with
          items := shape.items ++ (if distinct then foldDistinct items else items)
          containsStar := shape.containsStar || items.any isStar
          selectListStop := ← offset })
      (do
        let items ← commaSeparated (selectItem rules)
        return {
          shape' with
          items := shape'.items ++ (if distinct then foldDistinct items else items)
          containsStar := shape'.containsStar || items.any isStar
          selectListStop := ← offset }) := by
    refine .bind (.commaSeparated inStep_selectItem) fun items items' alike => ?_
    refine (InStep.looks looks_offset looks_offset).bind fun _ _ _ => .pure ⟨?_, same.operands⟩
    have stars : items.any isStar = items'.any isStar := by
      induction alike with
      | nil => rfl
      | cons first _ ih => rw [List.any_cons, List.any_cons, first, ih]
    exact congrArg₂ (· || ·) same.containsStar stars
  refine (InStep.skipKeyword _).bind fun distinct _ same => same ▸ .ite ?_ (items _)
  exact (InStep.skipKeyword _).bind fun _ _ _ => items _

/-! ## Orderings, groupings and limits -/

/-- Items to order or group by are read in step. -/
lemma inStep_orderItem (shape shape' : ResultShape) :
    InStep text text' Free (orderItem rules shape) (orderItem rules shape') := by
  have direction : InStep text text' Eq direction direction :=
    (InStep.skipKeyword _).bind fun _ _ same => same ▸ .ite (.pure rfl)
      ((InStep.skipKeyword _).bind fun _ _ _ => .pure rfl)
  refine .bind inStep_expression fun e e' matched => direction.bind fun _ _ same => .lift ?_
  obtain rfl := same
  rcases matched with same | ⟨source, source', isOther, isOther'⟩
  · rw [same]
    unfold itemOf
    split
    · split
      · exact .inl ⟨_, _, rfl, rfl, trivial⟩
      · exact .inr ⟨_, _, rfl, rfl, rfl⟩
    · exact .inl ⟨_, _, rfl, rfl, trivial⟩
    · exact .inl ⟨_, _, rfl, rfl, trivial⟩
    · exact .inl ⟨_, _, rfl, rfl, trivial⟩
    · exact .inr ⟨_, _, rfl, rfl, rfl⟩
  · rw [isOther, isOther']
    exact .inl ⟨_, _, rfl, rfl, trivial⟩

/-- Orderings are read in step. -/
lemma inStep_ordering {shape shape' : ResultShape} (same : shape.Matches shape') :
    InStep text text' ResultShape.Matches (ordering rules shape) (ordering rules shape') := by
  refine (InStep.skipKeyword _).bind fun _ _ found => found ▸ .ite ?_ (.pure same)
  refine (InStep.acceptKeyword _).bind fun _ _ _ => (inStep_orderItem _ _).commaSeparated.bind fun _ _ _ => ?_
  exact .pure ⟨same.containsStar, same.operands⟩

/-- Groupings are read in step. -/
lemma inStep_grouping (dialect : Dialect) {shape shape' : ResultShape} (same : shape.Matches shape') :
    InStep text text' ResultShape.Matches (grouping dialect rules shape)
      (grouping dialect rules shape') := by
  refine (InStep.skipKeyword _).bind fun _ _ found => found ▸ .ite ?_ (.pure same)
  refine (InStep.acceptKeyword _).bind fun _ _ _ => (inStep_orderItem _ _).commaSeparated.bind fun _ _ _ => ?_
  exact (InStep.skipAllKeywords _).bind fun _ _ _ =>
    (InStep.looks looks_previousEnd looks_previousEnd).bind fun _ _ _ =>
      .pure ⟨same.containsStar, same.operands⟩

/-- Operands of limits are read in step, with the same values. -/
lemma inStep_limitValue :
    InStep text text' (fun value value' => value.1 = value'.1) limitValue limitValue := by
  refine InStep.current.bind fun token token' seen => ?_
  rw [seen.1]
  split
  · refine InStep.advance.bind fun _ _ _ => ?_
    split
    · exact .pure rfl
    · exact .throw (by simp [*, ParseError.ofToken, ParseError.SameCause, ParseError.placed, ParseError.span])
  · exact InStep.placeholder.bind fun _ _ same => .pure (congrArg LimitValue.placeholder same)
  · exact .unexpected _

/-- Limits are read in step, with the same operands. -/
lemma inStep_limit (style : LimitStyle) {shape shape' : ResultShape} (same : shape.Matches shape') :
    InStep text text' ResultShape.Matches (limit style shape) (limit style shape') := by
  have operands : InStep text text' (fun read read' => read.1.map Prod.fst = read'.1.map Prod.fst ∧
      read.2.1 = read'.2.1) (limitOperands style) (limitOperands style) := by
    refine .bind inStep_limitValue fun first first' sameFirst => ?_
    refine .see (looks_checkSymbol _) (fun _ _ abreast => abreast.check_eq _) fun _ => .ite ?_ ?_
    · exact InStep.advance.bind fun _ _ _ => .bind inStep_limitValue fun _ _ sameSecond =>
        .pure ⟨congrArg some sameFirst, sameSecond⟩
    · refine (InStep.skipKeyword _).bind fun _ _ found => found ▸ .ite ?_ (.pure ⟨rfl, sameFirst⟩)
      exact .bind inStep_limitValue fun _ _ sameSecond => .pure ⟨congrArg some sameSecond, sameFirst⟩
  refine (InStep.looks looks_offset looks_offset).bind fun _ _ _ => ?_
  refine (InStep.skipKeyword _).bind fun _ _ found => found ▸ .ite ?_ (.pure same)
  refine operands.bind fun read read' values => (InStep.addEdits _ _).bind fun _ _ _ => ?_
  refine (InStep.looks looks_previousEnd looks_previousEnd).bind fun _ _ _ => .pure ⟨same.containsStar, ?_⟩
  exact congrArg some (congrArg₂ Prod.mk values.1 (congrArg some values.2))

/-! ## Levels -/

section Levels

variable {level : Parser PartialLevel} (inStep : InStep text text' PartialLevel.Matches level level)

include inStep

/-- The tables of a level are read in step if the levels below are. -/
lemma inStep_tables {below below' : List SelectLevel}
    (same : List.Forall₂ SelectLevel.Matches below below') :
    InStep text text' (List.Forall₂ SelectLevel.Matches) (tables rules level below)
      (tables rules level below') := by
  have derived : InStep text text' (List.Forall₂ SelectLevel.Matches) (derivedTable level)
      (derivedTable level) := by
    refine InStep.context.bind fun outer outer' sameOuter => ?_
    refine .bind (.modifyContext fun _ _ same => ⟨rfl, rfl, same.parameters⟩) fun _ _ _ => ?_
    refine inStep.bind fun read read' known => InStep.context.bind fun inner inner' sameInner => ?_
    refine .bind (.modifyContext fun _ _ same => ?_) fun _ _ _ =>
      .pure (.cons ⟨sameInner, known.shape⟩ known.below)
    exact ⟨sameOuter.tables, sameOuter.conditions, same.parameters⟩
  have others : InStep text text' Eq (tablesAfterDerived rules) (tablesAfterDerived rules) := by
    refine .see (looks_checkKeyword _) (fun _ _ abreast => abreast.checkKeyword_eq _) fun _ => ?_
    refine InStep.stream.bind fun stream stream' same => ?_
    have atEnd : stream.atEnd = stream'.atEnd := by rw [atEnd, atEnd, same.1]
    rw [atEnd]
    refine .ite (.pure rfl) (.bind inStep_joins fun _ _ _ => ?_)
    exact (InStep.skipSymbol _).bind fun _ _ found => found ▸ .ite inStep_tableReferences (.pure rfl)
  refine (InStep.refuseKeywords _).bind fun _ _ _ => ?_
  refine (InStep.skipKeyword _).bind fun _ _ found => found ▸ .ite ?_ (.pure same)
  refine .see looks_checkQueryInParentheses (fun _ _ abreast => abreast.query_eq) fun _ => .ite ?_ ?_
  · refine InStep.advance.bind fun _ _ _ => derived.bind fun _ _ below => ?_
    exact (InStep.acceptSymbol _).bind fun _ _ _ => .bind inStep_aliasName fun _ _ _ =>
      others.bind fun _ _ _ => .pure below
  · exact .bind inStep_tableReferences fun _ _ _ => .pure same

/-- Each clause is read in step if the levels below are. -/
lemma inStep_clause {known known' : PartialLevel} (same : known.Matches known') (next : SelectClause) :
    InStep text text' PartialLevel.Matches (clause env level known next)
      (clause env level known' next) := by
  cases next with
  | selectList => exact (inStep_selectList same.shape).bind fun _ _ shape => .pure ⟨shape, same.below⟩
  | tables => exact (inStep_tables inStep same.below).bind fun _ _ below => .pure ⟨same.shape, below⟩
  | condition => exact .bind inStep_condition fun _ _ _ => .pure same
  | grouping => exact (inStep_grouping _ same.shape).bind fun _ _ shape => .pure ⟨shape, same.below⟩
  | groupCondition => exact (InStep.refuseKeywords _).bind fun _ _ _ => .pure same
  | ordering => exact (inStep_ordering same.shape).bind fun _ _ shape => .pure ⟨shape, same.below⟩
  | limit => exact (inStep_limit _ same.shape).bind fun _ _ shape => .pure ⟨shape, same.below⟩
  | trailing => exact (InStep.refuseKeywords _).bind fun _ _ _ => .pure same

end Levels

/-- Levels are read in step. -/
lemma inStep_levelsUpTo (n : Nat) :
    InStep text text' PartialLevel.Matches (levelsUpTo env n) (levelsUpTo env n) := by
  induction n with
  | zero => exact .unexpected _
  | succ n ih =>
    exact (InStep.acceptKeyword _).bind fun _ _ _ =>
      .foldlM (fun _ _ next same => inStep_clause ih same next) ⟨⟨rfl, rfl⟩, .nil⟩

end Grammar

/-! ## Merging and preparing -/

namespace SelectLevel.Matches

variable {level level' level'' : SelectLevel}

/-- Agreement goes both ways. -/
lemma symm (h : level.Matches level') : level'.Matches level :=
  ⟨⟨h.context.tables.symm, h.context.conditions.symm, h.context.parameters.symm⟩,
    ⟨h.shape.containsStar.symm, h.shape.operands.symm⟩⟩

/-- Agreement with the same level is agreement. -/
lemma trans (h : level.Matches level') (h' : level'.Matches level'') : level.Matches level'' :=
  ⟨⟨h'.context.tables.trans h.context.tables, h'.context.conditions.trans h.context.conditions,
      h'.context.parameters.trans h.context.parameters⟩,
    ⟨h.shape.containsStar.trans h'.shape.containsStar, h.shape.operands.trans h'.shape.operands⟩⟩

/-- Levels that agree one by one agree when they are merged. -/
lemma mergeAll {below below' : List SelectLevel} (same : level.Matches level')
    (others : List.Forall₂ SelectLevel.Matches below below') :
    (level.mergeAll below).Matches (level'.mergeAll below') := by
  induction others generalizing level level' with
  | nil => exact same
  | cons inner _ ih =>
    have lower := ih inner
    refine ⟨⟨lower.context.tables, ?_, same.context.parameters⟩, ?_⟩
    · exact congrArg₂ (· ++ ·) same.context.conditions lower.context.conditions
    · rw [SelectLevel.mergeAll, SelectLevel.mergeAll, mergeInto, mergeInto]
      dsimp only
      rw [same.shape.containsStar]
      split
      · exact lower.shape
      · exact same.shape

end SelectLevel.Matches

/-- Preparing a query changes nothing that the route depends on. -/
lemma SelectStatement.matches_prepare {query prepared : SelectStatement} {metadata : TableMetadata}
    (success : query.prepare metadata = .ok prepared) :
    query.toSelectLevel.Matches prepared.toSelectLevel := by
  have keeps := prepare_keeps success
  refine ⟨keeps.context, ?_, congrArg _ keeps.limit.symm⟩
  unfold prepare at success
  dsimp only at success
  split at success
  · cases success
  · rename_i noFailure
    cases success
    obtain ⟨-, -, derived⟩ := SelectLevel.deriveColumns_steps noFailure
    obtain ⟨selected, columns⟩ := query.toSelectLevel.withGroupColumns_eq metadata
    have star : (query.toSelectLevel.deriveColumns metadata).level.shape.containsStar =
        query.shape.containsStar := by
      rw [derived, SelectLevel.shape_addFragments, columns]
    rcases SelectLevel.deriveOrdering_cases (query.toSelectLevel.deriveColumns metadata).level with
      ⟨same, -⟩ | ⟨same, -⟩
    · rw [same, star]
    · rw [same, ← star]
      rfl

/-! ## Queries -/

namespace Grammar

variable {env : Environment} {text text' : String}

/-- Levels are read in step, and agree when they are merged. -/
lemma inStep_levels : InStep text text' (fun query query' =>
    query.merge.toSelectLevel.Matches query'.merge.toSelectLevel) (levels env) (levels env) := by
  refine .see looks_remaining (fun _ _ abreast => abreast.remaining_eq) fun n => ?_
  refine (inStep_levelsUpTo n).bind fun known known' same => InStep.context.bind fun _ _ context => .pure ?_
  exact SelectLevel.Matches.mergeAll ⟨context, same.shape⟩ same.below

/-- Queries with the same readings have the same outcome.

**Proof sketch.** The levels are read in step, and can be prepared in both texts. -/
lemma sameOutcome_select (same : Lexer.readings text = Lexer.readings text') :
    SameOutcome text text' (fun query query' => query.toSelectLevel.Matches query'.toSelectLevel)
      ((select env).run ⟨.ofText text, {}⟩) ((select env).run ⟨.ofText text', {}⟩) := by
  refine (inStep_levels _ _ (Abreast.start same)).bind fun query query' s t read read' agree stay => ?_
  have prepares (statement : SelectStatement)
      (never : ∀ error, statement.prepare env.metadata ≠ .error error) :
      ∃ prepared, statement.prepare env.metadata = .ok prepared := by
    cases outcome : statement.prepare env.metadata with
    | ok prepared => exact ⟨prepared, rfl⟩
    | error error => exact absurd outcome (never error)
  obtain ⟨prepared, success⟩ := prepares _ fun _ => prepare_ne_error (Reaches.start text) read
  obtain ⟨prepared', success'⟩ := prepares _ fun _ => prepare_ne_error (Reaches.start text') read'
  rw [success, success']
  have whole := (SelectStatement.matches_prepare success).symm.trans agree
  exact .ok (whole.trans (SelectStatement.matches_prepare success')) stay

/-- A statement that starts with a query is one. -/
lemma run_statement_of_select {s : ParserState} (isQuery : s.stream.kind = .keyword .SELECT) :
    (statement env).run s =
      (do let query ← select env; finish; return Statement.select query : Parser Statement).run s := by
  rw [statement, (looks_checkKeyword _).run_bind]
  dsimp only
  rw [checkKeyword_iff.2 isQuery]
  rfl

end Grammar

/-! ## Statements -/

namespace Statement

open Grammar

/-- Two queries whose tokens have the same kinds and the same source texts, so that they differ in blanks
and comments only, are either both refused, with errors that are equal but for their places, or both
accepted, with the same tables, conditions, number of parameters and operands of the limit, and with a
star in both or in neither.

**Proof sketch.** The two texts are read in step, level by level and clause by clause: what is kept of the
text between tokens is never looked at, except where columns are derived, and this always succeeds. -/
theorem ofText_respaced (env : Environment) {text text' : String}
    (same : Lexer.readings text = Lexer.readings text')
    (isQuery : (Lexer.tokenize text).head?.map Token.kind = some (.keyword .SELECT)) :
    (∃ error error', ofText env text = .error error ∧ ofText env text' = .error error' ∧
      error.SameCause error') ∨
    ∃ query query', ofText env text = .ok (.select query) ∧ ofText env text' = .ok (.select query') ∧
      query.context.tables = query'.context.tables ∧
      query.context.conditions = query'.context.conditions ∧
      query.context.parameters = query'.context.parameters ∧
      query.shape.containsStar = query'.shape.containsStar ∧
      query.shape.limit.map Limit.operands = query'.shape.limit.map Limit.operands := by
  have first : (TokenStream.ofText text).kind = .keyword .SELECT := by
    rw [Lexer.tokenize] at isQuery
    unfold TokenStream.kind TokenStream.current TokenStream.ofText
    cases left : Lexer.tokens text with
    | nil => simp [left, Lexer.ending] at isQuery
    | cons token rest => simpa [left] using isQuery
  have first' : (TokenStream.ofText text').kind = .keyword .SELECT :=
    (Abreast.start same).kind_eq.symm.trans first
  have ends : InStep text text' Eq finish finish := by
    refine (InStep.skipSymbol _).bind fun _ _ _ => InStep.stream.bind fun stream stream' alike => ?_
    have atEnd : stream.atEnd = stream'.atEnd := by rw [atEnd, atEnd, alike.1]
    rw [atEnd]
    exact .ite (.pure rfl) (.unexpected _)
  have outcome : SameOutcome text text' (fun statement statement' => ∃ query query',
      statement = .select query ∧ statement' = .select query' ∧
        query.toSelectLevel.Matches query'.toSelectLevel)
      ((Grammar.statement env).run ⟨.ofText text, {}⟩) ((Grammar.statement env).run ⟨.ofText text', {}⟩) := by
    rw [run_statement_of_select first, run_statement_of_select first']
    refine (sameOutcome_select same).bind fun query query' s t _ _ agree stay => ?_
    exact (ends.bind fun _ _ _ => .pure ⟨query, query', rfl, rfl, agree⟩) s t stay
  rw [ofText, ofText]
  generalize (Grammar.statement env).run ⟨.ofText text, {}⟩ = result at outcome
  generalize (Grammar.statement env).run ⟨.ofText text', {}⟩ = result' at outcome
  cases outcome with
  | error cause => exact .inl ⟨_, _, rfl, rfl, cause⟩
  | ok agree stay =>
    obtain ⟨query, query', rfl, rfl, agree⟩ := agree
    refine .inr ⟨query, query', rfl, rfl, ?_⟩
    exact ⟨agree.context.tables.symm, agree.context.conditions.symm, agree.context.parameters.symm,
      agree.shape.containsStar, agree.shape.operands⟩

/-- The condition of a derived table is found whatever stands around its tokens, though the select list has
an item with the comment that is written in it. -/
theorem ofText_respaced_comment : ∃ (env : Environment) (text text' : String) (query query' : SelectStatement),
    Lexer.readings text = Lexer.readings text' ∧
      ofText env text = .ok (.select query) ∧ ofText env text' = .ok (.select query') ∧
      query.shape.items = [.plain "a + 1" none false] ∧
      query'.shape.items = [.plain "a/* b */+1" none false] ∧
      query.context.conditions = [.equal ⟨"a", "t"⟩ (.placeholder 0)] ∧
      query'.context.conditions = [.equal ⟨"a", "t"⟩ (.placeholder 0)] ∧
      query.shape.limit.map Limit.operands = query'.shape.limit.map Limit.operands := by
  let env : Environment := { rules := ⟨[{ table := "t", shardingColumns := ["a"] }]⟩ }
  let text := "SELECT a + 1 FROM (SELECT * FROM t WHERE a = ?) u LIMIT 5"
  let text' := "SELECT a/* b */+1 FROM(SELECT*FROM t WHERE a=?)u -- c\nLIMIT 5"
  have same : Lexer.readings text = Lexer.readings text' := by decide +kernel
  have seen : (query? env text).map (fun query => (query.shape.items, query.context.conditions)) =
      some ([.plain "a + 1" none false], [.equal ⟨"a", "t"⟩ (.placeholder 0)]) := by decide +kernel
  have seen' : (query? env text').map (·.shape.items) = some [.plain "a/* b */+1" none false] := by
    decide +kernel
  obtain ⟨query, success, parts⟩ := exists_of_query seen
  obtain ⟨query', success', items'⟩ := exists_of_query seen'
  obtain ⟨items, conditions⟩ := Prod.mk.inj parts
  refine ⟨env, text, text', query, query', same, success, success', items, items', conditions, ?_⟩
  rcases ofText_respaced env same (by decide +kernel) with ⟨_, _, failure, -⟩ |
    ⟨_, _, read, read', -, route, -, -, operands⟩
  · rw [success] at failure
    cases failure
  · rw [success] at read
    rw [success'] at read'
    cases read
    cases read'
    exact ⟨route ▸ conditions, operands⟩

end Statement

end SqlRouting
