import SqlRouting.Proofs.Level
import SqlRouting.Proofs.Passage

/-!
# Trails of queries

What the grammar of queries passes, part by part. An expression passes the owner of a reference with
the dot and the column, and marks the owner if there is a rule for it; a source passes the name of a
table and marks it; everything in a group is passed at once, and so is a star with its owner. Only these
names and limits record edits, so a relation between states that their steps keep is kept by every
clause; to follow by a trail is one.

## Main definitions

* `SqlRouting.Parser.Referring` — a relation between states that also references through an owner keep.
* `SqlRouting.Parser.Recording` — a relation between states that all steps with edits keep.
* `SqlRouting.KeepsAdditions` — nothing is added between two states.

## Main results

* `SqlRouting.Grammar.leads_expression` — an expression leads to related states.
* `SqlRouting.Grammar.leads_tableReferences` — a list of sources leads to related states.
* `SqlRouting.Grammar.leads_selectList` — a select list leads to related states.
* `SqlRouting.Grammar.clause_leads`, `tables_leads` — a clause of a level leads to related states, but
  for the derived table in it.
-/

set_option autoImplicit false

namespace SqlRouting

/-- A relation between states that also references through an owner keep, where `rules` are given. -/
class Parser.Referring (rules : ShardingRule) (R : ParserState → ParserState → Prop) : Prop where
  /-- A step past an owner, a dot and a column keeps it, where the owner is marked if there is a rule. -/
  reference {s s' : ParserState} {owner : String} {result : Unit}
    (isOwner : s.stream.kind = .identifier owner) (isDot : s.advance.stream.kind = .symbol .dot)
    (isName : Grammar.namesColumn s.advance.advance.stream.kind = true)
    (recorded : (Grammar.recordOwner rules owner ⟨s.stream.offset, s.advance.stream.offset⟩).run
      s.advance.advance.advance = .ok (result, s')) : R s s'

/-- A relation between states that all steps with edits keep, where `rules` are given: references through
an owner, stars with an owner, named tables and limits. -/
class Parser.Recording (rules : ShardingRule) (R : ParserState → ParserState → Prop) : Prop
    extends Parser.Referring rules R where
  /-- A step past an owner, a dot and a star keeps it. -/
  star {s : ParserState} {owner : String} (isOwner : s.stream.kind = .identifier owner)
    (isDot : s.advance.stream.kind = .symbol .dot)
    (isStar : s.advance.advance.stream.kind = .symbol .star) : R s s.advance.advance.advance
  /-- A named table keeps it. -/
  namedTable : Leads R Grammar.namedTable
  /-- A limit keeps it. -/
  limit (style : LimitStyle) (shape : ResultShape) : Leads R (Grammar.limit style shape)

namespace Grammar

open SqlRouting.Parser TokenStream

variable {rules : ShardingRule} {s s' : ParserState} {node node' : ExpressionNode} {start : Nat}
variable {R : ParserState → ParserState → Prop} [passing : Passing R]

section Referring

variable [referring : Referring rules R]

/-! ## The parts of an expression -/

/-- An operator can be passed by itself. -/
lemma passable_of_isComposite {kind : TokenKind} (isComposite : kind.isComposite = true) :
    Passable kind := by
  refine ⟨?_, ?_⟩
  · cases kind <;> first | rfl | cases isComposite
  · rintro rfl
    cases isComposite

section Parts

variable {operand : Parser Expression}

/-- Operators with their operands lead to related states. -/
lemma leads_compositeWith (leads : Leads R operand) :
    Leads R (compositeWith operand) := by
  have upTo (n : Nat) : Leads R (compositeUpTo operand n) := by
    induction n with
    | zero => exact .pure _
    | succ n ih =>
      refine .look looks_checkComposite fun isComposite => .ite (fun isTrue => ?_) fun _ => .pure _
      refine .bind (leads_advance fun s seen => ?_) fun _ => leads.bind fun _ => ih
      exact passable_of_isComposite (seen.2.trans isTrue)
  exact .look looks_remaining fun n => (upTo n).leadsFrom

/-- An operator of one operand leads to related states. -/
lemma leads_unaryWith (leads : Leads R operand) (start : Nat) :
    LeadsFrom R (fun s => Passable s.stream.kind) (unaryWith operand start) := by
  refine .bind (leads_advance fun s seen => seen) fun _ => leads.bind fun _ => ?_
  exact .look (looks_textFrom start) fun _ => .pure _

/-- A number after its sign, or the operand of the sign, leads to related states. -/
lemma leads_signedWith (leads : Leads R operand) (start : Nat) (sign : String) :
    LeadsFrom R (fun s => Passable s.stream.kind) (signedWith operand start sign) := by
  intro s node s' passable success
  rw [signedWith, looks_peek.run_bind] at success
  split at success
  · rename_i literal next
    have second : s.advance.stream.kind = .number literal := kind_advance.trans next
    rw [run_advance_bind, run_advance_bind, run_pure_ok] at success
    obtain ⟨-, rfl⟩ := success
    exact Steady.trans (Advancing.token rfl passable.1 passable.2) (Advancing.token second rfl (by simp))
  · exact leads_unaryWith leads start s node s' passable success

/-- What starts with a keyword leads to related states. -/
lemma leads_keywordWith (leads : Leads R operand) (start : Nat) (keyword : Keyword) :
    LeadsFrom R (fun s => s.stream.kind = .keyword keyword)
      (keywordWith operand start keyword) := by
  have passable (s : ParserState) (same : s.stream.kind = .keyword keyword) :
      Passable s.stream.kind := by
    rw [same]
    exact ⟨rfl, by simp⟩
  refine .ite (fun _ => ?_) fun _ => .ite (fun isCase => ?_) fun _ => ?_
  · exact fun s node s' same => leads_unaryWith leads start s node s' (passable s same)
  · obtain rfl := beq_iff_eq.1 isCase
    refine .bind (leads_skipConditional fun s same => same) fun _ => ?_
    exact .look (looks_textFrom start) fun _ => .pure _
  · refine .look looks_peek fun next => .ite (fun _ => ?_) fun _ => leads_unexpected _
    refine .bind (leads_advance fun s seen => passable s seen.1) fun _ => ?_
    exact .look (looks_textFrom start) fun _ => .pure _

/-- What starts with a symbol leads to related states. -/
lemma leads_symbolWith (leads : Leads R operand) (start : Nat) (symbol : Symbol) :
    LeadsFrom R (fun s => s.stream.kind = .symbol symbol)
      (symbolWith operand start symbol) := by
  intro s node s' same success
  have passable (noDot : symbol ≠ .dot) : Passable s.stream.kind := by
    rw [same]
    exact ⟨rfl, by simpa using noDot⟩
  unfold symbolWith at success
  split at success
  · refine LeadsFrom.bind (leads_placeholder fun s h => h) (fun _ => .pure _) s node s' same success
  · exact leads_signedWith leads start "-" s node s' (passable (by simp)) success
  · exact leads_signedWith leads start "" s node s' (passable (by simp)) success
  · exact leads_unaryWith leads start s node s' (passable (by simp)) success
  · exact leads_unaryWith leads start s node s' (passable (by simp)) success
  · have leads : Leads R
        (do skipParentheses; return ExpressionNode.other (← textFrom start)) :=
      .bind leads_skipParentheses fun _ => .look (looks_textFrom start) fun _ => .pure _
    exact leads.related success
  · exact absurd success run_unexpected_ne

/-- The part of an expression before any operator or arguments leads to related states. -/
lemma leads_primaryWith (leads : Leads R operand) :
    Leads R (primaryWith operand) := by
  refine .look looks_offset fun start => ?_
  intro s node s' _ success
  rw [looks_kind.run_bind] at success
  split at success
  · rename_i value same
    rw [run_advance_bind, run_pure_ok] at success
    obtain ⟨-, rfl⟩ := success
    exact Advancing.token same rfl (by simp)
  · rename_i literal same
    rw [run_advance_bind, run_pure_ok] at success
    obtain ⟨-, rfl⟩ := success
    exact Advancing.token same rfl (by simp)
  · rename_i name same
    rw [run_advance_bind, run_pure_ok] at success
    obtain ⟨-, rfl⟩ := success
    exact Advancing.token same rfl (by simp)
  · rename_i name same
    rw [run_advance_bind, (looks_textFrom _).run_bind, run_pure_ok] at success
    obtain ⟨-, rfl⟩ := success
    exact Advancing.token same rfl (by simp)
  · rename_i keyword same
    exact leads_keywordWith leads start keyword s node s' same success
  · rename_i symbol same
    exact leads_symbolWith leads start symbol s node s' same success
  · exact absurd success run_unexpected_ne

/-- Only an identifier is a name alone. -/
lemma primaryWith_bare (reads : Reads operand) {owner : String}
    (success : (primaryWith operand).run s = .ok (.bare owner, s')) :
    s.stream.kind = .identifier owner ∧ s' = s.advance := by
  obtain ⟨tokens, -, run, written⟩ := (primaryWith_opens reads success).resolve_right (by simp)
  have lone := written.lone (by simp)
  cases lone with
  | bare _ span =>
    have same := kind_of_ahead_cons run.ahead_eq
    rw [primaryWith, looks_offset.run_bind, looks_kind.run_bind, same, run_advance_bind,
      run_pure_ok] at success
    exact ⟨same, success.2.symm⟩

/-- The rest of a reference after its owner and the dot leads to related states: what follows the column
are operators with their operands. -/
lemma related_of_reference (leads : Leads R operand) {owner : String}
    (isOwner : s.stream.kind = .identifier owner) (isDot : s.advance.stream.kind = .symbol .dot)
    (success : (qualifiedWith operand rules owner ⟨s.stream.offset, s.advance.stream.offset⟩).run
      s.advance.advance = .ok (node, s')) : R s s' := by
  obtain ⟨name, s₁, named, success⟩ := run_bind_ok.1 success
  obtain ⟨rfl, isName, -⟩ := run_columnName_ok named
  rw [run_advance_bind] at success
  obtain ⟨_, s₂, recorded, success⟩ := run_bind_ok.1 success
  refine passing.trans (referring.reference isOwner isDot isName recorded) ?_
  have rest : Leads R (do
      if (← checkComposite) || name == "*" then
        compositeWith operand
        return .other (← textFrom s.stream.offset)
      else return .qualified owner name : Parser ExpressionNode) := by
    refine .look looks_checkComposite fun _ => .ite (fun _ => ?_) fun _ => .pure _
    exact (leads_compositeWith leads).leadsFrom.bind fun _ => .look (looks_textFrom _) fun _ => .pure _
  exact rest.related success

/-- The list of arguments after the part of an expression that may be called leads to related states. -/
lemma leads_argumentsAfter (start : Nat) (node : ExpressionNode) :
    Leads R (argumentsAfter start node) := by
  refine .look (looks_checkSymbol _) fun _ => .ite (fun _ => ?_) fun _ => .pure _
  exact .bind leads_skipParentheses fun _ => .look (looks_textFrom start) fun _ => .pure _

/-- The operators after an expression lead to related states. -/
lemma leads_operatorsWith (leads : Leads R operand) (start : Nat)
    (node : ExpressionNode) : Leads R (operatorsWith operand start node) := by
  refine .look looks_checkComposite fun _ => .ite (fun _ => ?_) fun _ => .pure _
  exact (leads_compositeWith leads).leadsFrom.bind fun _ => .look (looks_textFrom start) fun _ => .pure _

/-- An expression leads to related states, if its operands are expressions that do. -/
lemma leads_expressionWith (reads : Reads operand) (leads : Leads R operand) :
    Leads R (expressionWith operand rules) := by
  intro s e s' _ success
  rw [expressionWith, looks_offset.run_bind] at success
  obtain ⟨node, s₁, primary, success⟩ := run_bind_ok.1 success
  obtain ⟨node', s₂, reference, success⟩ := run_bind_ok.1 success
  have rest : Leads R (do
      let node ← argumentsAfter s.stream.offset node'
      let node ← operatorsWith operand s.stream.offset node
      return (⟨node, ⟨s.stream.offset, ← previousEnd⟩⟩ : Expression)) := by
    refine .bind (leads_argumentsAfter _ _) fun _ => .bind (leads_operatorsWith leads _ _) fun _ => ?_
    exact .look looks_previousEnd fun _ => .pure _
  refine Steady.trans ?_ (rest.related success)
  have alone := (leads_primaryWith leads).related primary
  unfold referenceWith at reference
  split at reference
  · rename_i owner
    rw [(looks_checkSymbol _).run_bind] at reference
    split at reference
    · rename_i dotted
      obtain ⟨isOwner, rfl⟩ := primaryWith_bare reads primary
      exact related_of_reference leads isOwner (check_symbol.1 dotted) reference
    · obtain ⟨-, rfl⟩ := run_pure_ok.1 reference
      exact alone
  · obtain ⟨-, rfl⟩ := run_pure_ok.1 reference
    exact alone

end Parts

/-! ## Expressions -/

/-- An expression leads to related states. -/
lemma leads_expression : Leads R (expression rules) := by
  have upTo (n : Nat) : Leads R (expressionUpTo rules n) := by
    induction n with
    | zero => exact leads_unexpected _
    | succ n ih =>
      exact leads_expressionWith (fun _ _ _ read => (expressionUpTo_writes read).exists_operand) ih
  exact .look looks_remaining fun n => (upTo n).leadsFrom

/-- Operators after an expression lead to related states. -/
lemma leads_composite : Leads R (composite rules) :=
  leads_compositeWith leads_expression

/-- An alias is passed token by token. -/
lemma leads_aliasName {R : ParserState → ParserState → Prop} [Advancing R] : Leads R aliasName := by
  refine .bind (leads_skipKeyword _) fun _ => .ite (fun _ => ?_) fun _ => ?_
  · refine .look looks_current fun token => ?_
    intro s found s' seen success
    have same : s.stream.kind = token.kind := congrArg Token.kind seen.2
    split at success
    · rename_i name isName
      rw [run_advance_bind, run_pure_ok] at success
      obtain ⟨-, rfl⟩ := success
      exact Advancing.token (same.trans isName) rfl (by simp)
    · rename_i value isText
      rw [run_advance_bind, run_pure_ok] at success
      obtain ⟨-, rfl⟩ := success
      exact Advancing.token (same.trans isText) rfl (by simp)
    · rename_i keyword isKeyword
      rw [run_advance_bind, (looks_textOf _).run_bind, run_pure_ok] at success
      obtain ⟨-, rfl⟩ := success
      exact Advancing.token (same.trans isKeyword) rfl (by simp)
    · exact absurd success run_unexpected_ne
  · intro s found s' _ success
    rw [looks_kind.run_bind] at success
    split at success
    · rename_i name isName
      rw [run_advance_bind, run_pure_ok] at success
      obtain ⟨-, rfl⟩ := success
      exact Advancing.token isName rfl (by simp)
    · obtain ⟨-, rfl⟩ := run_pure_ok.1 success
      exact Steady.refl _

/-! ## Predicates -/

/-- The values after `IN` lead to related states. -/
lemma leads_valueList : Leads R (valueList rules) := by
  refine .look looks_peek fun _ => .ite (fun _ => ?_) fun _ => ?_
  · exact .bind leads_skipParentheses fun _ => .pure _
  · refine .bind (leads_acceptSymbol (by simp)) fun _ => .bind (Leads.list leads_expression) fun _ => ?_
    exact .bind (leads_acceptSymbol (by simp)) fun _ => .pure _

/-- The two values after `BETWEEN` lead to related states. -/
lemma leads_range : Leads R (range rules) :=
  .bind leads_expression fun _ => .bind (leads_acceptKeyword _) fun _ =>
    .bind leads_expression fun _ => .pure _

/-- The rest of a predicate after `NOT` leads to related states. -/
lemma leads_negated : Leads R (negated rules) := by
  intro s result s' _ success
  rw [negated, looks_kind.run_bind] at success
  split at success
  · exact related_of_advance ‹_› (by rfl) (by simp) success fun _ => leads_skipParentheses
  · exact related_of_advance ‹_› (by rfl) (by simp) success fun _ => .bind leads_range fun _ => .pure _
  · exact related_of_advance ‹_› (by rfl) (by simp) success fun _ => .bind leads_expression fun _ => .pure _
  · exact absurd success run_unexpected_ne

/-- The rest of a predicate after `IS` leads to related states. -/
lemma leads_truthTest : Leads R truthTest :=
  .bind (leads_skipKeyword _) fun _ => .bind (leads_skipKeyword _) fun _ =>
    .ite (fun _ => .pure _) fun _ => leads_unexpected _

/-- The rest of a predicate after its left side leads to related states. -/
lemma leads_comparison (column : Option Column) : Leads R (comparison rules column) := by
  intro s result s' _ success
  rw [comparison, looks_kind.run_bind] at success
  split at success
  · rename_i symbol same
    split at success
    · rename_i isEq
      refine related_of_advance same rfl ?_ success fun _ => .bind leads_expression fun _ => .pure _
      rw [beq_iff_eq.1 isEq]
      simp
    · split at success
      · rename_i isComparison
        refine related_of_advance same rfl ?_ success fun _ => .bind leads_expression fun _ => .pure _
        rintro ⟨⟩
        cases isComparison
      · obtain ⟨-, rfl⟩ := run_pure_ok.1 success
        exact Steady.refl _
  · refine related_of_advance ‹_› (by rfl) (by simp) success fun _ => .bind leads_valueList fun values => ?_
    cases values <;> exact .pure _
  · exact related_of_advance ‹_› (by rfl) (by simp) success fun _ => .bind leads_range fun _ => .pure _
  · exact related_of_advance ‹_› (by rfl) (by simp) success fun _ => .bind leads_negated fun _ => .pure _
  · exact related_of_advance ‹_› (by rfl) (by simp) success fun _ => .bind leads_expression fun _ => .pure _
  · exact related_of_advance ‹_› (by rfl) (by simp) success fun _ => .bind leads_truthTest fun _ => .pure _
  · obtain ⟨-, rfl⟩ := run_pure_ok.1 success
    exact Steady.refl _

/-- A predicate leads to related states. -/
lemma leads_predicate : Leads R (predicate rules) :=
  .bind leads_expression fun _ => .look looks_context fun _ => (leads_comparison _).leadsFrom

/-- A list of predicates leads to related states. -/
lemma leads_predicates : Leads R (predicates rules) := by
  have upTo (n : Nat) : Leads R (predicatesUpTo rules n) := by
    induction n with
    | zero => exact .bind leads_predicate fun _ => .pure _
    | succ n ih =>
      refine .bind leads_predicate fun _ => .bind (leads_skipKeyword _) fun _ => .ite (fun _ => ?_)
        fun _ => .bind (leads_skipKeyword _) fun _ => .ite (fun _ => ?_) fun _ => .pure _
      · exact ih.bind fun _ => .pure _
      · exact ih.bind fun _ => .pure _
  exact .look looks_remaining fun n => (upTo n).leadsFrom

/-- The condition of a query leads to related states. -/
lemma leads_condition : Leads R (condition rules) :=
  .bind (leads_skipKeyword _) fun _ => .ite
    (fun _ => .bind leads_predicates fun _ => leads_modifyContext fun _ => rfl) fun _ => .pure _

end Referring

variable [recording : Recording rules R]

/-! ## Sources -/

/-- One source leads to related states, if a named table does. -/
lemma leads_tableFactor (named : Leads R namedTable) : Leads R tableFactor := by
  refine .look looks_checkQueryInParentheses fun _ => .ite (fun _ => ?_) fun _ => ?_
  · exact .look looks_current fun _ => leads_unsupported _ _
  · refine .look (looks_checkSymbol _) fun _ => .ite (fun _ => ?_) fun _ => named.leadsFrom
    exact .bind leads_skipParentheses fun _ => .bind leads_aliasName fun _ => .pure _

/-- The words of a join lead to related states. -/
lemma leads_joinWords : Leads R joinWords := by
  refine .bind (leads_skipKeyword _) fun _ => .ite (fun _ => .pure _) fun _ => ?_
  refine .bind (leads_skipKeyword _) fun _ => .ite (fun _ => ?_) fun _ => ?_
  · exact .bind (leads_acceptKeyword _) fun _ => .pure _
  · refine .bind (leads_skipKeyword _) fun _ => .ite (fun _ => ?_) fun _ => .pure _
    exact .bind (leads_skipKeyword _) fun _ => .bind (leads_acceptKeyword _) fun _ => .pure _

/-- The condition of a join leads to related states. -/
lemma leads_joinCondition : Leads R (joinCondition rules) := by
  refine .bind (leads_skipKeyword _) fun _ => .ite (fun _ => ?_) fun _ => ?_
  · exact .bind leads_predicates fun _ => .pure _
  · exact .bind (leads_skipKeyword _) fun _ => .ite (fun _ => leads_skipParentheses) fun _ => .pure _

/-- Joined sources lead to related states. -/
lemma leads_joins : Leads R (joins rules) := by
  have upTo (n : Nat) : Leads R (joinsUpTo rules n) := by
    induction n with
    | zero => exact .pure _
    | succ n ih =>
      refine .bind leads_joinWords fun _ => .ite (fun _ => ?_) fun _ => .pure _
      exact .bind (leads_tableFactor recording.namedTable) fun _ => .bind leads_joinCondition fun _ => ih
  exact .look looks_remaining fun n => (upTo n).leadsFrom

/-- A list of sources leads to related states. -/
lemma leads_tableReferences : Leads R (tableReferences rules) := by
  have source : Leads R (do tableFactor; joins rules) :=
    .bind (leads_tableFactor recording.namedTable) fun _ => leads_joins
  exact .bind source.list fun _ => .pure _

/-- The sources after a derived table lead to related states. -/
lemma leads_tablesAfterDerived : Leads R (tablesAfterDerived rules) := by
  refine .look (looks_checkKeyword _) fun _ => .look looks_stream fun _ => .ite (fun _ => .pure _)
    fun _ => ?_
  refine .bind (Leads.leadsFrom leads_joins) fun _ => .bind (leads_skipSymbol (by simp)) fun _ => ?_
  exact .ite (fun _ => leads_tableReferences) fun _ => .pure _

/-! ## Select lists -/

/-- An aggregate call leads to related states: its arguments are passed as a group. -/
lemma leads_aggregateItem (function : AggregateFunction) (keyword : Keyword) :
    LeadsFrom R (fun s => s.stream.kind = .keyword keyword)
      (aggregateItem rules function) := by
  refine .look looks_offset fun start => .bind (leads_advance fun s seen => ?_) fun _ => ?_
  · rw [seen.1]
    exact ⟨rfl, by simp⟩
  · refine .look looks_offset fun innerStart => .bind leads_skipParentheses fun _ => ?_
    refine .look (looks_textFrom innerStart) fun inner => ?_
    refine .look looks_checkComposite fun isComposite => .ite (fun _ => ?_) fun _ => ?_
    · refine .bind (Leads.leadsFrom leads_composite) fun _ => .look (looks_textFrom start) fun text => ?_
      exact .bind (Leads.leadsFrom leads_aliasName) fun _ => .pure _
    · exact .bind (Leads.leadsFrom leads_aliasName) fun _ => .pure _

/-- An expression with its alias leads to related states. -/
lemma leads_plainItem : Leads R (plainItem rules) := by
  refine .bind leads_expression fun expression => .look (looks_textOf _) fun text => ?_
  exact .bind (Leads.leadsFrom leads_aliasName) fun _ => .pure _

/-- An item of a select list leads to related states. -/
lemma leads_selectItem : Leads R (selectItem rules) := by
  refine .bind (leads_skipSymbol (by simp)) fun star => .ite (fun _ => .pure _) fun _ => ?_
  intro s item s' _ success
  obtain ⟨owner, s₁, starred, rest⟩ := run_bind_ok.1 success
  obtain ⟨rfl, isStar⟩ := run_starOwner_ok starred
  split at rest
  · rename_i owner
    obtain ⟨isOwner, isDot, isStar⟩ := isStar owner rfl
    rw [run_advance_bind, run_advance_bind, run_advance_bind, run_pure_ok] at rest
    obtain ⟨-, rfl⟩ := rest
    exact recording.star isOwner isDot isStar
  · obtain ⟨found, s₂, called, last⟩ := run_bind_ok.1 rest
    obtain ⟨rfl, isKeyword⟩ := run_calledAggregate_ok called
    split at last
    · rename_i function
      obtain ⟨keyword, same⟩ := isKeyword function rfl
      exact leads_aggregateItem function keyword _ item s' same last
    · exact Leads.related leads_plainItem last

/-- A select list leads to related states. -/
lemma leads_selectList (shape : ResultShape) : Leads R (selectList rules shape) := by
  refine .bind (leads_skipKeyword _) fun distinct => .ite (fun _ => .bind (leads_skipKeyword _) fun _ => ?_)
    fun _ => ?_
  all_goals exact .bind (Leads.list leads_selectItem) fun _ => .look looks_offset fun _ => .pure _

/-! ## Orderings, groupings and limits -/

/-- A direction leads to related states. -/
lemma leads_direction : Leads R direction :=
  .bind (leads_skipKeyword _) fun _ => .ite (fun _ => .pure _)
    fun _ => .bind (leads_skipKeyword _) fun _ => .pure _

/-- An item to order or group by leads to related states. -/
lemma leads_orderItem (shape : ResultShape) : Leads R (orderItem rules shape) :=
  .bind leads_expression fun _ => .bind leads_direction fun _ => leads_lift _

/-- An ordering leads to related states. -/
lemma leads_ordering (shape : ResultShape) : Leads R (ordering rules shape) :=
  .bind (leads_skipKeyword _) fun _ => .ite (fun _ => .bind (leads_acceptKeyword _) fun _ =>
    .bind (leads_orderItem shape).list fun _ => .pure _) fun _ => .pure _

/-- A grouping leads to related states. -/
lemma leads_grouping (dialect : Dialect) (shape : ResultShape) :
    Leads R (grouping dialect rules shape) := by
  refine .bind (leads_skipKeyword _) fun _ => .ite (fun _ => ?_) fun _ => .pure _
  refine .bind (leads_acceptKeyword _) fun _ => .bind (leads_orderItem shape).list fun _ => ?_
  exact .bind (leads_skipAllKeywords _) fun _ => .look looks_previousEnd fun _ => .pure _

/-- An operand of a limit leads to related states. -/
lemma leads_limitValue : Leads R limitValue := by
  intro s found s' _ success
  rw [limitValue, looks_current.run_bind] at success
  split at success
  · rename_i literal same
    have isNumber : s.stream.kind = .number literal := same
    refine related_of_advance isNumber rfl (by simp) success fun _ => ?_
    intro s found s' _ success
    split at success
    · obtain ⟨-, rfl⟩ := run_pure_ok.1 success
      exact Steady.refl _
    · cases success
  · rename_i same
    have leads : LeadsFrom R (fun s => s.stream.kind = .symbol .question) placeholder :=
      leads_placeholder fun _ h => h
    exact leads.bind (fun _ => .pure _) s found s' same success
  · exact absurd success run_unexpected_ne

/-- The operands of a limit lead to related states. -/
lemma leads_limitOperands (style : LimitStyle) : Leads R (limitOperands style) := by
  refine .bind leads_limitValue fun first => .look (looks_checkSymbol _) fun isComma =>
    .ite (fun separated => ?_) fun _ => ?_
  · refine .bind (leads_advance fun s seen => ?_) fun _ => .bind leads_limitValue fun _ => .pure _
    rw [Bool.and_eq_true] at separated
    rw [check_symbol.1 (seen.2.trans separated.2)]
    exact ⟨rfl, by simp⟩
  · refine .bind (leads_skipKeyword _) fun _ => .ite (fun _ => ?_) fun _ => .pure _
    exact .bind leads_limitValue fun _ => .pure _

/-! ## Clauses of levels -/

variable {env : Environment}

variable (R)

omit recording in
/-- A clause other than the tables leads to related states, and leaves the levels below. -/
lemma clause_leads [clauses : Recording env.rules R] {level : Parser PartialLevel}
    {known known' : PartialLevel} {next : SelectClause} (noTables : next ≠ .tables)
    (success : (clause env level known next).run s = .ok (known', s')) :
    R s s' ∧ known'.below = known.below := by
  cases next with
  | tables => exact absurd rfl noTables
  | selectList =>
    obtain ⟨shape, s₁, read, done⟩ := run_bind_ok.1 success
    obtain ⟨rfl, rfl⟩ := run_pure_ok.1 done
    exact ⟨(leads_selectList _).related read, rfl⟩
  | condition =>
    obtain ⟨shape, s₁, read, done⟩ := run_bind_ok.1 success
    obtain ⟨rfl, rfl⟩ := run_pure_ok.1 done
    exact ⟨Leads.related leads_condition read, rfl⟩
  | grouping =>
    obtain ⟨shape, s₁, read, done⟩ := run_bind_ok.1 success
    obtain ⟨rfl, rfl⟩ := run_pure_ok.1 done
    exact ⟨(leads_grouping _ _).related read, rfl⟩
  | ordering =>
    obtain ⟨shape, s₁, read, done⟩ := run_bind_ok.1 success
    obtain ⟨rfl, rfl⟩ := run_pure_ok.1 done
    exact ⟨(leads_ordering _).related read, rfl⟩
  | limit =>
    obtain ⟨shape, s₁, read, done⟩ := run_bind_ok.1 success
    obtain ⟨rfl, rfl⟩ := run_pure_ok.1 done
    exact ⟨(clauses.limit _ _).related read, rfl⟩
  | groupCondition | trailing =>
    obtain ⟨_, s₁, read, done⟩ := run_bind_ok.1 success
    obtain ⟨rfl, rfl⟩ := run_pure_ok.1 done
    exact ⟨(leads_refuseKeywords _).related read, rfl⟩

/-- The tables of a level lead to related states, or else they start with a derived table, whose levels are
read in a context of their own, and lead on from there. -/
lemma tables_leads {level : Parser PartialLevel} {below below' : List SelectLevel}
    (success : (tables rules level below).run s = .ok (below', s')) :
    (R s s' ∧ below' = below) ∨
      ∃ read t, s.stream.kind = .keyword .FROM ∧ s.advance.stream.kind = .symbol .leftParen ∧
        level.run (derivedStart s) = .ok (read, t) ∧ t.stream.kind = .symbol .rightParen ∧
        R (derivedStop s.context t) s' ∧
        below' = ⟨t.context, read.shape⟩ :: read.below := by
  obtain ⟨_, s₁, refused, rest⟩ := run_bind_ok.1 success
  obtain rfl := run_refuseKeywords_ok refused
  rw [run_skipKeyword_bind] at rest
  split at rest
  · rename_i present
    obtain ⟨keyword, isFrom, word⟩ := checkAnyKeyword_iff.1 present
    obtain rfl := List.mem_singleton.1 isFrom
    rw [if_pos rfl, looks_checkQueryInParentheses.run_bind] at rest
    split at rest
    · rename_i isQuery
      rw [Bool.and_eq_true, check_symbol] at isQuery
      rw [run_advance_bind] at rest
      obtain ⟨lower, s₂, derived, rest⟩ := run_bind_ok.1 rest
      obtain ⟨_, s₃, accepted, rest⟩ := run_bind_ok.1 rest
      obtain ⟨closing, -, rfl⟩ := run_acceptSymbol_ok.1 accepted
      rw [derivedTable, looks_context.run_bind, run_modifyContext_bind] at derived
      obtain ⟨read, t, inner, derived⟩ := run_bind_ok.1 derived
      rw [looks_context.run_bind, run_modifyContext_bind, run_pure_ok] at derived
      obtain ⟨rfl, rfl⟩ := derived
      obtain ⟨_, s₄, aliased, rest⟩ := run_bind_ok.1 rest
      obtain ⟨_, s₅, after, rest⟩ := run_bind_ok.1 rest
      obtain ⟨rfl, rfl⟩ := run_pure_ok.1 rest
      refine .inr ⟨read, t, word, isQuery.1, inner, closing, ?_, rfl⟩
      have past : R _ s₄ := Leads.related leads_aliasName aliased
      exact Steady.trans past (Leads.related leads_tablesAfterDerived after)
    · obtain ⟨_, s₂, references, done⟩ := run_bind_ok.1 rest
      obtain ⟨rfl, rfl⟩ := run_pure_ok.1 done
      have behind : R _ s₂ := Leads.related leads_tableReferences references
      exact .inl ⟨Steady.trans (Advancing.token word rfl (by simp)) behind, rfl⟩
  · rw [if_neg (by simp)] at rest
    obtain ⟨rfl, rfl⟩ := run_pure_ok.1 rest
    exact .inl ⟨Steady.refl _, rfl⟩

/-! ## Trails are followed -/

/-- An owner is marked exactly if there is a rule for it. -/
lemma run_recordOwner_ok {owner : String} {span : Span} {result : Unit}
    (success : (recordOwner rules owner span).run s = .ok (result, s')) :
    s'.stream = s.stream ∧
      Edit.atNames s'.context.edits = Edit.atNames s.context.edits ++ (if (rules.find? owner).isSome
        then [.table span owner (span.text s.stream.source)] else []) ∧
      Edit.additions s'.context.edits = Edit.additions s.context.edits := by
  unfold recordOwner at success
  split at success
  · rename_i isRuled
    cases success
    rw [if_pos isRuled]
    exact ⟨rfl, Edit.atNames_append _ _, (Edit.additions_append _ _).trans (List.append_nil _)⟩
  · rename_i noRule
    obtain ⟨-, rfl⟩ := run_pure_ok.1 success
    rw [if_neg noRule, List.append_nil]
    exact ⟨rfl, rfl, rfl⟩

/-- An owner, a dot and a column are passed together, and the owner is marked if there is a rule for it. -/
lemma follows_reference {owner : String} {result : Unit}
    (isOwner : s.stream.kind = .identifier owner) (isDot : s.advance.stream.kind = .symbol .dot)
    (isName : namesColumn s.advance.advance.stream.kind = true)
    (recorded : (recordOwner rules owner ⟨s.stream.offset, s.advance.stream.offset⟩).run
      s.advance.advance.advance = .ok (result, s')) : Follows rules s s' := by
  obtain ⟨moved, names, additions⟩ := run_recordOwner_ok recorded
  have first := ahead_of_kind isOwner (by simp)
  have second := ahead_of_kind isDot (by simp)
  have third := ahead_of_kind (rfl : s.advance.advance.stream.kind = _) (ne_of_namesColumn isName).2
  refine ⟨[.reference ⟨.identifier owner, s.stream.current.span⟩
      ⟨.symbol .dot, s.advance.stream.current.span⟩ s.advance.advance.stream.current], ?_, ?_, moved, ?_,
    additions⟩
  · exact List.forall_mem_singleton.2 ⟨rfl, rfl, isName⟩
  · rw [first]
    show _ :: s.advance.stream.ahead = _
    rw [second]
    show _ :: _ :: s.advance.advance.stream.ahead = _
    rw [third, moved]
    rfl
  · rw [names, List.flatMap_singleton]
    rfl

/-- An owner, a dot and a star are passed together. -/
lemma follows_star {owner : String} (isOwner : s.stream.kind = .identifier owner)
    (isDot : s.advance.stream.kind = .symbol .dot)
    (isStar : s.advance.advance.stream.kind = .symbol .star) :
    Follows rules s s.advance.advance.advance := by
  have first := ahead_of_kind isOwner (by simp)
  have second := ahead_of_kind isDot (by simp)
  have third := ahead_of_kind isStar (by simp)
  refine ⟨[.star ⟨.identifier owner, s.stream.current.span⟩
    ⟨.symbol .dot, s.advance.stream.current.span⟩
    ⟨.symbol .star, s.advance.advance.stream.current.span⟩], ?_, ?_, rfl, ?_, rfl⟩
  · exact List.forall_mem_singleton.2 ⟨rfl, rfl, rfl⟩
  · rw [first]
    show _ :: s.advance.stream.ahead = _
    rw [second]
    show _ :: _ :: s.advance.advance.stream.ahead = _
    rw [third]
    rfl
  · simp [Passage.edits, ParserState.advance]

/-- The name of a table is passed with its schema, and the place where it ends is given. -/
lemma tableName_passes (rules : ShardingRule) {name : String} {stop : Nat}
    (success : tableName.run s = .ok ((name, stop), s')) :
    ∃ (passage : Passage) (last : Token), passage.Readable ∧
      s.stream.ahead = passage.tokens ++ s'.stream.ahead ∧
      s'.stream = s.stream.advanceBy passage.tokens.length ∧ s'.context = s.context ∧
      last.name? = some name ∧ s'.stream.previousEnd = stop ∧
      passage.edits rules s.stream.source =
        [Passage.nameEdit s.stream.source ⟨s.stream.offset, stop⟩ last] := by
  obtain ⟨⟨first, span⟩, s₁, read, success⟩ := run_bind_ok.1 success
  obtain ⟨isFirst, rfl, rfl⟩ := run_acceptIdentifier_ok.1 read
  have ahead := ahead_of_kind isFirst (by simp)
  rw [run_skipSymbol_bind] at success
  split at success
  · rename_i isDot
    obtain ⟨⟨second, span⟩, s₁, read, success⟩ := run_bind_ok.1 success
    obtain ⟨isSecond, rfl, rfl⟩ := run_acceptIdentifier_ok.1 read
    obtain ⟨same, rfl⟩ := run_pure_ok.1 success
    obtain ⟨rfl, rfl⟩ := Prod.mk.inj same
    have dot := ahead_of_kind isDot (by simp)
    have last := ahead_of_kind isSecond (by simp)
    refine ⟨.schemaSource ⟨.identifier first, s.stream.current.span⟩
      ⟨.symbol .dot, s.advance.stream.current.span⟩
      ⟨.identifier second, s.advance.advance.stream.current.span⟩,
      ⟨.identifier second, s.advance.advance.stream.current.span⟩, ⟨rfl, rfl, rfl⟩, ?_, rfl, rfl, rfl,
      rfl, rfl⟩
    rw [ahead]
    show _ :: s.advance.stream.ahead = _
    rw [dot]
    show _ :: _ :: s.advance.advance.stream.ahead = _
    rw [last]
    rfl
  · obtain ⟨same, rfl⟩ := run_pure_ok.1 success
    obtain ⟨rfl, rfl⟩ := Prod.mk.inj same
    exact ⟨.source ⟨.identifier first, s.stream.current.span⟩,
      ⟨.identifier first, s.stream.current.span⟩, rfl, ahead, rfl, rfl, rfl, rfl, rfl⟩

/-- A named table follows a trail: its name is marked after its alias is passed.

**Proof sketch.** An alias is passed token by token, so there is no other edit at a name between. -/
lemma follows_namedTable : Leads (Follows rules) namedTable := by
  intro s result s' _ success
  rw [namedTable, looks_offset.run_bind] at success
  obtain ⟨⟨name, stop⟩, s₁, named, success⟩ := run_bind_ok.1 success
  obtain ⟨alias', s₂, aliased, success⟩ := run_bind_ok.1 success
  rw [(looks_textOf _).run_bind] at success
  cases success
  obtain ⟨passage, last, readable, ahead, stream, context, isLast, -, edits⟩ :=
    tableName_passes rules named
  obtain ⟨tokens, trail⟩ := (leads_aliasName (R := FollowsSingly rules)).related aliased
  have source : s₂.stream.source = s.stream.source := by
    rw [trail.source_eq, stream, source_advanceBy]
  have marks : (tokens.map Passage.single).flatMap (Passage.edits rules s₁.stream.source) = [] := by
    simp [List.flatMap_map, Passage.edits]
  have unmarked : (tokens.map Passage.single).flatMap (Passage.edits rules s.stream.source) = [] := by
    simp [List.flatMap_map, Passage.edits]
  have names := trail.names
  have additions := trail.additions
  rw [marks, List.append_nil, context] at names
  rw [context] at additions
  refine ⟨passage :: tokens.map .single, ?_, ?_, ?_, ?_, ?_⟩
  · exact List.forall_mem_cons.2 ⟨readable, trail.readable⟩
  · rw [ahead, trail.ahead, List.flatMap_cons, List.append_assoc]
  · show s₂.stream = _
    rw [trail.stream, stream, advanceBy_advanceBy, List.flatMap_cons, List.length_append]
  · show Edit.atNames (s₂.context.edits ++ [_]) = _
    rw [Edit.atNames_append, names, List.flatMap_cons, unmarked, edits, List.append_nil, source,
      Passage.nameEdit, isLast]
    rfl
  · show Edit.additions (s₂.context.edits ++ [_]) = _
    rw [Edit.additions_append, additions]
    exact List.append_nil _

/-- Recording an edit that is neither at a name nor an addition follows a trail. -/
lemma follows_addEdit {edit : Edit} (noName : edit.kind ≠ .table)
    (noAddition : Edit.additions [edit] = []) : Leads (Follows rules) (addEdit edit) := by
  intro s result s' _ success
  cases success
  refine ⟨[], (Trail.refl rules s).record ?_ ?_⟩
  · show Edit.atNames (s.context.edits ++ [edit]) = _
    rw [Edit.atNames_append]
    simp [Edit.atNames, noName]
  · show Edit.additions (s.context.edits ++ [edit]) = _
    rw [Edit.additions_append, noAddition, List.append_nil]

/-- The edits of a limit are neither at names nor additions. -/
lemma follows_limitEdits (operands : Option (LimitValue × Span) × LimitValue × Span) :
    Leads (Follows rules) ((operands.1.toList.flatMap (limitEdit .offset) ++
      limitEdit .rowCount operands.2).forM addEdit) := by
  have numbers {make : Span → Nat → Edit} {operand : LimitValue × Span} {edit : Edit}
      (mem : edit ∈ limitEdit make operand) : ∃ span value, edit = make span value := by
    rcases operand with ⟨value | index, span⟩
    · exact ⟨span, value, List.mem_singleton.1 mem⟩
    · cases mem
  refine leads_forM fun edit mem => ?_
  rcases List.mem_append.1 mem with mem | mem
  · obtain ⟨operand, -, mem⟩ := List.mem_flatMap.1 mem
    obtain ⟨span, value, rfl⟩ := numbers mem
    exact follows_addEdit (by simp [Edit.kind]) rfl
  · obtain ⟨span, value, rfl⟩ := numbers mem
    exact follows_addEdit (by simp [Edit.kind]) rfl

/-- A limit follows a trail. -/
lemma follows_limit (style : LimitStyle) (shape : ResultShape) :
    Leads (Follows rules) (limit style shape) := by
  refine .look looks_offset fun start => .bind (leads_skipKeyword _) fun _ => .ite (fun _ => ?_)
    fun _ => .pure _
  refine (leads_limitOperands style).bind fun operands => .bind (follows_limitEdits operands) fun _ => ?_
  exact .look looks_previousEnd fun _ => .pure _

instance : Recording rules (Follows rules) where
  reference := follows_reference
  star := follows_star
  namedTable := follows_namedTable
  limit := follows_limit

end Grammar

/-! ## Additions -/

open SqlRouting.Parser

/-- Nothing is added between two states. -/
def KeepsAdditions (s s' : ParserState) : Prop :=
  Edit.additions s'.context.edits = Edit.additions s.context.edits

instance : Passing KeepsAdditions where
  refl _ := rfl
  trans first second := second.trans first
  token _ _ _ := rfl
  group _ _ _ := rfl
  record same := congrArg Edit.additions same

/-- Nothing is added on a trail. -/
lemma Follows.keepsAdditions {rules : ShardingRule} {s s' : ParserState} (h : Follows rules s s') :
    KeepsAdditions s s' := by
  obtain ⟨passages, trail⟩ := h
  exact trail.additions

instance (rules : ShardingRule) : Recording rules KeepsAdditions where
  reference isOwner isDot isName recorded :=
    (Grammar.follows_reference isOwner isDot isName recorded).keepsAdditions
  star _ _ _ := rfl
  namedTable := Leads.mono (fun _ _ (h : Follows rules _ _) => h.keepsAdditions) Grammar.follows_namedTable
  limit style shape := Leads.mono (fun _ _ (h : Follows rules _ _) => h.keepsAdditions)
    (Grammar.follows_limit style shape)

end SqlRouting
