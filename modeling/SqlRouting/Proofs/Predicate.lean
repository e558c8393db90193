import SqlRouting.Proofs.Expression
import SqlRouting.Proofs.Restriction

/-!
# Reading predicates

A predicate passes tokens of the grammar of predicates, and the condition that it gives is the one
that its tokens set. A list of predicates is read as a formula, whose conditions are recorded by the
condition of a query.

## Main definitions

* `SqlRouting.Grammar.RestRead` — the tokens after the left side of a predicate, as they are read.
* `SqlRouting.Grammar.PredicateRead` — the reading of a predicate.
* `SqlRouting.Grammar.FormulaRead` — the reading of a list of predicates.

## Main results

* `SqlRouting.Grammar.comparison_reads` — what is read after the left side of a predicate.
* `SqlRouting.Grammar.predicate_reads` — a predicate gives the condition that its tokens set.
* `SqlRouting.Grammar.predicates_read` — a list of predicates is read as a formula.
* `SqlRouting.Grammar.condition_reads` — the condition of a query records what its formula says.
-/

set_option autoImplicit false

namespace SqlRouting.Grammar

open SqlRouting.Parser TokenStream

variable {rules : ShardingRule} {s s' : ParserState} {tokens : List Token}

/-! ## Lists of values -/

/-- No comma is a plain value or a part of one. -/
lemma PlainValue.ne_comma {index : Nat} {value : RoutingValue} {token : Token}
    (h : PlainValue index tokens value) (mem : token ∈ tokens) :
    token.kind ≠ .symbol .comma := by
  cases h <;> simp only [List.mem_cons, List.not_mem_nil, or_false] at mem <;>
    rcases mem with rfl | rfl <;> simp

/-- A comma does not go on with an expression. -/
lemma ends_comma : Ends (.symbol .comma) := ⟨rfl, by simp, by simp⟩

/-- A keyword does not go on with an expression. -/
lemma ends_keyword (keyword : Keyword) : Ends (.keyword keyword) := ⟨rfl, by simp, by simp⟩

/-- An expression whose tokens start with a lone shape, after which nothing goes on, has no tokens
but those.

**Proof sketch.** The lone shape is read as an expression, and there is only one way to read. -/
lemma expression_eq_of_lone {e : Expression} {lone more : List Token} {next : Token}
    {node : ExpressionNode} (success : (expression rules).run s = .ok (e, s'))
    (run : Run Context.EditsOnly s tokens s')
    (written : Lone s.stream.source s.context.parameters lone node)
    (ahead : s.stream.ahead = lone ++ next :: more) (ends : Ends next.kind) :
    tokens = lone ∧ e.node = node ∧ s'.stream.ahead = next :: more := by
  obtain ⟨e', t, read, same, left⟩ := expression_of_lone rules written ahead ends
  rw [success] at read
  cases read
  refine ⟨?_, same, left⟩
  rw [run.ahead_eq, left] at ahead
  exact List.append_cancel_right ahead

/-- An expression alone is a list of plain values exactly if its tokens write one. -/
lemma value_read {e : Expression} (success : (expression rules).run s = .ok (e, s'))
    (run : Run Context.EditsOnly s tokens s')
    (written : Written s.stream.source s.context.parameters tokens e.node)
    (plain : List RoutingValue) :
    [e.node].mapM RoutingValue.ofNode? = some plain ↔
      PlainValues s.context.parameters tokens plain := by
  have single : [e.node].mapM RoutingValue.ofNode? = some plain ↔
      ∃ value, RoutingValue.ofNode? e.node = some value ∧ plain = [value] := by
    rw [List.mapM_cons, List.mapM_nil]
    cases RoutingValue.ofNode? e.node <;> simp [eq_comm]
  rw [single]
  constructor
  · rintro ⟨value, isValue, rfl⟩
    exact .one (written.ofNode_iff.1 isValue)
  · intro h
    cases h with
    | one first => exact ⟨_, written.ofNode_iff.2 first, rfl⟩
    | @cons _ lone rest comma value values first isComma more =>
      -- the expression would have ended at the comma
      obtain ⟨node, isLone, -⟩ := (plainValue_iff s.stream.source).1 first
      have ahead : s.stream.ahead = lone ++ comma :: (rest ++ s'.stream.ahead) := by
        rw [run.ahead_eq, List.append_assoc, List.cons_append]
      obtain ⟨same, -, -⟩ :=
        expression_eq_of_lone success run isLone ahead (isComma ▸ ends_comma)
      exact absurd same (by simp)

/-- A list of plain values starts with a first expression exactly if its tokens start with those of
the expression, which are a plain value. -/
lemma values_cons {e : Expression} {comma : Token} {rest : List Token}
    (success : (expression rules).run s = .ok (e, s'))
    (run : Run Context.EditsOnly s tokens s')
    (written : Written s.stream.source s.context.parameters tokens e.node)
    (ahead : s'.stream.ahead = comma :: rest) (isComma : comma.kind = .symbol .comma)
    {more left : List Token} (split : rest = more ++ left) (plain : List RoutingValue) :
    PlainValues s.context.parameters (tokens ++ comma :: more) plain ↔
      ∃ value values, RoutingValue.ofNode? e.node = some value ∧
        PlainValues (s.context.parameters + placeholders tokens) more values ∧
        plain = value :: values := by
  constructor
  · intro h
    generalize same : tokens ++ comma :: more = all at h
    cases h with
    | one first =>
      have mem : comma ∈ all := same ▸ List.mem_append_right tokens List.mem_cons_self
      exact absurd isComma (first.ne_comma mem)
    | @cons _ lone rest' comma' value values first isComma' later =>
      obtain ⟨node, isLone, isValue⟩ := (plainValue_iff s.stream.source).1 first
      have ahead' : s.stream.ahead = lone ++ comma' :: (rest' ++ left) := by
        rw [run.ahead_eq, ahead, split, ← List.cons_append, ← List.append_assoc, same,
          List.append_assoc, List.cons_append]
      obtain ⟨rfl, isNode, -⟩ :=
        expression_eq_of_lone success run isLone ahead' (isComma' ▸ ends_comma)
      obtain ⟨rfl, rfl⟩ := List.cons.inj (List.append_cancel_left same)
      exact ⟨value, values, isNode ▸ isValue, later, rfl⟩
  · rintro ⟨value, values, isValue, later, rfl⟩
    exact .cons (written.ofNode_iff.1 isValue) isComma later

/-- The values of a list of expressions are plain exactly if its tokens write them.

**Proof sketch.** Induction on the number of commas. The first expression is plain exactly if its
tokens write a plain value; and where the tokens write a list, the first expression ends at the
first comma, because a plain value before a comma is read as such. -/
lemma values_read {n : Nat} {values : List Expression}
    (success : (commaSeparatedUpTo (expression rules) n).run s = .ok (values, s')) :
    ∃ tokens, Operands tokens ∧ Run Context.EditsOnly s tokens s' ∧
      ∀ plain, (values.map Expression.node).mapM RoutingValue.ofNode? = some plain ↔
        PlainValues s.context.parameters tokens plain := by
  induction n generalizing s values with
  | zero =>
    obtain ⟨e, s₁, first, rest⟩ := run_bind_ok.1 success
    obtain ⟨rfl, rfl⟩ := run_pure_ok.1 rest
    obtain ⟨tokens, isOperand, run, written⟩ := expression_reads first
    exact ⟨tokens, .one isOperand, run, value_read first run written⟩
  | succ n ih =>
    obtain ⟨e, s₁, first, rest⟩ := run_bind_ok.1 success
    obtain ⟨tokens, isOperand, run, written⟩ := expression_reads first
    rw [run_skipSymbol_bind] at rest
    split at rest
    · rename_i isComma
      obtain ⟨later, s₂, read, done⟩ := run_bind_ok.1 rest
      obtain ⟨rfl, rfl⟩ := run_pure_ok.1 done
      obtain ⟨more, operands, run', plainLater⟩ := ih read
      have comma : Run Context.EditsOnly s₁ _ s₁.advance :=
        run_token isComma
      refine ⟨_, .cons isOperand rfl operands, run.trans (comma.trans run'), fun plain => ?_⟩
      have counted : s₁.advance.context.parameters = s.context.parameters + placeholders tokens :=
        run.counts
      have ahead := ahead_of_kind isComma (by simp)
      refine Iff.trans ?_ (values_cons first run written ahead rfl run'.ahead_eq plain).symm
      rw [← counted]
      simp only [List.map_cons, List.mapM_cons]
      constructor
      · intro all
        obtain ⟨value, isValue, all⟩ := Option.bind_eq_some_iff.1 all
        obtain ⟨others, areValues, all⟩ := Option.bind_eq_some_iff.1 all
        exact ⟨value, others, isValue, (plainLater others).1 areValues, (Option.some.inj all).symm⟩
      · rintro ⟨value, others, isValue, areValues, rfl⟩
        rw [isValue, (plainLater others).2 areValues]
        rfl
    · obtain ⟨rfl, rfl⟩ := run_pure_ok.1 rest
      exact ⟨tokens, .one isOperand, run, value_read first run written⟩

/-- The values after `IN` are skipped if a query follows, and are a list in parentheses otherwise. -/
lemma valueList_reads {values : Option (List ExpressionNode)}
    (success : (valueList rules).run s = .ok (values, s')) :
    ∃ tokens, Run Context.EditsOnly s tokens s' ∧
      (values = none ∧ s.stream.peek = .keyword .SELECT ∧ (tokens = [] ∨ Group tokens) ∨
        ∃ opening list closing nodes, values = some nodes ∧
          tokens = opening :: (list ++ [closing]) ∧ opening.kind = .symbol .leftParen ∧
          Operands list ∧ closing.kind = .symbol .rightParen ∧
          ∀ plain, nodes.mapM RoutingValue.ofNode? = some plain ↔
            PlainValues s.context.parameters list plain) := by
  rw [valueList, looks_peek.run_bind] at success
  split at success
  · rename_i isQuery
    obtain ⟨_, s₁, skipped, done⟩ := run_bind_ok.1 success
    obtain ⟨rfl, rfl⟩ := run_pure_ok.1 done
    have query : s.stream.peek = .keyword .SELECT := by simpa using isQuery
    by_cases opened : s.stream.kind = .symbol .leftParen
    · obtain ⟨group, _, split, rfl⟩ := run_skipParentheses_of_eq opened skipped
      exact ⟨group, .single (.group split), .inl ⟨rfl, query, .inr (group_of_split (.inl rfl) split)⟩⟩
    · rw [run_skipParentheses_of_ne opened skipped]
      exact ⟨[], .refl s, .inl ⟨rfl, query, .inl rfl⟩⟩
  · obtain ⟨opening, s₁, opens, rest⟩ := run_bind_ok.1 success
    obtain ⟨isOpening, rfl, rfl⟩ := run_acceptSymbol_ok.1 opens
    obtain ⟨read, s₂, items, rest⟩ := run_bind_ok.1 rest
    obtain ⟨closing, s₃, closes, done⟩ := run_bind_ok.1 rest
    obtain ⟨isClosing, rfl, rfl⟩ := run_acceptSymbol_ok.1 closes
    obtain ⟨rfl, rfl⟩ := run_pure_ok.1 done
    rw [commaSeparated, looks_remaining.run_bind] at items
    obtain ⟨list, operands, run, plain⟩ := values_read items
    have first : Run Context.EditsOnly s _ s.advance := run_token isOpening
    have last : Run Context.EditsOnly s₂ _ s₂.advance := run_token isClosing
    exact ⟨_, first.trans (run.trans last),
      .inr ⟨_, list, _, _, rfl, rfl, rfl, operands, rfl, plain⟩⟩

/-- A range passes two operands with a word between, and its values are plain exactly if the tokens
write a range of plain values. -/
lemma range_reads {low high : ExpressionNode}
    (success : (range rules).run s = .ok ((low, high), s')) :
    ∃ tokens, Range tokens ∧ Run Context.EditsOnly s tokens s' ∧
      ∀ first last, RoutingValue.ofNode? low = some first ∧ RoutingValue.ofNode? high = some last ↔
        PlainRange s.context.parameters tokens first last := by
  obtain ⟨left, s₁, leftRead, rest⟩ := run_bind_ok.1 success
  obtain ⟨word, s₂, accepted, rest⟩ := run_bind_ok.1 rest
  obtain ⟨isWord, rfl, rfl⟩ := run_acceptKeyword_ok.1 accepted
  obtain ⟨right, s₃, rightRead, done⟩ := run_bind_ok.1 rest
  obtain ⟨same, rfl⟩ := run_pure_ok.1 done
  obtain ⟨rfl, rfl⟩ := Prod.mk.inj same
  obtain ⟨leftTokens, leftOperand, leftRun, leftWritten⟩ := expression_reads leftRead
  obtain ⟨rightTokens, rightOperand, rightRun, rightWritten⟩ := expression_reads rightRead
  have conjunction : Run Context.EditsOnly s₁ _ s₁.advance := run_token isWord
  have counted : s₁.advance.context.parameters =
    s.context.parameters + placeholders leftTokens := leftRun.counts
  have run := leftRun.trans (conjunction.trans rightRun)
  refine ⟨_, ⟨leftTokens, _, rightTokens, rfl, leftOperand, rfl, rightOperand⟩, run, ?_⟩
  intro first last
  rw [counted] at rightWritten
  constructor
  · rintro ⟨isFirst, isLast⟩
    exact ⟨leftTokens, _, rightTokens, rfl, leftWritten.ofNode_iff.1 isFirst, rfl,
      rightWritten.ofNode_iff.1 isLast⟩
  · rintro ⟨l, c, r, same, plainFirst, isAnd, plainLast⟩
    obtain ⟨node, isLone, isValue⟩ := (plainValue_iff s.stream.source).1 plainFirst
    have whole : s.stream.ahead =
      (leftTokens ++ ⟨.keyword .AND, s₁.stream.current.span⟩ :: rightTokens) ++
        s₃.stream.ahead := run.ahead_eq
    have ahead : s.stream.ahead = l ++ c :: (r ++ s₃.stream.ahead) := by
      rw [whole, same, List.append_assoc, List.cons_append]
    obtain ⟨rfl, isNode, -⟩ :=
      expression_eq_of_lone leftRead leftRun isLone ahead (isAnd ▸ ends_keyword .AND)
    obtain ⟨-, rfl⟩ := List.cons.inj (List.append_cancel_left same)
    exact ⟨isNode ▸ isValue, rightWritten.ofNode_iff.2 plainLast⟩

/-! ## Predicates -/

/-- What is read after `NOT` is a query, a range or a pattern. -/
lemma negated_reads {result : Unit} (success : (negated rules).run s = .ok (result, s')) :
    ∃ tokens, Choice tokens ∧ Run Context.EditsOnly s tokens s' := by
  rw [negated, looks_kind.run_bind] at success
  split at success
  · rename_i isWord
    rw [run_advance_bind] at success
    have word : Run Context.EditsOnly s _ s.advance := run_token isWord
    by_cases opened : s.advance.stream.kind = .symbol .leftParen
    · obtain ⟨group, _, split, rfl⟩ := run_skipParentheses_of_eq opened success
      exact ⟨_, .query rfl (.inr (group_of_split (.inl rfl) split)),
        word.trans (.single (.group split))⟩
    · rw [run_skipParentheses_of_ne opened success]
      exact ⟨_, .query rfl (.inl rfl), word⟩
  · rename_i isWord
    rw [run_advance_bind] at success
    have word : Run Context.EditsOnly s _ s.advance := run_token isWord
    obtain ⟨⟨low, high⟩, s₁, read, done⟩ := run_bind_ok.1 success
    obtain ⟨-, rfl⟩ := run_pure_ok.1 done
    obtain ⟨tokens, isRange, run, -⟩ := range_reads read
    exact ⟨_, .between rfl isRange, word.trans run⟩
  · rename_i isWord
    rw [run_advance_bind] at success
    have word : Run Context.EditsOnly s _ s.advance := run_token isWord
    obtain ⟨e, s₁, read, done⟩ := run_bind_ok.1 success
    obtain ⟨-, rfl⟩ := run_pure_ok.1 done
    obtain ⟨tokens, isOperand, run⟩ := reads_expression _ _ _ read
    exact ⟨_, .like rfl isOperand, word.trans run⟩
  · exact absurd success run_unexpected_ne

/-- What is read after `IS` is a truth value, possibly denied. -/
lemma truthTest_reads {result : Unit} (word : Token) (isWord : word.kind = .keyword .IS)
    (success : truthTest.run s = .ok (result, s')) :
    ∃ tokens, Tail (word :: tokens) ∧ Run Context.EditsOnly s tokens s' := by
  obtain ⟨_, s₁, first, last⟩ := run_bind_ok.1 success
  obtain ⟨negation, denied, before⟩ : ∃ negation,
      (negation = [] ∨ ∃ token, negation = [token] ∧ token.kind = .keyword .NOT) ∧
        Run Context.EditsOnly s negation s₁ := by
    rw [run_skipKeyword] at first
    split at first
    · rename_i present
      obtain ⟨keyword, isNot, isDenial⟩ := checkAnyKeyword_iff.1 present
      obtain rfl := List.mem_singleton.1 isNot
      cases first
      exact ⟨_, .inr ⟨_, rfl, rfl⟩, run_token isDenial⟩
    · cases first
      exact ⟨[], .inl rfl, .refl s⟩
  rw [run_skipKeyword_bind] at last
  split at last
  · rename_i present
    obtain ⟨keyword, isTruth, isValue⟩ := checkAnyKeyword_iff.1 present
    obtain ⟨-, rfl⟩ := run_pure_ok.1 last
    exact ⟨_, .truth isWord denied rfl isTruth,
      before.trans (run_token isValue)⟩
  · exact absurd last run_unexpected_ne

/-- What does not start like a restriction restricts nothing. -/
lemma not_restricts {index : Nat} {column : Column} {first : Token} {rest : List Token}
    {condition : RouteCondition} (noEq : first.kind ≠ .symbol .eq)
    (noIn : first.kind ≠ .keyword .IN) (noBetween : first.kind ≠ .keyword .BETWEEN) :
    ¬ Restricts index column (first :: rest) condition := by
  intro h
  rcases h.starts with isEq | isIn | isBetween
  · exact noEq isEq
  · exact noIn isIn
  · exact noBetween isBetween

/-- The condition of an equality is set exactly if the column and the value are known. -/
lemma equalCondition_iff {column : Option Column} {node : ExpressionNode}
    {condition : RouteCondition} : equalCondition? column node = some condition ↔
      ∃ known value, column = some known ∧ RoutingValue.ofNode? node = some value ∧
        condition = .equal known value := by
  unfold equalCondition?
  split
  · rename_i known value isValue
    simp [isValue, eq_comm]
  · rename_i unknown
    simp only [reduceCtorEq, false_iff]
    rintro ⟨known, value, rfl, isValue, -⟩
    exact unknown known value rfl isValue

/-- The condition of a list is set exactly if the column and all values are known. -/
lemma withinCondition_iff {column : Option Column} {nodes : List ExpressionNode}
    {condition : RouteCondition} : withinCondition? column nodes = some condition ↔
      ∃ known values, column = some known ∧ nodes.mapM RoutingValue.ofNode? = some values ∧
        condition = .within known values := by
  unfold withinCondition?
  split
  · rename_i known values areValues
    simp [areValues, eq_comm]
  · rename_i unknown
    simp only [reduceCtorEq, false_iff]
    rintro ⟨known, values, rfl, areValues, -⟩
    exact unknown known values rfl areValues

/-- The condition of a range is set exactly if the column and both values are known. -/
lemma betweenCondition_iff {column : Option Column} {low high : ExpressionNode}
    {condition : RouteCondition} : betweenCondition? column low high = some condition ↔
      ∃ known first last, column = some known ∧ RoutingValue.ofNode? low = some first ∧
        RoutingValue.ofNode? high = some last ∧ condition = .between known first last := by
  unfold betweenCondition?
  split
  · rename_i known first last isFirst isLast
    simp [isFirst, isLast, eq_comm]
  · rename_i unknown
    simp only [reduceCtorEq, false_iff]
    rintro ⟨known, first, last, rfl, isFirst, isLast, -⟩
    exact unknown known first last rfl isFirst isLast

/-- The tokens after the left side of a predicate, passed from `s` to `s'`: the result is the condition
that they set on the column, if they set one. -/
structure RestRead (column : Option Column) (s : ParserState) (tokens : List Token)
    (result : Option RouteCondition) (s' : ParserState) : Prop where
  /-- The tokens are those of the grammar. -/
  tail : Tail tokens
  /-- The tokens are passed. -/
  run : Run Context.EditsOnly s tokens s'
  /-- The result is the condition that the tokens set. -/
  restricts : ∀ condition, result = some condition ↔
    ∃ known, column = some known ∧ Restricts s.context.parameters known tokens condition

namespace RestRead

variable {column : Option Column}

/-- Tokens that restrict nothing give no condition. -/
lemma unrestricted (tail : Tail tokens) (run : Run Context.EditsOnly s tokens s')
    (free : ∀ known condition, ¬ Restricts s.context.parameters known tokens condition) :
    RestRead column s tokens .none s' :=
  ⟨tail, run, by simp [free]⟩

/-- Without anything after the left side, there is no condition. -/
lemma nil : RestRead column s [] none s :=
  .unrestricted .nil (.refl s) fun _ _ h => h.ne_nil rfl

/-- Tokens that do not start like a restriction give no condition. -/
lemma other {first : Token} {rest : List Token} (tail : Tail (first :: rest))
    (run : Run Context.EditsOnly s (first :: rest) s') (noEq : first.kind ≠ .symbol .eq)
    (noIn : first.kind ≠ .keyword .IN) (noBetween : first.kind ≠ .keyword .BETWEEN) :
    RestRead column s (first :: rest) none s' :=
  .unrestricted tail run fun _ _ => not_restricts noEq noIn noBetween

end RestRead

/-- An equality gives the condition that the column equals the value. -/
lemma equal_reads {column : Option Column} {right : Expression}
    (isEq : s.stream.kind = .symbol .eq)
    (success : (expression rules).run s.advance = .ok (right, s')) :
    ∃ tokens, RestRead column s tokens (equalCondition? column right.node) s' := by
  obtain ⟨tokens, isOperand, run, written⟩ := expression_reads success
  have sign : Run Context.EditsOnly s _ s.advance := run_token isEq
  refine ⟨_, .comparison rfl rfl isOperand, sign.trans run, fun condition => ?_⟩
  rw [equalCondition_iff]
  constructor
  · rintro ⟨known, value, rfl, isValue, rfl⟩
    exact ⟨known, rfl, .equal rfl (written.ofNode_iff.1 isValue)⟩
  · rintro ⟨known, rfl, restricts⟩
    obtain ⟨value, plain, rfl⟩ := restricts.of_eq rfl
    exact ⟨known, value, rfl, written.ofNode_iff.2 plain, rfl⟩

/-- A list of values gives the condition that the column equals one of them, and a query none. -/
lemma within_reads {column : Option Column} {values : Option (List ExpressionNode)}
    (isIn : s.stream.kind = .keyword .IN)
    (success : (valueList rules).run s.advance = .ok (values, s')) :
    ∃ tokens, RestRead column s tokens (values.bind (withinCondition? column)) s' := by
  have word : Run Context.EditsOnly s _ s.advance := run_token isIn
  obtain ⟨tokens, run, ⟨rfl, query, balanced⟩ |
    ⟨opening, list, closing, nodes, rfl, rfl, opens, operands, closes, plain⟩⟩ :=
      valueList_reads success
  · refine ⟨_, .unrestricted (.choice (.query rfl balanced)) (word.trans run) fun known c h => ?_⟩
    -- a list of values does not start with the word of a query
    obtain ⟨opening, list, closing, values, rfl, plain, -⟩ := h.of_in rfl
    obtain ⟨first, rest, rfl, noWord⟩ := plain.starts
    refine noWord .SELECT ?_
    rw [← query, TokenStream.peek, peekNth, run.ahead_eq]
    rfl
  · refine ⟨_, .within rfl opens operands closes, word.trans run, fun condition => ?_⟩
    rw [Option.bind_some, withinCondition_iff]
    constructor
    · rintro ⟨known, values, rfl, areValues, rfl⟩
      exact ⟨known, rfl, .within rfl opens ((plain values).1 areValues) closes⟩
    · rintro ⟨known, rfl, restricts⟩
      obtain ⟨opening', list', closing', values, same, isPlain, rfl⟩ := restricts.of_in rfl
      obtain ⟨rfl, -⟩ := List.append_inj' (List.cons.inj same).2 rfl
      exact ⟨known, values, rfl, (plain values).2 isPlain, rfl⟩

/-- A range gives the condition that the column lies in it. -/
lemma between_reads {column : Option Column} {low high : ExpressionNode}
    (isBetween : s.stream.kind = .keyword .BETWEEN)
    (success : (range rules).run s.advance = .ok ((low, high), s')) :
    ∃ tokens, RestRead column s tokens (betweenCondition? column low high) s' := by
  have word : Run Context.EditsOnly s _ s.advance := run_token isBetween
  obtain ⟨tokens, isRange, run, plain⟩ := range_reads success
  refine ⟨_, .choice (.between rfl isRange), word.trans run, fun condition => ?_⟩
  rw [betweenCondition_iff]
  constructor
  · rintro ⟨known, first, last, rfl, isFirst, isLast, rfl⟩
    exact ⟨known, rfl, .between rfl ((plain first last).1 ⟨isFirst, isLast⟩)⟩
  · rintro ⟨known, rfl, restricts⟩
    obtain ⟨first, last, plainRange, rfl⟩ := restricts.of_between rfl
    obtain ⟨isFirst, isLast⟩ := (plain first last).2 plainRange
    exact ⟨known, first, last, rfl, isFirst, isLast, rfl⟩

/-- What is read behind a token that starts no restriction gives no condition. -/
lemma other_reads {α : Type} {column : Option Column} {result : Option RouteCondition} {p : Parser α}
    {first : Token} (passed : Run Context.EditsOnly s [first] s.advance)
    (noEq : first.kind ≠ .symbol .eq) (noIn : first.kind ≠ .keyword .IN)
    (noBetween : first.kind ≠ .keyword .BETWEEN)
    (reads : ∀ {a s₁}, p.run s.advance = .ok (a, s₁) →
      ∃ tokens, Tail (first :: tokens) ∧ Run Context.EditsOnly s.advance tokens s₁)
    (success : (do let _ ← p; return none : Parser (Option RouteCondition)).run s.advance =
      .ok (result, s')) :
    ∃ tokens, RestRead column s tokens result s' := by
  obtain ⟨_, s₁, read, done⟩ := run_bind_ok.1 success
  obtain ⟨rfl, rfl⟩ := run_pure_ok.1 done
  obtain ⟨tokens, tail, run⟩ := reads read
  exact ⟨first :: tokens, .other tail (passed.trans run) noEq noIn noBetween⟩

/-- A predicate restricts its column exactly if its tokens after the left side do.

**Proof sketch.** One case for each word or sign that may come after the left side. Only an equality
sign, `IN` and `BETWEEN` start a restriction; after them the values are plain exactly if the tokens
write plain values. -/
lemma comparison_reads {column : Option Column} {result : Option RouteCondition}
    (success : (comparison rules column).run s = .ok (result, s')) :
    ∃ tokens, RestRead column s tokens result s' := by
  rw [comparison, looks_kind.run_bind] at success
  split at success
  · rename_i symbol same
    split at success
    · rename_i isEq
      obtain rfl : symbol = .eq := by simpa using isEq
      rw [run_advance_bind] at success
      obtain ⟨right, s₁, read, done⟩ := run_bind_ok.1 success
      obtain ⟨rfl, rfl⟩ := run_pure_ok.1 done
      exact equal_reads same read
    · split at success
      · rename_i notEq compares
        rw [run_advance_bind] at success
        have plain : symbol ≠ .question := by
          rintro rfl
          cases compares
        refine other_reads (run_token same (by simpa using plain)) (by simpa using notEq) (by simp)
          (by simp) (fun read => ?_) success
        obtain ⟨tokens, isOperand, run⟩ := reads_expression _ _ _ read
        exact ⟨tokens, .comparison rfl compares isOperand, run⟩
      · obtain ⟨rfl, rfl⟩ := run_pure_ok.1 success
        exact ⟨[], .nil⟩
  · rename_i isWord
    rw [run_advance_bind] at success
    obtain ⟨values, s₁, read, done⟩ := run_bind_ok.1 success
    have reading := @within_reads rules s s₁ column values isWord read
    cases values with
    | none =>
      obtain ⟨rfl, rfl⟩ := run_pure_ok.1 done
      exact reading
    | some nodes =>
      obtain ⟨rfl, rfl⟩ := run_pure_ok.1 done
      exact reading
  · rename_i isWord
    rw [run_advance_bind] at success
    obtain ⟨⟨low, high⟩, s₁, read, done⟩ := run_bind_ok.1 success
    obtain ⟨rfl, rfl⟩ := run_pure_ok.1 done
    exact between_reads isWord read
  · rename_i isWord
    rw [run_advance_bind] at success
    refine other_reads (run_token isWord) (by simp) (by simp) (by simp) (fun read => ?_) success
    obtain ⟨tokens, chosen, run⟩ := negated_reads read
    exact ⟨tokens, .negated rfl chosen, run⟩
  · rename_i isWord
    rw [run_advance_bind] at success
    refine other_reads (run_token isWord) (by simp) (by simp) (by simp) (fun read => ?_) success
    obtain ⟨tokens, isOperand, run⟩ := reads_expression _ _ _ read
    exact ⟨tokens, .choice (.like rfl isOperand), run⟩
  · rename_i isWord
    rw [run_advance_bind] at success
    refine other_reads (run_token isWord) (by simp) (by simp) (by simp) (fun read => ?_) success
    exact truthTest_reads _ rfl read
  · obtain ⟨rfl, rfl⟩ := run_pure_ok.1 success
    exact ⟨[], .nil⟩

/-- What a restriction starts with does not go on with an expression, and is no dot. -/
lemma ends_of_restricts {index : Nat} {column : Column} {first : Token} {rest : List Token}
    {condition : RouteCondition} (h : Restricts index column (first :: rest) condition) :
    Ends first.kind := by
  rcases h.starts with isEq | isIn | isBetween
  · rw [isEq]
    exact ⟨rfl, by simp, by simp⟩
  · rw [isIn]
    exact ends_keyword .IN
  · rw [isBetween]
    exact ends_keyword .BETWEEN

/-- A predicate passes tokens of the grammar, and gives the condition that they set unless its
column is named by a star.

**Proof sketch.** The left side is a column exactly if its tokens refer to one, and the rest of the
predicate restricts the column exactly if its tokens do. Where the tokens set a condition, the left
side ends where the restriction starts, because a reference in front of it is read as such. -/
lemma predicate_reads {result : Option RouteCondition}
    (success : (predicate rules).run s = .ok (result, s')) :
    ∃ tokens, PredicateTokens tokens ∧ Run Context.EditsOnly s tokens s' ∧
      ∀ condition, result = some condition ↔
        Sets rules s.stream.source s.context.tables s.context.parameters tokens condition ∧
          ¬ StarQualified s.stream.source tokens := by
  obtain ⟨left, s₁, leftRead, rest⟩ := run_bind_ok.1 success
  rw [looks_context.run_bind] at rest
  obtain ⟨leftTokens, isOperand, leftRun, written⟩ := expression_reads leftRead
  obtain ⟨rightTokens, isTail, rightRun, restricts⟩ := comparison_reads rest
  refine ⟨_, ⟨leftTokens, rightTokens, rfl, isOperand, isTail⟩, leftRun.trans rightRun, ?_⟩
  intro condition
  rw [restricts, leftRun.tables_eq, leftRun.counts]
  constructor
  · rintro ⟨column, known, restricted⟩
    obtain ⟨known, sharding⟩ := Option.filter_eq_some_iff.1 known
    have lone := written.lone (by rintro text same; rw [same] at known; cases known)
    obtain ⟨refers, noStar⟩ := lone.refers known
    obtain ⟨first, more, rfl⟩ := List.exists_cons_of_ne_nil restricted.ne_nil
    rw [refers.placeholders_eq] at restricted
    exact ⟨.intro refers sharding restricted,
      noStar first more (ends_of_restricts restricted).noDot⟩
  · rintro ⟨sets, noStar⟩
    generalize same : leftTokens ++ rightTokens = all at sets noStar
    cases sets with
    | @intro left' right' column _ refers sharding restricted =>
      obtain ⟨node, lone, known⟩ :=
        refers.exists_lone s.context.parameters fun star => noStar star.append
      obtain ⟨first, more, rfl⟩ := List.exists_cons_of_ne_nil restricted.ne_nil
      have ahead : s.stream.ahead = left' ++ first :: (more ++ s'.stream.ahead) := by
        rw [(leftRun.trans rightRun).ahead_eq, same, List.append_assoc, List.cons_append]
      obtain ⟨rfl, isNode, -⟩ :=
        expression_eq_of_lone leftRead leftRun lone ahead (ends_of_restricts restricted)
      obtain rfl := List.append_cancel_left same
      refine ⟨column, Option.filter_eq_some_iff.2 ⟨isNode ▸ known, sharding⟩, ?_⟩
      rw [refers.placeholders_eq]
      exact restricted

/-- A predicate passes tokens. -/
lemma PredicateTokens.ne_nil (h : PredicateTokens tokens) : tokens ≠ [] := by
  obtain ⟨left, right, rfl, isOperand, -⟩ := h
  simp [isOperand.ne_nil]

/-! ## Lists of predicates -/

/-- The reading of a predicate, which gives the condition that its tokens set unless its column is
named by a star. -/
structure PredicateRead (rules : ShardingRule) (s : ParserState) (predicate : ReadPredicate)
    (s' : ParserState) : Prop where
  /-- The placeholders before the predicate. -/
  index : predicate.index = s.context.parameters
  /-- The tokens are those of a predicate. -/
  grammar : PredicateTokens predicate.tokens
  /-- The tokens are passed. -/
  run : Run Context.EditsOnly s predicate.tokens s'
  /-- The condition is the one that the tokens set. -/
  condition : ∀ condition, predicate.condition = some condition ↔
    Sets rules s.stream.source s.context.tables predicate.index predicate.tokens condition ∧
      ¬ StarQualified s.stream.source predicate.tokens

/-- The reading of a list of predicates with words between them, up to a token that is no such
word. -/
inductive FormulaRead (rules : ShardingRule) : ParserState → Formula → ParserState → Prop
  /-- The last predicate. -/
  | single {s s' : ParserState} {predicate : ReadPredicate}
      (read : PredicateRead rules s predicate s') (noAnd : s'.stream.kind ≠ .keyword .AND)
      (noOr : s'.stream.kind ≠ .keyword .OR) : FormulaRead rules s (.single predicate) s'
  /-- A predicate with `AND` after it. -/
  | and {s s₁ s' : ParserState} {predicate : ReadPredicate} {formula : Formula}
      (read : PredicateRead rules s predicate s₁) (word : s₁.stream.kind = .keyword .AND)
      (rest : FormulaRead rules s₁.advance formula s') :
      FormulaRead rules s (.and predicate formula) s'
  /-- A predicate with `OR` after it. -/
  | or {s s₁ s' : ParserState} {predicate : ReadPredicate} {formula : Formula}
      (read : PredicateRead rules s predicate s₁) (word : s₁.stream.kind = .keyword .OR)
      (rest : FormulaRead rules s₁.advance formula s') :
      FormulaRead rules s (.or predicate formula) s'

/-- A predicate that is read has a reading. -/
lemma exists_predicateRead {result : Option RouteCondition}
    (success : (predicate rules).run s = .ok (result, s')) :
    ∃ read : ReadPredicate, PredicateRead rules s read s' ∧ read.condition = result := by
  obtain ⟨tokens, grammar, run, condition⟩ := predicate_reads success
  exact ⟨⟨s.context.parameters, tokens, result⟩, ⟨rfl, grammar, run, condition⟩, rfl⟩

/-- A predicate passes at least one token. -/
lemma PredicateRead.remaining_lt {read : ReadPredicate} (h : PredicateRead rules s read s') :
    s'.stream.remaining < s.stream.remaining := by
  have passed := h.run.remaining_eq
  have positive := List.length_pos_iff.2 h.grammar.ne_nil
  omega

/-- The conditions of a list with one predicate in front are those of the predicate and of the
list. -/
lemma filterMap_condition_cons (read : ReadPredicate) (others : List ReadPredicate) :
    (read :: others).filterMap ReadPredicate.condition =
      read.condition.toList ++ others.filterMap ReadPredicate.condition := by
  cases same : read.condition <;> simp [same]

/-- A list of predicates is read as a formula. No word is left after it, because there are no more
words than tokens.

**Proof sketch.** Induction on the bound on the words. Each predicate passes a token, so with no
tokens left there is no predicate, and the bound is never reached. -/
lemma predicatesUpTo_read {n : Nat} {read : Predicates} (enough : s.stream.remaining ≤ n)
    (success : (predicatesUpTo rules n).run s = .ok (read, s')) :
    ∃ formula, FormulaRead rules s formula s' ∧ read.hasOr = formula.hasOr ∧
      read.conditions = formula.predicates.filterMap ReadPredicate.condition := by
  induction n generalizing s read with
  | zero =>
    obtain ⟨result, s₁, first, rest⟩ := run_bind_ok.1 success
    obtain ⟨predicate, reading, -⟩ := exists_predicateRead first
    have fewer := reading.remaining_lt
    omega
  | succ n ih =>
    obtain ⟨result, s₁, first, rest⟩ := run_bind_ok.1 success
    obtain ⟨predicate, reading, rfl⟩ := exists_predicateRead first
    have next : s₁.advance.stream.remaining ≤ n := by
      have fewer := reading.remaining_lt
      have after : s₁.advance.stream.remaining ≤ s₁.stream.remaining := remaining_advance_le
      omega
    rw [run_skipKeyword_bind] at rest
    split at rest
    · rename_i present
      obtain ⟨keyword, isAnd, word⟩ := checkAnyKeyword_iff.1 present
      obtain rfl := List.mem_singleton.1 isAnd
      obtain ⟨others, s₂, later, done⟩ := run_bind_ok.1 rest
      obtain ⟨rfl, rfl⟩ := run_pure_ok.1 done
      obtain ⟨formula, formulaRead, sameOr, sameConditions⟩ := ih next later
      refine ⟨.and predicate formula, .and reading word formulaRead, ?_, ?_⟩
      · rw [Formula.hasOr, Predicates.cons, sameOr, Bool.false_or]
      · rw [Formula.predicates, filterMap_condition_cons, ← sameConditions]
        rfl
    · rename_i noAnd
      rw [if_neg (by simp), run_skipKeyword_bind] at rest
      split at rest
      · rename_i present
        obtain ⟨keyword, isOr, word⟩ := checkAnyKeyword_iff.1 present
        obtain rfl := List.mem_singleton.1 isOr
        obtain ⟨others, s₂, later, done⟩ := run_bind_ok.1 rest
        obtain ⟨rfl, rfl⟩ := run_pure_ok.1 done
        obtain ⟨formula, formulaRead, sameOr, sameConditions⟩ := ih next later
        refine ⟨.or predicate formula, .or reading word formulaRead, ?_, ?_⟩
        · rw [Formula.hasOr, Predicates.cons, Bool.true_or]
        · rw [Formula.predicates, filterMap_condition_cons, ← sameConditions]
          rfl
      · rename_i noOr
        obtain ⟨rfl, rfl⟩ := run_pure_ok.1 rest
        simp only [checkAnyKeyword_iff, List.mem_singleton, exists_eq_left] at noAnd noOr
        refine ⟨.single predicate, .single reading noAnd noOr, rfl, ?_⟩
        rw [Formula.predicates, filterMap_condition_cons, List.filterMap_nil, List.append_nil]

/-- A list of predicates is read as a formula, with its conditions. -/
lemma predicates_read {read : Predicates}
    (success : (predicates rules).run s = .ok (read, s')) :
    ∃ formula, FormulaRead rules s formula s' ∧ read.routeConditions = formula.conditions := by
  rw [predicates, looks_remaining.run_bind] at success
  obtain ⟨formula, reading, sameOr, sameConditions⟩ := predicatesUpTo_read (Nat.le_refl _) success
  refine ⟨formula, reading, ?_⟩
  rw [Predicates.routeConditions, Formula.conditions, sameOr, sameConditions]

/-- The condition of a query records what its formula says, and without the word nothing is read. -/
lemma condition_reads {result : Unit} (success : (condition rules).run s = .ok (result, s')) :
    s.stream.kind ≠ .keyword .WHERE ∧ s' = s ∨
      s.stream.kind = .keyword .WHERE ∧ ∃ formula s₁, FormulaRead rules s.advance formula s₁ ∧
        s' = ⟨s₁.stream, s₁.context.addConditions formula.conditions⟩ := by
  rw [condition, run_skipKeyword_bind] at success
  split at success
  · rename_i present
    obtain ⟨keyword, isWhere, word⟩ := checkAnyKeyword_iff.1 present
    obtain rfl := List.mem_singleton.1 isWhere
    obtain ⟨read, s₁, first, recorded⟩ := run_bind_ok.1 success
    obtain ⟨formula, reading, same⟩ := predicates_read first
    cases recorded
    exact .inr ⟨word, formula, s₁, reading, by rw [same]⟩
  · rename_i absent
    obtain ⟨-, rfl⟩ := run_pure_ok.1 success
    simp only [checkAnyKeyword_iff, List.mem_singleton, exists_eq_left] at absent
    exact .inl ⟨absent, rfl⟩

/-- A formula is passed by a run that records edits alone. -/
lemma FormulaRead.exists_run {formula : Formula} (h : FormulaRead rules s formula s') :
    ∃ tokens, Run Context.EditsOnly s tokens s' := by
  induction h with
  | single read noAnd noOr => exact ⟨_, read.run⟩
  | and read word rest ih =>
    obtain ⟨tokens, run⟩ := ih
    exact ⟨_, read.run.trans ((run_token word).trans run)⟩
  | or read word rest ih =>
    obtain ⟨tokens, run⟩ := ih
    exact ⟨_, read.run.trans ((run_token word).trans run)⟩

/-- Each predicate of a formula that is read from a text has its meaning, on the tables known
there. -/
lemma FormulaRead.means {text : String} {formula : Formula} (h : FormulaRead rules s formula s')
    (keeps : KeepsCount text s) :
    ∀ predicate ∈ formula.predicates, predicate.Means rules text s.context.tables := by
  have first {t t' : ParserState} {predicate : ReadPredicate} (keeps : KeepsCount text t)
      (read : PredicateRead rules t predicate t') :
      predicate.Means rules text t.context.tables := by
    obtain ⟨before, after, split, counted⟩ := keeps.located read.run
    refine ⟨⟨before, after, split, read.index.trans counted⟩, read.grammar, ?_⟩
    have condition := read.condition
    rwa [keeps.source] at condition
  induction h with
  | single read noAnd noOr =>
    intro predicate mem
    obtain rfl := List.mem_singleton.1 mem
    exact first keeps read
  | @and s s₁ s' predicate formula read word rest ih | @or s s₁ s' predicate formula read word rest ih =>
    intro other mem
    have passed := read.run.trans (run_token word)
    rcases List.mem_cons.1 mem with rfl | mem
    · exact first keeps read
    · have later := ih (keeps.editsOnly passed) other mem
      rwa [passed.tables_eq] at later

end SqlRouting.Grammar
