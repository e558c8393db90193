import SqlRouting.Proofs.Expression
import SqlRouting.Proofs.Orderly

/-!
# Traced expressions

The parsers of expressions with their events. An expression is a call. Its operands begin behind its first
token, and so do the operands of the operators after it, each of which stands behind the operator.

## Main definitions

* `SqlRouting.Traced.expression` — reads an expression.
* `SqlRouting.Traced.aliasName` — reads an alias, if there is one.

## Main results

* `SqlRouting.Traced.parser_expression` — without its events it is the parser of expressions.
* `SqlRouting.Traced.orderly_expression` — its events are in order.
-/

set_option autoImplicit false

namespace SqlRouting.Traced

open SqlRouting.Parser SqlRouting.Grammar

/-! ## The parts of an expression -/

section Parts

variable (operand : Traced Expression)

/-- Steps past at most `n` operators, each with its right operand. -/
def compositeUpTo : Nat → Traced Unit
  | 0 => bounded (return ())
  | n + 1 => do
    let left ← still remaining
    if ← still checkComposite then
      let _ ← advance
      let _ ← operand
      again left (compositeUpTo n)
    else return ()

/-- Steps past operators with their right operands. -/
def compositeWith : Traced Unit := counted do
  compositeUpTo operand (← still remaining)

/-- The rest of an expression that starts with an operator of one operand. -/
def unaryWith (start : Nat) : Traced ExpressionNode := do
  let _ ← advance
  let _ ← operand
  return .other (← still (textFrom start))

/-- A number after its sign, or else the operand of the sign. -/
def signedWith (start : Nat) (sign : String) : Traced ExpressionNode := do
  match ← still peek with
  | .number literal =>
    let _ ← advance
    let _ ← advance
    return .number (sign ++ literal)
  | _ => unaryWith operand start

/-- What starts with a keyword. -/
def keywordWith (start : Nat) (keyword : Keyword) : Traced ExpressionNode := do
  if keyword == .NOT || keyword == .EXISTS then unaryWith operand start
  else if keyword == .CASE then
    skipGroup .conditional
    return .other (← still (textFrom start))
  else if isValueKeyword keyword || (← still peek) == .symbol .leftParen then
    let _ ← advance
    return .other (← still (textFrom start))
  else still (unexpected .expression)

/-- What starts with a symbol. -/
def symbolWith (start : Nat) (symbol : Symbol) : Traced ExpressionNode := do
  match symbol with
  | .question => return .placeholder (← placeholder)
  | .minus => signedWith operand start "-"
  | .plus => signedWith operand start ""
  | .tilde | .bang => unaryWith operand start
  | .leftParen =>
    skipParentheses
    return .other (← still (textFrom start))
  | _ => still (unexpected .expression)

/-- The part of an expression before any operator or arguments. -/
def primaryWith : Traced ExpressionNode := do
  let start ← still offset
  match ← still kind with
  | .string value =>
    let _ ← advance
    return .text value
  | .number literal =>
    let _ ← advance
    return .number literal
  | .identifier name =>
    let _ ← advance
    return .bare name
  | .userVariable _ =>
    let _ ← advance
    return .other (← still (textFrom start))
  | .keyword keyword => keywordWith operand start keyword
  | .symbol symbol => symbolWith operand start symbol
  | _ => still (unexpected .expression)

instance : Rests columnName where
  stream_eq success := by rw [(run_columnName_ok success).1]

instance (rules : ShardingRule) (owner : String) (span : Span) : Rests (recordOwner rules owner span) where
  stream_eq success := (recordOwner_run success).2

/-- The rest of a reference after its owner and the dot. -/
def qualifiedWith (rules : ShardingRule) (owner : String) (ownerSpan : Span) :
    Traced ExpressionNode := do
  let name ← still columnName
  let _ ← advance
  still (recordOwner rules owner ownerSpan)
  if (← still checkComposite) || name == "*" then
    compositeWith operand
    return .other (← still (textFrom ownerSpan.start))
  else return .qualified owner name

/-- A reference to a column after its first name. -/
def referenceWith (rules : ShardingRule) (start : Nat) : ExpressionNode → Traced ExpressionNode
  | .bare owner => do
    if ← still (checkSymbol .dot) then
      let dot ← advance
      qualifiedWith operand rules owner ⟨start, dot.span.start⟩
    else return .bare owner
  | node => return node

/-- The list of arguments after the part of an expression that may be called. -/
def argumentsAfter (start : Nat) (node : ExpressionNode) : Traced ExpressionNode := do
  if (← still (checkSymbol .leftParen)) && node.isCallable then
    skipParentheses
    return .other (← still (textFrom start))
  else return node

/-- The operators after an expression, with their right operands. -/
def operatorsWith (start : Nat) (node : ExpressionNode) : Traced ExpressionNode := do
  if ← still checkComposite then
    compositeWith operand
    return .other (← still (textFrom start))
  else return node

/-- An expression with given operands. -/
def expressionWith (rules : ShardingRule) : Traced Expression := do
  let start ← still offset
  let node ← primaryWith operand
  let node ← referenceWith operand rules start node
  let node ← argumentsAfter start node
  let node ← operatorsWith operand start node
  return ⟨node, ⟨start, ← still previousEnd⟩⟩

end Parts

/-! ## Whole expressions -/

/-- Reads an expression while at most `n` tokens are left. -/
def expressionUpTo (rules : ShardingRule) : Nat → Traced Expression
  | 0 => call (bounded (still (unexpected .expression)))
  | n + 1 => counted (call (expressionWith (expressionUpTo rules n) rules))

/-- Reads an expression. -/
def expression (rules : ShardingRule) : Traced Expression := do
  expressionUpTo rules (← still remaining)

/-- Steps past operators with their right operands. -/
def composite (rules : ShardingRule) : Traced Unit :=
  compositeWith (expression rules)

/-- Reads an alias. -/
def aliasName : Traced (Option String) := counted do
  if ← skipKeyword [.AS] then
    let token ← still current
    match token.kind with
    | .identifier name =>
      let _ ← advance
      return some name
    | .string name =>
      let _ ← advance
      return some name
    | .keyword _ =>
      let _ ← advance
      return some (← still (textOf token.span))
    | _ => still (unexpected .aliasName)
  else
    match ← still kind with
    | .identifier name =>
      let _ ← advance
      return some name
    | _ => return none

/-! ## Without events -/

section Erasure

variable {rules : ShardingRule} {start : Nat} {operand : Traced Expression}

/-- At most `n` operators. -/
lemma parser_compositeUpTo (n : Nat) :
    (compositeUpTo operand n).parser = Grammar.compositeUpTo operand.parser n := by
  induction n with
  | zero => rfl
  | succ n ih => simp [compositeUpTo, Grammar.compositeUpTo, look_bind looks_remaining, ih]

/-- Operators with their operands. -/
@[simp] lemma parser_compositeWith :
    (compositeWith operand).parser = Grammar.compositeWith operand.parser := by
  simp [compositeWith, Grammar.compositeWith, parser_compositeUpTo]

/-- An operator of one operand. -/
@[simp] lemma parser_unaryWith :
    (unaryWith operand start).parser = Grammar.unaryWith operand.parser start := rfl

/-- A sign. -/
@[simp] lemma parser_signedWith (sign : String) :
    (signedWith operand start sign).parser = Grammar.signedWith operand.parser start sign := by
  refine bind_congr fun kind => ?_
  cases kind <;> rfl

/-- A keyword. -/
@[simp] lemma parser_keywordWith (keyword : Keyword) :
    (keywordWith operand start keyword).parser = Grammar.keywordWith operand.parser start keyword := by
  simp [keywordWith, Grammar.keywordWith]

/-- A symbol. -/
@[simp] lemma parser_symbolWith (symbol : Symbol) :
    (symbolWith operand start symbol).parser = Grammar.symbolWith operand.parser start symbol := by
  cases symbol <;> simp [symbolWith, Grammar.symbolWith]

/-- The part before any operator or arguments. -/
@[simp] lemma parser_primaryWith :
    (primaryWith operand).parser = Grammar.primaryWith operand.parser := by
  refine bind_congr fun start => bind_congr fun kind => ?_
  cases kind <;> simp

/-- The rest of a reference. -/
@[simp] lemma parser_qualifiedWith (owner : String) (span : Span) :
    (qualifiedWith operand rules owner span).parser =
      Grammar.qualifiedWith operand.parser rules owner span := by
  simp [qualifiedWith, Grammar.qualifiedWith]

/-- A reference. -/
@[simp] lemma parser_referenceWith (node : ExpressionNode) :
    (referenceWith operand rules start node).parser =
      Grammar.referenceWith operand.parser rules start node := by
  cases node <;> simp [referenceWith, Grammar.referenceWith]

/-- A list of arguments. -/
@[simp] lemma parser_argumentsAfter (node : ExpressionNode) :
    (argumentsAfter start node).parser = Grammar.argumentsAfter start node := by
  simp [argumentsAfter, Grammar.argumentsAfter]

/-- Operators after an expression. -/
@[simp] lemma parser_operatorsWith (node : ExpressionNode) :
    (operatorsWith operand start node).parser = Grammar.operatorsWith operand.parser start node := by
  simp [operatorsWith, Grammar.operatorsWith]

/-- An expression with given operands. -/
@[simp] lemma parser_expressionWith :
    (expressionWith operand rules).parser = Grammar.expressionWith operand.parser rules := by
  simp [expressionWith, Grammar.expressionWith]

/-- An expression within a bound. -/
lemma parser_expressionUpTo (n : Nat) :
    (expressionUpTo rules n).parser = Grammar.expressionUpTo rules n := by
  induction n with
  | zero => rfl
  | succ n ih => simp [expressionUpTo, Grammar.expressionUpTo, ih]

/-- An expression. -/
@[simp] lemma parser_expression : (expression rules).parser = Grammar.expression rules := by
  simp [expression, Grammar.expression, parser_expressionUpTo]

/-- Operators with their operands. -/
@[simp] lemma parser_composite : (composite rules).parser = Grammar.composite rules := by
  simp [composite, Grammar.composite]

/-- An alias. -/
@[simp] lemma parser_aliasName : aliasName.parser = Grammar.aliasName := by
  rw [aliasName, parser_counted, parser_bind, parser_skipKeyword]
  refine bind_congr fun present => ?_
  cases present with
  | true => exact bind_congr fun ⟨kind, _⟩ => by cases kind <;> rfl
  | false => exact bind_congr fun kind => by cases kind <;> rfl

end Erasure

/-! ## In order -/

variable {top low high left start : Nat} {rules : ShardingRule}

section Parts

variable {operand : Traced Expression}
  (later : ∀ {low high}, high < top → Orderly top low high operand)

include later

/-- Operators are passed in order, if their operands are. Each operand stands behind its operator. -/
lemma orderly_compositeWith (within : high ≤ top) : Orderly top low high (compositeWith operand) := by
  have upTo (n : Nat) : ∀ {low high}, high ≤ top → high ≤ n →
      Orderly top low high (compositeUpTo operand n) := by
    induction n with
    | zero => exact fun _ enough => .bounded (Nat.le_zero.1 enough) (.pure _)
    | succ n ih =>
      intro low high within enough
      refine .see_remaining fun left least most => .see_composite fun joined left' least' most' remains => ?_
      refine .ite (fun isTrue => .pass (remains isTrue) fun _ => ?_) fun _ => .pure _
      have remains := remains isTrue
      exact (later (by omega)).bind fun _ => .again (by omega) (ih (by omega) (by omega))
  exact .counted (.see_remaining fun left least most => upTo left (by omega) (Nat.le_refl _))

/-- An operator of one operand is passed in order. -/
lemma orderly_unaryWith (remains : 1 ≤ left) (within : left ≤ top) :
    Orderly top left left (unaryWith operand start) :=
  .pass remains fun _ => (later (by omega)).bind fun _ => .look fun _ => .pure _

/-- A sign is passed in order. -/
lemma orderly_signedWith (remains : 1 ≤ left) (within : left ≤ top) (sign : String) :
    Orderly top left left (signedWith operand start sign) := by
  refine .see_peek fun kind left' least most two => ?_
  obtain rfl := Nat.le_antisymm most least
  split
  · have two := two (by simp)
    exact .pass remains fun _ => .pass (by omega) fun _ => .pure _
  · exact orderly_unaryWith later remains within

/-- What starts with a keyword is passed in order. -/
lemma orderly_keywordWith (remains : 1 ≤ left) (within : left ≤ top) (keyword : Keyword) :
    Orderly top left left (keywordWith operand start keyword) := by
  refine .ite (fun _ => orderly_unaryWith later remains within) fun _ => .ite (fun _ => ?_) fun _ => ?_
  · exact (Orderly.skipGroup _).bind fun _ => .look fun _ => .pure _
  · refine .look fun kind => .ite (fun _ => ?_) fun _ => .still _
    exact .pass remains fun _ => .look fun _ => .pure _

/-- What starts with a symbol is passed in order. -/
lemma orderly_symbolWith (remains : 1 ≤ left) (within : left ≤ top) (symbol : Symbol) :
    Orderly top left left (symbolWith operand start symbol) := by
  unfold symbolWith
  split
  · exact (Orderly.placeholder remains).bind fun _ => .pure _
  · exact orderly_signedWith later remains within _
  · exact orderly_signedWith later remains within _
  · exact orderly_unaryWith later remains within
  · exact orderly_unaryWith later remains within
  · exact Orderly.skipParentheses.bind fun _ => .look fun _ => .pure _
  · exact .still _

/-- The part before any operator or arguments is passed in order. -/
lemma orderly_primaryWith (within : high ≤ top) : Orderly top low high (primaryWith operand) := by
  refine .look fun start => .see_kind fun kind left least most remains => ?_
  have within : left ≤ top := by omega
  split
  · exact .pass (remains (by simp)) fun _ => .pure _
  · exact .pass (remains (by simp)) fun _ => .pure _
  · exact .pass (remains (by simp)) fun _ => .pure _
  · exact .pass (remains (by simp)) fun _ => .look fun _ => .pure _
  · exact orderly_keywordWith later (remains (by simp)) within _
  · exact orderly_symbolWith later (remains (by simp)) within _
  · exact .still _

/-- The rest of a reference is passed in order. -/
lemma orderly_qualifiedWith (within : high ≤ top) (owner : String) (span : Span) :
    Orderly top low high (qualifiedWith operand rules owner span) := by
  have isName : ∀ {s : ParserState} {name : String} {s' : ParserState},
      columnName.run s = .ok (name, s') → 1 ≤ s.stream.remaining := by
    intro s name s' success
    refine TokenStream.remaining_pos rfl fun isEnd => ?_
    have named := (run_columnName_ok success).2.1
    rw [isEnd] at named
    cases named
  refine .see (S := fun _ left => 1 ≤ left) isName fun name left least most remains => ?_
  refine .pass remains fun _ => .look fun _ => .look fun joined => .ite (fun _ => ?_) fun _ => .pure _
  exact (orderly_compositeWith later (by omega)).bind fun _ => .look fun _ => .pure _

/-- A reference is passed in order. -/
lemma orderly_referenceWith (within : high ≤ top) (node : ExpressionNode) :
    Orderly top low high (referenceWith operand rules start node) := by
  unfold referenceWith
  split
  · refine .see_symbol fun isDot left least most remains => ?_
    refine .ite (fun isTrue => .pass (remains isTrue) fun dot => ?_) fun _ => .pure _
    exact orderly_qualifiedWith later (by omega) _ _
  · exact .pure _

omit later in
/-- A list of arguments is passed in order. -/
lemma orderly_argumentsAfter (node : ExpressionNode) :
    Orderly top low high (argumentsAfter start node) := by
  refine .look fun opened => .ite (fun _ => ?_) fun _ => .pure _
  exact Orderly.skipParentheses.bind fun _ => .look fun _ => .pure _

/-- Operators after an expression are passed in order. -/
lemma orderly_operatorsWith (within : high ≤ top) (node : ExpressionNode) :
    Orderly top low high (operatorsWith operand start node) := by
  refine .look fun joined => .ite (fun _ => ?_) fun _ => .pure _
  exact (orderly_compositeWith later within).bind fun _ => .look fun _ => .pure _

/-- An expression is passed in order if its operands are, wherever they begin behind its first token. -/
lemma orderly_expressionWith (within : high ≤ top) :
    Orderly top low high (expressionWith operand rules) := by
  refine .look fun start => (orderly_primaryWith later within).bind fun node => ?_
  refine (orderly_referenceWith later within node).bind fun node => ?_
  refine (orderly_argumentsAfter node).bind fun node => ?_
  exact (orderly_operatorsWith later within node).bind fun node => .look fun _ => .pure _

end Parts

/-- An expression is passed in order within a bound that the tokens that are left fit in.

**Proof sketch.** Induction on the bound. An operand begins behind the first token of the expression, so
that one token less is left, and one less is the bound. -/
lemma orderly_expressionUpTo {n : Nat} (begun : high < top) (enough : high ≤ n) :
    Orderly top low high (expressionUpTo rules n) := by
  induction n generalizing top low high with
  | zero => exact .call begun fun left most => .bounded (by omega) (.still _)
  | succ n ih =>
    refine .counted (.call begun fun left most => ?_)
    exact orderly_expressionWith (fun {low high} later => ih later (by omega)) (Nat.le_refl _)

/-- An expression is passed in order. -/
lemma orderly_expression (begun : high < top) : Orderly top low high (expression rules) :=
  .see_remaining fun left _ most => orderly_expressionUpTo (by omega) (Nat.le_refl left)

/-- Operators with their operands are passed in order. -/
lemma orderly_composite (within : high ≤ top) : Orderly top low high (composite rules) :=
  orderly_compositeWith orderly_expression within

/-- An alias is passed in order. -/
lemma orderly_aliasName : Orderly top low high aliasName := by
  refine .counted (.skipKeyword (fun _ => ?_) ?_)
  · refine .see_current fun token left least most remains => ?_
    split <;> rename_i same
    · exact .pass (remains (by simp [same])) fun _ => .pure _
    · exact .pass (remains (by simp [same])) fun _ => .pure _
    · exact .pass (remains (by simp [same])) fun _ => .look fun _ => .pure _
    · exact .still _
  · refine .see_kind fun kind left least most remains => ?_
    split
    · exact .pass (remains (by simp)) fun _ => .pure _
    · exact .pure _

end SqlRouting.Traced
