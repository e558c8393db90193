import SqlRouting.Grammar.Predicate
import SqlRouting.Proofs.Shape

/-!
# Predicates that restrict a sharding column

What the tokens of a predicate say about it, without a parser: which columns and values they write,
and which route condition they set. A condition is a promise about rows, so rows are given a meaning
as well, and a list of predicates holds for a row as usual, where `AND` binds tighter than `OR`.

## Main definitions

* `SqlRouting.Grammar.PlainValue` — the tokens that write a value a route can be computed from.
* `SqlRouting.Grammar.Refers` — the tokens that refer to a column of known tables.
* `SqlRouting.Grammar.Sets` — the tokens of a predicate that sets a condition.
* `SqlRouting.Grammar.StarQualified` — the tokens that start with a column named by a star.
* `SqlRouting.Grammar.PredicateTokens` — the tokens that a predicate may have at all.
* `SqlRouting.Grammar.Formula` — predicates with words between them.
* `SqlRouting.Row` — a row, as far as conditions look at it.

## Main results

* `SqlRouting.Grammar.plainValue_iff` — plain values are the lone literals and placeholders.
* `SqlRouting.Grammar.Formula.satisfies_of_holds` — rows for which a list of predicates holds
  satisfy its conditions.
-/

set_option autoImplicit false

namespace SqlRouting

open TokenStream

namespace Grammar

variable {source : String} {index : Nat} {tokens : List Token}

/-! ## Columns and values -/

/-- The tokens write a plain value, where `index` placeholders come before them: a string, a
placeholder, or a number with at most one sign. -/
inductive PlainValue (index : Nat) : List Token → RoutingValue → Prop
  /-- A string. -/
  | text (value : String) (span : Span) : PlainValue index [⟨.string value, span⟩] (.text value)
  /-- A number without a sign. -/
  | number (literal : String) (span : Span) :
      PlainValue index [⟨.number literal, span⟩] (.number literal)
  /-- A number after a plus, which is dropped. -/
  | positive (literal : String) (sign span : Span) :
      PlainValue index [⟨.symbol .plus, sign⟩, ⟨.number literal, span⟩] (.number literal)
  /-- A number after a minus. -/
  | negative (literal : String) (sign span : Span) :
      PlainValue index [⟨.symbol .minus, sign⟩, ⟨.number literal, span⟩] (.number ("-" ++ literal))
  /-- A placeholder, which is numbered by those before it. -/
  | placeholder (span : Span) : PlainValue index [⟨.symbol .question, span⟩] (.placeholder index)

/-- The tokens write plain values with commas between, where `index` placeholders come before. -/
def PlainValues (index : Nat) (tokens : List Token) (values : List RoutingValue) : Prop :=
  Separated PlainValue index tokens values

/-- The tokens refer to a column of one of `tables`: through its name or alias, or by a name alone
while there is a single table. -/
inductive Refers (source : String) (tables : Tables) : List Token → Column → Prop
  /-- A name after an owner and a dot. -/
  | qualified (owner name : String) (span dot : Span) (token : Token) (table : Table)
      (named : columnName? source token = some name) (found : tables.find? owner = some table) :
      Refers source tables [⟨.identifier owner, span⟩, ⟨.symbol .dot, dot⟩, token]
        ⟨name, table.name⟩
  /-- A name alone. -/
  | bare (name : String) (span : Span) (table : Table) (single : tables.toList = [table]) :
      Refers source tables [⟨.identifier name, span⟩] ⟨name, table.name⟩

/-- The tokens write two plain values with `AND` between, where `index` placeholders come before. -/
def PlainRange (index : Nat) (tokens : List Token) (low high : RoutingValue) : Prop :=
  ∃ left conjunction right, tokens = left ++ conjunction :: right ∧ PlainValue index left low ∧
    conjunction.kind = .keyword .AND ∧ PlainValue (index + placeholders left) right high

/-! ## Conditions -/

/-- The tokens after the left side of a predicate restrict `column` to plain values. -/
inductive Restricts (index : Nat) (column : Column) : List Token → RouteCondition → Prop
  /-- An equality. -/
  | equal {sign : Token} {right : List Token} {value : RoutingValue}
      (isSign : sign.kind = .symbol .eq) (plain : PlainValue index right value) :
      Restricts index column (sign :: right) (.equal column value)
  /-- A list of values. -/
  | within {word opening closing : Token} {list : List Token} {values : List RoutingValue}
      (isWord : word.kind = .keyword .IN) (opens : opening.kind = .symbol .leftParen)
      (plain : PlainValues index list values) (closes : closing.kind = .symbol .rightParen) :
      Restricts index column (word :: opening :: (list ++ [closing])) (.within column values)
  /-- A range of values. -/
  | between {word : Token} {range : List Token} {low high : RoutingValue}
      (isWord : word.kind = .keyword .BETWEEN) (plain : PlainRange index range low high) :
      Restricts index column (word :: range) (.between column low high)

/-- The tokens of a predicate set a condition on a sharding column of one of `tables`, where `index`
placeholders come before them. -/
inductive Sets (rules : ShardingRule) (source : String) (tables : Tables) (index : Nat) :
    List Token → RouteCondition → Prop
  /-- A reference to the column, and what restricts it. -/
  | intro {left right : List Token} {column : Column} {condition : RouteCondition}
      (refers : Refers source tables left column)
      (sharding : rules.isShardingColumn column.name column.tableName = true)
      (restricts : Restricts index column right condition) :
      Sets rules source tables index (left ++ right) condition

/-- The tokens start with an owner, a dot and the name of a column that is a star in quotes. -/
def StarQualified (source : String) (tokens : List Token) : Prop :=
  ∃ owner dot name rest, tokens = owner :: dot :: name :: rest ∧ dot.kind = .symbol .dot ∧
    columnName? source name = some "*"

/-! ## The tokens of predicates -/

/-- The tokens write operands with commas between. -/
inductive Operands : List Token → Prop
  /-- An operand alone. -/
  | one {tokens : List Token} (first : Operand tokens) : Operands tokens
  /-- An operand in front of others. -/
  | cons {tokens rest : List Token} {comma : Token} (first : Operand tokens)
      (isComma : comma.kind = .symbol .comma) (more : Operands rest) :
      Operands (tokens ++ comma :: rest)

/-- The tokens write two operands with `AND` between. -/
def Range (tokens : List Token) : Prop :=
  ∃ low conjunction high, tokens = low ++ conjunction :: high ∧ Operand low ∧
    conjunction.kind = .keyword .AND ∧ Operand high

/-- The tokens after the left side of a predicate, or after `NOT`, that ask for one of some values,
for a range or for a pattern. -/
inductive Choice : List Token → Prop
  /-- A query, or whatever is in the parentheses. -/
  | query {word : Token} {group : List Token} (isWord : word.kind = .keyword .IN)
      (balanced : group = [] ∨ Group group) : Choice (word :: group)
  /-- A range. -/
  | between {word : Token} {range : List Token} (isWord : word.kind = .keyword .BETWEEN)
      (isRange : Range range) : Choice (word :: range)
  /-- A pattern. -/
  | like {word : Token} {pattern : List Token} (isWord : word.kind = .keyword .LIKE)
      (operand : Operand pattern) : Choice (word :: pattern)

/-- The tokens that may come after the left side of a predicate. -/
inductive Tail : List Token → Prop
  /-- Nothing. -/
  | nil : Tail []
  /-- A comparison. -/
  | comparison {sign : Token} {symbol : Symbol} {right : List Token}
      (isSign : sign.kind = .symbol symbol) (compares : symbol.isComparison = true)
      (operand : Operand right) : Tail (sign :: right)
  /-- A query, a range or a pattern. -/
  | choice {tokens : List Token} (chosen : Choice tokens) : Tail tokens
  /-- A list of values. -/
  | within {word opening closing : Token} {list : List Token} (isWord : word.kind = .keyword .IN)
      (opens : opening.kind = .symbol .leftParen) (operands : Operands list)
      (closes : closing.kind = .symbol .rightParen) : Tail (word :: opening :: (list ++ [closing]))
  /-- A query, a range or a pattern that is denied. -/
  | negated {word : Token} {tokens : List Token} (isWord : word.kind = .keyword .NOT)
      (chosen : Choice tokens) : Tail (word :: tokens)
  /-- A test for a truth value, possibly denied. -/
  | truth {word value : Token} {negation : List Token} {keyword : Keyword}
      (isWord : word.kind = .keyword .IS)
      (denied : negation = [] ∨ ∃ token, negation = [token] ∧ token.kind = .keyword .NOT)
      (isValue : value.kind = .keyword keyword)
      (isTruth : keyword ∈ [Keyword.NULL, .TRUE, .FALSE]) : Tail (word :: (negation ++ [value]))

/-- The tokens that a predicate may have. A word like those between predicates is among them only
inside an operand, or where it belongs to a range. -/
def PredicateTokens (tokens : List Token) : Prop :=
  ∃ left right, tokens = left ++ right ∧ Operand left ∧ Tail right

/-! ## Plain values are lone literals -/

/-- Plain values are the lone literals and placeholders. -/
lemma plainValue_iff (source : String) {value : RoutingValue} : PlainValue index tokens value ↔
    ∃ node, Lone source index tokens node ∧ RoutingValue.ofNode? node = some value := by
  constructor
  · intro h
    cases h with
    | text value span => exact ⟨_, .text value span, rfl⟩
    | number literal span => exact ⟨_, .number literal span, rfl⟩
    | positive literal sign span => exact ⟨_, .positive literal sign span, rfl⟩
    | negative literal sign span => exact ⟨_, .negative literal sign span, rfl⟩
    | placeholder span => exact ⟨_, .placeholder span, rfl⟩
  · rintro ⟨node, lone, isValue⟩
    cases lone with
    | text text span =>
      cases isValue
      exact .text text span
    | number literal span =>
      cases isValue
      exact .number literal span
    | positive literal sign span =>
      cases isValue
      exact .positive literal sign span
    | negative literal sign span =>
      cases isValue
      exact .negative literal sign span
    | placeholder span =>
      cases isValue
      exact .placeholder span
    | bare name span => cases isValue
    | qualified owner name span dot token named noStar => cases isValue

/-- The shape that tokens write is a plain value exactly if the tokens write the value. -/
lemma Written.ofNode_iff {node : ExpressionNode} {value : RoutingValue}
    (h : Written source index tokens node) :
    RoutingValue.ofNode? node = some value ↔ PlainValue index tokens value := by
  constructor
  · intro isValue
    have lone : Lone source index tokens node := h.lone (by rintro text rfl; cases isValue)
    exact (plainValue_iff source).2 ⟨node, lone, isValue⟩
  · intro plain
    obtain ⟨lone, written, isValue⟩ := (plainValue_iff source).1 plain
    rw [h.eq_of_lone written, isValue]

/-! ## References are lone references -/

/-- A reference has no placeholders. -/
lemma Refers.placeholders_eq {tables : Tables} {column : Column}
    (h : Refers source tables tokens column) : placeholders tokens = 0 := by
  cases h with
  | qualified owner name span dot token table named found =>
    have plain : token.kind ≠ .symbol .question := by
      intro isPlaceholder
      simp [columnName?, isPlaceholder] at named
    rw [placeholders_cons_of_ne (by simp), placeholders_cons_of_ne (by simp),
      placeholders_cons_of_ne plain, placeholders_nil]
  | bare name span table single => rw [placeholders_cons_of_ne (by simp), placeholders_nil]

/-- A reference whose column is not named by a star is a lone reference to the column. -/
lemma Refers.exists_lone {tables : Tables} {column : Column} (index : Nat)
    (h : Refers source tables tokens column) (noStar : ¬ StarQualified source tokens) :
    ∃ node, Lone source index tokens node ∧ column? tables node = some column := by
  cases h with
  | qualified owner name span dot token table named found =>
    have otherName : name ≠ "*" := by
      rintro rfl
      exact noStar ⟨_, _, _, [], rfl, rfl, named⟩
    exact ⟨_, .qualified owner name span dot token named otherName, by simp [column?, found]⟩
  | bare name span table single =>
    exact ⟨_, .bare name span, by simp [column?, Tables.isSingle, Tables.firstName?, single]⟩

/-- A lone reference to a column is a reference whose column is not named by a star. -/
lemma Lone.refers {tables : Tables} {column : Column} {node : ExpressionNode}
    (h : Lone source index tokens node) (known : column? tables node = some column) :
    Refers source tables tokens column ∧ ∀ token rest, token.kind ≠ .symbol .dot →
      ¬ StarQualified source (tokens ++ token :: rest) := by
  cases h with
  | qualified owner name span dot name' named noStar =>
    obtain ⟨table, found, rfl⟩ := Option.map_eq_some_iff.1 known
    refine ⟨.qualified owner name span dot name' table named found, fun token rest _ star => ?_⟩
    obtain ⟨_, _, starName, _, same, -, isStar⟩ := star
    simp only [List.cons_append, List.cons.injEq] at same
    obtain ⟨-, -, rfl, -⟩ := same
    rw [named] at isStar
    exact noStar (Option.some.inj isStar)
  | bare name span =>
    simp only [column?] at known
    split at known
    · rename_i isSingle
      obtain ⟨table, single⟩ := List.length_eq_one_iff.1 (by simpa [Tables.isSingle] using isSingle)
      have isColumn : column = ⟨name, table.name⟩ := by
        simpa [Tables.firstName?, single, eq_comm] using known
      refine ⟨isColumn ▸ .bare name span table single, fun token rest noDot star => ?_⟩
      obtain ⟨_, dot, _, _, same, isDot, -⟩ := star
      simp only [List.cons_append, List.nil_append, List.cons.injEq] at same
      exact noDot (same.2.1 ▸ isDot)
    · cases known
  | _ => cases known

/-- The tokens in front of a predicate that is not star-qualified are not star-qualified. -/
lemma StarQualified.append {rest : List Token} (h : StarQualified source tokens) :
    StarQualified source (tokens ++ rest) := by
  obtain ⟨owner, dot, name, more, rfl, isDot, isStar⟩ := h
  exact ⟨owner, dot, name, more ++ rest, rfl, isDot, isStar⟩

/-! ## Restrictions -/

/-- What restricts a column starts with one of three tokens. -/
lemma Restricts.starts {column : Column} {first : Token} {rest : List Token}
    {condition : RouteCondition} (h : Restricts index column (first :: rest) condition) :
    first.kind = .symbol .eq ∨ first.kind = .keyword .IN ∨ first.kind = .keyword .BETWEEN := by
  cases h with
  | equal isSign plain => exact .inl isSign
  | within isWord opens plain closes => exact .inr (.inl isWord)
  | between isWord plain => exact .inr (.inr isWord)

/-- What restricts a column after an equality sign is a value. -/
lemma Restricts.of_eq {column : Column} {sign : Token} {right : List Token}
    {condition : RouteCondition} (isSign : sign.kind = .symbol .eq)
    (h : Restricts index column (sign :: right) condition) :
    ∃ value, PlainValue index right value ∧ condition = .equal column value := by
  cases h with
  | equal _ plain => exact ⟨_, plain, rfl⟩
  | within isWord opens plain closes => simp [isSign] at isWord
  | between isWord plain => simp [isSign] at isWord

/-- What restricts a column after `IN` is a list of values in parentheses. -/
lemma Restricts.of_in {column : Column} {word : Token} {rest : List Token}
    {condition : RouteCondition} (isWord : word.kind = .keyword .IN)
    (h : Restricts index column (word :: rest) condition) :
    ∃ opening list closing values, rest = opening :: (list ++ [closing]) ∧
      PlainValues index list values ∧ condition = .within column values := by
  cases h with
  | equal isSign plain => simp [isWord] at isSign
  | within _ opens plain closes => exact ⟨_, _, _, _, rfl, plain, rfl⟩
  | between isWord' plain => simp [isWord] at isWord'

/-- What restricts a column after `BETWEEN` is a range of values. -/
lemma Restricts.of_between {column : Column} {word : Token} {range : List Token}
    {condition : RouteCondition} (isWord : word.kind = .keyword .BETWEEN)
    (h : Restricts index column (word :: range) condition) :
    ∃ low high, PlainRange index range low high ∧ condition = .between column low high := by
  cases h with
  | equal isSign plain => simp [isWord] at isSign
  | within isWord' opens plain closes => simp [isWord] at isWord'
  | between _ plain => exact ⟨_, _, plain, rfl⟩

/-- A plain value does not start with a keyword. -/
lemma PlainValue.starts {value : RoutingValue} (h : PlainValue index tokens value) :
    ∃ first rest, tokens = first :: rest ∧ ∀ keyword, first.kind ≠ .keyword keyword := by
  cases h <;> exact ⟨_, _, rfl, by simp⟩

/-- A list of plain values does not start with a keyword. -/
lemma PlainValues.starts {values : List RoutingValue} (h : PlainValues index tokens values) :
    ∃ first rest, tokens = first :: rest ∧ ∀ keyword, first.kind ≠ .keyword keyword := by
  cases h with
  | one first => exact first.starts
  | cons first isComma more =>
    obtain ⟨token, rest, rfl, plain⟩ := first.starts
    exact ⟨token, _, rfl, plain⟩

/-- What restricts a column is not empty. -/
lemma Restricts.ne_nil {column : Column} {condition : RouteCondition}
    (h : Restricts index column tokens condition) : tokens ≠ [] := by
  cases h <;> simp

/-! ## Lists of predicates -/

/-- A predicate of a list, as it is read. -/
structure ReadPredicate where
  /-- The number of placeholders before it. -/
  index : Nat
  /-- Its tokens. -/
  tokens : List Token
  /-- The condition that it sets. -/
  condition : Option RouteCondition

/-- Predicates with words between them. -/
inductive Formula
  /-- A predicate alone. -/
  | single (predicate : ReadPredicate)
  /-- A predicate with `AND` after it. -/
  | and (predicate : ReadPredicate) (rest : Formula)
  /-- A predicate with `OR` after it. -/
  | or (predicate : ReadPredicate) (rest : Formula)

namespace Formula

/-- The predicates in their order. -/
def predicates : Formula → List ReadPredicate
  | single predicate => [predicate]
  | and predicate rest => predicate :: rest.predicates
  | or predicate rest => predicate :: rest.predicates

/-- Whether `OR` is one of the words. -/
def hasOr : Formula → Bool
  | single _ => false
  | and _ rest => rest.hasOr
  | or _ _ => true

/-- The conditions that are recorded for the predicates. -/
def conditions (formula : Formula) : List RouteCondition :=
  if formula.hasOr then [] else formula.predicates.filterMap ReadPredicate.condition

/-- The groups of predicates between the words `OR`. -/
def groups : Formula → List (List ReadPredicate)
  | single predicate => [[predicate]]
  | and predicate rest =>
    match rest.groups with
    | [] => [[predicate]]
    | group :: groups => (predicate :: group) :: groups
  | or predicate rest => [predicate] :: rest.groups

/-- The list of predicates holds if one of its groups holds throughout. -/
def Holds (truth : ReadPredicate → Prop) (formula : Formula) : Prop :=
  ∃ group ∈ formula.groups, ∀ predicate ∈ group, truth predicate

/-- Without `OR` there is one group, of all predicates. -/
lemma groups_of_hasOr {formula : Formula} (noOr : formula.hasOr = false) :
    formula.groups = [formula.predicates] := by
  induction formula with
  | single predicate => rfl
  | and predicate rest ih => rw [groups, ih noOr, predicates]
  | or predicate rest ih => cases noOr

end Formula

/-- What the reading of a predicate of a text means: its tokens are those of a predicate and stand in
the text after `index` placeholders, and its condition is the one that the tokens set on `tables`,
unless its column is named by a star. -/
structure ReadPredicate.Means (rules : ShardingRule) (text : String) (tables : Tables)
    (predicate : ReadPredicate) : Prop where
  /-- The tokens stand in the text, after as many placeholders as are counted. -/
  located : ∃ before after, Lexer.tokens text = before ++ predicate.tokens ++ after ∧
    predicate.index = placeholders before
  /-- The tokens are those of a predicate. -/
  grammar : PredicateTokens predicate.tokens
  /-- The condition is the one that the tokens set. -/
  condition : ∀ condition, predicate.condition = some condition ↔
    Sets rules text tables predicate.index predicate.tokens condition ∧
      ¬ StarQualified text predicate.tokens

end Grammar

/-! ## Rows -/

/-- A row, as far as conditions look at it: the values of its columns, what values stand for, and
how they compare. -/
structure Row (Value : Type) where
  /-- The value of a column. -/
  column : Column → Value
  /-- The value that a literal or a placeholder stands for. -/
  value : RoutingValue → Value
  /-- Equality of values. -/
  equal : Value → Value → Prop
  /-- The order of values. -/
  atMost : Value → Value → Prop

/-- A row satisfies a condition. -/
def Row.Satisfies {Value : Type} (row : Row Value) (condition : RouteCondition) : Prop :=
  match condition.operator, condition.values with
  | .equal, [value] => row.equal (row.column condition.column) (row.value value)
  | .within, values => ∃ value ∈ values, row.equal (row.column condition.column) (row.value value)
  | .between, [low, high] =>
    row.atMost (row.value low) (row.column condition.column) ∧
      row.atMost (row.column condition.column) (row.value high)
  | _, _ => False

/-- Rows for which a list of predicates holds satisfy its conditions, where each predicate that sets
a condition is true only of rows that satisfy it. -/
lemma Grammar.Formula.satisfies_of_holds {Value : Type} {row : Row Value}
    {truth : ReadPredicate → Prop} {formula : Formula}
    (sound : ∀ predicate ∈ formula.predicates, ∀ condition,
      predicate.condition = some condition → truth predicate → row.Satisfies condition)
    (holds : formula.Holds truth) {condition : RouteCondition}
    (recorded : condition ∈ formula.conditions) : row.Satisfies condition := by
  obtain ⟨group, isGroup, allTrue⟩ := holds
  unfold conditions at recorded
  cases noOr : formula.hasOr with
  | true => simp [noOr] at recorded
  | false =>
    rw [noOr, if_neg (by simp), List.mem_filterMap] at recorded
    obtain ⟨predicate, mem, isCondition⟩ := recorded
    rw [groups_of_hasOr noOr, List.mem_singleton] at isGroup
    subst isGroup
    exact sound predicate mem condition isCondition (allTrue predicate mem)

end SqlRouting
