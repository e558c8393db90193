import SqlRouting.Proofs.Query

/-!
# Conditions of queries

A query is routed by the conditions that its predicates set, so each recorded condition has to hold
of every row that the query may return. This is so for every accepted query. Conversely, a list of
predicates without `OR` should give all conditions that its predicates set; it does, except that a
column named by a star in quotes is taken for all columns after an owner.

## Main definitions

* `SqlRouting.Grammar.Formula.Exact` — the conditions that a list of predicates should give.

## Main results

* `SqlRouting.Grammar.Formula.exact_iff` — when a list of predicates gives the conditions it should.
* `SqlRouting.Grammar.Formula.satisfies` — rows for which predicates hold satisfy the conditions.
* `SqlRouting.SelectStatement.conditions_exact_iff` — the same for each level of an accepted query.
-/

set_option autoImplicit false

namespace SqlRouting

open TokenStream

namespace Grammar.Formula

variable {rules : ShardingRule} {text : String} {tables : Tables} {formula : Formula}

/-! ## One list of predicates -/

/-- The conditions that a list of predicates should give where `tables` are known: none if `OR` is
one of the words, and otherwise those that the predicates set, in their order. -/
def Exact (rules : ShardingRule) (text : String) (tables : Tables) (formula : Formula)
    (conditions : List RouteCondition) : Prop :=
  if formula.hasOr then conditions = []
  else ∃ found : List (Option RouteCondition),
    List.Forall₂ (fun predicate condition? => ∀ condition, condition? = some condition ↔
      Sets rules text tables predicate.index predicate.tokens condition) formula.predicates found ∧
    conditions = found.filterMap id

/-- Where some options are known only if others are known to be the same, they have no more
values. -/
lemma length_filterMap_le {γ : Type} {known all : List (Option γ)}
    (h : List.Forall₂ (fun a b => ∀ c, a = some c → b = some c) known all) :
    (known.filterMap id).length ≤ (all.filterMap id).length := by
  induction h with
  | nil => exact Nat.le_refl _
  | @cons a b known all first rest ih =>
    cases a with
    | none =>
      cases b with
      | none => exact ih
      | some d => exact Nat.le_succ_of_le ih
    | some c =>
      obtain rfl := first c rfl
      exact Nat.succ_le_succ ih

/-- Where some options are known only if others are known to be the same, and have the same values,
they are the same. -/
lemma eq_of_filterMap_eq {γ : Type} {known all : List (Option γ)}
    (h : List.Forall₂ (fun a b => ∀ c, a = some c → b = some c) known all)
    (same : known.filterMap id = all.filterMap id) : known = all := by
  induction h with
  | nil => rfl
  | @cons a b known all first rest ih =>
    cases a with
    | none =>
      cases b with
      | none => rw [ih same]
      | some d =>
        have fewer := length_filterMap_le rest
        have more : (known.filterMap id).length = (d :: all.filterMap id).length :=
          congrArg List.length same
        rw [List.length_cons] at more
        omega
    | some c =>
      obtain rfl := first c rfl
      rw [ih (List.cons.inj same).2]

/-- The conditions of the predicates, as options. -/
lemma filterMap_condition (predicates : List ReadPredicate) :
    predicates.filterMap ReadPredicate.condition =
      (predicates.map ReadPredicate.condition).filterMap id := by
  rw [List.filterMap_map]
  rfl

/-- A list of predicates gives the conditions it should exactly if `OR` is one of its words, or none
of its predicates that set a condition does so on a column named by a star.

**Proof sketch.** A predicate gives the condition that it sets unless its column is named by a star.
So the conditions that are given are among those that should be, in the same order, and if there
are as many of them, then each predicate gives the one that it sets. -/
lemma exact_iff (means : ∀ predicate ∈ formula.predicates, predicate.Means rules text tables) :
    formula.Exact rules text tables formula.conditions ↔
      formula.hasOr = true ∨ ∀ predicate ∈ formula.predicates, ∀ condition,
        Sets rules text tables predicate.index predicate.tokens condition →
          ¬ StarQualified text predicate.tokens := by
  unfold Exact conditions
  cases noOr : formula.hasOr with
  | true => simp
  | false =>
    simp only [Bool.false_eq_true, if_false, false_or, filterMap_condition]
    constructor
    · -- the conditions that are given are among `found`, and the counts agree
      rintro ⟨found, given, same⟩ predicate mem condition sets star
      have fewer : List.Forall₂ (fun a b => ∀ c, a = some c → b = some c)
          (formula.predicates.map ReadPredicate.condition) found := by
        rw [List.forall₂_map_left_iff]
        refine ((List.forall₂_and_left _ _).2 ⟨means, given⟩).imp ?_
        rintro predicate condition? ⟨means, gives⟩ condition isSome
        exact (gives condition).2 ((means.condition condition).1 isSome).1
      have recorded := eq_of_filterMap_eq fewer same
      subst recorded
      rw [List.forall₂_map_right_iff, List.forall₂_same] at given
      have isSome := (given predicate mem condition).2 sets
      exact (((means predicate mem).condition condition).1 isSome).2 star
    · intro noStar
      refine ⟨formula.predicates.map ReadPredicate.condition, ?_, rfl⟩
      rw [List.forall₂_map_right_iff, List.forall₂_same]
      intro predicate mem condition
      rw [(means predicate mem).condition]
      exact ⟨And.left, fun sets => ⟨sets, noStar predicate mem condition sets⟩⟩

/-- Rows for which a list of predicates holds satisfy its conditions, where each predicate that sets
a condition is true only of rows that satisfy it. -/
lemma satisfies {Value : Type} {row : Row Value} {truth : ReadPredicate → Prop}
    (means : ∀ predicate ∈ formula.predicates, predicate.Means rules text tables)
    (sound : ∀ predicate ∈ formula.predicates, ∀ condition,
      Sets rules text tables predicate.index predicate.tokens condition → truth predicate →
        row.Satisfies condition)
    (holds : formula.Holds truth) :
    ∀ condition ∈ formula.conditions, row.Satisfies condition := by
  intro condition recorded
  refine satisfies_of_holds (fun predicate mem condition isSome isTrue => ?_) holds recorded
  exact sound predicate mem condition (((means predicate mem).condition condition).1 isSome).1 isTrue

end Grammar.Formula

/-! ## Accepted queries -/

namespace SelectStatement

open Grammar

/-- The conditions of an accepted query are those of the lists of predicates after `WHERE`, level by
level. Where the tables before such a list are known, it gives the conditions that its predicates
set, in their order, or none if `OR` is one of the words, unless one of its predicates sets a
condition on a column named by a star in quotes after an owner. Each row for which the predicates
hold satisfies the conditions.

**Proof sketch.** The reading of the query gives its levels, and says of each predicate what its tokens mean
over the tables that are known before it. The rest is about one list of predicates. Each predicate gives the
condition that it sets unless its column is named by a star, so as many conditions are given as are set
exactly if no such star is there; and each condition that is given is set, so a row for which the predicates
hold satisfies it. -/
theorem conditions_exact_iff {env : Environment} {text : String} {query : SelectStatement}
    (success : Statement.ofText env text = .ok (.select query)) :
    ∃ levels, QueryRead env text levels ∧
      query.context.conditions = levels.flatMap LevelEvent.conditions ∧
      ∀ level ∈ levels, ∀ before formula after, level = before ++ .condition formula :: after →
        (∀ predicate ∈ formula.predicates,
          predicate.Means env.rules text (LevelEvent.tables before)) ∧
        (formula.Exact env.rules text (LevelEvent.tables before) formula.conditions ↔
          formula.hasOr = true ∨ ∀ predicate ∈ formula.predicates, ∀ condition,
            Sets env.rules text (LevelEvent.tables before) predicate.index predicate.tokens
              condition → ¬ StarQualified text predicate.tokens) ∧
        ∀ {Value : Type} (row : Row Value) (truth : ReadPredicate → Prop),
          (∀ predicate ∈ formula.predicates, ∀ condition,
            Sets env.rules text (LevelEvent.tables before) predicate.index predicate.tokens
              condition → truth predicate → row.Satisfies condition) →
          formula.Holds truth → ∀ condition ∈ formula.conditions, row.Satisfies condition := by
  obtain ⟨outer, below, read, mean, conditions, -, -⟩ := query_read success
  refine ⟨outer :: below, read, conditions, fun level mem before formula after split => ?_⟩
  have means := mean level mem before formula after split
  exact ⟨means, Formula.exact_iff means, fun row truth sound holds =>
    Formula.satisfies means sound holds⟩

/-- A query with a range and another comparison records the range alone. -/
theorem conditions_exact_range : ∃ (env : Environment) (text : String) (query : SelectStatement),
    Statement.ofText env text = .ok (.select query) ∧
      query.context.conditions = [.between ⟨"a", "t"⟩ (.number "1") (.placeholder 0)] ∧
      ∃ levels, QueryRead env text levels ∧ levels.flatMap LevelEvent.conditions =
        [.between ⟨"a", "t"⟩ (.number "1") (.placeholder 0)] := by
  let env : Environment := { rules := ⟨[{ table := "t", shardingColumns := ["a"] }]⟩ }
  let text := "SELECT b FROM t WHERE a BETWEEN 1 AND ? AND b > 2"
  have seen : (query? env text).map (·.context.conditions) =
      some [.between ⟨"a", "t"⟩ (.number "1") (.placeholder 0)] := by decide +kernel
  obtain ⟨query, success, recorded⟩ := exists_of_query seen
  obtain ⟨levels, read, conditions, -⟩ := conditions_exact_iff success
  exact ⟨env, text, query, success, recorded, levels, read, conditions.symm.trans recorded⟩

/-- A predicate that sets a condition, on a column named by a star in quotes, records none. -/
theorem star_column_not_recorded :
    ∃ (env : Environment) (text : String) (query : SelectStatement) (before : List Token)
      (word : Token) (tokens : List Token) (condition : RouteCondition),
      Statement.ofText env text = .ok (.select query) ∧
        Lexer.tokens text = before ++ word :: tokens ∧ word.kind = .keyword .WHERE ∧
        PredicateTokens tokens ∧
        Sets env.rules text query.context.tables (placeholders before) tokens condition ∧
        query.context.conditions = [] := by
  let env : Environment := { rules := ⟨[{ table := "t", shardingColumns := ["*"] }]⟩ }
  let text := "SELECT a FROM t WHERE t.\"*\" = 5"
  have seen : (query? env text).map (fun query => (query.context.tables, query.context.conditions)) =
      some (⟨[⟨"t", none⟩]⟩, []) := by decide +kernel
  obtain ⟨query, success, same⟩ := exists_of_query seen
  obtain ⟨tables, conditions⟩ := Prod.mk.inj same
  let before : List Token := [⟨.keyword .SELECT, ⟨0, 6⟩⟩, ⟨.identifier "a", ⟨7, 8⟩⟩,
    ⟨.keyword .FROM, ⟨9, 13⟩⟩, ⟨.identifier "t", ⟨14, 15⟩⟩]
  let left : List Token :=
    [⟨.identifier "t", ⟨22, 23⟩⟩, ⟨.symbol .dot, ⟨23, 24⟩⟩, ⟨.identifier "*", ⟨24, 27⟩⟩]
  let right : List Token := [⟨.symbol .eq, ⟨28, 29⟩⟩, ⟨.number "5", ⟨30, 31⟩⟩]
  have split : Lexer.tokens text = before ++ ⟨.keyword .WHERE, ⟨16, 21⟩⟩ :: (left ++ right) := by
    decide +kernel
  have refers : Refers text query.context.tables left ⟨"*", "t"⟩ := by
    rw [tables]
    exact .qualified "t" "*" _ _ _ ⟨"t", none⟩ rfl (by decide +kernel)
  have restricts : Restricts 0 ⟨"*", "t"⟩ right (.equal ⟨"*", "t"⟩ (.number "5")) :=
    .equal rfl (.number "5" _)
  have grammar : PredicateTokens (left ++ right) :=
    ⟨left, right, rfl, .reference rfl rfl, .comparison rfl rfl (.alone rfl)⟩
  exact ⟨env, text, query, before, _, left ++ right, _, success, split, rfl, grammar,
    .intro refers (by decide +kernel) restricts, conditions⟩

end SelectStatement

end SqlRouting
