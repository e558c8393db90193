import SqlRouting.Proofs.SelectLists

/-!
# Names of derived columns

Each column that is derived for a query gets a name: the stem of its kind, and its number among the
columns of that kind. So no two columns are given the same name, whatever the case of letters. Nothing
is done about the names that the select list has already: one that reads like a stem with a number may
be given once more.

## Main definitions

* `SqlRouting.ResultShape.assignedNames` — the names that were given to derived columns.
* `SqlRouting.ResultShape.carriedNames` — the names that the statement gives to its own items.
* `SqlRouting.derivedNames` — the names of so many columns of each kind.

## Main results

* `SqlRouting.DerivedColumn.sameName_aliasAt` — kind and number can be told from a name.
* `SqlRouting.SelectLevel.Derives.assignedNames_eq` — the names that deriving columns gives.
* `SqlRouting.SelectStatement.assigned_names_distinct` — no two columns get the same name.
-/

set_option autoImplicit false

namespace SqlRouting

open Text

/-! ## Names that are told apart -/

namespace DerivedColumn

/-- A numeral has no letters. -/
lemma map_toLower_numeral (n : Nat) : (toString n).toList.map Char.toLower = (toString n).toList := by
  have same : ∀ c ∈ Nat.toDigits 10 n, c.toLower = c := by
    intro c mem
    have most : c.toNat ≤ 57 := by
      have isDigit := isDecimalDigit_of_mem mem
      rw [isDecimalDigit, Bool.and_eq_true, decide_eq_true_eq, decide_eq_true_eq] at isDigit
      exact isDigit.2
    rw [← Char.toNat_inj, toNat_toLower, if_neg (by omega)]
  rw [toList_numeral]
  exact (List.map_congr_left same).trans (List.map_id _)

/-- The small letters of a name are those of its stem, with the number behind them. -/
lemma map_toLower_aliasAt (kind : DerivedColumn) (n : Nat) :
    (kind.aliasAt n).toList.map Char.toLower =
      kind.stem.toList.map Char.toLower ++ (toString n).toList := by
  rw [aliasAt, String.toList_append, List.map_append, map_toLower_numeral]

/-- Kind and number can be told from a name, whatever the case of letters. -/
lemma sameName_aliasAt {kind kind' : DerivedColumn} {m n : Nat} :
    sameName (kind.aliasAt m) (kind'.aliasAt n) = true ↔ kind = kind' ∧ m = n := by
  rw [sameName_iff, map_toLower_aliasAt, map_toLower_aliasAt]
  constructor
  · intro same
    -- the stems differ in their first five letters
    have stems : ∀ kind kind' : DerivedColumn,
        (kind.stem.toList.map Char.toLower).take 5 = (kind'.stem.toList.map Char.toLower).take 5 →
        kind = kind' := by
      intro kind kind'
      cases kind <;> cases kind' <;> decide
    have long (kind : DerivedColumn) : 5 ≤ (kind.stem.toList.map Char.toLower).length := by
      cases kind <;> decide
    have front := congrArg (List.take 5) same
    rw [List.take_append_of_le_length (long kind), List.take_append_of_le_length (long kind')] at front
    obtain rfl := stems kind kind' front
    have numerals : toString m = toString n := String.toList_inj.1 (List.append_cancel_left same)
    have values := congrArg decimal? numerals
    rw [decimal?_toString, decimal?_toString] at values
    exact ⟨rfl, Option.some.inj values⟩
  · rintro ⟨rfl, rfl⟩
    rfl

end DerivedColumn

/-- The kinds and numbers of so many columns of each kind, in the order in which they are derived. The
count and the sum of an average are derived together. -/
def derivedPlaces (averages orders groups : Nat) : List (DerivedColumn × Nat) :=
  (List.range averages).flatMap (fun k => [(.avgCount, k), (.avgSum, k)]) ++
    (List.range orders).map (.orderBy, ·) ++ (List.range groups).map (.groupBy, ·)

/-- The names of so many columns of each kind. -/
def derivedNames (averages orders groups : Nat) : List String :=
  (derivedPlaces averages orders groups).map fun (kind, k) => kind.aliasAt k

/-- How many columns of a kind there are. -/
def DerivedColumn.amount (averages orders groups : Nat) : DerivedColumn → Nat
  | .avgCount | .avgSum => averages
  | .orderBy => orders
  | .groupBy => groups

section Places

variable {averages orders groups : Nat}

/-- The numbers of a kind are those below the amount of columns. -/
lemma mem_derivedPlaces {kind : DerivedColumn} {k : Nat} :
    (kind, k) ∈ derivedPlaces averages orders groups ↔ k < kind.amount averages orders groups := by
  cases kind <;> simp [derivedPlaces, DerivedColumn.amount]

/-- No number of a kind is used twice. -/
lemma nodup_derivedPlaces (averages orders groups : Nat) :
    (derivedPlaces averages orders groups).Nodup := by
  have plain (kind : DerivedColumn) (n : Nat) : ((List.range n).map fun k => (kind, k)).Nodup :=
    List.nodup_range.map fun _ _ same => congrArg Prod.snd same
  have pairs : ((List.range averages).flatMap fun k =>
      [(DerivedColumn.avgCount, k), (.avgSum, k)]).Nodup := by
    refine List.nodup_flatMap.2 ⟨fun k _ => by simp, List.nodup_range.imp fun differ => ?_⟩
    simpa [Function.onFun, List.disjoint_left] using differ
  rw [derivedPlaces, List.append_assoc, List.nodup_append]
  refine ⟨pairs, List.nodup_append.2 ⟨plain _ _, plain _ _, ?_⟩, ?_⟩ <;>
    · intro place mem place' mem'
      simp only [List.mem_flatMap, List.mem_append, List.mem_map, List.mem_cons] at mem mem'
      grind

/-- A name of derived columns is that of a kind with a number. -/
lemma mem_derivedNames {name : String} : name ∈ derivedNames averages orders groups ↔
    ∃ kind k, k < DerivedColumn.amount averages orders groups kind ∧ name = kind.aliasAt k := by
  simp only [derivedNames, List.mem_map, Prod.exists, mem_derivedPlaces, eq_comm]

/-- No two names of derived columns are the same. -/
lemma pairwise_derivedNames (averages orders groups : Nat) :
    (derivedNames averages orders groups).Pairwise fun a b => sameName a b = false := by
  refine List.Pairwise.map _ (fun place place' differ => ?_) (nodup_derivedPlaces averages orders groups)
  refine Bool.eq_false_iff.2 fun same => differ ?_
  obtain ⟨kind, number⟩ := DerivedColumn.sameName_aliasAt.1 same
  exact Prod.ext kind number

end Places

/-! ## Names of items -/

namespace SelectItem

/-- The names given to what was added for an item: to the item itself if it was added, or to the calls
that an average is computed from. -/
def assignedNames : SelectItem → List String
  | .aggregate call => call.helpers.filterMap Aggregate.aliasName
  | .plain _ aliasName true => aliasName.toList
  | _ => []

/-- The names that the statement gives to an item: its alias, or the labels of folded columns. -/
def carriedNames : SelectItem → List String
  | .aggregate call => call.aliasName.toList
  | .plain _ aliasName false => aliasName.toList
  | .distinct labels => labels
  | _ => []

/-- An item as the statement has it: nothing was added for it. -/
structure Given (item : SelectItem) : Prop where
  /-- It was not added itself. -/
  own : item.isDerived = false
  /-- A call has no helpers. -/
  unhelped : ∀ call, item = .aggregate call → call.helpers = []

variable {item : SelectItem}

/-- No name was given to what is as the statement has it. -/
lemma Given.assignedNames_eq (given : item.Given) : item.assignedNames = [] := by
  cases item with
  | aggregate call => rw [assignedNames, given.unhelped call rfl]; rfl
  | plain expression aliasName derived =>
    obtain rfl : derived = false := given.own
    rfl
  | star | distinct => rfl

/-- Completing an average gives it two names, and nothing else gets any. -/
lemma Given.assignedNames_completed (given : item.Given) (k : Nat) :
    (item.completed k).assignedNames =
      if item.isAverage then [DerivedColumn.avgCount.aliasAt k, DerivedColumn.avgSum.aliasAt k]
      else [] := by
  cases item with
  | aggregate call =>
    have noHelpers := given.unhelped call rfl
    by_cases average : call.function = .avg
    · rw [completed, if_pos ⟨average, noHelpers⟩, if_pos (by simp [isAverage, average])]
      rfl
    · rw [completed, if_neg fun both => average both.1, if_neg (by simp [isAverage, average])]
      exact given.assignedNames_eq
  | star | distinct => rfl
  | plain => exact given.assignedNames_eq

/-- Completing an item leaves the names that the statement gives. -/
@[simp]
lemma carriedNames_completed (k : Nat) (item : SelectItem) :
    (item.completed k).carriedNames = item.carriedNames := by
  unfold completed
  split
  · split <;> rfl
  · rfl

/-- The averages of a list get the names of their numbers. -/
lemma assignedNames_completed_all (n : Nat) {items : List SelectItem}
    (given : ∀ item ∈ items, item.Given) :
    (items.mapIdx fun i item => item.completed (n + averagesBefore items i)).flatMap assignedNames =
      (List.range' n (items.countP isAverage)).flatMap fun k =>
        [DerivedColumn.avgCount.aliasAt k, DerivedColumn.avgSum.aliasAt k] := by
  induction items generalizing n with
  | nil => rfl
  | cons item items ih =>
    obtain ⟨own, others⟩ := List.forall_mem_cons.1 given
    have first : n + averagesBefore (item :: items) 0 = n := rfl
    rw [List.mapIdx_cons, List.flatMap_cons, first, own.assignedNames_completed]
    cases average : item.isAverage with
    | true =>
      simp only [averagesBefore_cons average, ih (n + 1) others, List.countP_cons_of_pos average,
        List.range'_succ, List.flatMap_cons, if_true]
    | false =>
      simp only [averagesBefore_cons_of_not average, ih n others,
        List.countP_cons_of_neg (Bool.eq_false_iff.1 average), List.nil_append, Bool.false_eq_true,
        if_false]

/-- Completing a list leaves the names that the statement gives. -/
lemma carriedNames_completedAll (items : List SelectItem) :
    (completedAll items).flatMap carriedNames = items.flatMap carriedNames := by
  have same : (completedAll items).map carriedNames = items.map carriedNames := by
    refine List.ext_getElem (by simp [completedAll]) fun i bound bound' => ?_
    simp [completedAll]
  rw [List.flatMap_def, same, ← List.flatMap_def]

end SelectItem

namespace ResultShape

/-- The names that were given to derived columns. -/
def assignedNames (shape : ResultShape) : List String :=
  shape.items.flatMap SelectItem.assignedNames

/-- The names that the statement gives to its own items. -/
def carriedNames (shape : ResultShape) : List String :=
  shape.items.flatMap SelectItem.carriedNames

end ResultShape

/-! ## Names of derived columns -/

namespace SelectLevel

open SelectItem OrderItem

variable {level derived : SelectLevel} {metadata : TableMetadata} {kind : DerivedColumn}
  {items : List OrderItem} {names orders groups : List (Option String)}

/-- The columns that are added as items have their turns get the names of their numbers. -/
lemma Turns.assignedNames_eq (turns : level.Turns metadata kind items names) :
    (columns items names).flatMap assignedNames =
      (List.range (names.countP Option.isSome)).map kind.aliasAt := by
  induction turns with
  | start => rfl
  | @satisfied items names item turns has free ih =>
    rw [columns_append turns.length_eq, List.flatMap_append, ih, List.countP_append]
    simp [column?]
  | @missing items names item name turns lacks named ih =>
    rw [columns_append turns.length_eq, List.flatMap_append, ih, List.countP_append]
    simp [column?, named, List.range_succ, assignedNames, ofDerived]

/-- Columns that are added have no names of the statement. -/
lemma carriedNames_columns (items : List OrderItem) (names : List (Option String)) :
    (columns items names).flatMap carriedNames = [] := by
  refine List.flatMap_eq_nil_iff.2 fun column mem => ?_
  obtain ⟨name, aliasName, rfl⟩ := ofDerived_of_mem_columns column mem
  rfl

/-- **The names that deriving columns gives** to a level that is as the statement has it. -/
lemma Derives.assignedNames_eq (derives : level.Derives metadata orders groups derived)
    (given : ∀ item ∈ level.shape.items, item.Given) :
    derived.shape.assignedNames = derivedNames (level.shape.items.countP isAverage)
      (orders.countP Option.isSome) (groups.countP Option.isSome) := by
  have averages := assignedNames_completed_all 0 given
  simp only [Nat.zero_add] at averages
  rw [ResultShape.assignedNames, derives.shape]
  simp only [List.flatMap_append, completedAll, averages, derives.orderTurns.assignedNames_eq,
    derives.groupTurns.assignedNames_eq, derivedNames, derivedPlaces, List.map_append,
    List.map_flatMap, List.map_map, List.range_eq_range']
  rfl

/-- Deriving columns leaves the names that the statement gives. -/
lemma Derives.carriedNames_eq (derives : level.Derives metadata orders groups derived) :
    derived.shape.carriedNames = level.shape.carriedNames := by
  rw [ResultShape.carriedNames, derives.shape]
  simp only [List.flatMap_append, carriedNames_columns, carriedNames_completedAll, List.append_nil]
  rfl

/-- Making a grouping the ordering leaves the select list. -/
lemma items_deriveOrdering (level : SelectLevel) :
    level.deriveOrdering.shape.items = level.shape.items := by
  rcases level.deriveOrdering_cases with ⟨same, -⟩ | ⟨shape, -⟩
  · rw [same]
  · rw [shape]
    rfl

end SelectLevel

/-! ## Queries -/

namespace Grammar

open SqlRouting.Parser

variable {env : Environment} {text : String}

/-- Clauses read items as the statement has them. -/
lemma keepsShape_given : KeepsShape env text fun shape => ∀ item ∈ shape.items, item.Given := by
  refine keepsShape_selected (fun _ => ⟨rfl, by simp⟩) fun reaches read => ?_
  obtain ⟨tokens, written, -⟩ := selectItem_written reaches read
  cases written with
  | aggregate => exact ⟨rfl, by rintro _ ⟨⟩; rfl⟩
  | star | ownStar | plain => exact ⟨rfl, nofun⟩

end Grammar

namespace SelectStatement

open SelectItem DerivedColumn SqlRouting.Parser

/-- **No two derived columns of an accepted query get the same name**, whatever the case of letters. The
names that preparing it gives are the stems with the numbers below the amounts of columns: of averages for
their counts and sums, of items that lack a column for the columns to order and group by. So such a name
reads like one that the select list had already only if that one is a stem with such a number itself.

**Proof sketch.** No item has a derived column where it is read. Averages are numbered in the order of the
select list, and the columns to order and group by in the order of the items that lack one, so the names are
each stem with the numbers from zero on. Stems differ in their letters, and the digits of two numbers
differ, so no two of the names are the same. -/
theorem assigned_names_distinct {env : Environment} {text : String} {query : SelectStatement}
    (success : Statement.ofText env text = .ok (.select query)) :
    ∃ whole s orders groups, (Grammar.levels env).run ⟨.ofText text, {}⟩ = .ok (whole, s) ∧
      whole.merge.prepare env.metadata = .ok query ∧
      whole.merge.Derives env.metadata orders groups (whole.merge.deriveColumns env.metadata).level ∧
      whole.merge.shape.assignedNames = [] ∧
      query.shape.carriedNames = whole.merge.shape.carriedNames ∧
      query.shape.assignedNames = derivedNames (whole.merge.shape.items.countP isAverage)
        (orders.countP Option.isSome) (groups.countP Option.isSome) ∧
      query.shape.assignedNames.Pairwise (fun a b => sameName a b = false) ∧
      ∀ carried ∈ whole.merge.shape.carriedNames,
        (∃ assigned ∈ query.shape.assignedNames, sameName assigned carried = true) ↔
          ∃ kind k, k < amount (whole.merge.shape.items.countP isAverage)
            (orders.countP Option.isSome) (groups.countP Option.isSome) kind ∧
            sameName (kind.aliasAt k) carried = true := by
  obtain ⟨s, s', -, ⟨_, same, selected⟩ | ⟨_, same, -⟩⟩ := Grammar.ofText_reads success
  · cases same
    obtain ⟨whole, s₁, read, merged⟩ := run_bind_ok.1 selected
    obtain ⟨prepared, rfl⟩ := run_lift_ok.1 merged
    have given : ∀ item ∈ whole.merge.shape.items, item.Given := merge_shape
      (P := fun shape => ∀ item ∈ shape.items, item.Given)
      (Grammar.shapes_levels Grammar.keepsShape_given (Reaches.start text) read)
    obtain ⟨derived, rfl⟩ := prepare_ok prepared
    obtain ⟨orders, groups, derives⟩ := SelectLevel.derives_of_success derived
    have items := (whole.merge.deriveColumns env.metadata).level.items_deriveOrdering
    have names : (whole.merge.deriveColumns env.metadata).level.deriveOrdering.shape.assignedNames =
        derivedNames (whole.merge.shape.items.countP isAverage)
          (orders.countP Option.isSome) (groups.countP Option.isSome) := by
      rw [ResultShape.assignedNames, items]
      exact derives.assignedNames_eq given
    refine ⟨whole, _, orders, groups, read, prepared, derives, ?_, ?_, names, ?_, fun carried _ => ?_⟩
    · exact List.flatMap_eq_nil_iff.2 fun item mem => (given item mem).assignedNames_eq
    · rw [ResultShape.carriedNames, items]
      exact derives.carriedNames_eq
    · rw [names]
      exact pairwise_derivedNames _ _ _
    · rw [names]
      simp only [mem_derivedNames]
      constructor
      · rintro ⟨_, ⟨kind, k, below, rfl⟩, same⟩
        exact ⟨kind, k, below, same⟩
      · rintro ⟨kind, k, below, same⟩
        exact ⟨_, ⟨kind, k, below, rfl⟩, same⟩
  · cases same

/-- An average, an alias like the name of the sum of a second one, a grouping and an ordering: four names
are given, none of which reads like the alias. -/
theorem assigned_names_distinct_average : ∃ query,
    Statement.ofText {} "SELECT AVG(a), c AS avg_sum_1 FROM t GROUP BY b ORDER BY d" =
      .ok (.select query) ∧
    query.shape.assignedNames =
      ["AVG_COUNT_0", "AVG_SUM_0", "ORDER_BY_DERIVED_0", "GROUP_BY_DERIVED_0"] ∧
    query.shape.carriedNames = ["avg_sum_1"] ∧
    query.shape.assignedNames.Pairwise (fun a b => sameName a b = false) ∧
    ¬ ∃ assigned ∈ query.shape.assignedNames, sameName assigned "avg_sum_1" = true := by
  have seen : (Grammar.query? {} "SELECT AVG(a), c AS avg_sum_1 FROM t GROUP BY b ORDER BY d").map
      (fun query => (query.shape.assignedNames, query.shape.carriedNames)) =
      some (["AVG_COUNT_0", "AVG_SUM_0", "ORDER_BY_DERIVED_0", "GROUP_BY_DERIVED_0"],
        ["avg_sum_1"]) := by decide +kernel
  obtain ⟨query, accepted, same⟩ := Grammar.exists_of_query seen
  simp only [Prod.mk.injEq] at same
  obtain ⟨assigned, carried⟩ := same
  obtain ⟨-, -, -, -, -, -, -, -, -, -, distinct, -⟩ := assigned_names_distinct accepted
  refine ⟨query, accepted, assigned, carried, distinct, ?_⟩
  rw [assigned]
  decide

/-- An alias that reads like the name of the column to order by: the column is given that name as well. -/
theorem assigned_name_carried : ∃ query,
    Statement.ofText {} "SELECT a AS ORDER_BY_DERIVED_0 FROM t ORDER BY b" = .ok (.select query) ∧
    query.shape.carriedNames = ["ORDER_BY_DERIVED_0"] ∧
    query.shape.assignedNames = ["ORDER_BY_DERIVED_0"] ∧
    query.shape.items = [.plain "a" (some "ORDER_BY_DERIVED_0") false,
      .ofDerived "b" "ORDER_BY_DERIVED_0"] ∧
    Edit.insertions query.context.edits = [(31, ", b AS ORDER_BY_DERIVED_0 ")] := by
  have seen : (Grammar.query? {} "SELECT a AS ORDER_BY_DERIVED_0 FROM t ORDER BY b").map
      (fun query => (query.shape.items, Edit.insertions query.context.edits)) =
      some ([.plain "a" (some "ORDER_BY_DERIVED_0") false, .ofDerived "b" "ORDER_BY_DERIVED_0"],
        [(31, ", b AS ORDER_BY_DERIVED_0 ")]) := by decide +kernel
  obtain ⟨query, accepted, same⟩ := Grammar.exists_of_query seen
  simp only [Prod.mk.injEq] at same
  obtain ⟨items, inserted⟩ := same
  refine ⟨query, accepted, ?_, ?_, items, inserted⟩
  · rw [ResultShape.carriedNames, items]
    rfl
  · rw [ResultShape.assignedNames, items]
    rfl

end SelectStatement

end SqlRouting
