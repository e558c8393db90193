import SqlRouting.Proofs.Turns
import SqlRouting.Proofs.WellFormed

/-!
# Derived columns

Deriving columns goes through the averages, the items to order by and the items to group by. The averages
are numbered by the averages before them; the items have their turns, those to group by where the columns
to order by are in the select list. All texts go into one edit at the end of the select list.

An item that is stuck stops the derivation. What was derived for the items before it stays in the select
list, and the items are all there again, but nothing is inserted into the text.

## Main definitions

* `SqlRouting.SelectItem.completed`, `averageTexts` — the count and the sum of an average.
* `SqlRouting.SelectLevel.Derives` — what deriving the columns of a level gives.
* `SqlRouting.SelectLevel.StopsAt` — the item at which deriving columns stops, with what it leaves.
* `SqlRouting.SelectLevel.Extends` — a select list goes on with derived columns.

## Main results

* `SqlRouting.SelectLevel.Derives.added_iff` — when a column is added for an item.
* `SqlRouting.SelectStatement.columns_derived` — what is derived for a query.
* `SqlRouting.SelectStatement.derivation_stops` — when nothing can be derived, and what is left then.
-/

set_option autoImplicit false

namespace SqlRouting

/-! ## Averages -/

namespace SelectItem

/-- The item with a count and a sum, if it is an average without them, where `k` averages come before. -/
def completed (k : Nat) : SelectItem → SelectItem
  | .aggregate call =>
    if call.function = .avg ∧ call.helpers = [] then
      .aggregate { call with
        helpers :=
          [⟨.count, call.inner, some ("AVG_COUNT_" ++ toString k), []⟩,
           ⟨.sum, call.inner, some ("AVG_SUM_" ++ toString k), []⟩] }
    else .aggregate call
  | item => item

/-- The texts of the count and the sum that an average lacks, where `k` averages come before. -/
def averageTexts (k : Nat) : SelectItem → List String
  | .aggregate call =>
    if call.function = .avg ∧ call.helpers = [] then
      ["COUNT" ++ call.inner ++ " AS " ++ ("AVG_COUNT_" ++ toString k) ++ " ",
       "SUM" ++ call.inner ++ " AS " ++ ("AVG_SUM_" ++ toString k) ++ " "]
    else []
  | _ => []

/-- The number of averages before a place of a select list. -/
def averagesBefore (items : List SelectItem) (i : Nat) : Nat :=
  (items.take i).countP isAverage

/-- A select list with a count and a sum for each average. -/
def completedAll (items : List SelectItem) : List SelectItem :=
  items.mapIdx fun i item => item.completed (averagesBefore items i)

/-- The texts of the counts and sums that a select list lacks. -/
def averageTextsAll (items : List SelectItem) : List String :=
  (items.mapIdx fun i item => item.averageTexts (averagesBefore items i)).flatten

section Completed

variable (k : Nat) (item : SelectItem)

/-- Completing an item leaves its alias. -/
@[simp]
lemma aliasName_completed : (item.completed k).aliasName = item.aliasName := by
  unfold completed
  split
  · split <;> rfl
  · rfl

/-- Completing an item leaves its text. -/
@[simp]
lemma expression_completed : (item.completed k).expression = item.expression := by
  unfold completed
  split
  · split <;> rfl
  · rfl

/-- Completing an item makes no star. -/
@[simp]
lemma completed_eq_star {owner : Option String} : item.completed k = .star owner ↔ item = .star owner := by
  unfold completed
  split
  · split <;> simp
  · rfl

/-- Completing an item folds nothing. -/
@[simp]
lemma completed_eq_distinct {labels : List String} :
    item.completed k = .distinct labels ↔ item = .distinct labels := by
  unfold completed
  split
  · split <;> simp
  · rfl

end Completed

/-- An average counts for the places behind it. -/
lemma averagesBefore_cons {item : SelectItem} (isAverage : item.isAverage = true) (n : Nat)
    (items : List SelectItem) (i : Nat) :
    n + averagesBefore (item :: items) (i + 1) = n + 1 + averagesBefore items i := by
  rw [averagesBefore, List.take_succ_cons, List.countP_cons_of_pos isAverage, averagesBefore]
  omega

/-- Nothing else counts for the places behind it. -/
lemma averagesBefore_cons_of_not {item : SelectItem} (notAverage : item.isAverage = false)
    (items : List SelectItem) (i : Nat) :
    averagesBefore (item :: items) (i + 1) = averagesBefore items i := by
  rw [averagesBefore, List.take_succ_cons, List.countP_cons_of_neg (by simp [notAverage]), averagesBefore]

end SelectItem

open SelectItem in
/-- Averages are completed by the averages before them. -/
lemma deriveAverages_eq (n : Nat) (items : List SelectItem) :
    deriveAverages n items =
      ⟨items.mapIdx fun i item => item.completed (n + averagesBefore items i),
       (items.mapIdx fun i item => item.averageTexts (n + averagesBefore items i)).flatten⟩ := by
  fun_induction deriveAverages n items with
  | case1 => rfl
  | case2 n call items isAverage rest missing helpers ih =>
    have function : call.function = .avg := beq_iff_eq.1 isAverage
    have noHelpers : call.helpers = [] := List.isEmpty_iff.1 missing
    have counts : (SelectItem.aggregate call).isAverage = true := isAverage
    simp only [rest, ih, List.mapIdx_cons, averagesBefore_cons counts, List.flatten_cons]
    simp [completed, averageTexts, function, noHelpers, averagesBefore, helpers, Aggregate.averageHelpers,
      Aggregate.fragment, Aggregate.expression, AggregateFunction.name, DerivedColumn.aliasAt,
      DerivedColumn.stem]
  | case3 n call items isAverage rest present ih =>
    have given : call.helpers ≠ [] := fun noHelpers => present (List.isEmpty_iff.2 noHelpers)
    have counts : (SelectItem.aggregate call).isAverage = true := isAverage
    simp only [rest, ih, List.mapIdx_cons, averagesBefore_cons counts, List.flatten_cons]
    simp [completed, averageTexts, given]
  | case4 n call items notAverage rest ih =>
    have function : call.function ≠ .avg := fun same => notAverage (beq_iff_eq.2 same)
    have plain : (SelectItem.aggregate call).isAverage = false := Bool.eq_false_iff.2 notAverage
    simp only [rest, ih, List.mapIdx_cons, averagesBefore_cons_of_not plain, List.flatten_cons]
    simp [completed, averageTexts, function]
  | case5 n item items notAggregate rest ih =>
    have plain : item.isAverage = false := by
      cases item with
      | aggregate call => exact (notAggregate call rfl).elim
      | star | distinct | plain => rfl
    simp only [rest, ih, List.mapIdx_cons, averagesBefore_cons_of_not plain, List.flatten_cons]
    cases item with
    | aggregate call => exact (notAggregate call rfl).elim
    | star | distinct | plain => rfl

namespace OrderItem

/-- Added columns are derived. -/
lemma ofDerived_of_mem_columns {items : List OrderItem} {names : List (Option String)} :
    ∀ column ∈ columns items names, ∃ name aliasName, column = .ofDerived name aliasName := by
  intro column mem
  obtain ⟨⟨item, added⟩, -, isColumn⟩ := List.mem_filterMap.1 mem
  obtain ⟨aliasName, -, isColumn⟩ := Option.bind_eq_some_iff.1 isColumn
  obtain ⟨name, -, rfl⟩ := Option.map_eq_some_iff.1 isColumn
  exact ⟨name, aliasName, rfl⟩

/-- Each item is there again, with another alias at most. -/
lemma forall₂_renamedAll {items : List OrderItem} {names : List (Option String)}
    (length : items.length = names.length) :
    List.Forall₂ (fun item renamed => ∃ aliasName, renamed = { item with aliasName := aliasName })
      items (renamedAll items names) := by
  induction items generalizing names with
  | nil => exact .nil
  | cons item items ih =>
    cases names with
    | nil => cases length
    | cons added names => exact .cons ⟨_, rfl⟩ (ih (Nat.succ.inj length))

end OrderItem

namespace SelectLevel

open SelectItem OrderItem

variable {level : SelectLevel} {metadata : TableMetadata}

/-! ## Levels -/

/-- A level with a count and a sum for each average. -/
def completed (level : SelectLevel) : SelectLevel :=
  { level with shape := { level.shape with items := completedAll level.shape.items } }

/-- A level that is completed, with the columns to order by, where `orders` are their names. -/
def ordered (level : SelectLevel) (orders : List (Option String)) : SelectLevel :=
  (level.completed.withColumns (columns level.shape.orderBy orders)).withOrderBy
    (renamedAll level.shape.orderBy orders)

/-- A level with the columns to order by and those to group by, where `orders` and `groups` are their
names. -/
def grouped (level : SelectLevel) (orders groups : List (Option String)) : SelectLevel :=
  ((level.ordered orders).withColumns (columns level.shape.groupBy groups)).withGroupBy
    (renamedAll level.shape.groupBy groups)

/-- The texts of all columns that a level lacks, where `orders` and `groups` are the names of those to
order and group by. -/
def lackedTexts (level : SelectLevel) (orders groups : List (Option String)) : List String :=
  averageTextsAll level.shape.items ++ columnTexts level.shape.orderBy orders ++
    columnTexts level.shape.groupBy groups

/-- **What deriving the columns of a level gives**, where `orders` and `groups` are the names of the
columns for the items to order and group by. -/
structure Derives (level : SelectLevel) (metadata : TableMetadata) (orders groups : List (Option String))
    (derived : SelectLevel) : Prop where
  /-- The items to order by have their turns once the averages are completed. -/
  orderTurns : level.completed.Turns metadata .orderBy level.shape.orderBy orders
  /-- The items to group by have their turns once the columns to order by are added. -/
  groupTurns : (level.ordered orders).Turns metadata .groupBy level.shape.groupBy groups
  /-- The select list goes on with the columns, and the items have their names as aliases. -/
  shape : derived.shape =
    { level.shape with
      items := completedAll level.shape.items ++ columns level.shape.orderBy orders ++
        columns level.shape.groupBy groups
      orderBy := renamedAll level.shape.orderBy orders
      groupBy := renamedAll level.shape.groupBy groups }
  /-- The texts of all columns are inserted by one edit at the end of the select list, if there are any. -/
  context : derived.context =
    if level.lackedTexts orders groups = [] then level.context
    else level.context.addEdit (.items level.shape.selectListStop (level.lackedTexts orders groups))

/-- **The item at which deriving columns stops**, with the level that is left then: it is the first that is
stuck when it has its turn. -/
inductive StopsAt (level : SelectLevel) (metadata : TableMetadata) : OrderItem → SelectLevel → Prop
  /-- It is an item to order by. -/
  | ordering {before after : List OrderItem} {item : OrderItem} {names : List (Option String)}
      (split : level.shape.orderBy = before ++ item :: after)
      (turns : level.completed.Turns metadata .orderBy before names)
      (stuck : (level.completed.withColumns (columns before names)).Stuck item) :
      StopsAt level metadata item
        ((level.completed.withColumns (columns before names)).withOrderBy
          (renamedAll before names ++ item :: after))
  /-- It is an item to group by. -/
  | grouping {before after : List OrderItem} {item : OrderItem} {orders names : List (Option String)}
      (orderTurns : level.completed.Turns metadata .orderBy level.shape.orderBy orders)
      (split : level.shape.groupBy = before ++ item :: after)
      (turns : (level.ordered orders).Turns metadata .groupBy before names)
      (stuck : ((level.ordered orders).withColumns (columns before names)).Stuck item) :
      StopsAt level metadata item
        (((level.ordered orders).withColumns (columns before names)).withGroupBy
          (renamedAll before names ++ item :: after))

/-- The averages of a level are completed, and the texts of their counts and sums are to be inserted. -/
lemma withAverages_eq (level : SelectLevel) :
    level.withAverages = (level.completed, averageTextsAll level.shape.items) := by
  rw [withAverages, deriveAverages_eq]
  simp only [Nat.zero_add]
  rfl

/-- If all items have their turns, all columns are derived. -/
lemma deriveColumns_of_turns {orders groups : List (Option String)}
    (orderTurns : level.completed.Turns metadata .orderBy level.shape.orderBy orders)
    (groupTurns : (level.ordered orders).Turns metadata .groupBy level.shape.groupBy groups) :
    level.deriveColumns metadata =
      ⟨(level.grouped orders groups).addFragments (level.lackedTexts orders groups), none⟩ := by
  have first : deriveOrder metadata .orderBy 0 level.completed level.completed.shape.orderBy = _ :=
    orderTurns.deriveOrder_eq
  have second : deriveOrder metadata .groupBy 0 (level.ordered orders)
    (level.ordered orders).shape.groupBy = _ := groupTurns.deriveOrder_eq
  simp only [deriveColumns, withAverages_eq, first]
  rw [← ordered, second]
  rfl

/-- If an item is stuck, deriving columns stops there. -/
lemma StopsAt.deriveColumns_eq {item : OrderItem} {halted : SelectLevel}
    (stops : level.StopsAt metadata item halted) :
    level.deriveColumns metadata = ⟨halted, some (.missingOrderItemName item.span)⟩ := by
  cases stops with
  | @ordering before after item names split turns stuck =>
    have first : deriveOrder metadata .orderBy 0 level.completed level.completed.shape.orderBy = _ :=
      split ▸ turns.deriveOrder_append (item :: after)
    simp only [deriveColumns, withAverages_eq, first, stuck.deriveOrder_eq]
  | @grouping before after item orders names orderTurns split turns stuck =>
    have first : deriveOrder metadata .orderBy 0 level.completed level.completed.shape.orderBy = _ :=
      orderTurns.deriveOrder_eq
    have second : deriveOrder metadata .groupBy 0 (level.ordered orders)
      (level.ordered orders).shape.groupBy = _ := split ▸ turns.deriveOrder_append (item :: after)
    simp only [deriveColumns, withAverages_eq, first]
    rw [← ordered]
    simp only [second, stuck.deriveOrder_eq]

/-- All items have their turns, or there is one at which deriving columns stops. -/
lemma turns_or_stopsAt (level : SelectLevel) (metadata : TableMetadata) :
    (∃ orders groups, level.completed.Turns metadata .orderBy level.shape.orderBy orders ∧
      (level.ordered orders).Turns metadata .groupBy level.shape.groupBy groups) ∨
    ∃ item halted, level.StopsAt metadata item halted := by
  rcases level.completed.turns_or_stuck metadata .orderBy level.shape.orderBy with
      ⟨orders, orderTurns⟩ | ⟨before, item, after, names, split, turns, stuck⟩
  · rcases (level.ordered orders).turns_or_stuck metadata .groupBy level.shape.groupBy with
        ⟨groups, groupTurns⟩ | ⟨before, item, after, names, split, turns, stuck⟩
    · exact .inl ⟨orders, groups, orderTurns, groupTurns⟩
    · exact .inr ⟨item, _, .grouping orderTurns split turns stuck⟩
  · exact .inr ⟨item, _, .ordering split turns stuck⟩

/-- If columns are derived, it is by turns. -/
lemma derives_of_success (success : (level.deriveColumns metadata).failure = none) :
    ∃ orders groups, level.Derives metadata orders groups (level.deriveColumns metadata).level := by
  rcases level.turns_or_stopsAt metadata with ⟨orders, groups, orderTurns, groupTurns⟩ |
      ⟨item, halted, stops⟩
  · rw [deriveColumns_of_turns orderTurns groupTurns]
    refine ⟨orders, groups, orderTurns, groupTurns, by rw [shape_addFragments]; rfl, ?_⟩
    rw [addFragments]
    simp only [List.isEmpty_iff]
    split <;> rfl
  · rw [stops.deriveColumns_eq] at success
    cases success

/-! ## The select list of a turn -/

/-- The select list of `extended` is that of `level` with completed averages and derived columns. -/
def Extends (extended level : SelectLevel) : Prop :=
  ∃ columns, extended.shape.items = completedAll level.shape.items ++ columns ∧
    ∀ column ∈ columns, ∃ name aliasName, column = .ofDerived name aliasName

/-- **A column is added for an item exactly if it is not selected when it has its turn**, by a select list
that goes on with derived columns. -/
lemma Derives.added_iff {orders groups : List (Option String)} {derived : SelectLevel}
    (derives : level.Derives metadata orders groups derived) {item : OrderItem} {added : Option String}
    (mem : (item, added) ∈ level.shape.orderBy.zip orders ++ level.shape.groupBy.zip groups) :
    ∃ extended : SelectLevel, extended.Extends level ∧ (added = none ↔ extended.Satisfies metadata item) := by
  rcases List.mem_append.1 mem with mem | mem
  · obtain ⟨before, given, same⟩ := derives.orderTurns.added_iff mem
    exact ⟨_, ⟨columns before given, rfl, ofDerived_of_mem_columns⟩, same⟩
  · obtain ⟨before, given, same⟩ := derives.groupTurns.added_iff mem
    refine ⟨_, ⟨columns level.shape.orderBy orders ++ columns before given, ?_, ?_⟩, same⟩
    · simp [ordered, SelectLevel.completed, withColumns, withOrderBy]
    · exact List.forall_mem_append.2 ⟨ofDerived_of_mem_columns, ofDerived_of_mem_columns⟩

section Extends

variable {extended : SelectLevel}

/-- Each item is still there when it is completed. -/
lemma Extends.exists_completed (h : extended.Extends level) {item : SelectItem}
    (mem : item ∈ level.shape.items) : ∃ k, item.completed k ∈ extended.shape.items := by
  obtain ⟨columns, same, -⟩ := h
  obtain ⟨i, bound, rfl⟩ := List.mem_iff_getElem.1 mem
  refine ⟨averagesBefore level.shape.items i, ?_⟩
  rw [same, List.mem_append, completedAll, List.mem_mapIdx]
  exact .inl ⟨i, bound, rfl⟩

/-- Each item is derived, or was there before it was completed. -/
lemma Extends.mem_cases (h : extended.Extends level) {item : SelectItem}
    (mem : item ∈ extended.shape.items) :
    (∃ name aliasName, item = .ofDerived name aliasName) ∨
      ∃ original k, original ∈ level.shape.items ∧ item = original.completed k := by
  obtain ⟨columns, same, derived⟩ := h
  rw [same, List.mem_append, completedAll, List.mem_mapIdx] at mem
  rcases mem with ⟨i, bound, rfl⟩ | mem
  · exact .inr ⟨_, _, List.getElem_mem bound, rfl⟩
  · exact .inl (derived item mem)

/-- What is neither derived nor completed is there exactly if it was. -/
lemma Extends.mem_iff (h : extended.Extends level) {item : SelectItem}
    (kept : ∀ k original, SelectItem.completed k original = item ↔ original = item)
    (notDerived : item.isDerived = false) : item ∈ extended.shape.items ↔ item ∈ level.shape.items := by
  constructor
  · intro mem
    rcases h.mem_cases mem with ⟨name, aliasName, rfl⟩ | ⟨original, k, isOriginal, same⟩
    · cases notDerived
    · rwa [← (kept k original).1 same.symm]
  · intro mem
    obtain ⟨k, isCompleted⟩ := h.exists_completed mem
    rwa [(kept k item).2 rfl] at isCompleted

/-- Deriving columns adds no star. -/
lemma Extends.mem_star_iff (h : extended.Extends level) {owner : Option String} :
    .star owner ∈ extended.shape.items ↔ .star owner ∈ level.shape.items :=
  h.mem_iff (fun k original => completed_eq_star k original) rfl

/-- Deriving columns folds nothing. -/
lemma Extends.mem_distinct_iff (h : extended.Extends level) {labels : List String} :
    .distinct labels ∈ extended.shape.items ↔ .distinct labels ∈ level.shape.items :=
  h.mem_iff (fun k original => completed_eq_distinct k original) rfl

end Extends

end SelectLevel

/-! ## Queries -/

namespace SelectStatement

open SelectLevel SelectItem OrderItem

/-- **What is derived for a query.** If deriving its columns succeeds, each average is completed, the items
to order by and then those to group by have their turns, and the texts of all columns are inserted by one
edit, unless there are none. After that the select list has the column of every item.

**Proof sketch.** By induction on the items: each has its turn in the select list that those before it
leave, and gets a column exactly if it is not satisfied there. The select list only goes on, so an item that
is satisfied in its turn is satisfied at the end. -/
theorem columns_derived {query : SelectStatement} {metadata : TableMetadata}
    (success : (query.toSelectLevel.deriveColumns metadata).failure = none) :
    ∃ orders groups,
      query.toSelectLevel.Derives metadata orders groups (query.toSelectLevel.deriveColumns metadata).level ∧
      ∀ item ∈ (query.toSelectLevel.deriveColumns metadata).level.shape.orderBy ++
          (query.toSelectLevel.deriveColumns metadata).level.shape.groupBy,
        (query.toSelectLevel.deriveColumns metadata).level.Satisfies metadata item := by
  obtain ⟨orders, groups, derives⟩ := derives_of_success success
  obtain ⟨-, ordered, grouped⟩ := deriveColumns_grows success
  refine ⟨orders, groups, derives, fun item mem => satisfies_of_covers ?_⟩
  rcases List.mem_append.1 mem with mem | mem
  · exact ordered item mem
  · exact grouped item mem

/-- An average, an item that is ordered by its alias, and one that is grouped by the column of the ordering:
three columns are derived. -/
theorem columns_derived_ordering : ∃ (query : SelectStatement) (orders groups : List (Option String)),
    (query.toSelectLevel.deriveColumns {}).failure = none ∧
      query.toSelectLevel.Derives {} orders groups (query.toSelectLevel.deriveColumns {}).level ∧
      (query.toSelectLevel.deriveColumns {}).level.context.edits =
        [.items 24 ["COUNT(a) AS AVG_COUNT_0 ", "SUM(a) AS AVG_SUM_0 ", "b AS ORDER_BY_DERIVED_0 "]] ∧
      ∀ item ∈ (query.toSelectLevel.deriveColumns {}).level.shape.orderBy ++
          (query.toSelectLevel.deriveColumns {}).level.shape.groupBy,
        (query.toSelectLevel.deriveColumns {}).level.Satisfies {} item := by
  let query : SelectStatement :=
    { shape :=
        { items := [.aggregate ⟨.avg, "(a)", none, []⟩, .plain "c + 1" (some "d") false]
          selectListStop := 24
          orderBy := [{ name := some "b" }, { name := some "d", aliasName := some "d" }]
          groupBy := [{ name := some "d", aliasName := some "d" }] } }
  have success : (query.toSelectLevel.deriveColumns {}).failure = none := by decide +kernel
  obtain ⟨orders, groups, derives, satisfied⟩ := columns_derived success
  exact ⟨query, orders, groups, success, derives, by decide +kernel, satisfied⟩

/-- **When nothing can be derived, and what is left then.** Deriving columns fails exactly if an item is
stuck when it has its turn, with an error at the first of them. Then nothing was collected, all items to
order and group by are there again, with other aliases before that item at most, and the select list has
its own items still, with some derived columns behind them.

**Proof sketch.** Either all items have their turns, or there is a first one that is stuck, first among
those to order by and then among those to group by. Up to there the turns are as they are where nothing
fails, so the items before it have their aliases and the columns are those of the turns; the edit with the
texts of all columns comes after the last turn, and is not made. -/
theorem derivation_stops (query : SelectStatement) (metadata : TableMetadata) :
    ((query.toSelectLevel.deriveColumns metadata).failure ≠ none ↔
      ∃ item halted, query.toSelectLevel.StopsAt metadata item halted) ∧
    ∀ item halted, query.toSelectLevel.StopsAt metadata item halted →
      query.toSelectLevel.deriveColumns metadata = ⟨halted, some (.missingOrderItemName item.span)⟩ ∧
      query.prepare metadata = .error (.missingOrderItemName item.span) ∧
      halted.context = query.context ∧
      ∃ columns orders groups,
        halted.shape =
          { query.shape with
            items := completedAll query.shape.items ++ columns, orderBy := orders, groupBy := groups } ∧
        (∀ column ∈ columns, ∃ name aliasName, column = .ofDerived name aliasName) ∧
        orders.length = query.shape.orderBy.length ∧
        ∃ before given after, query.shape.orderBy ++ query.shape.groupBy = before ++ item :: after ∧
          orders ++ groups = given ++ item :: after ∧
          List.Forall₂ (fun item renamed => ∃ aliasName, renamed = { item with aliasName := aliasName })
            before given := by
  refine ⟨⟨fun failed => ?_, fun ⟨item, halted, stops⟩ => by simp [stops.deriveColumns_eq]⟩, ?_⟩
  · rcases query.toSelectLevel.turns_or_stopsAt metadata with ⟨orders, groups, orderTurns, groupTurns⟩ | stops
    · exact absurd (by rw [deriveColumns_of_turns orderTurns groupTurns]) failed
    · exact stops
  intro item halted stops
  refine ⟨stops.deriveColumns_eq, by rw [prepare, stops.deriveColumns_eq], ?_⟩
  cases stops with
  | @ordering before after _ names split turns stuck =>
    refine ⟨rfl, columns before names, renamedAll before names ++ item :: after, query.shape.groupBy, rfl,
      ofDerived_of_mem_columns, ?_, before, renamedAll before names, after ++ query.shape.groupBy,
      by simp [split], by simp, forall₂_renamedAll turns.length_eq⟩
    simp [split, (forall₂_renamedAll turns.length_eq).length_eq.symm]
  | @grouping before after _ orders names orderTurns split turns stuck =>
    refine ⟨rfl, columns query.shape.orderBy orders ++ columns before names,
      renamedAll query.shape.orderBy orders, renamedAll before names ++ item :: after, ?_, ?_,
      (forall₂_renamedAll orderTurns.length_eq).length_eq.symm, query.shape.orderBy ++ before,
      renamedAll query.shape.orderBy orders ++ renamedAll before names, after, by simp [split], by simp,
      List.rel_append (forall₂_renamedAll orderTurns.length_eq)
        (forall₂_renamedAll turns.length_eq)⟩
    · simp [ordered, SelectLevel.completed, withColumns, withOrderBy, withGroupBy]
    · intro column mem
      rcases List.mem_append.1 mem with mem | mem
      · exact ofDerived_of_mem_columns column mem
      · exact ofDerived_of_mem_columns column mem

/-- A star with an owner, an item to order by, and one to group by without a name: the column to order by
is derived, but nothing is inserted. -/
theorem derivation_stops_grouping : ∃ (query : SelectStatement) (item : OrderItem) (halted : SelectLevel),
    query.toSelectLevel.StopsAt {} item halted ∧
      query.prepare {} = .error (.missingOrderItemName ⟨40, 41⟩) ∧
      halted.shape.items = [.star (some "o"), .ofDerived "b" "ORDER_BY_DERIVED_0"] ∧
      halted.shape.groupBy = query.shape.groupBy ∧ halted.context = query.context := by
  let query : SelectStatement :=
    { context := { tables := ⟨[⟨"t_order", some "o"⟩]⟩ }
      shape :=
        { items := [.star (some "o")], containsStar := true, selectListStop := 11
          orderBy := [{ name := some "b" }]
          groupBy := [{ owner := some "o", name := some "c" }, { span := ⟨40, 41⟩ }] } }
  have failed : (query.toSelectLevel.deriveColumns {}).failure ≠ none := by decide +kernel
  obtain ⟨stops_iff, stops⟩ := derivation_stops query {}
  obtain ⟨item, halted, isStop⟩ := stops_iff.1 failed
  obtain ⟨outcome, prepared, context, -⟩ := stops item halted isStop
  have seen : ((query.toSelectLevel.deriveColumns {}).level.shape.items,
      (query.toSelectLevel.deriveColumns {}).level.shape.groupBy) =
      ([.star (some "o"), .ofDerived "b" "ORDER_BY_DERIVED_0"], query.shape.groupBy) := by decide +kernel
  rw [outcome] at seen
  have error : query.prepare {} = .error (.missingOrderItemName ⟨40, 41⟩) := by decide +kernel
  exact ⟨query, item, halted, isStop, error, congrArg Prod.fst seen, congrArg Prod.snd seen, context⟩

end SelectStatement

end SqlRouting
