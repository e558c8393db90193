import Mathlib.Tactic.Lemma
import SqlRouting.Derivation

/-!
# Derivation happens once

Preparing a query adds the columns that merging needs, and records them in the select list. A level
that has them all is left as it is, and a level that was prepared has them all. So preparing a query
that is prepared changes nothing.

## Main definitions

* `SqlRouting.SelectLevel.Grows` — a level gets derived columns in its select list.
* `SqlRouting.SelectLevel.Prepared` — a level has what merging needs.
* `SqlRouting.SelectLevel.withOrderColumns`, `withGroupColumns` — a level after each step of deriving
  columns.

## Main results

* `SqlRouting.SelectLevel.Grows.covers_eq` — what is covered stays covered as columns are added.
* `SqlRouting.SelectLevel.Prepared.deriveColumns_eq`, `Prepared.deriveOrdering_eq` — a prepared level
  is left as it is.
* `SqlRouting.SelectLevel.prepared_deriveOrdering` — deriving columns, then the ordering, prepares a
  level.
* `SqlRouting.SelectStatement.prepare_idempotent` — preparing a query once is preparing it for good.
-/

set_option autoImplicit false

namespace SqlRouting

open Text

/-! ## Averages -/

/-- The item has the calls that it is computed from, if it is an average. -/
def SelectItem.Complete (item : SelectItem) : Prop :=
  ∀ call, item = .aggregate call → call.function = .avg → call.helpers ≠ []

/-- Deriving averages completes every item. -/
lemma complete_deriveAverages (n : Nat) (items : List SelectItem) :
    ∀ item ∈ (deriveAverages n items).items, item.Complete := by
  fun_induction deriveAverages n items with
  | case1 => simp
  | case2 n call items isAverage rest missing helpers ih =>
    refine List.forall_mem_cons.2 ⟨?_, ih⟩
    rintro _ ⟨rfl⟩ -
    exact List.cons_ne_nil _ _
  | case3 n call items isAverage rest present ih =>
    refine List.forall_mem_cons.2 ⟨?_, ih⟩
    rintro _ ⟨rfl⟩ - noHelpers
    exact present (by simp [noHelpers])
  | case4 n call items notAverage rest ih =>
    refine List.forall_mem_cons.2 ⟨?_, ih⟩
    rintro _ ⟨rfl⟩ isAverage
    exact absurd (beq_iff_eq.2 isAverage) notAverage
  | case5 n item items notAggregate rest ih =>
    refine List.forall_mem_cons.2 ⟨?_, ih⟩
    rintro call rfl
    exact (notAggregate call rfl).elim

/-- Complete items are left as they are. -/
lemma deriveAverages_of_complete {n : Nat} {items : List SelectItem}
    (complete : ∀ item ∈ items, item.Complete) : deriveAverages n items = ⟨items, []⟩ := by
  fun_induction deriveAverages n items with
  | case1 => rfl
  | case2 n call items isAverage rest missing helpers ih =>
    have present := complete _ List.mem_cons_self call rfl (beq_iff_eq.1 isAverage)
    exact absurd (List.isEmpty_iff.1 missing) present
  | case3 n call items isAverage rest present ih =>
    simp [rest, ih (List.forall_mem_cons.1 complete).2]
  | case4 n call items notAverage rest ih =>
    simp [rest, ih (List.forall_mem_cons.1 complete).2]
  | case5 n item items notAggregate rest ih =>
    simp [rest, ih (List.forall_mem_cons.1 complete).2]

/-! ## Coverage -/

namespace SelectLevel

variable {level other another : SelectLevel} {metadata : TableMetadata} {item : OrderItem}

/-- The other level has the same tables, and more columns at most in its select list. -/
structure Grows (level other : SelectLevel) : Prop where
  /-- The tables are the same. -/
  tables : other.context.tables = level.context.tables
  /-- The select list goes on with derived columns. -/
  items : ∃ columns, other.shape.items = level.shape.items ++ columns ∧
    ∀ column ∈ columns, ∃ name aliasName, column = .ofDerived name aliasName

namespace Grows

/-- A level grows from any that has the same tables and the same select list. -/
lemma of_eq (tables : other.context.tables = level.context.tables)
    (items : other.shape.items = level.shape.items) : Grows level other :=
  ⟨tables, [], by rw [items, List.append_nil], by simp⟩

/-- Every level grows from itself. -/
lemma refl (level : SelectLevel) : Grows level level :=
  of_eq rfl rfl

/-- Growing twice is growing. -/
lemma trans (h : Grows level other) (h' : Grows other another) : Grows level another := by
  obtain ⟨columns, items, derived⟩ := h.items
  obtain ⟨more, items', derived'⟩ := h'.items
  refine ⟨h'.tables.trans h.tables, columns ++ more, by rw [items', items, List.append_assoc], ?_⟩
  intro column mem
  rcases List.mem_append.1 mem with mem | mem
  · exact derived column mem
  · exact derived' column mem

/-- Pushing a derived column is growing. -/
lemma pushItem (level : SelectLevel) (name aliasName : String) :
    Grows level (level.pushItem (.ofDerived name aliasName)) :=
  ⟨rfl, [.ofDerived name aliasName], rfl,
    fun _ mem => ⟨name, aliasName, List.mem_singleton.1 mem⟩⟩

/-- Growing adds no bare star. -/
lemma hasBareStar_eq (h : Grows level other) :
    other.shape.hasBareStar = level.shape.hasBareStar := by
  obtain ⟨columns, items, derived⟩ := h.items
  have noStar : columns.any (·.isBareStar) = false := by
    refine List.any_eq_false.2 fun column mem => ?_
    obtain ⟨name, aliasName, rfl⟩ := derived column mem
    simp [SelectItem.ofDerived, SelectItem.isBareStar]
  rw [ResultShape.hasBareStar, items, List.any_append, noStar, Bool.or_false, ResultShape.hasBareStar]

/-- Growing adds no star with an owner. -/
lemma starOwners_eq (h : Grows level other) :
    other.shape.starOwners = level.shape.starOwners := by
  obtain ⟨columns, items, derived⟩ := h.items
  have noOwners : columns.filterMap (·.starOwner?) = [] := by
    refine List.filterMap_eq_nil_iff.2 fun column mem => ?_
    obtain ⟨name, aliasName, rfl⟩ := derived column mem
    rfl
  rw [ResultShape.starOwners, items, List.filterMap_append, noOwners, List.append_nil,
    ResultShape.starOwners]

/-- Names and aliases denote the same tables. -/
lemma findTable_eq (h : Grows level other) (key : String) :
    other.findTable? key = level.findTable? key := by
  rw [findTable?, findTable?, h.tables]

/-- A star that is found is found after growing. -/
lemma findStar_isSome (h : Grows level other) {key : String}
    (found : (level.findStar? key).isSome = true) : (other.findStar? key).isSome = true := by
  obtain ⟨columns, items, -⟩ := h.items
  simp only [findStar?, h.findTable_eq, items] at found ⊢
  split at found
  · cases found
  · rw [List.find?_append, Option.isSome_or, found, Bool.true_or]

/-- What the stars cover, they cover after growing, and where they raise no error, they raise none
then. -/
lemma coveredByStar_eq (h : Grows level other) {starred : Bool}
    (covered : level.coveredByStar metadata item = .ok starred) :
    ∃ starred', other.coveredByStar metadata item = .ok starred' ∧
      (starred = true → starred' = true) := by
  unfold coveredByStar at covered ⊢
  rw [h.starOwners_eq]
  cases owner : item.owner with
  | some owner =>
    simp only [owner, Except.ok.injEq] at covered ⊢
    exact ⟨_, rfl, fun isTrue => h.findStar_isSome (covered.trans isTrue)⟩
  | none =>
    have same (name : String) : other.starCovers metadata name = level.starCovers metadata name := by
      funext owner
      rw [starCovers, starCovers, h.findTable_eq]
    simp only [owner, same] at covered ⊢
    exact ⟨starred, covered, id⟩

/-- What is covered stays covered. -/
lemma covers_eq (h : Grows level other) (covered : level.covers metadata item = .ok true) :
    other.covers metadata item = .ok true := by
  unfold covers at covered ⊢
  rw [h.hasBareStar_eq]
  by_cases free : (item.isIndex || level.shape.hasBareStar) = true
  · rw [if_pos free]
  rw [if_neg free] at covered ⊢
  cases star : level.coveredByStar metadata item with
  | error error => simp [star] at covered
  | ok starred =>
    obtain ⟨starred', star', grown⟩ := h.coveredByStar_eq star
    obtain ⟨columns, items, -⟩ := h.items
    simp only [star, star', items, List.any_append, Except.ok.injEq, Bool.or_eq_true] at covered ⊢
    rcases covered with isStarred | selected
    · exact .inl (grown isStarred)
    · exact .inr (.inl selected)

end Grows

/-! ## Columns to order and group by -/

/-- A derived column selects the item that it was derived for, under its new alias. -/
lemma selects_ofDerived (item : OrderItem) (name aliasName : String) :
    (SelectItem.ofDerived name aliasName).selects { item with aliasName := some aliasName } = true := by
  simp [SelectItem.selects, SelectItem.ofDerived, SelectItem.aliasName, sameName_self]

/-- An item whose column is missing is covered once the column is derived. -/
lemma covers_pushItem (missing : level.covers metadata item = .ok false) (name aliasName : String) :
    (level.pushItem (.ofDerived name aliasName)).covers metadata
      { item with aliasName := some aliasName } = .ok true := by
  have grows := Grows.pushItem level name aliasName
  unfold covers at missing ⊢
  rw [grows.hasBareStar_eq]
  by_cases free : (item.isIndex || level.shape.hasBareStar) = true
  · rw [if_pos free] at missing
    cases missing
  rw [if_neg free] at missing
  have free' : ¬ (({ item with aliasName := some aliasName } : OrderItem).isIndex ||
    level.shape.hasBareStar) = true := free
  rw [if_neg free']
  cases star : level.coveredByStar metadata item with
  | error error => simp [star] at missing
  | ok starred =>
    obtain ⟨starred', star', -⟩ := grows.coveredByStar_eq star
    -- the stars do not look at the alias
    have renamed : (level.pushItem (.ofDerived name aliasName)).coveredByStar metadata
      { item with aliasName := some aliasName } = .ok starred' := star'
    have selected : (level.pushItem (.ofDerived name aliasName)).shape.items.any
        (·.selects { item with aliasName := some aliasName }) = true := by
      simp [SelectLevel.pushItem, selects_ofDerived]
    simp only [renamed, selected, Bool.or_true]

/-- Deriving columns adds columns only, and after it every item is covered. -/
lemma deriveOrder_covers {kind : DerivedColumn} {n : Nat} {items : List OrderItem}
    (success : (deriveOrder metadata kind n level items).failure = none) :
    Grows level (deriveOrder metadata kind n level items).level ∧
      ∀ item ∈ (deriveOrder metadata kind n level items).items,
        (deriveOrder metadata kind n level items).level.covers metadata item = .ok true := by
  fun_induction deriveOrder metadata kind n level items with
  | case1 n level => exact ⟨.refl level, by simp⟩
  | case2 | case4 => cases success
  | case3 n level item items covered rest ih =>
    obtain ⟨grows, all⟩ := ih success
    exact ⟨grows, List.forall_mem_cons.2 ⟨grows.covers_eq covered, all⟩⟩
  | case5 n level item items name named missing aliasName extended rest ih =>
    obtain ⟨grows, all⟩ := ih success
    have first := grows.covers_eq (covers_pushItem missing name aliasName)
    exact ⟨(Grows.pushItem level name aliasName).trans grows, List.forall_mem_cons.2 ⟨first, all⟩⟩

/-- Items that are covered are left as they are. -/
lemma deriveOrder_of_covered {kind : DerivedColumn} {n : Nat} {items : List OrderItem}
    (covered : ∀ item ∈ items, level.covers metadata item = .ok true) :
    deriveOrder metadata kind n level items = ⟨level, items, [], none⟩ := by
  induction items with
  | nil => rfl
  | cons item items ih =>
    obtain ⟨first, others⟩ := List.forall_mem_cons.1 covered
    simp [deriveOrder, first, ih others]

/-- Deriving columns to order or group by changes the select list alone. -/
lemma deriveOrder_shape (metadata : TableMetadata) (kind : DerivedColumn) (n : Nat)
    (level : SelectLevel) (items : List OrderItem) :
    ∃ selected, (deriveOrder metadata kind n level items).level =
      { level with shape := { level.shape with items := selected } } := by
  fun_induction deriveOrder metadata kind n level items with
  | case1 | case2 | case4 => exact ⟨_, rfl⟩
  | case3 n level item items covered rest ih | case5 n level item items _ _ _ _ _ rest ih => exact ih

/-! ## Prepared levels -/

/-- A level has everything that merging needs: the averages have the calls that they are computed
from, the columns to order and group by are selected, and a grouping comes with an ordering. -/
structure Prepared (level : SelectLevel) (metadata : TableMetadata) : Prop where
  /-- Every average has the calls that it is computed from. -/
  averages : ∀ item ∈ level.shape.items, item.Complete
  /-- The columns to order by are selected. -/
  ordered : ∀ item ∈ level.shape.orderBy, level.covers metadata item = .ok true
  /-- The columns to group by are selected. -/
  grouped : ∀ item ∈ level.shape.groupBy, level.covers metadata item = .ok true
  /-- A grouping comes with an ordering. -/
  mirrored : level.shape.groupBy ≠ [] → level.shape.orderBy ≠ []

/-- Growing by derived columns keeps every average complete. -/
lemma Grows.complete (h : Grows level other) (complete : ∀ item ∈ level.shape.items, item.Complete) :
    ∀ item ∈ other.shape.items, item.Complete := by
  obtain ⟨columns, items, derived⟩ := h.items
  intro item mem
  rw [items] at mem
  rcases List.mem_append.1 mem with mem | mem
  · exact complete item mem
  · obtain ⟨name, aliasName, rfl⟩ := derived item mem
    rintro call ⟨⟩

namespace Prepared

/-- A prepared level needs no columns. -/
lemma deriveColumns_eq (h : level.Prepared metadata) :
    level.deriveColumns metadata = ⟨level, none⟩ := by
  have averaged : level.withAverages = (level, []) := by
    rw [withAverages, deriveAverages_of_complete h.averages]
  simp [deriveColumns, averaged, deriveOrder_of_covered h.ordered, withOrderBy,
    deriveOrder_of_covered h.grouped, withGroupBy, addFragments]

/-- A prepared level needs no ordering. -/
lemma deriveOrdering_eq (h : level.Prepared metadata) : level.deriveOrdering = level := by
  unfold deriveOrdering
  by_cases grouped : level.shape.groupBy = []
  · rw [if_pos (by simp [grouped])]
  · rw [if_pos (by simp [h.mirrored grouped])]

end Prepared

/-! ## Preparing -/

/-- Adding texts to the select list is an edit of the text, and nothing else. -/
lemma shape_addFragments (level : SelectLevel) (fragments : List String) :
    (level.addFragments fragments).shape = level.shape := by
  unfold addFragments
  split <;> rfl

/-- Adding texts to the select list keeps the tables. -/
lemma tables_addFragments (level : SelectLevel) (fragments : List String) :
    (level.addFragments fragments).context.tables = level.context.tables := by
  unfold addFragments
  split <;> rfl

/-- What is derived to order by, once the averages are. -/
def orderColumns (level : SelectLevel) (metadata : TableMetadata) : DerivedOrder :=
  let first := level.withAverages.1
  deriveOrder metadata .orderBy 0 first first.shape.orderBy

/-- A level with the columns to order by derived. -/
def withOrderColumns (level : SelectLevel) (metadata : TableMetadata) : SelectLevel :=
  (level.orderColumns metadata).level.withOrderBy (level.orderColumns metadata).items

/-- What is derived to group by, once the columns to order by are. -/
def groupColumns (level : SelectLevel) (metadata : TableMetadata) : DerivedOrder :=
  let second := level.withOrderColumns metadata
  deriveOrder metadata .groupBy 0 second second.shape.groupBy

/-- A level with the columns to group by derived as well. -/
def withGroupColumns (level : SelectLevel) (metadata : TableMetadata) : SelectLevel :=
  (level.groupColumns metadata).level.withGroupBy (level.groupColumns metadata).items

/-- Deriving columns succeeds if its steps do, and then adds the texts of all of them to the select
list. -/
lemma deriveColumns_steps (success : (level.deriveColumns metadata).failure = none) :
    (level.orderColumns metadata).failure = none ∧ (level.groupColumns metadata).failure = none ∧
      (level.deriveColumns metadata).level = (level.withGroupColumns metadata).addFragments
        (level.withAverages.2 ++ (level.orderColumns metadata).fragments ++
          (level.groupColumns metadata).fragments) := by
  simp only [deriveColumns, withGroupColumns, groupColumns, withOrderColumns, orderColumns] at success ⊢
  split at success
  · cases success
  · rename_i ordered
    split at success
    · cases success
    · rename_i grouped
      simp only [ordered, grouped, and_self]

/-- Deriving the columns to order by changes the select list and the ordering alone. -/
lemma withOrderColumns_eq (level : SelectLevel) (metadata : TableMetadata) : ∃ selected,
    level.withOrderColumns metadata =
      { level with
        shape :=
          { level.shape with items := selected, orderBy := (level.orderColumns metadata).items } } := by
  obtain ⟨selected, ordered⟩ := deriveOrder_shape metadata .orderBy 0 level.withAverages.1
    level.withAverages.1.shape.orderBy
  refine ⟨selected, ?_⟩
  rw [withOrderColumns, withOrderBy, orderColumns, ordered]
  rfl

/-- Deriving the columns to order and group by changes the select list, the ordering and the grouping
alone. -/
lemma withGroupColumns_eq (level : SelectLevel) (metadata : TableMetadata) : ∃ selected,
    level.withGroupColumns metadata =
      { level with
        shape :=
          { level.shape with
            items := selected, orderBy := (level.orderColumns metadata).items,
            groupBy := (level.groupColumns metadata).items } } := by
  obtain ⟨_, ordered⟩ := level.withOrderColumns_eq metadata
  obtain ⟨selected, grouped⟩ := deriveOrder_shape metadata .groupBy 0 (level.withOrderColumns metadata)
    (level.withOrderColumns metadata).shape.groupBy
  refine ⟨selected, ?_⟩
  rw [withGroupColumns, withGroupBy, groupColumns, grouped, ordered]

/-- Once the averages are derived, a level grows as columns to order and group by are derived for it, and
all of these are covered then.

**Proof sketch.** What is derived to order by is covered where it is derived, and then covered still
where the columns to group by are in the select list as well. -/
lemma deriveColumns_grows (success : (level.deriveColumns metadata).failure = none) :
    Grows level.withAverages.1 (level.deriveColumns metadata).level ∧
      (∀ item ∈ (level.deriveColumns metadata).level.shape.orderBy,
        (level.deriveColumns metadata).level.covers metadata item = .ok true) ∧
      ∀ item ∈ (level.deriveColumns metadata).level.shape.groupBy,
        (level.deriveColumns metadata).level.covers metadata item = .ok true := by
  obtain ⟨orderSuccess, groupSuccess, last_eq⟩ := deriveColumns_steps success
  obtain ⟨growsOrdered, ordered⟩ := deriveOrder_covers orderSuccess
  obtain ⟨growsGrouped, grouped⟩ := deriveOrder_covers groupSuccess
  obtain ⟨selected, columns⟩ := level.withGroupColumns_eq metadata
  generalize (level.deriveColumns metadata).level = last at last_eq ⊢
  have shape : last.shape = (level.withGroupColumns metadata).shape := by
    rw [last_eq, shape_addFragments]
  have growsSecond : Grows (level.orderColumns metadata).level (level.withOrderColumns metadata) :=
    .of_eq rfl rfl
  have growsLast : Grows (level.groupColumns metadata).level last := by
    refine .of_eq ?_ (by rw [shape]; rfl)
    rw [last_eq, tables_addFragments]
    rfl
  have afterOrder : Grows (level.orderColumns metadata).level last :=
    growsSecond.trans (growsGrouped.trans growsLast)
  refine ⟨growsOrdered.trans afterOrder, ?_, ?_⟩
  · rw [shape, columns]
    exact fun item mem => afterOrder.covers_eq (ordered item mem)
  · rw [shape, columns]
    exact fun item mem => growsLast.covers_eq (grouped item mem)

/-- Making the grouping the ordering changes the items to order by and the edits alone. -/
lemma deriveOrdering_cases (level : SelectLevel) :
    (level.deriveOrdering = level ∧ (level.shape.groupBy ≠ [] → level.shape.orderBy ≠ [])) ∨
      (level.deriveOrdering.shape = (level.withOrderBy level.shape.groupBy).shape ∧
        level.deriveOrdering.context.tables = level.context.tables) := by
  unfold deriveOrdering
  split
  · next complete => exact .inl ⟨rfl, fun isGrouped => by simpa [isGrouped] using complete⟩
  · refine .inr ?_
    dsimp only
    split <;> exact ⟨rfl, rfl⟩

/-- Once the columns are derived, the ordering is all that a level lacks. -/
lemma prepared_deriveOrdering (success : (level.deriveColumns metadata).failure = none) :
    (level.deriveColumns metadata).level.deriveOrdering.Prepared metadata := by
  obtain ⟨grown, ordered, grouped⟩ := deriveColumns_grows success
  have averages := grown.complete (complete_deriveAverages 0 level.shape.items)
  generalize (level.deriveColumns metadata).level = derived at *
  rcases derived.deriveOrdering_cases with ⟨same, mirrored⟩ | ⟨shape, tables⟩
  · rw [same]
    exact ⟨averages, ordered, grouped, mirrored⟩
  · -- what is grouped by is covered, so it is covered as the ordering too
    have grows : Grows derived derived.deriveOrdering := .of_eq tables (by rw [shape]; rfl)
    have covered (item) (mem : item ∈ derived.shape.groupBy) :
        derived.deriveOrdering.covers metadata item = .ok true := grows.covers_eq (grouped item mem)
    have groupBy : derived.deriveOrdering.shape.groupBy = derived.shape.groupBy := by rw [shape]; rfl
    have orderBy : derived.deriveOrdering.shape.orderBy = derived.shape.groupBy := by rw [shape]; rfl
    exact ⟨grows.complete averages, orderBy ▸ covered, groupBy ▸ covered,
      fun isGrouped => by rwa [orderBy, ← groupBy]⟩

end SelectLevel

/-- A query is prepared if its columns can be derived, and then its ordering is derived as well. -/
lemma SelectStatement.prepare_ok {query prepared : SelectStatement} {metadata : TableMetadata}
    (success : query.prepare metadata = .ok prepared) :
    (query.toSelectLevel.deriveColumns metadata).failure = none ∧
      prepared = { query with
        toSelectLevel := (query.toSelectLevel.deriveColumns metadata).level.deriveOrdering } := by
  unfold prepare at success
  cases failure : (query.toSelectLevel.deriveColumns metadata).failure with
  | some error => simp [failure] at success
  | none =>
    simp only [failure, Except.ok.injEq] at success
    exact ⟨rfl, success.symm⟩

/-- Preparing a query once is preparing it for good: a prepared query has all that merging needs, and
deriving its columns and its ordering again succeeds and changes nothing.

**Proof sketch.** What is derived is remembered in the select list: once every average has its two columns
and every item is satisfied, deriving columns finds nothing to do, and once there is an ordering, or no
grouping, neither does deriving the ordering. Columns that are added later take nothing of this away. -/
theorem SelectStatement.prepare_idempotent {query prepared : SelectStatement}
    {metadata : TableMetadata} (success : query.prepare metadata = .ok prepared) :
    prepared.toSelectLevel.Prepared metadata ∧
      prepared.toSelectLevel.deriveColumns metadata = ⟨prepared.toSelectLevel, none⟩ ∧
      prepared.toSelectLevel.deriveOrdering = prepared.toSelectLevel ∧
      prepared.prepare metadata = .ok prepared := by
  have isPrepared : prepared.toSelectLevel.Prepared metadata := by
    unfold prepare at success
    cases failure : (query.toSelectLevel.deriveColumns metadata).failure with
    | some error => simp [failure] at success
    | none =>
      simp only [failure, Except.ok.injEq] at success
      rw [← success]
      exact SelectLevel.prepared_deriveOrdering failure
  have columns := isPrepared.deriveColumns_eq
  have ordering := isPrepared.deriveOrdering_eq
  refine ⟨isPrepared, columns, ordering, ?_⟩
  simp only [prepare, columns, ordering]

/-- An average and a grouping that is not selected: preparing adds three columns and an ordering, and
then nothing more. -/
theorem SelectStatement.prepare_idempotent_grouping : ∃ query prepared : SelectStatement,
    query.prepare {} = .ok prepared ∧
      query.context.edits = [] ∧
      prepared.context.edits =
        [.items 16 ["COUNT(a) AS AVG_COUNT_0 ", "SUM(a) AS AVG_SUM_0 ",
          "b AS GROUP_BY_DERIVED_0 "], .orderBy 32 ["b ASC"]] ∧
      prepared.prepare {} = .ok prepared := by
  let query : SelectStatement :=
    { shape :=
        { items := [.aggregate ⟨.avg, "(a)", none, []⟩], selectListStop := 16, groupByStop := some 32
          groupBy := [{ name := some "b" }] } }
  have seen : (query.prepare {}).toOption.map (·.context.edits) =
      some [.items 16 ["COUNT(a) AS AVG_COUNT_0 ", "SUM(a) AS AVG_SUM_0 ",
        "b AS GROUP_BY_DERIVED_0 "], .orderBy 32 ["b ASC"]] := by decide +kernel
  cases success : query.prepare {} with
  | error error => simp [success, Except.toOption] at seen
  | ok prepared =>
    obtain ⟨-, -, -, again⟩ := prepare_idempotent success
    exact ⟨query, prepared, success, rfl, by simpa [success, Except.toOption] using seen, again⟩

end SqlRouting
