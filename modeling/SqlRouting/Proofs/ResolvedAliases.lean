import Mathlib.Data.List.Forall2
import SqlRouting.Proofs.Aliases
import SqlRouting.Proofs.Descent
import SqlRouting.Proofs.Merging

/-!
# Aliases that are found

An item to order or group by takes the alias under which its expression is selected, if one is found when
the item is read. Whether the select list has the column of an item is asked again when columns are derived,
in another way, and of the level whose shape the merged query has. It has, if an alias was found: the select
list only goes on after an item is read, so the alias is still one of its aliases.

What is said of an item holds of all levels, but the merged query keeps the items of one level alone.

## Main definitions

* `SqlRouting.ResultShape.LooksUp` — the alias of an item is looked up in the select list.
* `SqlRouting.OrderItem.KeptAs` — an item is there again, with the alias that was found.
* `SqlRouting.SelectLevel.KeepsAliases` — what becomes of the items of a level when it is prepared.

## Main results

* `SqlRouting.Grammar.keepsShape_looksUp` — the aliases of all items are looked up.
* `SqlRouting.SelectLevel.keepsAliases_of_derives` — no column is derived where an alias was found.
* `SqlRouting.SelectStatement.found_aliases_kept` — the aliases that are found in an accepted query.
-/

set_option autoImplicit false

namespace SqlRouting

open Text

/-! ## Looking up an alias -/

/-- An item to order or group by was read in a parse of the text, and its alias is what its name gave in the
select list, as far as the list was known then. -/
def ResultShape.LooksUp (env : Environment) (text : String) (shape : ResultShape) (item : OrderItem) : Prop :=
  ∃ (known : ResultShape) (s s' : ParserState), Reaches text s ∧
    (Grammar.orderItem env.rules known).run s = .ok (item, s') ∧ known.items <+: shape.items ∧
    item.aliasName = item.qualifiedName?.bind known.aliasOf?

section LooksUp

variable {env : Environment} {text : String} {level extended : SelectLevel} {item : OrderItem}

/-- An alias that is found is one of the select list. -/
lemma ResultShape.LooksUp.hasAlias {aliasName : String} (looksUp : level.shape.LooksUp env text item)
    (found : item.aliasName = some aliasName) : level.HasAlias aliasName := by
  obtain ⟨known, -, -, -, -, before, resolved⟩ := looksUp
  obtain ⟨name, -, inList⟩ := Option.bind_eq_some_iff.1 (resolved.symm.trans found)
  have has : ({ shape := known } : SelectLevel).HasAlias aliasName := SelectLevel.hasAlias_of_found inList
  obtain ⟨selected, mem, given⟩ := has
  exact ⟨selected, before.subset mem, given⟩

/-- What has an alias that was found is selected, and it stays so while columns are derived. -/
lemma ResultShape.LooksUp.satisfies {aliasName : String} (looksUp : level.shape.LooksUp env text item)
    (found : item.aliasName = some aliasName) (h : extended.Extends level) (metadata : TableMetadata) :
    extended.Satisfies metadata item :=
  .sameAlias found ((looksUp.hasAlias found).extend h)

end LooksUp

namespace Grammar

open SqlRouting.Parser

variable {env : Environment} {rules : ShardingRule} {text : String} {s s' : ParserState}

/-- The alias of an item that is read is looked up in what is known then. -/
lemma orderItem_aliasName {shape : ResultShape} {item : OrderItem}
    (success : (orderItem rules shape).run s = .ok (item, s')) :
    item.aliasName = item.qualifiedName?.bind shape.aliasOf? := by
  obtain ⟨expression, s₁, -, rest⟩ := run_bind_ok.1 success
  obtain ⟨direction, s₂, -, made⟩ := run_bind_ok.1 rest
  obtain ⟨-, -, -, resolved⟩ := itemOf_resolved (run_lift_ok.1 made).1
  exact resolved

/-- Whatever the order of the clauses, the aliases of all items are looked up in the select list. -/
lemma keepsShape_looksUp : KeepsShape env text fun shape =>
    ∀ item ∈ shape.orderBy ++ shape.groupBy, shape.LooksUp env text item := by
  refine keepsShape_orderItems (fun goesOn looksUp => ?_) fun reaches read => ?_
  · obtain ⟨known, s, s', reaches, read, before, resolved⟩ := looksUp
    exact ⟨known, s, s', reaches, read, before.trans goesOn, resolved⟩
  · exact ⟨_, _, _, reaches, read, List.prefix_rfl, orderItem_aliasName read⟩

end Grammar

/-! ## Deriving columns -/

/-- An item is there again: with another alias at most, and as it was if an alias was found for it. -/
structure OrderItem.KeptAs (item final : OrderItem) : Prop where
  /-- Only the alias may be another one. -/
  same : ∃ aliasName, final = { item with aliasName }
  /-- An alias that was found stays. -/
  found : item.aliasName ≠ none → final = item

/-- Items that get no column if an alias was found for them are there again. -/
lemma OrderItem.keptAs_renamedAll {items : List OrderItem} {names : List (Option String)}
    (length : items.length = names.length)
    (free : ∀ item added, (item, added) ∈ items.zip names → item.aliasName ≠ none → added = none) :
    List.Forall₂ OrderItem.KeptAs items (renamedAll items names) := by
  induction items generalizing names with
  | nil => exact .nil
  | cons item items ih =>
    cases names with
    | nil => cases length
    | cons added names =>
      refine .cons ⟨⟨_, rfl⟩, fun found => ?_⟩ (ih (Nat.succ.inj length) fun other name mem => ?_)
      · obtain rfl := free item added List.mem_cons_self found
        rfl
      · exact free other name (List.mem_cons_of_mem _ mem)

section KeptAs

variable {items finals : List OrderItem} (kept : List.Forall₂ OrderItem.KeptAs items finals)
include kept

/-- There are items if there were. -/
lemma OrderItem.eq_nil_of_keptAs : finals = [] ↔ items = [] := by
  cases kept with
  | nil => exact Iff.rfl
  | cons first others => exact iff_of_false (List.cons_ne_nil _ _) (List.cons_ne_nil _ _)

/-- The items are written in the same way. -/
lemma OrderItem.orderByText_of_keptAs : finals.map orderByText = items.map orderByText := by
  induction kept with
  | nil => rfl
  | cons first _ ih =>
    obtain ⟨aliasName, rfl⟩ := first.same
    rw [List.map_cons, List.map_cons, ih]
    rfl

end KeptAs

namespace SelectLevel

/-- The edit that adds the columns a level lacks to its select list, if it lacks any; `orders` and `groups`
are the names of those to order and group by. -/
def columnEdits (level : SelectLevel) (orders groups : List (Option String)) : List Edit :=
  if level.lackedTexts orders groups = [] then []
  else [.items level.shape.selectListStop (level.lackedTexts orders groups)]

/-- The edit that makes the grouping of a level its ordering, if it has no ordering. -/
def orderingEdits (level : SelectLevel) : List Edit :=
  if level.shape.groupBy = [] ∨ level.shape.orderBy ≠ [] then []
  else level.shape.groupByStop.toList.map (.orderBy · (level.shape.groupBy.map OrderItem.orderByText))

/-- **What becomes of the items to order and group by** when a level is prepared: they are all there again,
and where an alias was found for one, it keeps that alias and no column is derived for it. A grouping without
an ordering is made the ordering. -/
structure KeepsAliases (level prepared : SelectLevel) : Prop where
  /-- The items to group by are there again. -/
  grouped : List.Forall₂ OrderItem.KeptAs level.shape.groupBy prepared.shape.groupBy
  /-- The items to order by are there again, or else those to group by. -/
  ordered : List.Forall₂ OrderItem.KeptAs
    (if level.shape.orderBy = [] then level.shape.groupBy else level.shape.orderBy) prepared.shape.orderBy
  /-- Columns are inserted for averages and for items for which no alias was found, and then the ordering. -/
  edits : ∃ orders groups,
    (∀ item added, (item, added) ∈ level.shape.orderBy.zip orders ++ level.shape.groupBy.zip groups →
      item.aliasName ≠ none → added = none) ∧
    prepared.context.edits = level.context.edits ++ level.columnEdits orders groups ++ level.orderingEdits

variable {env : Environment} {text : String} {level derived : SelectLevel} {metadata : TableMetadata}
  {orders groups : List (Option String)}

/-- Making a grouping the ordering leaves the grouping, and adds an edit at most. -/
lemma deriveOrdering_parts (level : SelectLevel) :
    level.deriveOrdering.shape.groupBy = level.shape.groupBy ∧
      level.deriveOrdering.shape.orderBy =
        (if level.shape.orderBy = [] then level.shape.groupBy else level.shape.orderBy) ∧
      level.deriveOrdering.context.edits = level.context.edits ++ level.orderingEdits := by
  unfold deriveOrdering orderingEdits
  simp only [Bool.or_eq_true, List.isEmpty_iff, Bool.not_eq_true', List.isEmpty_eq_false_iff]
  split
  · rename_i complete
    refine ⟨rfl, ?_, (List.append_nil _).symm⟩
    split
    · rename_i unordered
      rw [unordered, complete.resolve_right (not_not.2 unordered)]
    · rfl
  · rename_i lacking
    obtain ⟨-, unordered⟩ := not_or.1 lacking
    rw [if_pos (not_not.1 unordered)]
    cases level.shape.groupByStop with
    | none => exact ⟨rfl, rfl, (List.append_nil _).symm⟩
    | some stop => exact ⟨rfl, rfl, rfl⟩

/-- **No column is derived where an alias was found**, for the items of a level whose aliases are looked up
in its select list. -/
lemma keepsAliases_of_derives
    (looksUp : ∀ item ∈ level.shape.orderBy ++ level.shape.groupBy, level.shape.LooksUp env text item)
    (derives : level.Derives metadata orders groups derived) :
    level.KeepsAliases derived.deriveOrdering := by
  have free : ∀ item added,
      (item, added) ∈ level.shape.orderBy.zip orders ++ level.shape.groupBy.zip groups →
        item.aliasName ≠ none → added = none := by
    intro item added mem found
    have isItem : item ∈ level.shape.orderBy ++ level.shape.groupBy :=
      List.mem_append.2 ((List.mem_append.1 mem).imp (fun mem => (List.of_mem_zip mem).1)
        fun mem => (List.of_mem_zip mem).1)
    obtain ⟨extended, goesOn, added_iff⟩ := derives.added_iff mem
    obtain ⟨aliasName, isFound⟩ := Option.ne_none_iff_exists'.1 found
    exact added_iff.2 ((looksUp item isItem).satisfies isFound goesOn metadata)
  have ordered := OrderItem.keptAs_renamedAll derives.orderTurns.length_eq fun item added mem =>
    free item added (List.mem_append_left _ mem)
  have grouped := OrderItem.keptAs_renamedAll derives.groupTurns.length_eq fun item added mem =>
    free item added (List.mem_append_right _ mem)
  obtain ⟨sameGroups, sameOrders, sameEdits⟩ := derived.deriveOrdering_parts
  have columns : derived.context.edits = level.context.edits ++ level.columnEdits orders groups := by
    rw [derives.context, columnEdits]
    split
    · exact (List.append_nil _).symm
    · rfl
  have shape := derives.shape
  have isOrdered : derived.shape.orderBy = [] ↔ level.shape.orderBy = [] := by
    rw [shape]
    exact OrderItem.eq_nil_of_keptAs ordered
  have ordering : derived.orderingEdits = level.orderingEdits := by
    have isGrouped : derived.shape.groupBy = [] ↔ level.shape.groupBy = [] := by
      rw [shape]
      exact OrderItem.eq_nil_of_keptAs grouped
    have texts : derived.shape.groupBy.map OrderItem.orderByText =
        level.shape.groupBy.map OrderItem.orderByText := by
      rw [shape]
      exact OrderItem.orderByText_of_keptAs grouped
    rw [orderingEdits, orderingEdits, texts]
    simp only [isGrouped, isOrdered, ne_eq]
    rw [shape]
  refine ⟨?_, ?_, orders, groups, free, ?_⟩
  · rw [sameGroups, shape]
    exact grouped
  · rw [sameOrders]
    simp only [isOrdered]
    rw [shape]
    split
    · exact grouped
    · exact ordered
  · rw [sameEdits, columns, ordering]

end SelectLevel

/-! ## Queries -/

namespace SelectStatement

open Grammar SqlRouting.Parser

/-- **The aliases that are found in an accepted query**, whatever the dialect. At each of its levels, the
alias of an item to order or group by is looked up in the select list as far as it is known then, and an item
for which one is found is selected by an item of that alias, there and while columns are derived. The merged
query has the shape of one level, and keeps the items of that level: where an alias was found for an item, it
keeps that alias and no column is derived for it. Items of other levels are gone. Nothing is inserted into the
levels that are merged, so that all that is inserted are the columns that are derived and the ordering that is
made of a grouping.

**Proof sketch.** An item takes its alias from the select list as it is known then, and the list only goes on,
so the alias is one of the whole list, and the columns that are derived only make the list longer. What holds
of the shapes of all levels holds of that of the merged query, so each of its items for which an alias was
found is satisfied in its turn, and no column is derived for it. -/
theorem found_aliases_kept {env : Environment} {text : String} {query : SelectStatement}
    (success : Statement.ofText env text = .ok (.select query)) :
    ∃ whole s, (Grammar.levels env).run ⟨.ofText text, {}⟩ = .ok (whole, s) ∧
      (∀ level ∈ whole.levels, ∀ item ∈ level.shape.orderBy ++ level.shape.groupBy,
        level.shape.LooksUp env text item ∧
          ∀ aliasName, item.aliasName = some aliasName → level.HasAlias aliasName ∧
            ∀ extended : SelectLevel, extended.Extends level →
              extended.HasAlias aliasName ∧ ∀ metadata, extended.Satisfies metadata item) ∧
      whole.merge.shape = (whole.toSelectLevel.supplier whole.derivedTables).shape ∧
      Edit.insertions whole.merge.context.edits = [] ∧
      whole.merge.toSelectLevel.KeepsAliases query.toSelectLevel := by
  obtain ⟨s, s', -, ⟨_, same, selected⟩ | ⟨_, same, -⟩⟩ := ofText_reads success
  · cases same
    obtain ⟨whole, s₁, read, prepared⟩ := run_bind_ok.1 selected
    obtain ⟨isPrepared, rfl⟩ := run_lift_ok.1 prepared
    obtain ⟨derived, rfl⟩ := prepare_ok isPrepared
    obtain ⟨orders, groups, derives⟩ := SelectLevel.derives_of_success derived
    have looksUp := shapes_levels keepsShape_looksUp (Reaches.start text) read
    have merged : ∀ item ∈ whole.merge.shape.orderBy ++ whole.merge.shape.groupBy,
        whole.merge.shape.LooksUp env text item :=
      merge_shape (P := fun shape => ∀ item ∈ shape.orderBy ++ shape.groupBy, shape.LooksUp env text item)
        looksUp
    refine ⟨whole, s₁, read, fun level isLevel item mem => ⟨looksUp level isLevel item mem, ?_⟩,
      SelectLevel.mergeAll_shape _ _, insertions_merge read,
      SelectLevel.keepsAliases_of_derives merged derives⟩
    intro aliasName isFound
    have found := looksUp level isLevel item mem
    have selected := found.hasAlias isFound
    exact ⟨selected, fun _ goesOn => ⟨selected.extend goesOn, found.satisfies isFound goesOn⟩⟩
  · cases same

/-- Orderings by an alias, of a query and of its derived table: nothing is inserted. -/
theorem found_aliases_kept_ordering : ∃ query whole s,
    let text := "SELECT a AS x FROM (SELECT b AS y FROM t ORDER BY y) s ORDER BY X"
    Statement.ofText {} text = .ok (.select query) ∧
      (Grammar.levels {}).run ⟨.ofText text, {}⟩ = .ok (whole, s) ∧
      whole.merge.toSelectLevel.KeepsAliases query.toSelectLevel ∧
      query.shape.orderBy.map (·.aliasName) = [some "X"] ∧ Edit.insertions query.context.edits = [] := by
  have seen : (query? {} "SELECT a AS x FROM (SELECT b AS y FROM t ORDER BY y) s ORDER BY X").map
      (fun query => (query.shape.orderBy.map (·.aliasName), Edit.insertions query.context.edits)) =
      some ([some "X"], []) := by decide +kernel
  obtain ⟨query, success, same⟩ := exists_of_query seen
  obtain ⟨whole, s, read, -, -, -, kept⟩ := found_aliases_kept success
  exact ⟨query, whole, s, success, read, kept, congrArg Prod.fst same, congrArg Prod.snd same⟩

/-- **An alias that is found need not be kept**: the items of a derived table are gone where the level above
has a select list without a star. And where it is kept, it may be inserted: a grouping without an ordering is
made the ordering. -/
theorem found_alias_gone :
    (∃ query whole s, Statement.ofText {} "SELECT a FROM (SELECT b AS x FROM t ORDER BY x) s" =
        .ok (.select query) ∧
      (Grammar.levels {}).run ⟨.ofText "SELECT a FROM (SELECT b AS x FROM t ORDER BY x) s", {}⟩ =
        .ok (whole, s) ∧
      whole.levels.map (fun level => (level.shape.aliasOf? "x", level.shape.orderBy.map (·.aliasName))) =
        [(none, []), (some "x", [some "x"])] ∧
      query.shape.orderBy ++ query.shape.groupBy = []) ∧
    ∃ query, Statement.ofText {} "SELECT a AS x FROM t GROUP BY x" = .ok (.select query) ∧
      query.shape.groupBy.map (·.aliasName) = [some "x"] ∧
      Edit.insertions query.context.edits = [(31, " ORDER BY x ASC ")] := by
  constructor
  · have seen : (query? {} "SELECT a FROM (SELECT b AS x FROM t ORDER BY x) s").map
        (fun query => query.shape.orderBy ++ query.shape.groupBy) = some [] := by decide +kernel
    obtain ⟨query, success, gone⟩ := exists_of_query seen
    have below : ((Grammar.levels {}).run
        ⟨.ofText "SELECT a FROM (SELECT b AS x FROM t ORDER BY x) s", {}⟩).toOption.map (fun result =>
          result.1.levels.map fun level =>
            (level.shape.aliasOf? "x", level.shape.orderBy.map (·.aliasName))) =
        some [(none, []), (some "x", [some "x"])] := by decide +kernel
    cases read : (Grammar.levels {}).run
        ⟨.ofText "SELECT a FROM (SELECT b AS x FROM t ORDER BY x) s", {}⟩ with
    | error error =>
      rw [read] at below
      cases below
    | ok result =>
      rw [read] at below
      exact ⟨query, result.1, result.2, success, rfl, Option.some.inj below, gone⟩
  · have seen : (query? {} "SELECT a AS x FROM t GROUP BY x").map (fun query =>
        (query.shape.groupBy.map (·.aliasName), Edit.insertions query.context.edits)) =
        some ([some "x"], [(31, " ORDER BY x ASC ")]) := by decide +kernel
    obtain ⟨query, success, same⟩ := exists_of_query seen
    exact ⟨query, success, congrArg Prod.fst same, congrArg Prod.snd same⟩

end SelectStatement

end SqlRouting
