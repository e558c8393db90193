import SqlRouting.Proofs.SelectLists

/-!
# Aliases to order and group by

An alias is not a column, so none can be derived for it, and it should be found in the select list instead.
It is looked up there when the item to order or group by is read, unless the select list has a star, where
nothing is known of what is selected. Only folded columns and a star for all columns are found without that.

## Main results

* `SqlRouting.SelectStatement.aliases_found` — when no column is derived for an alias.
* `SqlRouting.SelectStatement.alias_beside_star` — a column that is derived for an alias.
-/

set_option autoImplicit false

namespace SqlRouting

open Text

namespace SelectLevel

variable {level extended : SelectLevel} {metadata : TableMetadata} {item : OrderItem} {name : String}

/-- An alias of the select list stays one while columns are derived. -/
lemma HasAlias.extend (has : level.HasAlias name) (h : extended.Extends level) :
    extended.HasAlias name := by
  obtain ⟨selected, mem, aliasName, given, same⟩ := has
  obtain ⟨k, mem'⟩ := h.exists_completed mem
  exact ⟨_, mem', aliasName, by rwa [SelectItem.aliasName_completed], same⟩

/-- A label of the select list stays one while columns are derived. -/
lemma HasLabel.extend (has : level.HasLabel name) (h : extended.Extends level) :
    extended.HasLabel name := by
  obtain ⟨labels, mem, contains⟩ := has
  exact ⟨labels, h.mem_distinct_iff.2 mem, contains⟩

/-- An alias that is found is one of the select list. -/
lemma hasAlias_of_found {expression : String} (found : level.shape.aliasOf? expression = some name) :
    level.HasAlias name := by
  rcases ResultShape.aliasOf_some found with ⟨selected, mem, -, given⟩ | ⟨rfl, selected, mem, rest⟩
  · exact ⟨selected, mem, name, given, sameName_self name⟩
  · exact ⟨selected, mem, rest⟩

/-- **When an item that is written like an alias is selected**: if all columns are, if it is the label of a
folded column, or if its alias can be looked up. For that the select list must have no star, the name no
quotation marks, and no item without an alias may read like it and not be equal to it. -/
lemma satisfies_of_alias (h : extended.Extends level) (noOwner : item.owner = none)
    (named : item.name = some name)
    (resolved : item.aliasName = item.qualifiedName?.bind level.shape.aliasOf?)
    (aliased : level.HasAlias name ∨ level.HasLabel name)
    (known : .star none ∈ level.shape.items ∨ level.HasLabel name ∨
      level.shape.containsStar = false ∧ unquoted name = name ∧
        ∀ selected ∈ level.shape.items, selected.aliasName = none → ResultShape.SameText name selected →
          sameName selected.expression name = true) : extended.Satisfies metadata item := by
  have qualified : item.qualifiedName? = some name := by simp [OrderItem.qualifiedName?, noOwner, named]
  rw [qualified, Option.bind_some] at resolved
  cases renamed : item.aliasName with
  | some aliasName =>
    exact .sameAlias renamed ((hasAlias_of_found (resolved.symm.trans renamed)).extend h)
  | none =>
    have label : item.label? = some name := by rw [OrderItem.label?, renamed, named]; rfl
    rcases known with star | labelled | ⟨noStar, plain, lookalikes⟩
    · exact .bareStar (h.mem_star_iff.2 star)
    · exact .label label (labelled.extend h)
    · rcases aliased with ⟨selected, mem, aliasName, given, same⟩ | labelled
      · rcases ResultShape.aliasOf_none noStar (resolved.symm.trans renamed) with
          ⟨other, isOther, reads, unnamed⟩ | noAlias
        · obtain ⟨k, mem'⟩ := h.exists_completed isOther
          refine .sameText qualified mem' (by rwa [SelectItem.aliasName_completed]) ?_
          rw [SelectItem.expression_completed]
          exact lookalikes other isOther unnamed reads
        · exact absurd (plain.symm ▸ same) (noAlias selected mem aliasName given)
      · exact .label label (labelled.extend h)

end SelectLevel

namespace SelectStatement

open Grammar

/-- **When no column is derived for an alias.** Where the select list has a star, no alias is looked up. An
item that is written like an alias of the select list gets no column if all columns are selected, or if it
is the label of a folded column, or if there is no star, nothing in quotation marks, and no other item
without an alias that reads like it.

**Proof sketch.** The alias of an item is looked up in the select list as it is read, which goes on by
derived columns only, and these have aliases. So an item that is found there stays satisfied, in its turn as
well. With a star no alias is looked up, and the star itself, or the label, satisfies the item. -/
theorem aliases_found {env : Environment} {text : String} {query : SelectStatement}
    (first : env.dialect.SelectsFirst) (success : Statement.ofText env text = .ok (.select query)) :
    ∃ (level : SelectLevel) (orders groups : List (Option String)),
      query.PreparedFrom env text level orders groups ∧
      (level.shape.containsStar = true →
        ∀ item ∈ level.shape.orderBy ++ level.shape.groupBy, item.aliasName = none) ∧
      ∀ item added name,
        (item, added) ∈ level.shape.orderBy.zip orders ++ level.shape.groupBy.zip groups →
        item.owner = none → item.name = some name → level.HasAlias name ∨ level.HasLabel name →
        (.star none ∈ level.shape.items ∨ level.HasLabel name ∨
          level.shape.containsStar = false ∧ unquoted name = name ∧
            ∀ selected ∈ level.shape.items, selected.aliasName = none →
              ResultShape.SameText name selected → sameName selected.expression name = true) →
        added = none := by
  obtain ⟨level, orders, groups, prepared⟩ := exists_preparedFrom first success
  refine ⟨level, orders, groups, prepared, fun star item mem => ?_, ?_⟩
  · obtain ⟨part, resolved⟩ := prepared.resolved.items item mem
    rw [resolved.resolved]
    cases item.qualifiedName? with
    | none => rfl
    | some name => rw [Option.bind_some, ResultShape.aliasOf?, if_pos star]
  · intro item added name mem noOwner named aliased known
    obtain ⟨part, extended, resolved, goesOn, added_iff⟩ := prepared.turn mem
    exact added_iff.2 (SelectLevel.satisfies_of_alias goesOn noOwner named resolved.resolved aliased known)

/-- An item that is ordered by an alias: no column is derived for it. -/
theorem aliases_found_ordering : ∃ (query : SelectStatement) (level : SelectLevel)
    (orders groups : List (Option String)),
    Statement.ofText {} "SELECT status AS s FROM t_order ORDER BY S" = .ok (.select query) ∧
      query.PreparedFrom {} "SELECT status AS s FROM t_order ORDER BY S" level orders groups ∧
      query.shape.orderBy.map (·.name) = [some "S"] ∧ Edit.insertions query.context.edits = [] ∧
      level.HasAlias "S" ∧
      ∀ item added, (item, added) ∈ level.shape.orderBy.zip orders ++ level.shape.groupBy.zip groups →
        item.owner = none → item.name = some "S" → added = none := by
  let text := "SELECT status AS s FROM t_order ORDER BY S"
  have seen : (query? {} text).map (fun query => (Edit.insertions query.context.edits, query.shape.items,
      query.shape.containsStar, query.shape.orderBy.map (·.name))) =
      some ([], [.plain "status" (some "s") false], false, [some "S"]) := by decide +kernel
  obtain ⟨query, success, same⟩ := exists_of_query seen
  simp only [Prod.mk.injEq] at same
  obtain ⟨nothing, items, noStar, names⟩ := same
  have first : Dialect.generic.SelectsFirst := ⟨_, rfl, by decide⟩
  obtain ⟨level, orders, groups, prepared, -, found⟩ := aliases_found first success
  obtain ⟨goesOn, sameStar⟩ := prepared.extends_level
  have aliased : level.HasAlias "S" := by
    have mem : .plain "status" (some "s") false ∈ query.shape.items := by simp [items]
    rcases goesOn.mem_cases mem with ⟨name, aliasName, derived⟩ | ⟨original, k, mem, same⟩
    · cases derived
    · exact ⟨original, mem, "s", by rw [← SelectItem.aliasName_completed k, ← same]; rfl, by decide⟩
  refine ⟨query, level, orders, groups, success, prepared, names, nothing, aliased, ?_⟩
  intro item added mem noOwner named
  refine found item added "S" mem noOwner named (.inl aliased) (.inr (.inr ⟨?_, by decide, ?_⟩))
  · rw [← sameStar, noStar]
  · intro selected isSelected unnamed
    obtain ⟨k, mem'⟩ := goesOn.exists_completed isSelected
    rw [items, List.mem_singleton] at mem'
    have given := congrArg SelectItem.aliasName mem'
    rw [SelectItem.aliasName_completed, unnamed] at given
    cases given

/-- **A column is derived for an alias** beside a star with an owner, where no alias is looked up; and where
the ordering is read before the select list, as there is nothing to look it up in. -/
theorem alias_beside_star :
    (∃ query, Statement.ofText {} "SELECT o.*, status AS s FROM t_order o ORDER BY s" = .ok (.select query) ∧
      query.shape.items = [.star (some "o"), .plain "status" (some "s") false,
        .ofDerived "s" "ORDER_BY_DERIVED_0"] ∧
      Edit.insertions query.context.edits = [(24, ", s AS ORDER_BY_DERIVED_0 ")]) ∧
    ∃ env query, env.dialect.clauses = [.tables, .ordering, .selectList] ∧
      Statement.ofText env "SELECT FROM t ORDER BY s status AS s" = .ok (.select query) ∧
      query.shape.items = [.plain "status" (some "s") false, .ofDerived "s" "ORDER_BY_DERIVED_0"] ∧
      Edit.insertions query.context.edits = [(36, ", s AS ORDER_BY_DERIVED_0 ")] := by
  constructor
  · have seen : (query? {} "SELECT o.*, status AS s FROM t_order o ORDER BY s").map (fun query =>
        (query.shape.items, Edit.insertions query.context.edits)) =
        some ([.star (some "o"), .plain "status" (some "s") false, .ofDerived "s" "ORDER_BY_DERIVED_0"],
          [(24, ", s AS ORDER_BY_DERIVED_0 ")]) := by decide +kernel
    obtain ⟨query, success, same⟩ := exists_of_query seen
    simp only [Prod.mk.injEq] at same
    exact ⟨query, success, same.1, same.2⟩
  · let env : Environment := { dialect := { name := "late", clauses := [.tables, .ordering, .selectList] } }
    have seen : (query? env "SELECT FROM t ORDER BY s status AS s").map (fun query =>
        (query.shape.items, Edit.insertions query.context.edits)) =
        some ([.plain "status" (some "s") false, .ofDerived "s" "ORDER_BY_DERIVED_0"],
          [(36, ", s AS ORDER_BY_DERIVED_0 ")]) := by decide +kernel
    obtain ⟨query, success, same⟩ := exists_of_query seen
    simp only [Prod.mk.injEq] at same
    exact ⟨env, query, rfl, success, same.1, same.2⟩

end SelectStatement

end SqlRouting
