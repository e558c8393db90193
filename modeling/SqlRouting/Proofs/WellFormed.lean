import SqlRouting.Proofs.Copies
import SqlRouting.Proofs.Edges
import SqlRouting.Proofs.Faults

/-!
# Well-formed queries

What an accepted query says of its result hangs together, however its derived tables are nested. The
clauses of a level set its parts together, merging takes all of them from one level, and preparing
changes them in step: it adds derived columns behind the select list, gives aliases to items that are
named, numbers the averages, and makes a grouping without an ordering the ordering.

## Main definitions

* `SqlRouting.Numbered` — the calls of a select list have the helpers of their places.
* `SqlRouting.SelectStatement.WellFormed` — the parts of a query fit together.

## Main results

* `SqlRouting.numbered_deriveAverages` — averages are numbered by those before them.
* `SqlRouting.SelectLevel.deriveColumns_shape` — the shape that deriving columns gives to a level.
* `SqlRouting.SelectStatement.wellFormed_of_ofText` — an accepted query is well formed.
-/

set_option autoImplicit false

namespace SqlRouting

/-! ## Averages -/

/-- Whether an item is an average. -/
def SelectItem.isAverage : SelectItem → Bool
  | .aggregate call => call.function == .avg
  | _ => false

/-- Each average of a select list has a count and a sum, numbered by the averages before it, where `n`
of them come before the list; and no other call has helpers. -/
def Numbered (n : Nat) (items : List SelectItem) : Prop :=
  ∀ (i : Nat) (call : Aggregate), items[i]? = some (.aggregate call) → call.helpers =
    if call.function = .avg then
      call.averageHelpers (n + (items.take i).countP SelectItem.isAverage)
    else []

/-- No call of a select list has helpers. -/
def Unhelped (items : List SelectItem) : Prop :=
  ∀ item ∈ items, ∀ call : Aggregate, item = .aggregate call → call.helpers = []

/-- An item in front of a list is numbered by itself, and counts for the list if it is an average. -/
lemma numbered_cons {n : Nat} {item : SelectItem} {items : List SelectItem}
    (first : ∀ call, item = .aggregate call → call.helpers =
      if call.function = .avg then call.averageHelpers n else [])
    (rest : Numbered (n + if item.isAverage then 1 else 0) items) : Numbered n (item :: items) := by
  intro i call found
  cases i with
  | zero => exact first call (Option.some.inj found)
  | succ i =>
    have found : items[i]? = some (.aggregate call) := found
    rw [rest i call found, List.take_succ_cons, List.countP_cons, Nat.add_assoc,
      Nat.add_comm (if item.isAverage = true then 1 else 0)]

/-- Averages are numbered by those before them. -/
lemma numbered_deriveAverages (n : Nat) {items : List SelectItem} (unhelped : Unhelped items) :
    Numbered n (deriveAverages n items).items := by
  fun_induction deriveAverages n items with
  | case1 => simp [Numbered]
  | case2 n call items isAverage rest missing helpers ih =>
    have others := (List.forall_mem_cons.1 unhelped).2
    refine numbered_cons ?_ ?_
    · rintro _ ⟨rfl⟩
      rw [if_pos (beq_iff_eq.1 isAverage)]
      rfl
    · rw [SelectItem.isAverage, if_pos isAverage]
      exact ih others
  | case3 n call items isAverage rest present ih =>
    have noHelpers := (List.forall_mem_cons.1 unhelped).1 call rfl
    exact absurd (List.isEmpty_iff.2 noHelpers) present
  | case4 n call items notAverage rest ih =>
    obtain ⟨noHelpers, others⟩ := List.forall_mem_cons.1 unhelped
    refine numbered_cons ?_ ?_
    · rintro _ ⟨rfl⟩
      rw [if_neg (by simpa using notAverage)]
      exact noHelpers call rfl
    · rw [SelectItem.isAverage, if_neg notAverage]
      exact ih others
  | case5 n item items notAggregate rest ih =>
    have noAverage : item.isAverage = false := by
      unfold SelectItem.isAverage
      split
      · exact (notAggregate _ rfl).elim
      · rfl
    refine numbered_cons (fun call same => (notAggregate call same).elim) ?_
    rw [noAverage, if_neg (by simp)]
    exact ih (List.forall_mem_cons.1 unhelped).2

/-- Items behind a list that are no calls leave its calls numbered. -/
lemma Numbered.append {n : Nat} {items columns : List SelectItem} (h : Numbered n items)
    (noCalls : ∀ column ∈ columns, ∀ call, column ≠ .aggregate call) :
    Numbered n (items ++ columns) := by
  intro i call found
  by_cases inside : i < items.length
  · rw [List.getElem?_append_left inside] at found
    rw [List.take_append_of_le_length inside.le]
    exact h i call found
  · rw [List.getElem?_append_right (by omega)] at found
    exact absurd rfl (noCalls _ (List.mem_of_getElem? found) call)

/-- Deriving averages adds and takes away no star. -/
lemma any_isStar_deriveAverages (n : Nat) (items : List SelectItem) :
    (deriveAverages n items).items.any Grammar.isStar = items.any Grammar.isStar := by
  fun_induction deriveAverages n items with
  | case1 => rfl
  | case2 n call items isAverage rest missing helpers ih => simpa [Grammar.isStar] using ih
  | case3 n call items isAverage rest present ih => simpa [Grammar.isStar] using ih
  | case4 n call items notAverage rest ih => simpa [Grammar.isStar] using ih
  | case5 n item items notAggregate rest ih => simp [ih, rest]

/-! ## Deriving columns -/

/-- Deriving columns to order or group by keeps items either named or positional: only named ones are
given aliases. -/
lemma keyed_deriveOrder {metadata : TableMetadata} {kind : DerivedColumn} {n : Nat} {level : SelectLevel}
    {items : List OrderItem} (keyed : ∀ item ∈ items, item.Keyed) :
    ∀ item ∈ (deriveOrder metadata kind n level items).items, item.Keyed := by
  fun_induction deriveOrder metadata kind n level items with
  | case1 | case2 | case4 => exact keyed
  | case3 n level item items covered rest ih =>
    obtain ⟨own, others⟩ := List.forall_mem_cons.1 keyed
    exact List.forall_mem_cons.2 ⟨own, ih others⟩
  | case5 n level item items name named uncovered aliasName extended rest ih =>
    obtain ⟨own, others⟩ := List.forall_mem_cons.1 keyed
    refine List.forall_mem_cons.2 ⟨.inl ?_, ih others⟩
    -- what is given by a position is covered
    refine own.resolve_right fun placed => ?_
    have isIndex : item.isIndex = true := placed.1
    simp [SelectLevel.covers, isIndex] at uncovered

/-- Deriving columns to order or group by adds no items, and leaves none out. -/
lemma length_deriveOrder (metadata : TableMetadata) (kind : DerivedColumn) (n : Nat)
    (level : SelectLevel) (items : List OrderItem) :
    (deriveOrder metadata kind n level items).items.length = items.length := by
  simpa using congrArg List.length (deriveOrder_inserts metadata kind n level items).2

namespace SelectLevel

variable {level : SelectLevel} {metadata : TableMetadata}

/-- The shape that deriving columns gives to a level: derived columns stand behind its select list with
the averages completed, and as many items are ordered and grouped by, which are still keyed. -/
lemma deriveColumns_shape (success : (level.deriveColumns metadata).failure = none)
    (keyed : level.shape.Keyed) : ∃ columns orderBy groupBy,
      (level.deriveColumns metadata).level.shape = { level.shape with
        items := (deriveAverages 0 level.shape.items).items ++ columns, orderBy, groupBy } ∧
      (∀ column ∈ columns, ∃ name aliasName, column = .ofDerived name aliasName) ∧
      (∀ item ∈ orderBy ++ groupBy, item.Keyed) ∧
      orderBy.length = level.shape.orderBy.length ∧ groupBy.length = level.shape.groupBy.length := by
  obtain ⟨ordered, grouped⟩ := List.forall_mem_append.1 keyed
  obtain ⟨-, -, last_eq⟩ := deriveColumns_steps success
  obtain ⟨_, second_eq⟩ := level.withOrderColumns_eq metadata
  obtain ⟨selected, third_eq⟩ := level.withGroupColumns_eq metadata
  obtain ⟨columns, items, derived⟩ := (deriveColumns_grows success).1.items
  have kept : (level.withOrderColumns metadata).shape.groupBy = level.shape.groupBy := by rw [second_eq]
  rw [last_eq, shape_addFragments, third_eq] at items ⊢
  refine ⟨columns, (level.orderColumns metadata).items, (level.groupColumns metadata).items,
    congrArg (fun items => { level.shape with
      items, orderBy := (level.orderColumns metadata).items,
      groupBy := (level.groupColumns metadata).items }) items, derived,
    List.forall_mem_append.2 ⟨keyed_deriveOrder ordered, ?_⟩, length_deriveOrder .., ?_⟩
  · rw [groupColumns, kept]
    exact keyed_deriveOrder grouped
  · rw [groupColumns, kept, length_deriveOrder]

/-- The edits that order a result among those of a level are kept as its columns are derived. -/
lemma deriveColumns_orderings (success : (level.deriveColumns metadata).failure = none) :
    (level.deriveColumns metadata).level.context.edits.filter (·.kind == .orderBy) =
      level.context.edits.filter (·.kind == .orderBy) := by
  obtain ⟨fragments, -, edits, -⟩ := deriveColumns_edits success
  have noOrder : List.filter (fun edit : Edit => edit.kind == .orderBy)
      (if fragments.isEmpty then [] else [.items level.shape.selectListStop fragments]) = [] := by
    split <;> rfl
  rw [edits, List.filter_append, noOrder, List.append_nil]

/-- A grouping without an ordering is made the ordering, by an edit where it stops, and else a level is
left as it is. -/
lemma deriveOrdering_eq (grouped : level.shape.groupByStop.isSome = true ↔ level.shape.groupBy ≠ []) :
    if level.shape.groupBy ≠ [] ∧ level.shape.orderBy = [] then
      ∃ stop, level.shape.groupByStop = some stop ∧ level.deriveOrdering =
        ⟨level.context.addEdit (.orderBy stop (level.shape.groupBy.map OrderItem.orderByText)),
          { level.shape with orderBy := level.shape.groupBy }⟩
    else level.deriveOrdering = level := by
  unfold deriveOrdering
  split
  · rename_i mirrors
    obtain ⟨stop, isStop⟩ := Option.isSome_iff_exists.1 (grouped.2 mirrors.1)
    refine ⟨stop, isStop, ?_⟩
    rw [if_neg (by simp [mirrors.1, mirrors.2]), isStop]
    rfl
  · rename_i keeps
    rw [if_pos]
    by_contra other
    rw [Bool.or_eq_true, not_or, List.isEmpty_iff, Bool.not_eq_true', Bool.not_eq_false,
      List.isEmpty_iff] at other
    exact keeps other

end SelectLevel

/-! ## Clauses -/

namespace Grammar

open SqlRouting.Parser

variable {env : Environment} {text : String} {rules : ShardingRule} {s s' : ParserState}

/-- A list of items is not empty. -/
lemma ne_nil_of_repeats {α : Type} {item : Parser α} {items : List α}
    (h : Repeats item s items s') : items ≠ [] := by
  cases h <;> simp

/-- An aggregate call has no helpers where it is read. -/
lemma unhelped_selectItem {call : Aggregate}
    (success : (selectItem rules).run s = .ok (.aggregate call, s')) : call.helpers = [] := by
  obtain ⟨s₁, keyword, function, -, -, -, -, read⟩ := selectItem_calls success
  rw [aggregateItem, looks_offset.run_bind, run_advance_bind, looks_offset.run_bind] at read
  obtain ⟨_, s₂, -, read⟩ := run_bind_ok.1 read
  rw [(looks_textFrom _).run_bind, looks_checkComposite.run_bind] at read
  split at read
  · obtain ⟨_, s₃, -, read⟩ := run_bind_ok.1 read
    rw [(looks_textFrom _).run_bind] at read
    obtain ⟨_, s₄, -, done⟩ := run_bind_ok.1 read
    cases done
  · obtain ⟨_, s₃, -, done⟩ := run_bind_ok.1 read
    cases done
    rfl

/-- Clauses read aggregate calls without helpers. -/
lemma keepsShape_unhelped : KeepsShape env text fun shape => Unhelped shape.items :=
  keepsShape_selected (by simp) fun _ read _ same => unhelped_selectItem (same ▸ read)

/-- Folding the plain items of a list adds and takes away no star. -/
lemma any_isStar_foldDistinct (items : List SelectItem) :
    (foldDistinct items).any isStar = items.any isStar := by
  have stars : (items.filter fun item => (label? item).isNone).any isStar = items.any isStar := by
    rw [List.any_filter]
    congr 1
    funext item
    cases item <;> simp [label?, isStar]
  unfold foldDistinct
  dsimp only
  split
  · exact stars
  · rw [List.any_cons, stars]
    rfl

/-- Clauses say that there is a star exactly if they read one. -/
lemma keepsShape_star :
    KeepsShape env text fun shape => shape.containsStar = shape.items.any isStar where
  initial := rfl
  selectList {s s' shape shape'} _ known success := by
    obtain ⟨distinct, items, s₁, -, -, rfl⟩ := run_selectList_ok success
    cases distinct with
    | true => simp [known, any_isStar_foldDistinct]
    | false => simp [known]
  grouping _ known success := by
    rcases run_grouping_ok success with ⟨rfl, -⟩ | ⟨-, -, -, -, -, -, -, -, rfl⟩ <;> exact known
  ordering _ known success := by
    rcases run_ordering_ok success with ⟨rfl, -⟩ | ⟨-, -, -, -, rfl⟩ <;> exact known
  limit _ known := known

/-- Clauses say where a grouping stops exactly if they read one. -/
lemma keepsShape_grouped : KeepsShape env text fun shape =>
    (shape.groupByStop.isSome = true ↔ shape.groupBy ≠ []) where
  initial := by simp
  selectList _ known success := by
    obtain ⟨-, -, -, -, -, rfl⟩ := run_selectList_ok success
    exact known
  grouping {s s' shape shape'} _ known success := by
    rcases run_grouping_ok success with ⟨rfl, -⟩ | ⟨keyword, items, s₁, s₂, -, -, read, -, rfl⟩
    · exact known
    · have nonempty := ne_nil_of_repeats (repeats_of_commaSeparated (runs_orderItem shape) read)
      simp [nonempty]
  ordering _ known success := by
    rcases run_ordering_ok success with ⟨rfl, -⟩ | ⟨-, -, -, -, rfl⟩ <;> exact known
  limit _ known := known

end Grammar

/-! ## Prepared shapes -/

/-- The parts of a shape are in step, once its columns are derived. -/
structure ResultShape.Coherent (shape : ResultShape) : Prop where
  /-- It is known whether there is a star. -/
  star : shape.containsStar = shape.items.any Grammar.isStar
  /-- It is known where the grouping stops exactly if there is one. -/
  grouped : shape.groupByStop.isSome = true ↔ shape.groupBy ≠ []
  /-- The items to order and group by have either names or positions. -/
  keyed : shape.Keyed
  /-- The averages are numbered. -/
  numbered : Numbered 0 shape.items

/-- A shape as the clauses give it, before its columns are derived. -/
structure ResultShape.Fresh (shape : ResultShape) : Prop where
  /-- It is known whether there is a star. -/
  star : shape.containsStar = shape.items.any Grammar.isStar
  /-- It is known where the grouping stops exactly if there is one. -/
  grouped : shape.groupByStop.isSome = true ↔ shape.groupBy ≠ []
  /-- The items to order and group by have either names or positions. -/
  keyed : shape.Keyed
  /-- No call has helpers. -/
  unhelped : Unhelped shape.items

/-- The shape that the clauses give to an accepted query is fresh. -/
lemma QueryTrail.fresh {env : Environment} {text : String} {level : SelectLevel}
    {passages : List Passage} (h : QueryTrail env text level passages) : level.shape.Fresh :=
  ⟨h.shape Grammar.keepsShape_star, h.shape Grammar.keepsShape_grouped,
    h.shape Grammar.keepsShape_keyed, h.shape Grammar.keepsShape_unhelped⟩

namespace SelectLevel

variable {level : SelectLevel} {metadata : TableMetadata}

/-- Deriving columns makes a fresh shape coherent, and as many items are ordered and grouped by. -/
lemma deriveColumns_coherent (success : (level.deriveColumns metadata).failure = none)
    (fresh : level.shape.Fresh) : (level.deriveColumns metadata).level.shape.Coherent ∧
      ((level.deriveColumns metadata).level.shape.orderBy = [] ↔ level.shape.orderBy = []) ∧
      ((level.deriveColumns metadata).level.shape.groupBy = [] ↔ level.shape.groupBy = []) := by
  obtain ⟨columns, orderBy, groupBy, shape, derived, keyed, ordered, grouped⟩ :=
    deriveColumns_shape success fresh.keyed
  have sameOrder : orderBy = [] ↔ level.shape.orderBy = [] := by
    rw [← List.length_eq_zero_iff, ordered, List.length_eq_zero_iff]
  have sameGroup : groupBy = [] ↔ level.shape.groupBy = [] := by
    rw [← List.length_eq_zero_iff, grouped, List.length_eq_zero_iff]
  have noStar : columns.any Grammar.isStar = false := by
    refine List.any_eq_false.2 fun column mem => ?_
    obtain ⟨name, aliasName, rfl⟩ := derived column mem
    simp [SelectItem.ofDerived, Grammar.isStar]
  have noCalls : ∀ column ∈ columns, ∀ call, column ≠ .aggregate call := by
    intro column mem call
    obtain ⟨name, aliasName, rfl⟩ := derived column mem
    simp [SelectItem.ofDerived]
  rw [shape]
  refine ⟨⟨?_, ?_, keyed, (numbered_deriveAverages 0 fresh.unhelped).append noCalls⟩, sameOrder, sameGroup⟩
  · rw [List.any_append, noStar, Bool.or_false, any_isStar_deriveAverages]
    exact fresh.star
  · rw [Ne, sameGroup]
    exact fresh.grouped

end SelectLevel

/-! ## Well-formed queries -/

/-- The parts of a query fit together, where `given` is the shape of the level that supplies them. -/
structure SelectStatement.WellFormed (query : SelectStatement) (given : ResultShape) : Prop where
  /-- There is no derived table. -/
  single : query.derivedTables = []
  /-- A star is said to be there exactly if an item is one. -/
  star : query.shape.containsStar = true ↔ ∃ owner, .star owner ∈ query.shape.items
  /-- It is said where the grouping stops exactly if there is one. -/
  grouped : query.shape.groupByStop.isSome = true ↔ query.shape.groupBy ≠ []
  /-- An item to order or group by has exactly one of a position and a name. -/
  keyed : ∀ item ∈ query.shape.orderBy ++ query.shape.groupBy, item.index.isSome = true ↔ item.name = none
  /-- An item that is given by a position has neither an owner nor an alias. -/
  positional : ∀ item ∈ query.shape.orderBy ++ query.shape.groupBy, item.index.isSome = true →
    item.owner = none ∧ item.aliasName = none
  /-- An average has a count and a sum of its own argument, named by its rank among the averages. -/
  averages : ∀ (i : Nat) (call : Aggregate), query.shape.items[i]? = some (.aggregate call) →
    call.function = .avg →
    let rank := (query.shape.items.take i).countP SelectItem.isAverage
    call.helpers = [⟨.count, call.inner, some ("AVG_COUNT_" ++ toString rank), []⟩,
      ⟨.sum, call.inner, some ("AVG_SUM_" ++ toString rank), []⟩]
  /-- No other aggregate call has helpers. -/
  others : ∀ call, .aggregate call ∈ query.shape.items → call.function ≠ .avg → call.helpers = []
  /-- A grouping comes with an ordering. -/
  ordered : query.shape.groupBy ≠ [] → query.shape.orderBy ≠ []
  /-- An ordering is inserted exactly if the level groups and does not order. -/
  inserts : (∃ stop texts, .orderBy stop texts ∈ query.context.edits) ↔
    given.groupBy ≠ [] ∧ given.orderBy = []
  /-- Then the ordering is the grouping, and is inserted once, where the grouping stops. -/
  mirrors : given.groupBy ≠ [] → given.orderBy = [] → query.shape.orderBy = query.shape.groupBy ∧
    ∃ stop, query.shape.groupByStop = some stop ∧ query.context.edits.filter (·.kind == .orderBy) =
      [.orderBy stop (query.shape.groupBy.map OrderItem.orderByText)]

/-- An ordering is inserted exactly if some edit inserts one. -/
lemma Edit.exists_orderBy_iff {edits : List Edit} : (∃ stop texts, .orderBy stop texts ∈ edits) ↔
    edits.filter (·.kind == .orderBy) ≠ [] := by
  rw [Ne, List.filter_eq_nil_iff]
  push Not
  constructor
  · rintro ⟨stop, texts, mem⟩
    exact ⟨_, mem, rfl⟩
  · rintro ⟨edit, mem, isOrder⟩
    cases edit with
    | orderBy stop texts => exact ⟨stop, texts, mem⟩
    | _ => cases isOrder

/-- A query is well formed if its shape is coherent, its ordering is there, and inserted as it should be. -/
lemma ResultShape.Coherent.wellFormed {query : SelectStatement} {given : ResultShape}
    (coherent : query.shape.Coherent) (single : query.derivedTables = [])
    (ordered : query.shape.groupBy ≠ [] → query.shape.orderBy ≠ [])
    (inserted : if given.groupBy ≠ [] ∧ given.orderBy = [] then
      query.shape.orderBy = query.shape.groupBy ∧ ∃ stop, query.shape.groupByStop = some stop ∧
        query.context.edits.filter (·.kind == .orderBy) =
          [.orderBy stop (query.shape.groupBy.map OrderItem.orderByText)]
      else query.context.edits.filter (·.kind == .orderBy) = []) : query.WellFormed given where
  single := single
  star := by
    rw [coherent.star, List.any_eq_true]
    constructor
    · rintro ⟨item, mem, isStar⟩
      cases item with
      | star owner => exact ⟨owner, mem⟩
      | _ => cases isStar
    · rintro ⟨owner, mem⟩
      exact ⟨_, mem, rfl⟩
  grouped := coherent.grouped
  keyed item mem := by
    rcases coherent.keyed item mem with ⟨named, noIndex⟩ | ⟨placed, noName, -⟩
    · simp [noIndex, ← Option.not_isSome_iff_eq_none, named]
    · simp [placed, noName]
  positional item mem placed := by
    rcases coherent.keyed item mem with ⟨-, noIndex⟩ | ⟨-, -, rest⟩
    · simp [noIndex] at placed
    · exact rest
  averages i call found isAverage := by
    rw [coherent.numbered i call found, if_pos isAverage, Nat.zero_add]
    rfl
  others call mem noAverage := by
    obtain ⟨i, found⟩ := List.mem_iff_getElem?.1 mem
    rw [coherent.numbered i call found, if_neg noAverage]
  ordered := ordered
  inserts := by
    rw [Edit.exists_orderBy_iff]
    split at inserted
    · rename_i mirrors
      obtain ⟨-, stop, -, edits⟩ := inserted
      simp [edits, mirrors]
    · rename_i keeps
      simp [inserted, keeps]
  mirrors isGrouped unordered := by
    rw [if_pos ⟨isGrouped, unordered⟩] at inserted
    exact inserted

/-- A fresh level that inserts no ordering is prepared to be well formed. -/
lemma wellFormed_of_prepare {level : SelectLevel} {metadata : TableMetadata} {query : SelectStatement}
    (fresh : level.shape.Fresh) (nothing : level.context.edits.filter (·.kind == .orderBy) = [])
    (prepared : ({ toSelectLevel := level } : SelectStatement).prepare metadata = .ok query) :
    query.WellFormed level.shape := by
  obtain ⟨success, rfl⟩ := SelectStatement.prepare_ok prepared
  dsimp only at success ⊢
  obtain ⟨coherent, sameOrder, sameGroup⟩ := SelectLevel.deriveColumns_coherent success fresh
  have edits := SelectLevel.deriveColumns_orderings success
  rw [nothing] at edits
  generalize (level.deriveColumns metadata).level = derived at *
  have ordering := derived.deriveOrdering_eq coherent.grouped
  have same : derived.shape.groupBy ≠ [] ∧ derived.shape.orderBy = [] ↔
      level.shape.groupBy ≠ [] ∧ level.shape.orderBy = [] :=
    and_congr (not_congr sameGroup) sameOrder
  -- whether the grouping is made the ordering can be seen before columns are derived
  by_cases mirrors : level.shape.groupBy ≠ [] ∧ level.shape.orderBy = []
  · rw [if_pos (same.2 mirrors)] at ordering
    obtain ⟨stop, isStop, mirrored⟩ := ordering
    have keyed : ∀ item ∈ derived.shape.groupBy, item.Keyed := (List.forall_mem_append.1 coherent.keyed).2
    rw [mirrored]
    refine ResultShape.Coherent.wellFormed ⟨coherent.star, coherent.grouped,
      List.forall_mem_append.2 ⟨keyed, keyed⟩, coherent.numbered⟩ rfl id ?_
    rw [if_pos mirrors]
    refine ⟨rfl, stop, isStop, ?_⟩
    show List.filter _ (derived.context.edits ++ [_]) = _
    rw [List.filter_append, edits]
    rfl
  · rw [if_neg (same.not.2 mirrors)] at ordering
    rw [ordering]
    refine coherent.wellFormed rfl (fun isGrouped unordered => ?_) ?_
    · exact mirrors (same.1 ⟨isGrouped, unordered⟩)
    · rw [if_neg mirrors]
      exact edits

/-- An accepted query of the standard dialect or that of MySQL is well formed, whatever the nesting of
its derived tables: the outermost level whose select list has no star, or else the innermost one,
supplies its shape, and the parts of the shape fit together.

**Proof sketch.** Each clause keeps the parts it sets in step, so the shape of every level is fresh, and
merging takes a whole shape. Deriving columns makes it coherent, and what remains is the ordering. -/
theorem SelectStatement.wellFormed_of_ofText {env : Environment} {text : String}
    {query : SelectStatement} (standard : env.dialect.clauses = Dialect.generic.clauses)
    (success : Statement.ofText env text = .ok (.select query)) :
    ∃ whole s, (Grammar.levels env).run ⟨.ofText text, {}⟩ = .ok (whole, s) ∧
      query.WellFormed (whole.toSelectLevel.supplier whole.derivedTables).shape := by
  have once : env.dialect.clauses.count .tables ≤ 1 := by rw [standard]; decide
  obtain ⟨level, passages, trail, prepared⟩ := Grammar.query_trail once success
  obtain ⟨whole, s, read, isLevel⟩ := trail.read
  have given : level.shape = (whole.toSelectLevel.supplier whole.derivedTables).shape := by
    rw [isLevel, SelectStatement.merge, SelectLevel.mergeAll_shape]
  refine ⟨whole, s, read, given ▸ wellFormed_of_prepare trail.fresh ?_ prepared⟩
  refine List.filter_eq_nil_iff.2 fun edit mem isOrder => ?_
  obtain ⟨inserted, found⟩ := Edit.mem_insertions_of_kind mem (.inr (.inl (beq_iff_eq.1 isOrder)))
  rw [trail.insertions] at found
  cases found

/-- Two averages and a grouping in a derived table below a star: the inner level supplies the shape, and
its grouping is made the ordering. -/
theorem SelectStatement.wellFormed_of_ofText_derived : ∃ query,
    Statement.ofText {} "SELECT * FROM (SELECT AVG(a), AVG(b) FROM t GROUP BY c, 2) x" =
      .ok (.select query) ∧
    (∃ whole s, (Grammar.levels {}).run ⟨.ofText
        "SELECT * FROM (SELECT AVG(a), AVG(b) FROM t GROUP BY c, 2) x", {}⟩ = .ok (whole, s) ∧
      query.WellFormed (whole.toSelectLevel.supplier whole.derivedTables).shape) ∧
    query.context.edits.filter (·.kind == .orderBy) = [.orderBy 57 ["c ASC", "2 ASC"]] := by
  have seen : (Grammar.query? {} "SELECT * FROM (SELECT AVG(a), AVG(b) FROM t GROUP BY c, 2) x").map
      (·.context.edits.filter (·.kind == .orderBy)) = some [.orderBy 57 ["c ASC", "2 ASC"]] := by
    decide +kernel
  obtain ⟨query, accepted, edits⟩ := Grammar.exists_of_query seen
  exact ⟨query, accepted, SelectStatement.wellFormed_of_ofText rfl accepted, edits⟩

end SqlRouting
