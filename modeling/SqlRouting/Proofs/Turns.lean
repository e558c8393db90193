import Mathlib.Data.List.Induction
import SqlRouting.Proofs.Derivation

/-!
# Turns of items

The items to order and group by are looked at one after another, each against the select list with the
columns that were added for those before it. An item is covered, or a column is added for it, or it is
stuck: it has no name that a column could be selected by, and nothing says that it is selected.

Whether an item is covered is said here by what the select list has, and what happens in the turns of a
list of items by one rule a turn.

## Main definitions

* `SqlRouting.SelectLevel.Satisfies` — the select list has the column of an item.
* `SqlRouting.SelectLevel.Stuck` — no column can be derived for an item.
* `SqlRouting.SelectLevel.Turns` — items have their turns, with the names of the columns added for them.

## Main results

* `SqlRouting.SelectLevel.covers_cases` — what is found out about an item.
* `SqlRouting.SelectLevel.Turns.deriveOrder_append` — what is derived for items that have their turns.
* `SqlRouting.SelectLevel.turns_or_stuck` — all items have their turns, or those in front of a stuck one.
-/

set_option autoImplicit false

namespace SqlRouting

open Text

/-! ## Coverage -/

namespace SelectLevel

variable {level other : SelectLevel} {metadata : TableMetadata} {item : OrderItem}

/-- The select list has a star with an owner, which denotes the same table as `owner`. -/
def HasStarOf (level : SelectLevel) (owner : String) : Prop :=
  ∃ star table, .star (some star) ∈ level.shape.items ∧ level.findTable? owner = some table ∧
    level.findTable? star = some table

/-- The select list has folded columns, one of them under the label `name`. -/
def HasLabel (level : SelectLevel) (name : String) : Prop :=
  ∃ labels, .distinct labels ∈ level.shape.items ∧ containsName labels name = true

/-- The select list has an item with the alias `name`. -/
def HasAlias (level : SelectLevel) (name : String) : Prop :=
  ∃ selected ∈ level.shape.items, ∃ aliasName, selected.aliasName = some aliasName ∧
    sameName aliasName name = true

/-- The select list of a level has the column of an item to order or group by. -/
inductive Satisfies (level : SelectLevel) (metadata : TableMetadata) (item : OrderItem) : Prop
  /-- The item is a position. -/
  | position (indexed : item.index ≠ none)
  /-- All columns are selected. -/
  | bareStar (mem : .star none ∈ level.shape.items)
  /-- All columns of its table are selected. -/
  | ownStar {owner : String} (owned : item.owner = some owner) (star : level.HasStarOf owner)
  /-- It has no owner, and all columns of a table that is known to have such a column are selected. -/
  | knownColumn {name star : String} {table : Table} (noOwner : item.owner = none)
      (named : item.name = some name) (mem : .star (some star) ∈ level.shape.items)
      (found : level.findTable? star = some table)
      (known : metadata.containsColumn table.name name = true)
  /-- Its label is that of a folded column. -/
  | label {name : String} (labelled : item.label? = some name) (has : level.HasLabel name)
  /-- Its alias is that of an item of the select list. -/
  | sameAlias {name : String} (renamed : item.aliasName = some name) (has : level.HasAlias name)
  /-- Its name with its owner is the text of an item of the select list without an alias. -/
  | sameText {name : String} {selected : SelectItem} (named : item.qualifiedName? = some name)
      (mem : selected ∈ level.shape.items) (unnamed : selected.aliasName = none)
      (same : sameName selected.expression name = true)

/-- No column can be derived for an item: it has neither a name nor a position, and nothing says that it
is selected. An item without an owner would be looked up by its name in the tables of the stars. -/
structure Stuck (level : SelectLevel) (item : OrderItem) : Prop where
  /-- The item has no name. -/
  noName : item.name = none
  /-- It is no position. -/
  noIndex : item.index = none
  /-- Not all columns are selected. -/
  noStar : .star none ∉ level.shape.items
  /-- It would be looked up by its name, or it is not selected. -/
  unselected : (item.owner = none ∧ ∃ star, .star (some star) ∈ level.shape.items) ∨
    (∀ owner, item.owner = some owner → ¬ level.HasStarOf owner) ∧
      ∀ name, item.aliasName = some name → ¬ level.HasLabel name ∧ ¬ level.HasAlias name

/-- A star whose owner denotes the same table is found if there is one. -/
lemma isSome_findStar (level : SelectLevel) (owner : String) :
    (level.findStar? owner).isSome = true ↔ level.HasStarOf owner := by
  unfold findStar? HasStarOf
  cases found : level.findTable? owner with
  | none => simp
  | some table =>
    simp only [List.find?_isSome, Option.any_eq_true, beq_iff_eq, Option.some.injEq]
    constructor
    · rintro ⟨star, mem, name, isStar, same⟩
      cases star with
      | star starOwner =>
        obtain rfl : starOwner = some name := isStar
        exact ⟨name, table, mem, rfl, same⟩
      | _ => cases isStar
    · rintro ⟨name, _, mem, rfl, same⟩
      exact ⟨_, mem, name, rfl, same⟩

/-- The owners of stars are those of the stars of the select list. -/
lemma mem_starOwners {shape : ResultShape} {star : String} :
    star ∈ shape.starOwners ↔ .star (some star) ∈ shape.items := by
  rw [ResultShape.starOwners, List.mem_filterMap]
  constructor
  · rintro ⟨item, mem, isStar⟩
    cases item with
    | star owner =>
      obtain rfl : owner = some star := isStar
      exact mem
    | _ => cases isStar
  · exact fun mem => ⟨_, mem, rfl⟩

/-- All columns are selected if the select list has a star without an owner. -/
lemma hasBareStar_iff {shape : ResultShape} : shape.hasBareStar = true ↔ .star none ∈ shape.items := by
  rw [ResultShape.hasBareStar, List.any_eq_true]
  constructor
  · rintro ⟨item, mem, isStar⟩
    unfold SelectItem.isBareStar at isStar
    split at isStar
    · exact mem
    · cases isStar
  · exact fun mem => ⟨_, mem, rfl⟩

/-- An item is selected by a label, by an alias or by its own text. -/
lemma any_selects (level : SelectLevel) (item : OrderItem) :
    level.shape.items.any (·.selects item) = true ↔
      (∃ name, item.label? = some name ∧ level.HasLabel name) ∨
      (∃ name, item.aliasName = some name ∧ level.HasAlias name) ∨
      ∃ name, item.qualifiedName? = some name ∧ ∃ selected ∈ level.shape.items,
        selected.aliasName = none ∧ sameName selected.expression name = true := by
  simp only [List.any_eq_true, SelectItem.selects, Bool.or_eq_true, Bool.and_eq_true,
    Option.any_eq_true, Option.isNone_iff_eq_none]
  constructor
  · rintro ⟨selected, mem, (⟨name, isLabel, has⟩ | ⟨aliasName, given, name, renamed, same⟩) | ⟨unnamed, rest⟩⟩
    · cases selected with
      | distinct labels => exact .inl ⟨name, isLabel, labels, mem, has⟩
      | _ => cases has
    · exact .inr (.inl ⟨name, renamed, selected, mem, aliasName, given, same⟩)
    · obtain ⟨name, named, same⟩ := rest
      exact .inr (.inr ⟨name, named, selected, mem, unnamed, same⟩)
  · rintro (⟨name, isLabel, labels, mem, has⟩ | ⟨name, renamed, selected, mem, aliasName, given, same⟩ |
      ⟨name, named, selected, mem, unnamed, same⟩)
    · exact ⟨_, mem, .inl (.inl ⟨name, isLabel, has⟩)⟩
    · exact ⟨_, mem, .inl (.inr ⟨aliasName, given, name, renamed, same⟩)⟩
    · exact ⟨_, mem, .inr ⟨unnamed, name, named, same⟩⟩

/-- The stars cover an item if it has an owner and there is a star of its table, or if it has none and
there is a star of a table that is known to have its column; an item that has no name to be looked up by
is an error. -/
lemma coveredByStar_cases (level : SelectLevel) (metadata : TableMetadata) (item : OrderItem) :
    (∃ starred, level.coveredByStar metadata item = .ok starred ∧
      (starred = true ↔ (∃ owner, item.owner = some owner ∧ level.HasStarOf owner) ∨
        item.owner = none ∧ ∃ name star table, item.name = some name ∧
          .star (some star) ∈ level.shape.items ∧ level.findTable? star = some table ∧
          metadata.containsColumn table.name name = true) ∧
      ¬ (item.owner = none ∧ item.name = none ∧ ∃ star, .star (some star) ∈ level.shape.items)) ∨
    level.coveredByStar metadata item = .error (.missingOrderItemName item.span) ∧
      item.owner = none ∧ item.name = none ∧ ∃ star, .star (some star) ∈ level.shape.items := by
  unfold coveredByStar
  cases owned : item.owner with
  | some owner => exact .inl ⟨_, rfl, by simp [isSome_findStar], by simp⟩
  | none =>
    cases named : item.name with
    | some name =>
      refine .inl ⟨_, rfl, ?_, by simp⟩
      simp [List.any_eq_true, mem_starOwners, starCovers, Option.any_eq_true]
    | none =>
      cases owners : level.shape.starOwners with
      | nil =>
        have noStar (star : String) : .star (some star) ∉ level.shape.items := by
          rw [← mem_starOwners, owners]
          exact List.not_mem_nil
        exact .inl ⟨false, rfl, by simp, by simp [noStar]⟩
      | cons star rest =>
        have mem : .star (some star) ∈ level.shape.items := by
          rw [← mem_starOwners, owners]
          exact List.mem_cons_self
        exact .inr ⟨rfl, rfl, rfl, star, mem⟩

/-- An item that is no position, where not all columns are selected, is selected by a star with an owner,
by a label, by an alias or by its own text. -/
lemma satisfies_iff (noIndex : item.index = none) (noStar : .star none ∉ level.shape.items) :
    level.Satisfies metadata item ↔
      ((∃ owner, item.owner = some owner ∧ level.HasStarOf owner) ∨
        item.owner = none ∧ ∃ name star table, item.name = some name ∧
          .star (some star) ∈ level.shape.items ∧ level.findTable? star = some table ∧
          metadata.containsColumn table.name name = true) ∨
      (∃ name, item.label? = some name ∧ level.HasLabel name) ∨
      (∃ name, item.aliasName = some name ∧ level.HasAlias name) ∨
      ∃ name, item.qualifiedName? = some name ∧ ∃ selected ∈ level.shape.items,
        selected.aliasName = none ∧ sameName selected.expression name = true := by
  constructor
  · rintro (indexed | mem | ⟨owned, has⟩ | ⟨noOwner, named, mem, found, known⟩ | ⟨labelled, has⟩ |
      ⟨renamed, has⟩ | ⟨named, mem, unnamed, same⟩)
    · exact absurd noIndex indexed
    · exact absurd mem noStar
    · exact .inl (.inl ⟨_, owned, has⟩)
    · exact .inl (.inr ⟨noOwner, _, _, _, named, mem, found, known⟩)
    · exact .inr (.inl ⟨_, labelled, has⟩)
    · exact .inr (.inr (.inl ⟨_, renamed, has⟩))
    · exact .inr (.inr (.inr ⟨_, named, _, mem, unnamed, same⟩))
  · rintro ((⟨owner, owned, has⟩ | ⟨noOwner, name, star, table, named, mem, found, known⟩) |
      ⟨name, labelled, has⟩ | ⟨name, renamed, has⟩ | ⟨name, named, selected, mem, unnamed, same⟩)
    · exact .ownStar owned has
    · exact .knownColumn noOwner named mem found known
    · exact .label labelled has
    · exact .sameAlias renamed has
    · exact .sameText named mem unnamed same

/-- What is selected is not stuck, if it is not to be looked up by a name that it does not have. -/
lemma Satisfies.not_stuck (has : level.Satisfies metadata item)
    (looked : ¬ (item.owner = none ∧ item.name = none ∧ ∃ star, .star (some star) ∈ level.shape.items)) :
    ¬ level.Stuck item := by
  intro stuck
  have noName := stuck.noName
  have unselected := stuck.unselected.resolve_left fun owned => looked ⟨owned.1, noName, owned.2⟩
  cases has with
  | position indexed => exact indexed stuck.noIndex
  | bareStar mem => exact stuck.noStar mem
  | ownStar owned has => exact unselected.1 _ owned has
  | knownColumn noOwner named => simp [noName] at named
  | label labelled has =>
    rw [OrderItem.label?, noName, Option.or_none] at labelled
    exact (unselected.2 _ labelled).1 has
  | sameAlias renamed has => exact (unselected.2 _ renamed).2 has
  | sameText named => simp [OrderItem.qualifiedName?, noName] at named

/-- What is not selected is stuck if it has no name. -/
lemma stuck_of_lacks (lacks : ¬ level.Satisfies metadata item) (noName : item.name = none) :
    level.Stuck item where
  noName := noName
  noIndex := Classical.not_not.1 fun indexed => lacks (.position indexed)
  noStar mem := lacks (.bareStar mem)
  unselected := .inr ⟨fun _ owned has => lacks (.ownStar owned has), fun _ renamed =>
    ⟨fun has => lacks (.label (by simp [OrderItem.label?, renamed]) has),
      fun has => lacks (.sameAlias renamed has)⟩⟩

/-- **What is found out about an item.** It is selected; or it is not, and then it has a name unless it is
stuck; or it is stuck and an error. -/
lemma covers_cases (level : SelectLevel) (metadata : TableMetadata) (item : OrderItem) :
    (level.covers metadata item = .ok true ∧ level.Satisfies metadata item ∧ ¬ level.Stuck item) ∨
    (level.covers metadata item = .ok false ∧ ¬ level.Satisfies metadata item ∧
      (item.name = none → level.Stuck item)) ∨
    (level.covers metadata item = .error (.missingOrderItemName item.span) ∧ level.Stuck item) := by
  unfold covers
  by_cases free : (item.isIndex || level.shape.hasBareStar) = true
  · rw [if_pos free]
    rw [Bool.or_eq_true, OrderItem.isIndex, Option.isSome_iff_ne_none, hasBareStar_iff] at free
    refine .inl ⟨rfl, free.elim .position .bareStar, fun stuck => ?_⟩
    exact free.elim (· stuck.noIndex) stuck.noStar
  rw [if_neg free]
  rw [Bool.or_eq_true, OrderItem.isIndex, Option.isSome_iff_ne_none, hasBareStar_iff, not_or, Ne,
    Classical.not_not] at free
  obtain ⟨noIndex, noStar⟩ := free
  rcases level.coveredByStar_cases metadata item with ⟨starred, star, isStarred, looked⟩ |
      ⟨star, noOwner, noName, owned⟩
  · have has : (starred || level.shape.items.any (·.selects item)) = true ↔
        level.Satisfies metadata item := by
      rw [Bool.or_eq_true, isStarred, any_selects, satisfies_iff noIndex noStar]
    rw [star]
    by_cases selected : level.Satisfies metadata item
    · exact .inl ⟨congrArg Except.ok (has.2 selected), selected, selected.not_stuck looked⟩
    · have missing := Bool.eq_false_iff.2 (mt has.1 selected)
      exact .inr (.inl ⟨congrArg Except.ok missing, selected, stuck_of_lacks selected⟩)
  · rw [star]
    exact .inr (.inr ⟨rfl, noName, noIndex, noStar, .inl ⟨noOwner, owned⟩⟩)

/-- What is covered is selected. -/
lemma satisfies_of_covers (covered : level.covers metadata item = .ok true) :
    level.Satisfies metadata item := by
  rcases level.covers_cases metadata item with ⟨-, has, -⟩ | ⟨missing, -⟩ | ⟨error, -⟩
  · exact has
  · cases covered.symm.trans missing
  · cases covered.symm.trans error

end SelectLevel

/-! ## Columns -/

namespace OrderItem

/-- The column that is added for an item under a name, if there is one and the item has a name. -/
def column? (item : OrderItem) (added : Option String) : Option SelectItem :=
  added.bind fun aliasName => item.qualifiedName?.map fun name => .ofDerived name aliasName

/-- The text of the column that is added for an item. -/
def columnText? (item : OrderItem) (added : Option String) : Option String :=
  added.bind fun aliasName => item.qualifiedName?.map fun name => name ++ " AS " ++ aliasName ++ " "

/-- An item under the name of the column that is added for it. -/
def renamed (item : OrderItem) (added : Option String) : OrderItem :=
  { item with aliasName := added.or item.aliasName }

/-- The columns that are added for some items, each under its name in `names`. -/
def columns (items : List OrderItem) (names : List (Option String)) : List SelectItem :=
  (items.zip names).filterMap fun (item, added) => item.column? added

/-- The texts of the columns that are added for some items. -/
def columnTexts (items : List OrderItem) (names : List (Option String)) : List String :=
  (items.zip names).filterMap fun (item, added) => item.columnText? added

/-- Some items under the names of the columns that are added for them. -/
def renamedAll (items : List OrderItem) (names : List (Option String)) : List OrderItem :=
  (items.zip names).map fun (item, added) => item.renamed added

section Append

variable {items : List OrderItem} {names : List (Option String)}

/-- The columns of one more item come last. -/
lemma columns_append (length : items.length = names.length) (item : OrderItem) (added : Option String) :
    columns (items ++ [item]) (names ++ [added]) = columns items names ++ (item.column? added).toList := by
  rw [columns, List.zip_append length, List.filterMap_append]
  rfl

/-- The texts of one more item come last. -/
lemma columnTexts_append (length : items.length = names.length) (item : OrderItem)
    (added : Option String) : columnTexts (items ++ [item]) (names ++ [added]) =
      columnTexts items names ++ (item.columnText? added).toList := by
  rw [columnTexts, List.zip_append length, List.filterMap_append]
  rfl

/-- One more item comes last. -/
lemma renamedAll_append (length : items.length = names.length) (item : OrderItem)
    (added : Option String) :
    renamedAll (items ++ [item]) (names ++ [added]) = renamedAll items names ++ [item.renamed added] := by
  rw [renamedAll, List.zip_append length, List.map_append]
  rfl

end Append

end OrderItem

namespace SelectLevel

/-- The same level with more items in its select list. -/
def withColumns (level : SelectLevel) (columns : List SelectItem) : SelectLevel :=
  { level with shape := { level.shape with items := level.shape.items ++ columns } }

/-- **The turns of some items.** They had their turns one after another, each against the select list with
the columns for those before it: what has its column is left as it is, and for what lacks it a column is
added, under a name that is numbered by the columns added before. -/
inductive Turns (level : SelectLevel) (metadata : TableMetadata) (kind : DerivedColumn) :
    List OrderItem → List (Option String) → Prop
  /-- Nothing had its turn. -/
  | start : Turns level metadata kind [] []
  /-- The item is selected. -/
  | satisfied {items : List OrderItem} {names : List (Option String)} {item : OrderItem}
      (turns : Turns level metadata kind items names)
      (has : (level.withColumns (OrderItem.columns items names)).Satisfies metadata item)
      (free : ¬ (level.withColumns (OrderItem.columns items names)).Stuck item) :
      Turns level metadata kind (items ++ [item]) (names ++ [none])
  /-- The item is not selected, but has a name. -/
  | missing {items : List OrderItem} {names : List (Option String)} {item : OrderItem} {name : String}
      (turns : Turns level metadata kind items names)
      (lacks : ¬ (level.withColumns (OrderItem.columns items names)).Satisfies metadata item)
      (named : item.qualifiedName? = some name) :
      Turns level metadata kind (items ++ [item])
        (names ++ [some (kind.aliasAt (names.countP Option.isSome))])

variable {level : SelectLevel} {metadata : TableMetadata} {kind : DerivedColumn}
  {items : List OrderItem} {names : List (Option String)}

/-- A level with no more columns is the same. -/
@[simp]
lemma withColumns_nil (level : SelectLevel) : level.withColumns [] = level := by
  rw [withColumns, List.append_nil]

/-- Columns are added one after another. -/
lemma withColumns_append (level : SelectLevel) (columns : List SelectItem) (column : SelectItem) :
    level.withColumns (columns ++ [column]) = (level.withColumns columns).pushItem column := by
  rw [withColumns, pushItem, withColumns, List.append_assoc]

/-- An item that is stuck stops the derivation of columns. -/
lemma Stuck.deriveOrder_eq {item : OrderItem} (stuck : level.Stuck item) (metadata : TableMetadata)
    (kind : DerivedColumn) (n : Nat) (items : List OrderItem) :
    deriveOrder metadata kind n level (item :: items) =
      ⟨level, item :: items, [], some (.missingOrderItemName item.span)⟩ := by
  have unnamed : item.qualifiedName? = none := by rw [OrderItem.qualifiedName?, stuck.noName]; rfl
  rcases level.covers_cases metadata item with ⟨-, -, free⟩ | ⟨missing, -⟩ | ⟨error, -⟩
  · exact absurd stuck free
  · simp only [deriveOrder, missing, unnamed]
  · simp only [deriveOrder, error]

namespace Turns

/-- Every item gets a name or none. -/
lemma length_eq (turns : Turns level metadata kind items names) : items.length = names.length := by
  induction turns with
  | start => rfl
  | satisfied _ _ _ ih | missing _ _ _ ih => simp [ih]

/-- **What is derived for items that have their turns.** Their columns, and what is derived for the items
after them where the select list has these columns.

**Proof sketch.** By induction on the turns, where the last item is the first of those that come after the
others. -/
lemma deriveOrder_append (turns : Turns level metadata kind items names) (rest : List OrderItem) :
    deriveOrder metadata kind 0 level (items ++ rest) =
      let later := deriveOrder metadata kind (names.countP Option.isSome)
        (level.withColumns (OrderItem.columns items names)) rest
      { level := later.level
        items := OrderItem.renamedAll items names ++ later.items
        fragments := OrderItem.columnTexts items names ++ later.fragments
        failure := later.failure } := by
  induction turns generalizing rest with
  | start => rw [show OrderItem.columns [] [] = [] from rfl, withColumns_nil]; rfl
  | @satisfied items names item turns has free ih =>
    have covered : (level.withColumns (OrderItem.columns items names)).covers metadata item = .ok true := by
      rcases covers_cases _ metadata item with ⟨covered, -⟩ | ⟨-, lacks, -⟩ | ⟨-, stuck⟩
      · exact covered
      · exact absurd has lacks
      · exact absurd stuck free
    rw [List.append_assoc, ih, List.singleton_append, deriveOrder, covered]
    simp [OrderItem.columns_append turns.length_eq, OrderItem.columnTexts_append turns.length_eq,
      OrderItem.renamedAll_append turns.length_eq, OrderItem.column?, OrderItem.columnText?,
      OrderItem.renamed]
  | @missing items names item name turns lacks named ih =>
    have uncovered : (level.withColumns (OrderItem.columns items names)).covers metadata item =
        .ok false := by
      rcases covers_cases _ metadata item with ⟨-, has, -⟩ | ⟨uncovered, -⟩ | ⟨-, stuck⟩
      · exact absurd has lacks
      · exact uncovered
      · simp [OrderItem.qualifiedName?, stuck.noName] at named
    rw [List.append_assoc, ih, List.singleton_append, deriveOrder, uncovered, named]
    simp [OrderItem.columns_append turns.length_eq, OrderItem.columnTexts_append turns.length_eq,
      OrderItem.renamedAll_append turns.length_eq, OrderItem.column?, OrderItem.columnText?,
      OrderItem.renamed, named, withColumns_append]

/-- What is derived for items that all have their turns. -/
lemma deriveOrder_eq (turns : Turns level metadata kind items names) :
    deriveOrder metadata kind 0 level items =
      { level := level.withColumns (OrderItem.columns items names)
        items := OrderItem.renamedAll items names
        fragments := OrderItem.columnTexts items names
        failure := none } := by
  have derived := turns.deriveOrder_append []
  simpa [deriveOrder] using derived

/-- A column is added for an item exactly if it is not selected when it has its turn. -/
lemma added_iff (turns : Turns level metadata kind items names) {item : OrderItem} {added : Option String}
    (mem : (item, added) ∈ items.zip names) : ∃ before given,
      (added = none ↔ (level.withColumns (OrderItem.columns before given)).Satisfies metadata item) := by
  induction turns with
  | start => cases mem
  | satisfied turns has _ ih =>
    rw [List.zip_append turns.length_eq, List.mem_append] at mem
    rcases mem with mem | mem
    · exact ih mem
    · cases List.mem_singleton.1 mem
      exact ⟨_, _, iff_of_true rfl has⟩
  | missing turns lacks _ ih =>
    rw [List.zip_append turns.length_eq, List.mem_append] at mem
    rcases mem with mem | mem
    · exact ih mem
    · cases List.mem_singleton.1 mem
      exact ⟨_, _, iff_of_false (by simp) lacks⟩

end Turns

/-- **All items have their turns, or those in front of a stuck one have.**

**Proof sketch.** By induction on the list from its end: the last item has its turn after the others, unless
it is stuck. -/
lemma turns_or_stuck (level : SelectLevel) (metadata : TableMetadata) (kind : DerivedColumn)
    (items : List OrderItem) :
    (∃ names, Turns level metadata kind items names) ∨
      ∃ before item after names, items = before ++ item :: after ∧
        Turns level metadata kind before names ∧
        (level.withColumns (OrderItem.columns before names)).Stuck item := by
  induction items using List.reverseRecOn with
  | nil => exact .inl ⟨[], .start⟩
  | append_singleton items item ih =>
    rcases ih with ⟨names, turns⟩ | ⟨before, first, after, names, rfl, turns, stuck⟩
    · rcases covers_cases (level.withColumns (OrderItem.columns items names)) metadata item with
          ⟨-, has, free⟩ | ⟨-, lacks, unnamed⟩ | ⟨-, stuck⟩
      · exact .inl ⟨_, turns.satisfied has free⟩
      · cases named : item.qualifiedName? with
        | some name => exact .inl ⟨_, turns.missing lacks named⟩
        | none =>
          refine .inr ⟨items, item, [], names, rfl, turns, unnamed ?_⟩
          simpa [OrderItem.qualifiedName?] using named
      · exact .inr ⟨items, item, [], names, rfl, turns, stuck⟩
    · exact .inr ⟨before, first, after ++ [item], names, by simp, turns, stuck⟩

end SelectLevel

end SqlRouting
