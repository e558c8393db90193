import Mathlib.Data.List.Induction
import Mathlib.Tactic.Lemma
import SqlRouting.Rule.Configuration

/-!
# Configured tables

Rules are built table by table, and a table is refused if one before it has the same name, ignoring ASCII
case. So of the tables that are built at most one has a given name. The rules and the known columns are kept
apart and are searched each in its own way, but what they say of a name is what is configured for that table.

## Main definitions

* `SqlRouting.TableConfiguration.rule` — the rule that is configured for a table.
* `SqlRouting.RuleConfiguration.named` — the tables of a name.
* `SqlRouting.RuleConfiguration.FirstRepeated` — the name of the first table that is configured again.
* `SqlRouting.RuleConfiguration.Tells` — what rules and known columns say of a name.

## Main results

* `SqlRouting.TableMetadata.columns_insert` — the columns that are known once a table is made known.
* `SqlRouting.RuleConfiguration.Built.addTable_eq` — what is built with one more table.
* `SqlRouting.RuleConfiguration.build_ok_iff_distinct_and_tells` — when rules are built, and what they
  say then.
-/

set_option autoImplicit false

namespace SqlRouting

open Text

/-- The columns that are known once a table is made known: its own under its name, and what was known
before under any other. -/
lemma TableMetadata.columns_insert (metadata : TableMetadata) (table name : String)
    (columns : List String) : (metadata.insert table columns).columns? name =
      if sameName table name then some columns else metadata.columns? name := by
  rw [columns?, insert, List.find?_cons]
  split
  · rename_i same
    rw [if_pos same, Option.map_some]
  · rename_i other
    rw [if_neg (by simp [other]), columns?, List.find?_filter]
    congr 2
    funext entry
    -- an entry under the name of the table is one under `name` only if the two are the same
    by_cases found : sameName entry.1 name = true
    · have kept : sameName entry.1 table ≠ true := fun own =>
        Bool.eq_false_iff.1 other (sameName_trans (sameName_symm own) found)
      simp [found, kept]
    · simp [found]

namespace TableConfiguration

/-- The rule that is configured for a table. -/
def rule (table : TableConfiguration) : TableRule where
  table := table.name
  shardingColumns := table.shardingColumns
  algorithm := table.algorithmExpression
  generateKeyColumn := table.generateKeyColumn

/-- The columns that are known of a table: none at all, if none are configured. -/
def known? (table : TableConfiguration) : Option (List String) :=
  if table.columns = [] then none else some table.columns

end TableConfiguration

namespace RuleConfiguration

/-- No two tables have the same name. -/
def Distinct (tables : List TableConfiguration) : Prop :=
  tables.Pairwise fun earlier later => sameName earlier.name later.name = false

/-- The tables of a name. -/
def named (tables : List TableConfiguration) (name : String) : List TableConfiguration :=
  tables.filter (sameName ·.name name)

/-- The first table that has the same name as one before it writes it as `name`. -/
def FirstRepeated (tables : List TableConfiguration) (name : String) : Prop :=
  ∃ before table after, tables = before ++ table :: after ∧ Distinct before ∧
    (∃ earlier ∈ before, sameName earlier.name table.name = true) ∧ table.name = name

/-- What rules and known columns say of a name is what is configured for a table; without a table, they say
nothing of it. -/
structure Tells (rules : ShardingRule) (metadata : TableMetadata) (name : String)
    (table? : Option TableConfiguration) : Prop where
  /-- The rule of the name is that of the table. -/
  rule : rules.find? name = table?.map TableConfiguration.rule
  /-- The columns that are known are those of the table. -/
  columns : metadata.columns? name = table?.bind TableConfiguration.known?
  /-- The columns that select the shard are those of the table. -/
  sharding : ∀ column, rules.isShardingColumn column name = true ↔
    ∃ table ∈ table?, ∃ own ∈ table.shardingColumns, sameName own column = true
  /-- The column that is filled with a generated key is that of the table. -/
  key : rules.generateKeyColumn? name = table?.bind (·.generateKeyColumn)
  /-- The table is known to have its columns. -/
  contains : ∀ column, metadata.containsColumn name column = true ↔
    ∃ table ∈ table?, ∃ own ∈ table.columns, sameName own column = true

variable {tables : List TableConfiguration} {table : TableConfiguration}
  {built : ShardingRule × TableMetadata}

/-! ## Adding a table -/

/-- What is built from some tables: no two have the same name, and the rules and the known columns are those
of the tables in their order. -/
structure Built (tables : List TableConfiguration) (built : ShardingRule × TableMetadata) : Prop where
  /-- No two tables have the same name. -/
  distinct : Distinct tables
  /-- The rules are those of the tables. -/
  rules : built.1.toList = tables.map TableConfiguration.rule
  /-- The columns that are known under a name are those of the table of this name. -/
  columns : ∀ name, built.2.columns? name =
    (tables.find? (sameName ·.name name)).bind TableConfiguration.known?

/-- Nothing is built from no tables. -/
lemma built_nil : Built [] ({}, {}) where
  distinct := .nil
  rules := rfl
  columns _ := rfl

/-- The rule of a name is that of the first table of this name. -/
lemma Built.find_eq (h : Built tables built) (name : String) :
    built.1.find? name = (tables.find? (sameName ·.name name)).map TableConfiguration.rule := by
  rw [ShardingRule.find?, h.rules, List.find?_map]
  rfl

/-- A table is configured again if there is a rule of its name. -/
lemma Built.isSome_find (h : Built tables built) (name : String) :
    (built.1.find? name).isSome = true ↔ ∃ earlier ∈ tables, sameName earlier.name name = true := by
  rw [h.find_eq, Option.isSome_map, List.find?_isSome]

/-- Tables behind others are distinct if both are, and no name is that of one before. -/
lemma distinct_append_singleton :
    Distinct (tables ++ [table]) ↔ Distinct tables ∧
      ¬ ∃ earlier ∈ tables, sameName earlier.name table.name = true := by
  simp [Distinct, List.pairwise_append]

/-- **What is built with one more table**: an error if there is a table of the same name already, and else
its rule behind the others, with its columns if there are any. -/
lemma Built.addTable_eq (h : Built tables built) (table : TableConfiguration) :
    (∃ earlier ∈ tables, sameName earlier.name table.name = true) ∧
        addTable built table = .error (.duplicateTable table.name) ∨
      ∃ next, addTable built table = .ok next ∧ Built (tables ++ [table]) next := by
  by_cases again : ∃ earlier ∈ tables, sameName earlier.name table.name = true
  · refine .inl ⟨again, ?_⟩
    rw [addTable, if_pos ((h.isSome_find _).2 again)]
  · refine .inr ⟨_, by rw [addTable, if_neg (mt (h.isSome_find _).1 again)], ?_, ?_, fun name => ?_⟩
    · exact distinct_append_singleton.2 ⟨h.distinct, again⟩
    · rw [List.map_append, ← h.rules]
      rfl
    · have first : tables.find? (sameName ·.name name) = none ∨ sameName table.name name ≠ true := by
        by_cases own : sameName table.name name = true
        · refine .inl (List.find?_eq_none.2 fun earlier mem found => again ⟨earlier, mem, ?_⟩)
          exact sameName_trans found (sameName_symm own)
        · exact .inr own
      rw [List.find?_append, List.find?_singleton]
      by_cases unknown : table.columns = []
      · rw [if_pos (by simp [unknown]), h.columns]
        cases tables.find? (sameName ·.name name) with
        | some earlier => rfl
        | none => split <;> simp [TableConfiguration.known?, unknown]
      · rw [if_neg (by simp [unknown]), TableMetadata.columns_insert, h.columns]
        rcases first with free | other
        · rw [free]
          split <;> simp [TableConfiguration.known?, unknown]
        · simp [other]

/-! ## Adding all tables -/

/-- Distinct tables are built one after the other.

**Proof sketch.** Induction on the tables from the last one, before which the others are built. -/
lemma exists_built (distinct : Distinct tables) :
    ∃ built, tables.foldlM addTable ({}, {}) = .ok built ∧ Built tables built := by
  induction tables using List.reverseRecOn with
  | nil => exact ⟨_, rfl, built_nil⟩
  | append_singleton tables table ih =>
    obtain ⟨distinct, new⟩ := distinct_append_singleton.1 distinct
    obtain ⟨built, success, isBuilt⟩ := ih distinct
    rcases isBuilt.addTable_eq table with ⟨again, -⟩ | ⟨next, added, isNext⟩
    · exact absurd again new
    · refine ⟨next, ?_, isNext⟩
      rw [List.foldlM_append, success]
      exact congrArg (· >>= pure) added

/-- A table that is configured again ends the building.

**Proof sketch.** The tables before it are built, and then it is refused. -/
lemma FirstRepeated.foldlM_eq {name : String} (repeated : FirstRepeated tables name) :
    tables.foldlM addTable ({}, {}) = .error (.duplicateTable name) := by
  obtain ⟨before, table, after, rfl, distinct, again, rfl⟩ := repeated
  obtain ⟨built, success, isBuilt⟩ := exists_built distinct
  rw [List.foldlM_append, success]
  rcases isBuilt.addTable_eq table with ⟨-, refused⟩ | ⟨next, -, isNext⟩
  · exact congrArg (· >>= fun next => after.foldlM addTable next) refused
  · exact absurd again (distinct_append_singleton.1 isNext.distinct).2

/-- Tables are distinct, or there is a first one that is configured again. -/
lemma distinct_or_repeated (tables : List TableConfiguration) :
    Distinct tables ∨ ∃ name, FirstRepeated tables name := by
  induction tables using List.reverseRecOn with
  | nil => exact .inl .nil
  | append_singleton tables table ih =>
    rcases ih with distinct | ⟨name, before, first, after, rfl, rest⟩
    · by_cases again : ∃ earlier ∈ tables, sameName earlier.name table.name = true
      · exact .inr ⟨table.name, tables, table, [], rfl, distinct, again, rfl⟩
      · exact .inl (distinct_append_singleton.2 ⟨distinct, again⟩)
    · exact .inr ⟨name, before, first, after ++ [table], by simp, rest⟩

/-- What is built is built from distinct tables. -/
lemma built_of_build {configuration : RuleConfiguration} (success : configuration.build = .ok built) :
    Built configuration.tables built := by
  rcases distinct_or_repeated configuration.tables with distinct | ⟨name, repeated⟩
  · obtain ⟨built', success', isBuilt⟩ := exists_built distinct
    obtain rfl : built' = built := Except.ok.inj (success'.symm.trans success)
    exact isBuilt
  · cases repeated.foldlM_eq.symm.trans success

/-! ## What is said of a name -/

/-- Of distinct tables at most one has a name, and it is the first one. -/
lemma Distinct.named_eq (distinct : Distinct tables) (name : String) :
    named tables name = (tables.find? (sameName ·.name name)).toList := by
  induction tables with
  | nil => rfl
  | cons table tables ih =>
    obtain ⟨others, distinct⟩ := List.pairwise_cons.1 distinct
    rw [named, List.filter_cons, List.find?_cons]
    by_cases own : sameName table.name name = true
    · have free : named tables name = [] := List.filter_eq_nil_iff.2 fun later mem same =>
        Bool.eq_false_iff.1 (others later mem) (sameName_trans own (sameName_symm same))
      rw [named] at free
      simp [own, free]
    · rw [if_neg own]
      simpa [named, own] using ih distinct

/-- What is built says of a name what is configured for the table of this name. -/
lemma Built.tells (h : Built tables built) (name : String) :
    Tells built.1 built.2 name (tables.find? (sameName ·.name name)) where
  rule := h.find_eq name
  columns := h.columns name
  sharding column := by
    rw [ShardingRule.isShardingColumn, h.find_eq, Option.any_map, Option.any_eq_true]
    simp [TableRule.isShardingColumn, TableConfiguration.rule, containsName]
  key := by
    rw [ShardingRule.generateKeyColumn?, h.find_eq, Option.bind_map]
    rfl
  contains column := by
    rw [TableMetadata.containsColumn, h.columns, Option.any_eq_true]
    cases tables.find? (sameName ·.name name) with
    | none => simp
    | some table =>
      by_cases unknown : table.columns = []
      · simp [TableConfiguration.known?, unknown]
      · simp [TableConfiguration.known?, unknown, containsName]

/-- **When rules are built, and what they say then.** They are built exactly if no two tables have the same
name, and else there is an error with the name of the first table that has the name of one before it. The
rules that are built are those of the tables in their order. A name is that of one table at most, and what
the rules and the known columns say of it is what is configured for that table.

**Proof sketch.** Induction on the tables: adding one keeps the rules in their order and the columns under
its name, and fails exactly if its name is there already. Among tables of different names the first one with
a name is the only one, so the rules and the columns, though they are kept apart, speak of the same table. -/
theorem build_ok_iff_distinct_and_tells (configuration : RuleConfiguration) :
    ((∃ built, configuration.build = .ok built) ↔ Distinct configuration.tables) ∧
    (∀ error, configuration.build = .error error ↔
      ∃ name, error = .duplicateTable name ∧ FirstRepeated configuration.tables name) ∧
    ∀ rules metadata, configuration.build = .ok (rules, metadata) →
      rules.toList = configuration.tables.map TableConfiguration.rule ∧
      ∀ name, ∃ table?, named configuration.tables name = table?.toList ∧
        Tells rules metadata name table? := by
  refine ⟨⟨fun ⟨built, success⟩ => (built_of_build success).distinct, fun distinct => ?_⟩,
    fun error => ⟨fun failure => ?_, ?_⟩, fun rules metadata success => ?_⟩
  · obtain ⟨built, success, -⟩ := exists_built distinct
    exact ⟨built, success⟩
  · rcases distinct_or_repeated configuration.tables with distinct | ⟨name, repeated⟩
    · obtain ⟨built, success, -⟩ := exists_built distinct
      cases success.symm.trans failure
    · exact ⟨name, Except.error.inj (failure.symm.trans repeated.foldlM_eq), repeated⟩
  · rintro ⟨name, rfl, repeated⟩
    exact repeated.foldlM_eq
  · have isBuilt := built_of_build success
    exact ⟨isBuilt.rules, fun name => ⟨_, isBuilt.distinct.named_eq name, isBuilt.tells name⟩⟩

/-- Two tables, one of them without known columns, that are named in other letters. -/
theorem build_tells_two_tables : ∃ (configuration : RuleConfiguration) (rules : ShardingRule)
    (metadata : TableMetadata) (table : TableConfiguration),
    configuration.build = .ok (rules, metadata) ∧ table ∈ configuration.tables ∧
      table.name = "T_Order" ∧ Tells rules metadata "t_oRDER" (some table) ∧
      metadata.columns? "t_oRDER" = some ["order_id"] ∧ metadata.columns? "t_item" = none ∧
      rules.isShardingColumn "ORDER_ID" "T_ITEM" = true := by
  let order : TableConfiguration := { name := "T_Order", columns := ["order_id"] }
  let item : TableConfiguration := { name := "t_item", shardingColumns := ["Order_Id"] }
  let configuration : RuleConfiguration := ⟨[order, item]⟩
  have success : configuration.build =
    .ok (⟨[order.rule, item.rule]⟩, ⟨[("T_Order", ["order_id"])]⟩) := by decide
  obtain ⟨-, -, told⟩ := build_ok_iff_distinct_and_tells configuration
  obtain ⟨table?, one, tells⟩ := (told _ _ success).2 "t_oRDER"
  have isOrder : named configuration.tables "t_oRDER" = [order] := by decide
  obtain rfl : table? = some order := by
    cases table? with
    | none => cases isOrder.symm.trans one
    | some table => exact congrArg some (List.singleton_inj.1 (one.symm.trans isOrder))
  exact ⟨configuration, _, _, order, success, List.mem_cons_self, rfl, tells, tells.columns, by decide,
    by decide⟩

/-- The third table has the name of the first one in other letters. -/
example : build ⟨[{ name := "a" }, { name := "b" }, { name := "A" }, { name := "B" }]⟩ =
    .error (.duplicateTable "A") := by decide

end RuleConfiguration

end SqlRouting
