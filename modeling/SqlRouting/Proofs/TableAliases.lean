import Mathlib.Data.List.Pairwise
import SqlRouting.Proofs.ConditionTables
import SqlRouting.Proofs.Merging
import SqlRouting.Proofs.References
import SqlRouting.Proofs.Turns

/-!
# Aliases of tables

A table is recorded once, under the alias that it has where it is first named. Where the aliases of the
sources are told apart, each such alias denotes its table from then on, whatever names and aliases the
other sources have: in front of the column of a predicate as well as in front of a star. The aliases
under which a table is named again are dropped, so a table that is joined with itself is found by one
of its aliases only.

## Main definitions

* `SqlRouting.TableSource.AliasesDiffer` — no two sources have the same alias.
* `SqlRouting.TableSource.Introduces` — a source names a table for the first time, under an alias.

## Main results

* `SqlRouting.Tables.find_of_alias` — among aliases that differ, an alias denotes its table.
* `SqlRouting.Tables.withSources_again` — a table that is named again is not recorded.
* `SqlRouting.SelectStatement.alias_denotes_table` — what the aliases of each level denote.
-/

set_option autoImplicit false

namespace SqlRouting

open Text

/-! ## Tables under their aliases -/

/-- The aliases of two tables are not the same, if both have one. -/
def Table.AliasApart (table other : Table) : Prop :=
  ∀ aliasName ∈ table.aliasName, ∀ name ∈ other.aliasName, sameName aliasName name = false

instance : Std.Symm Table.AliasApart where
  symm _ _ apart name named aliasName given :=
    Bool.eq_false_iff.2 fun same =>
      Bool.eq_false_iff.1 (apart aliasName given name named) (sameName_symm same)

namespace Tables

/-- Tables that are added come in their order, if at all. -/
lemma sublist_foldl_add (tables : Tables) (named : List Table) :
    (named.foldl add tables).toList.Sublist (tables.toList ++ named) := by
  induction named generalizing tables with
  | nil => simp
  | cons table named ih =>
    refine (ih (tables.add table)).trans ?_
    unfold add
    split
    · exact List.Sublist.append_left (List.sublist_cons_self table named) _
    · rw [List.append_assoc, List.singleton_append]

/-- Among aliases that differ, an alias denotes its table. -/
lemma find_of_alias {tables : Tables} (differ : tables.toList.Pairwise Table.AliasApart) {table : Table}
    (mem : table ∈ tables.toList) {aliasName key : String} (given : table.aliasName = some aliasName)
    (same : sameName aliasName key = true) : tables.find? key = some table := by
  have wanted : table.aliasName.any (sameName · key) = true := by rwa [given]
  cases found : tables.toList.find? (·.aliasName.any (sameName · key)) with
  | none => exact absurd wanted (List.find?_eq_none.1 found table mem)
  | some other =>
    rw [find?, found, Option.some_or]
    by_contra differs
    have apart := differ.forall (List.mem_of_find?_eq_some found) mem fun same => differs (same ▸ rfl)
    have matched := List.find?_some found
    obtain ⟨name, named, same'⟩ := (Option.any_eq_true _ _).1 matched
    exact Bool.eq_false_iff.1 (apart name named aliasName given)
      (sameName_trans same' (sameName_symm same))

/-- The name of a table that was added is recorded. -/
lemma contains_foldl_add {tables : Tables} {table : Table} {named : List Table} (mem : table ∈ named) :
    (named.foldl add tables).contains table.name = true := by
  induction named generalizing tables with
  | nil => cases mem
  | cons first named ih =>
    rcases List.mem_cons.1 mem with rfl | later
    · -- a table whose name is recorded stays out, and any other comes in
      have known : (tables.add table).contains table.name = true := by
        unfold add
        split
        · assumption
        · simp [contains, sameName_self]
      obtain ⟨recorded, isRecorded, same⟩ := List.any_eq_true.1 known
      exact List.any_eq_true.2 ⟨recorded, (isPrefix_foldl_add _ named).subset isRecorded, same⟩
    · exact ih later

/-- Whether a name is recorded does not depend on its case. -/
lemma contains_congr {tables : Tables} {a b : String} (same : sameName a b = true)
    (known : tables.contains a = true) : tables.contains b = true := by
  obtain ⟨recorded, isRecorded, isName⟩ := List.any_eq_true.1 known
  exact List.any_eq_true.2 ⟨recorded, isRecorded, sameName_trans isName same⟩

end Tables

/-! ## Sources with aliases -/

namespace TableSource

/-- No two of the tables that some sources name have the same alias. -/
def AliasesDiffer (sources : List TableSource) : Prop :=
  (sources.filterMap table?).Pairwise Table.AliasApart

/-- One of some sources names a table under an alias, and no source in front of it names the table. -/
def Introduces (sources : List TableSource) (table : Table) (aliasName : String) : Prop :=
  ∃ front back, sources = front ++ .named table :: back ∧ table.aliasName = some aliasName ∧
    ∀ other, .named other ∈ front → sameName other.name table.name = false

/-- The tables that some sources name are those of the named ones among them. -/
lemma mem_filterMap_table {sources : List TableSource} {table : Table} :
    table ∈ sources.filterMap table? ↔ .named table ∈ sources := by
  rw [List.mem_filterMap]
  constructor
  · rintro ⟨source, mem, isTable⟩
    cases source with
    | named named =>
      obtain rfl := Option.some.inj isTable
      exact mem
    | group | derived => cases isTable
  · exact fun mem => ⟨_, mem, rfl⟩

/-- The table that a source introduces is recorded under its alias. -/
lemma Introduces.mem {sources : List TableSource} {table : Table} {aliasName : String}
    (introduces : Introduces sources table aliasName) :
    table ∈ (({} : Tables).withSources sources).toList := by
  obtain ⟨front, back, rfl, -, first⟩ := introduces
  rw [Tables.withSources_append, Tables.withSources_named]
  refine Tables.subset_withSources _ back ?_
  have new : (({} : Tables).withSources front).contains table.name = false := by
    refine List.any_eq_false.2 fun other recorded => Bool.not_eq_true _ ▸ first other ?_
    exact mem_filterMap_table.1 ((Tables.sublist_foldl_add {} _).subset recorded)
  rw [Tables.add, if_neg (by simp [new])]
  exact List.mem_append_right _ (List.mem_singleton_self table)

/-- A table that is recorded under an alias was introduced under it. -/
lemma introduces_of_mem {sources : List TableSource} {table : Table} {aliasName : String}
    (mem : table ∈ (({} : Tables).withSources sources).toList) (given : table.aliasName = some aliasName) :
    Introduces sources table aliasName := by
  induction sources using List.reverseRecOn with
  | nil => cases mem
  | append_singleton front last ih =>
    rw [Tables.withSources_append] at mem
    have earlier (before : table ∈ (({} : Tables).withSources front).toList) :
        Introduces (front ++ [last]) table aliasName := by
      obtain ⟨first, back, rfl, given, new⟩ := ih before
      exact ⟨first, back ++ [last], by simp, given, new⟩
    cases last with
    | group | derived => exact earlier mem
    | named named =>
      rw [Tables.withSources_named, Tables.withSources_nil, Tables.add] at mem
      split at mem
      · exact earlier mem
      · rename_i new
        rcases List.mem_append.1 mem with before | isLast
        · exact earlier before
        · obtain rfl := List.mem_singleton.1 isLast
          refine ⟨front, [], rfl, given, fun other isNamed => Bool.eq_false_iff.2 fun same => new ?_⟩
          exact Tables.contains_congr same (Tables.contains_foldl_add (mem_filterMap_table.2 isNamed))

/-- Where no more sources are written than tables are recorded under different aliases, no two sources have
the same alias. -/
lemma aliasesDiffer_of_length_le {sources : List TableSource} {tables : Tables}
    (recorded : ({} : Tables).withSources sources = tables) (fewer : sources.length ≤ tables.toList.length)
    (differ : tables.toList.Pairwise Table.AliasApart) : AliasesDiffer sources := by
  have kept : tables.toList.Sublist (sources.filterMap table?) :=
    recorded ▸ Tables.sublist_foldl_add {} (sources.filterMap table?)
  have named := List.length_filterMap_le table? sources
  rwa [AliasesDiffer, ← kept.eq_of_length_le (named.trans fewer)]

/-- Where aliases differ, the alias under which a table is introduced denotes it. -/
lemma Introduces.find_eq {sources : List TableSource} (differ : AliasesDiffer sources) {table : Table}
    {aliasName key : String} (introduces : Introduces sources table aliasName)
    (same : sameName aliasName key = true) :
    (({} : Tables).withSources sources).find? key = some table := by
  have recorded := Tables.sublist_foldl_add {} (sources.filterMap table?)
  obtain ⟨-, -, -, given, -⟩ := id introduces
  exact Tables.find_of_alias (differ.sublist recorded) introduces.mem given same

end TableSource

/-- A table that is named again is not recorded, whatever its alias. -/
lemma Tables.withSources_again (tables : Tables) {front : List TableSource} {table other : Table}
    (named : .named other ∈ front) (same : sameName other.name table.name = true)
    (back : List TableSource) :
    tables.withSources (front ++ .named table :: back) = tables.withSources (front ++ back) := by
  have known : (tables.withSources front).contains table.name = true :=
    contains_congr same (contains_foldl_add (TableSource.mem_filterMap_table.2 named))
  rw [withSources_append, withSources_append, withSources_named, add, if_pos known]

/-! ## Queries -/

namespace SelectStatement

open Grammar TableSource SqlRouting.Parser

/-- **What the aliases of each level denote.** Where the sources of a level so far have different aliases,
the alias under which a table is introduced denotes that table. It does so for a predicate that is read
then: the name of a column behind the alias is that of a column of the table. Once the level is read, it
does so for the select list: a star of the table is found by any spelling of the alias. A source that names
a table again changes nothing.

**Proof sketch.** The tables so far are those of the sources in front, in their order, each under the alias
that it was introduced with. So among them the aliases differ as well, and the first that is the same as
the alias is its own. -/
theorem alias_denotes_table {env : Environment} {text : String} {query : SelectStatement}
    (success : Statement.ofText env text = .ok (.select query)) :
    ∃ whole s levels, (Grammar.levels env).run ⟨.ofText text, {}⟩ = .ok (whole, s) ∧
      QueryRead env text levels ∧ whole.levels.length = levels.length ∧
      (∀ level ∈ levels, ∀ before after, level = before ++ after →
        (∀ formula rest, after = .condition formula :: rest → ∀ predicate ∈ formula.predicates,
          predicate.Means env.rules text (LevelEvent.tables before)) ∧
        (AliasesDiffer (LevelEvent.sources before) → ∀ table aliasName key,
          Introduces (LevelEvent.sources before) table aliasName → sameName aliasName key = true →
          (LevelEvent.tables before).find? key = some table ∧
          ∀ span dot token name, columnName? text token = some name →
            Refers text (LevelEvent.tables before)
              [⟨.identifier key, span⟩, ⟨.symbol .dot, dot⟩, token] ⟨name, table.name⟩) ∧
        ∀ front table back, LevelEvent.sources before = front ++ .named table :: back →
          (∃ other, .named other ∈ front ∧ sameName other.name table.name = true) →
          LevelEvent.tables before = ({} : Tables).withSources (front ++ back)) ∧
      ∀ selected level, (selected, level) ∈ whole.levels.zip levels →
        selected.context.tables = LevelEvent.tables level ∧
        (AliasesDiffer (LevelEvent.sources level) → ∀ table aliasName key,
          Introduces (LevelEvent.sources level) table aliasName → sameName aliasName key = true →
          selected.findTable? key = some table ∧
          ∀ owner, .star (some owner) ∈ selected.shape.items → sameName aliasName owner = true →
            (selected.findStar? key).isSome = true) := by
  obtain ⟨s, s', finished, ⟨_, same, selected⟩ | ⟨_, same, -⟩⟩ := ofText_reads success
  · cases same
    obtain ⟨whole, s₁, read, merged⟩ := run_bind_ok.1 selected
    obtain ⟨prepared, rfl⟩ := run_lift_ok.1 merged
    obtain ⟨outer, below, reading, collects, -⟩ := levels_read read
    obtain ⟨tokens, run⟩ := reading.exists_run
    have ended := finish_reads ((KeepsCount.start text).sameCount run) finished
    obtain ⟨lengths, collected⟩ := List.forall₂_iff_zip.1 collects
    have first : KeepsCount text (ParserState.advance ⟨.ofText text, {}⟩) :=
      (KeepsCount.start text).editsOnly (run_token reading.1)
    have mean := List.forall_mem_cons.2 (reading.2.mean first (by simp))
    refine ⟨whole, _, outer :: below, read, ⟨outer, below, _, rfl, reading, ended⟩, lengths, ?_, ?_⟩
    · intro level mem before after split
      refine ⟨?_, fun differ table aliasName key introduces same => ?_, ?_⟩
      · rintro formula rest rfl
        exact mean level mem before formula rest split
      · have found := introduces.find_eq differ same
        exact ⟨found, fun span dot token name named => .qualified key name span dot token table named found⟩
      · rintro front table back split ⟨other, named, same⟩
        rw [LevelEvent.tables, split]
        exact Tables.withSources_again {} named same back
    · intro selected level mem
      have tables : selected.context.tables = LevelEvent.tables level := (collected mem).1
      refine ⟨tables, fun differ table aliasName key introduces same => ?_⟩
      have found {name : String} (same : sameName aliasName name = true) :
          selected.findTable? name = some table := by
        rw [SelectLevel.findTable?, tables]
        exact introduces.find_eq differ same
      refine ⟨found same, fun owner star owned => ?_⟩
      exact (selected.isSome_findStar key).2 ⟨owner, table, star, found same, found owned⟩
  · cases same

/-- An alias that is the name of another table: it denotes the table that it is declared for.

**Proof sketch.** Two tables are recorded, and the text has one joint, so it has no other sources. -/
theorem alias_denotes_table_join : ∃ (env : Environment) (text : String) (query : SelectStatement),
    Statement.ofText env text = .ok (.select query) ∧
      query.context.conditions = [.equal ⟨"user_id", "t_order"⟩ (.number "1")] ∧
      ∃ whole s levels selected level, (Grammar.levels env).run ⟨.ofText text, {}⟩ = .ok (whole, s) ∧
        QueryRead env text levels ∧ (selected, level) ∈ whole.levels.zip levels ∧
        selected.context.tables.toList = [⟨"t_order", some "o"⟩, ⟨"o", some "x"⟩] ∧
        AliasesDiffer (LevelEvent.sources level) ∧
        Introduces (LevelEvent.sources level) ⟨"t_order", some "o"⟩ "o" ∧
        selected.findTable? "O" = some ⟨"t_order", some "o"⟩ := by
  let env : Environment := { rules := ⟨[{ table := "t_order", shardingColumns := ["user_id"] }]⟩ }
  let text := "SELECT o.* FROM t_order o JOIN o x ON o.id = x.id WHERE O.user_id = 1"
  have seen : (query? env text).map (·.context.conditions) =
      some [.equal ⟨"user_id", "t_order"⟩ (.number "1")] := by decide +kernel
  have known : ((Grammar.levels env).run ⟨.ofText text, {}⟩).toOption.map (·.1.context.tables) =
      some ⟨[⟨"t_order", some "o"⟩, ⟨"o", some "x"⟩]⟩ := by decide +kernel
  obtain ⟨query, success, conditions⟩ := exists_of_query seen
  obtain ⟨whole, s, levels, read, reading, -, -, denotes⟩ := alias_denotes_table success
  obtain ⟨level, below, s', rfl, isRead, -⟩ := id reading
  have isFirst : (whole.toSelectLevel, level) ∈ whole.levels.zip (level :: below) := List.mem_cons_self
  obtain ⟨collected, found⟩ := denotes _ _ isFirst
  rw [read] at known
  have tables : whole.context.tables = ⟨[⟨"t_order", some "o"⟩, ⟨"o", some "x"⟩]⟩ :=
    Option.some.inj known
  have recorded : ({} : Tables).withSources (LevelEvent.sources level) = _ := collected.symm.trans tables
  have differ : AliasesDiffer (LevelEvent.sources level) := by
    refine aliasesDiffer_of_length_le recorded ?_ (by simp [Table.AliasApart, sameName])
    obtain ⟨tokens, run, fewer⟩ := isRead.2.exists_joints
    have joints : (ParserState.advance ⟨.ofText text, {}⟩).stream.ahead.countP isJoint = 1 := by
      decide +kernel
    rw [run.ahead_eq, List.countP_append] at joints
    have once : env.dialect.clauses.count .tables = 1 := rfl
    simp only [List.length_cons, List.length_nil]
    omega
  have introduces : Introduces (LevelEvent.sources level) ⟨"t_order", some "o"⟩ "o" :=
    introduces_of_mem (by rw [recorded]; exact List.mem_cons_self) rfl
  refine ⟨env, text, query, success, conditions, whole, s, _, _, level, read, reading, isFirst, ?_, differ,
    introduces, (found differ _ "o" "O" introduces (by decide)).1⟩
  exact congrArg Tables.toList tables

/-- A table that is joined with itself: the second alias denotes nothing, and no condition is recorded for
the column behind it. -/
theorem alias_of_joined_table_lost : ∃ (env : Environment) (text : String) (query : SelectStatement)
    (front first second : List Token) (word : Token) (rest : List Token),
    Statement.ofText env text = .ok (.select query) ∧
      Lexer.tokens text = front ++ first ++ word :: second ++ rest ∧
      (∃ name aliasTokens, first = name ++ aliasTokens ∧ NameTokens name "t" ∧
        AliasTokens text aliasTokens (some "x")) ∧ word.kind = .keyword .JOIN ∧
      (∃ name aliasTokens, second = name ++ aliasTokens ∧ NameTokens name "t" ∧
        AliasTokens text aliasTokens (some "y")) ∧
      query.context.tables.find? "y" = none ∧ env.rules.isShardingColumn "a" "t" = true ∧
      query.context.conditions = [] := by
  let env : Environment := { rules := ⟨[{ table := "t", shardingColumns := ["a"] }]⟩ }
  let text := "SELECT * FROM t x JOIN t y ON x.b = y.b WHERE y.a = 1"
  have seen : (query? env text).map (fun query =>
      (query.context.tables.find? "y", query.context.conditions)) = some (none, []) := by
    decide +kernel
  obtain ⟨query, success, same⟩ := exists_of_query seen
  obtain ⟨lost, conditions⟩ := Prod.mk.inj same
  let front : List Token :=
    [⟨.keyword .SELECT, ⟨0, 6⟩⟩, ⟨.symbol .star, ⟨7, 8⟩⟩, ⟨.keyword .FROM, ⟨9, 13⟩⟩]
  let first : List Token := [⟨.identifier "t", ⟨14, 15⟩⟩, ⟨.identifier "x", ⟨16, 17⟩⟩]
  let second : List Token := [⟨.identifier "t", ⟨23, 24⟩⟩, ⟨.identifier "y", ⟨25, 26⟩⟩]
  have split : Lexer.tokens text = front ++ first ++ ⟨.keyword .JOIN, ⟨18, 22⟩⟩ :: second ++
      (Lexer.tokens text).drop 8 := by decide +kernel
  exact ⟨env, text, query, front, first, second, _, _, success, split,
    ⟨[_], [_], rfl, .alone "t" _, .bare "x" _⟩, rfl,
    ⟨[_], [_], rfl, .alone "t" _, .bare "y" _⟩, lost, by decide +kernel, conditions⟩

end SelectStatement

end SqlRouting
