import Mathlib.Data.List.Induction
import Mathlib.Data.List.Pairwise
import Mathlib.Tactic.Lemma
import SqlRouting.Statement.Table

/-!
# Records of tables

Tables are recorded one at a time or a collection at a time, in any order and any number of times. What is
kept of such a history is told by the tables that were given in it alone: of each name the first one, in
the order in which the names came up first, ignoring ASCII case. So no name is kept twice, and a key that
is no alias denotes at most one table.

## Main definitions

* `SqlRouting.Tables.Recording` — what can be done to record tables.
* `SqlRouting.Tables.after` — the tables that are kept of a history.
* `SqlRouting.Tables.firstNamed` — the tables of a list before which none has the same name.
* `SqlRouting.Tables.Denotes` — what a key denotes among some tables.

## Main results

* `SqlRouting.Tables.firstNamed_concat` — what one more table adds to the first of each name.
* `SqlRouting.Tables.Records.add` — recording a table keeps the first of each name.
* `SqlRouting.Tables.records_after` — what is kept of a history.
* `SqlRouting.Tables.firstNamed_kept_and_found` — the names, the entries and the keys of a history.
-/

set_option autoImplicit false

namespace SqlRouting

open Text

/-- A key is the alias of a table. -/
def Table.IsAlias (table : Table) (key : String) : Prop :=
  ∃ aliasName, table.aliasName = some aliasName ∧ sameName aliasName key = true

/-- Two tables have different names. -/
def Table.NameDiffers (table other : Table) : Prop :=
  sameName table.name other.name = false

instance : Std.Symm Table.NameDiffers where
  symm _ _ differs :=
    Bool.eq_false_iff.2 fun same => Bool.eq_false_iff.1 differs (sameName_symm same)

/-- Whether a key is the alias of a table can be tested. -/
lemma Table.isAlias_iff {table : Table} {key : String} :
    table.IsAlias key ↔ table.aliasName.any (sameName · key) = true := by
  rw [Option.any_eq_true]
  rfl

namespace Tables

/-! ## Histories -/

/-- What can be done to record tables. -/
inductive Recording
  /-- To record one table. -/
  | add (table : Table)
  /-- To record the tables of another collection. -/
  | extend (other : Tables)
deriving DecidableEq, Repr

/-- The tables that are given to be recorded. -/
def Recording.given : Recording → List Table
  | .add table => [table]
  | .extend other => other.toList

/-- The tables that are kept after a recording. -/
def record (tables : Tables) : Recording → Tables
  | .add table => tables.add table
  | .extend other => tables.extend other

/-- The tables that are kept of a history, in which there is none at first. -/
def after (history : List Recording) : Tables :=
  history.foldl record {}

/-- The tables of a list before which none has the same name. -/
def firstNamed (given : List Table) : List Table :=
  (given.zipIdx.filter fun entry => !(given.take entry.2).any (sameName ·.name entry.1.name)).map Prod.fst

/-- No two tables have the same name. -/
def NamesDiffer (entries : List Table) : Prop :=
  entries.Pairwise Table.NameDiffers

/-- What a key denotes among some tables: the first one of which it is the alias; if there is none of
these, the only one of which it is the name; and if there is none of these either, nothing. -/
def Denotes (entries : List Table) (key : String) : Option Table → Prop
  | some table =>
    (∃ front back, entries = front ++ table :: back ∧ table.IsAlias key ∧
      ∀ earlier ∈ front, ¬ earlier.IsAlias key) ∨
    (∀ entry ∈ entries, ¬ entry.IsAlias key) ∧ table ∈ entries ∧ sameName table.name key = true ∧
      ∀ entry ∈ entries, sameName entry.name key = true → entry = table
  | none => ∀ entry ∈ entries, ¬ entry.IsAlias key ∧ sameName entry.name key = false

/-! ## The first of each name -/

/-- One more table is the first of its name if none of the others has it. -/
lemma firstNamed_concat (given : List Table) (table : Table) :
    firstNamed (given ++ [table]) =
      firstNamed given ++ if given.any (sameName ·.name table.name) then [] else [table] := by
  have before : given.zipIdx.filter (fun entry =>
        !((given ++ [table]).take entry.2).any (sameName ·.name entry.1.name)) =
      given.zipIdx.filter fun entry => !(given.take entry.2).any (sameName ·.name entry.1.name) := by
    refine List.filter_congr fun entry mem => ?_
    have inside := List.snd_lt_of_mem_zipIdx mem
    rw [List.take_append_of_le_length (by omega)]
  rw [firstNamed, List.zipIdx_append, List.filter_append, List.map_append, before, ← firstNamed,
    Nat.zero_add, List.zipIdx_singleton, List.filter_cons, List.take_left' rfl, List.filter_nil]
  cases given.any (sameName ·.name table.name) <;> rfl

/-- The names of some tables are those of the first ones. -/
lemma any_firstNamed (given : List Table) (name : String) :
    (firstNamed given).any (sameName ·.name name) = given.any (sameName ·.name name) := by
  induction given using List.reverseRecOn with
  | nil => rfl
  | append_singleton given table ih =>
    rw [firstNamed_concat, List.any_append, List.any_append, ih]
    split
    · rename_i again
      -- a table that is left out has the name of one before it
      obtain ⟨earlier, mem, same⟩ := List.any_eq_true.1 again
      by_cases own : sameName table.name name = true
      · have known : given.any (sameName ·.name name) = true :=
          List.any_eq_true.2 ⟨earlier, mem, sameName_trans same own⟩
        simp [known]
      · simp [own]
    · rfl

/-! ## Recording -/

/-- The tables that are kept of some given ones are the first of each name. -/
structure Records (given : List Table) (tables : Tables) : Prop where
  /-- No two of them have the same name. -/
  differ : NamesDiffer tables.toList
  /-- They are the first of each name. -/
  entries : tables.toList = firstNamed given

namespace Records

variable {given : List Table} {tables : Tables}

/-- **Recording a table** keeps the first of each name. -/
lemma add (h : Records given tables) (table : Table) : Records (given ++ [table]) (tables.add table) := by
  have known : tables.contains table.name = given.any (sameName ·.name table.name) := by
    rw [contains, h.entries, any_firstNamed]
  have entries := firstNamed_concat given table
  by_cases again : given.any (sameName ·.name table.name) = true
  · rw [if_pos again, List.append_nil] at entries
    rw [Tables.add, if_pos (known.trans again)]
    exact ⟨h.differ, h.entries.trans entries.symm⟩
  · rw [if_neg again, ← h.entries] at entries
    have new : tables.contains table.name = false := known.trans (Bool.eq_false_iff.2 again)
    rw [Tables.add, if_neg (by simp [new])]
    refine ⟨?_, entries.symm⟩
    rw [NamesDiffer, List.pairwise_append]
    refine ⟨h.differ, List.pairwise_singleton _ _, fun earlier mem later isTable => ?_⟩
    obtain rfl := List.mem_singleton.1 isTable
    exact Bool.eq_false_iff.2 (List.any_eq_false.1 new earlier mem)

/-- Recording the tables of a collection keeps the first of each name. -/
lemma extend (h : Records given tables) (other : Tables) :
    Records (given ++ other.toList) (tables.extend other) := by
  rw [Tables.extend]
  induction other.toList generalizing given tables with
  | nil => rwa [List.append_nil]
  | cons table rest ih =>
    rw [List.append_cons]
    exact ih (h.add table)

/-- Any recording keeps the first of each name. -/
lemma record (h : Records given tables) (recording : Recording) :
    Records (given ++ recording.given) (tables.record recording) := by
  cases recording with
  | add table => exact h.add table
  | extend other => exact h.extend other

end Records

/-- What is kept of a history are the first of each name of all that were given.

**Proof sketch.** Induction on the history from its last recording. -/
lemma records_after (history : List Recording) :
    Records (history.flatMap Recording.given) (after history) := by
  induction history using List.reverseRecOn with
  | nil => exact ⟨.nil, rfl⟩
  | append_singleton history recording ih =>
    rw [after, List.foldl_append, List.flatMap_append, List.flatMap_singleton]
    exact ih.record recording

/-! ## Keys -/

/-- Among tables of different names, a key denotes what is found under it. -/
lemma denotes_find {tables : Tables} (differ : NamesDiffer tables.toList) (key : String) :
    Denotes tables.toList key (tables.find? key) := by
  rw [find?]
  cases byAlias : tables.toList.find? (·.aliasName.any (sameName · key)) with
  | some table =>
    obtain ⟨isAlias, front, back, split, others⟩ := List.find?_eq_some_iff_append.1 byAlias
    refine .inl ⟨front, back, split, Table.isAlias_iff.2 isAlias, fun earlier mem found => ?_⟩
    have isOther := others earlier mem
    rw [Table.isAlias_iff.1 found] at isOther
    cases isOther
  | none =>
    have noAlias (entry : Table) (mem : entry ∈ tables.toList) : ¬ entry.IsAlias key := fun found =>
      List.find?_eq_none.1 byAlias entry mem (Table.isAlias_iff.1 found)
    rw [Option.none_or]
    cases byName : tables.toList.find? (sameName ·.name key) with
    | some table =>
      have mem := List.mem_of_find?_eq_some byName
      have own := List.find?_some byName
      refine .inr ⟨noAlias, mem, own, fun entry isEntry same => ?_⟩
      by_contra apart
      exact Bool.eq_false_iff.1 (differ.forall isEntry mem apart)
        (sameName_trans same (sameName_symm own))
    | none =>
      exact fun entry mem =>
        ⟨noAlias entry mem, Bool.eq_false_iff.2 (List.find?_eq_none.1 byName entry mem)⟩

/-- **What is kept of a history of recordings**, in which tables are added and collections of tables are
taken over, in any order: no two tables have the same name; they are the tables that were given before any
other of their name, in the order in which they were given; and under a key the first table is found of
which it is the alias, or else the one of which it is the name, or else none.

**Proof sketch.** Induction on the history from its last recording: taking over a collection adds its tables
one by one, and adding a table changes nothing if its name is there already, and else puts it last. Under a
key the aliases are looked at first, and of a name there is one table at most. -/
theorem firstNamed_kept_and_found (history : List Recording) :
    NamesDiffer (after history).toList ∧
    (after history).toList = firstNamed (history.flatMap Recording.given) ∧
    ∀ key, Denotes (after history).toList key ((after history).find? key) :=
  have records := records_after history
  ⟨records.differ, records.entries, denotes_find records.differ⟩

/-- A collection is taken over between two tables. The name `T` is kept as it was given first, and `o` is an
alias before it is a name. -/
example :
    let tables :=
      after [.add ⟨"T", some "o"⟩, .extend ⟨[⟨"o", none⟩, ⟨"t", some "x"⟩]⟩, .add ⟨"O", none⟩]
    tables.toList = [⟨"T", some "o"⟩, ⟨"o", none⟩] ∧ tables.find? "O" = some ⟨"T", some "o"⟩ ∧
      tables.find? "x" = none := by decide

end Tables

end SqlRouting
