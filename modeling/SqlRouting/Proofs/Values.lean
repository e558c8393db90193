import SqlRouting.Proofs.Parts

/-!
# Rows of values

The rows of an insertion give their values to its columns by position. So the conditions that are
recorded are those of the values that stand at the places of sharding columns, row by row, and the
bound parameters of the rows are numbered one after the other, each in the row that has it.

## Main definitions

* `SqlRouting.Grammar.ExactlyAssigned` — the conditions that giving values to columns sets.
* `SqlRouting.Grammar.ValuesRead` — the rows of values that a text writes.

## Main results

* `SqlRouting.Grammar.Separated.flatMap_ranks` — the placeholders of listed items are those of the list.
* `SqlRouting.InsertStatement.value_rows_read` — what an insertion keeps of its rows of values.
-/

set_option autoImplicit false

namespace SqlRouting

open TokenStream

namespace Grammar

variable {rules : ShardingRule} {table : String} {index : Nat} {tokens : List Token}

/-! ## Conditions -/

/-- The conditions are those that giving values to columns sets, in their order: one for each value that
sets a condition, and none for any other. -/
def ExactlyAssigned (rules : ShardingRule) (pairs : List (Column × ReadValue))
    (conditions : List RouteCondition) : Prop :=
  ∃ found : List (Option RouteCondition),
    List.Forall₂ (fun pair condition? => ∀ condition, condition? = some condition ↔
      Assigns rules pair.1 pair.2 condition) pairs found ∧
    conditions = found.filterMap id

/-- The conditions that are recorded where values are given to columns are those that this sets. -/
lemma exactlyAssigned_filterMap (source : String) {pairs : List (Column × ReadValue)}
    (written : ∀ pair ∈ pairs, Written source pair.2.index pair.2.tokens pair.2.expression.node) :
    ExactlyAssigned rules pairs (pairs.filterMap (givenCondition? rules)) := by
  refine ⟨pairs.map (givenCondition? rules), ?_, by rw [List.filterMap_map]; rfl⟩
  rw [List.forall₂_map_right_iff, List.forall₂_same]
  exact fun pair mem condition => givenCondition_iff (written pair mem)

/-! ## Placeholders -/

/-- The placeholders of listed items are numbered one after the other, if those of each item are. -/
lemma Separated.flatMap_ranks {α : Type} {item : Nat → List Token → α → Prop} {of : α → List Nat}
    {items : List α} (h : Separated item index tokens items)
    (ranked : ∀ index tokens a, item index tokens a → of a = ranks index tokens) :
    items.flatMap of = ranks index tokens := by
  induction h with
  | one first => rw [List.flatMap_singleton, ranked _ _ _ first]
  | @cons index tokens rest comma a others first isComma more ih =>
    have plain : comma.kind ≠ .symbol .question := by simp [isComma]
    rw [List.flatMap_cons, ranked _ _ _ first, ih, ranks_append, ranks_cons_of_ne plain]

/-! ## Rows -/

/-- The tokens write a row of values for some columns of `table`, where `index` placeholders come before
them. -/
def ValueRowTokens (source table : String) (columns : List Column) (index : Nat) (tokens : List Token)
    (read : ReadRow) : Prop :=
  RowTokens [] source table index tokens read ∧ read.columns = columns

/-- The rows of values that the tokens `list` of a text write, where the tokens `front` come before
them, and what an insertion keeps of the rows. -/
structure ValuesRead (env : Environment) (text : String) (insertion : InsertStatement)
    (front list : List Token) (reads : List ReadRow) : Prop where
  /-- The rows stand one after the other, with commas between. -/
  written : Separated (ValueRowTokens text (insertion.tableName?.getD "") insertion.columns)
    (placeholders front) list reads
  /-- The rows are kept in their order. -/
  rows : insertion.rows = reads.map ReadRow.row
  /-- The conditions are those that giving each value to the column at its place sets, row by row. -/
  conditions : ExactlyAssigned env.rules
    (reads.flatMap fun read => insertion.columns.zip read.values) insertion.context.conditions
  /-- A row has the indices of the placeholders among its tokens. -/
  owned : ∀ read ∈ reads, ∃ before part after, list = before ++ part ++ after ∧
    ValueRowTokens text (insertion.tableName?.getD "") insertion.columns
      (placeholders (front ++ before)) part read ∧
    ∀ rank, rank ∈ read.row.placeholders ↔ ∃ left token right, part = left ++ token :: right ∧
      token.kind = .symbol .question ∧ rank = placeholders (front ++ before ++ left)
  /-- The indices of all rows are an interval, with one index for each placeholder among the tokens. -/
  interval : insertion.rows.flatMap InsertRow.placeholders =
    List.range' (placeholders front) (placeholders list)

/-- The rows of values that are read are kept with their conditions and placeholders.

**Proof sketch.** The conditions of each row are those of its values with the columns of the insertion,
and each condition that is recorded is the one that giving the value sets. The placeholders of each row
are numbered from those before it on, so those of all rows are numbered one after the other. -/
lemma valuesRead_of_separated {env : Environment} {text : String} {insertion : InsertStatement}
    {front list : List Token} {reads : List ReadRow}
    (written : Separated (ValueRowTokens text (insertion.tableName?.getD "") insertion.columns)
      (placeholders front) list reads)
    (rows : insertion.rows = reads.map ReadRow.row)
    (conditions : insertion.context.conditions = reads.flatMap (ReadRow.conditions env.rules)) :
    ValuesRead env text insertion front list reads where
  written := written
  rows := rows
  conditions := by
    have same : insertion.context.conditions =
        (reads.flatMap fun read => insertion.columns.zip read.values).filterMap
          (givenCondition? env.rules) := by
      rw [conditions, List.filterMap_flatMap]
      refine List.flatMap_congr fun read mem => ?_
      obtain ⟨_, part, _, -, isRow, columns⟩ := written.located read mem
      rw [ReadRow.conditions, rowConditions_eq, columns]
    rw [same]
    refine exactlyAssigned_filterMap text fun pair mem => ?_
    obtain ⟨read, isRead, isPair⟩ := List.mem_flatMap.1 mem
    obtain ⟨_, part, _, -, isRow, -⟩ := written.located read isRead
    exact isRow.reads (List.of_mem_zip isPair).2
  owned := by
    intro read mem
    obtain ⟨before, part, after, split, isRow⟩ := written.located read mem
    rw [← placeholders_append] at isRow
    refine ⟨before, part, after, split, isRow, fun rank => ?_⟩
    rw [isRow.1.placeholders_eq, mem_ranks]
    simp only [placeholders_append]
  interval := by
    rw [rows, List.flatMap_map, written.flatMap_ranks, ranks_eq_range]
    exact fun index tokens read isRow => isRow.1.placeholders_eq

/-- Without a row of assignments there are none. -/
lemma InsertSteps.no_assignments {env : Environment} {text : String} {insertion : InsertStatement}
    {last : ParserState} (steps : InsertSteps env text insertion last)
    (values : ∀ row ∈ insertion.rows, row.form = .values) :
    steps.assignment? = none ∧ steps.assigned = steps.listed := by
  rcases assignments_lists steps.assignments with missing | present
  · exact missing
  · obtain ⟨word, front, last, keyword, settings, -, -, -, -, same, -⟩ := present
    have rows := steps.rows_eq
    rw [same, Option.map_some, Option.toList_some] at rows
    have isValues := values _ (by rw [rows]; exact List.mem_append_right _ List.mem_cons_self)
    cases isValues

end Grammar

/-! ## Accepted insertions -/

namespace InsertStatement

open Grammar

/-- An accepted insertion that has rows of values alone has them after a word, up to where no comma goes
on, behind its columns: those that are listed, or else those that are known of the table with the column
for a generated key, or none. Its conditions are exactly those of the values at the places of sharding
columns, row by row; it keeps one row for each one that is written; and the indices of the bound
parameters of all rows are one interval, where each row has the indices of its own placeholders.

**Proof sketch.** The insertion is read in its parts, and has no assignments, because these would make a row
of another form. The rows are a list with commas between, and what is said of it is said of one row and goes
on by induction on the list: its values stand one after the other, each with the count of the placeholders
before it, so the ranks of the rows follow each other without a gap. -/
theorem value_rows_read {env : Environment} {text : String} {insertion : InsertStatement}
    (success : Statement.ofText env text = .ok (.insert insertion))
    (values : ∀ row ∈ insertion.rows, row.form = .values) :
    ∃ head given word list tail reads,
      Lexer.tokens text = head ++ given ++ word :: (list ++ tail) ∧
      HeadTokens text head (insertion.tableName?.getD "") ∧
      (∃ stop added, TargetRead env text (insertion.tableName?.getD "") (placeholders head) stop given
        ⟨insertion.columns, insertion.generatedKey⟩ added) ∧
      (word.kind = .keyword .VALUES ∨ word.kind = .keyword .VALUE) ∧ NoComma tail ∧
      ValuesRead env text insertion (head ++ given ++ [word]) list reads := by
  obtain ⟨last, ⟨steps⟩, -⟩ := insertion_steps success
  obtain ⟨head, given, added, isHead, target, split, source, counted, start⟩ := steps.front_read
  obtain ⟨noSettings, assigned⟩ := steps.no_assignments values
  obtain ⟨-, inTable⟩ := targetColumns_reads steps.columns
  rcases valueRows_read [] inTable steps.values with ⟨noRows, -⟩ | present
  · exact absurd (by rw [noRows, noSettings]; rfl) steps.nonempty
  obtain ⟨word, list, reads, isWord, isList, rows, run, stops, recorded⟩ := present
  have kept : ⟨insertion.columns, insertion.generatedKey⟩ = steps.target := by
    rw [steps.target_eq, noSettings]
    rfl
  have columns : insertion.columns = steps.target.columns := congrArg Target.columns kept
  have plain : word.kind ≠ .symbol .question := by rcases isWord with same | same <;> simp [same]
  have frontCount : placeholders (head ++ given ++ [word]) = steps.valued.context.parameters := by
    rw [counted, placeholders_append, placeholders_cons_of_ne plain, placeholders_nil, Nat.add_zero]
  rw [source] at isList
  rw [steps.tableName_eq, kept]
  refine ⟨head, given, word, list, steps.listed.stream.ahead, reads, ?_, isHead, ⟨_, added, target⟩,
    isWord, stops, valuesRead_of_separated ?_ ?_ ?_⟩
  · rw [split, run.ahead_eq]
    rfl
  · rw [frontCount, steps.tableName_eq, columns]
    exact isList
  · rw [steps.rows_eq, noSettings, rows]
    exact List.append_nil _
  · rw [steps.conditions_eq, assigned, recorded, start, List.nil_append]

/-- Two rows for a list of columns without the key: the value that is computed from a placeholder sets no
condition, but its placeholder is one of the row. -/
theorem value_rows_read_two : ∃ (env : Environment) (text : String) (insertion : InsertStatement),
    Statement.ofText env text = .ok (.insert insertion) ∧
      insertion.context.conditions = [.equal ⟨"a", "t"⟩ (.number "1"),
        .equal ⟨"b", "t"⟩ (.placeholder 0), .equal ⟨"b", "t"⟩ (.number "-2")] ∧
      insertion.rows.map (fun row => (row.form, row.placeholders)) =
        [(.values, [0]), (.values, [1, 2])] ∧
      insertion.generatedKey = some "id" ∧
      ∃ front list reads, ValuesRead env text insertion front list reads := by
  let env : Environment :=
    { rules :=
        ⟨[{ table := "t", shardingColumns := ["a", "b"], generateKeyColumn := some "id" }]⟩ }
  let text := "INSERT INTO t (a, b, c) VALUES (1, ?, 'x'), (f(?), -2, ?)"
  have seen : (insertion? env text).map (fun insertion => (insertion.context.conditions,
      insertion.rows.map (fun row => (row.form, row.placeholders)), insertion.generatedKey)) =
      some ([.equal ⟨"a", "t"⟩ (.number "1"), .equal ⟨"b", "t"⟩ (.placeholder 0),
        .equal ⟨"b", "t"⟩ (.number "-2")], [(.values, [0]), (.values, [1, 2])], some "id") := by
    decide +kernel
  obtain ⟨insertion, success, same⟩ := exists_of_insertion seen
  obtain ⟨conditions, same⟩ := Prod.mk.inj same
  obtain ⟨rows, key⟩ := Prod.mk.inj same
  have forms : insertion.rows.map InsertRow.form = [.values, .values] := by
    have first := congrArg (List.map Prod.fst) rows
    rwa [List.map_map] at first
  have values : ∀ row ∈ insertion.rows, row.form = .values := by
    intro row mem
    have isForm := List.mem_map_of_mem (f := InsertRow.form) mem
    rw [forms] at isForm
    simpa using isForm
  obtain ⟨head, given, word, list, tail, reads, -, -, -, -, -, read⟩ := value_rows_read success values
  exact ⟨env, text, insertion, success, conditions, rows, key, _, list, reads, read⟩

end InsertStatement

end SqlRouting
