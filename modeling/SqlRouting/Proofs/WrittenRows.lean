import SqlRouting.Proofs.Values

/-!
# Rows as they are written

An insertion keeps neither the values of its rows nor whether it lists its columns. Both are found by
reading the insertion again in the same way, with what is kept of a row replaced by its values; the
conditions of the insertion are those of these values.

## Main definitions

* `SqlRouting.Grammar.rowValues` — reads a row and gives its values.
* `SqlRouting.InsertStatement.writtenRows?` — whether an insertion lists columns, with the values of its
  rows.

## Main results

* `SqlRouting.Grammar.InsertSteps.writtenRows_eq` — an insertion has the conditions of its written rows.
-/

set_option autoImplicit false

namespace SqlRouting

open SqlRouting.Parser

namespace Grammar

variable {env : Environment} {rules : ShardingRule} {columns : List Column} {text : String}
  {s s' : ParserState}

/-! ## Values of rows -/

/-- Reads a row of values for `columns` in the way of an insertion, and gives the values. -/
def rowValues (rules : ShardingRule) (columns : List Column) : Parser (List Expression) := do
  let _ ← acceptSymbol .leftParen
  let values ← commaSeparated (expression rules)
  let _ ← acceptSymbol .rightParen
  modifyContext (·.addConditions (rowConditions rules columns values))
  return values

/-- Reads an insertion up to its rows of values, and gives whether it lists columns, with the values of
each row. -/
def writtenRows (env : Environment) : Parser (Bool × List (List Expression)) := do
  let _ ← acceptKeyword .INSERT
  let _ ← skipKeyword [.INTO]
  tableFactor
  let lists ← checkSymbol .leftParen
  let target ← targetColumns env ((← context).tables.firstName?.getD "")
  let _ ← skipKeyword [.VALUES, .VALUE]
  return (lists, ← commaSeparated (rowValues env.rules target.columns))

/-- The values of a row are passed by a run. -/
lemma runs_rowValues : Runs Context.ConditionsOnly (rowValues rules columns) := by
  have values : Runs Context.ConditionsOnly (commaSeparated (expression rules)) :=
    runs_expression.commaSeparated.mono conditionsOnly_of_editsOnly
  refine .bind (runs_acceptSymbol (by decide)) fun _ => .bind values fun _ => ?_
  refine .bind (runs_acceptSymbol (by decide)) fun _ => .bind (runs_modifyContext ?_) fun _ => .pure _
  exact fun _ => ⟨rfl, rfl⟩

/-- A row has values, and records their conditions. -/
lemma exists_rowValues {row : InsertRow}
    (success : (valueRow rules columns).run s = .ok (row, s')) : ∃ values,
      (rowValues rules columns).run s = .ok (values, s') ∧
      s'.context.conditions = s.context.conditions ++ rowConditions rules columns values := by
  obtain ⟨opening, s₁, opened, rest⟩ := run_bind_ok.1 success
  obtain ⟨isOpening, -, rfl⟩ := run_acceptSymbol_ok.1 opened
  rw [looks_context.run_bind] at rest
  obtain ⟨values, s₂, listed, rest⟩ := run_bind_ok.1 rest
  obtain ⟨closing, s₃, closed, rest⟩ := run_bind_ok.1 rest
  obtain ⟨isClosing, -, rfl⟩ := run_acceptSymbol_ok.1 closed
  rw [run_modifyContext_bind, looks_context.run_bind, run_pure_ok] at rest
  obtain ⟨-, rfl⟩ := rest
  obtain ⟨tokens, run⟩ := runs_expression.commaSeparated.exists_run listed
  have kept : s₂.context.conditions = s.context.conditions := run.conditions_eq_of_editsOnly
  refine ⟨values, ?_, ?_⟩
  · refine run_bind_ok.2 ⟨opening, s.advance, opened, run_bind_ok.2 ⟨values, s₂, listed, ?_⟩⟩
    exact run_bind_ok.2 ⟨closing, s₂.advance, closed, rfl⟩
  · rw [← kept]
    rfl

/-- Rows have values, and record their conditions one after the other. -/
lemma exists_rowsValues {rows : List InsertRow} (h : Repeats (valueRow rules columns) s rows s') :
    ∃ lists, Repeats (rowValues rules columns) s lists s' ∧
      s'.context.conditions =
        s.context.conditions ++ lists.flatMap (rowConditions rules columns) := by
  induction h with
  | one last noComma =>
    obtain ⟨values, read, recorded⟩ := exists_rowValues last
    exact ⟨[values], .one read noComma, by rw [recorded, List.flatMap_singleton]⟩
  | @cons s s₁ s' row rows first comma rest ih =>
    obtain ⟨values, read, recorded⟩ := exists_rowValues first
    obtain ⟨lists, others, conditions⟩ := ih
    have next : s₁.advance.context.conditions = s₁.context.conditions := rfl
    refine ⟨values :: lists, .cons read comma others, ?_⟩
    rw [conditions, next, recorded, List.flatMap_cons, List.append_assoc]

end Grammar

/-! ## Insertions -/

/-- Whether the insertion that a text writes lists columns, with the values of each of its rows. -/
def InsertStatement.writtenRows? (env : Environment) (text : String) :
    Option (Bool × List (List Expression)) :=
  match (Grammar.writtenRows env).run ⟨.ofText text, {}⟩ with
  | .ok (rows, _) => some rows
  | .error _ => none

namespace Grammar.InsertSteps

variable {env : Environment} {text : String} {insertion : InsertStatement} {last : ParserState}

/-- Rows of values stand behind a word, if there are no assignments. -/
lemma rows_read (steps : InsertSteps env text insertion last) (noSettings : steps.assignment? = none) :
    steps.valued.stream.checkAnyKeyword [.VALUES, .VALUE] = true ∧
      (commaSeparated (valueRow env.rules steps.target.columns)).run steps.valued.advance =
        .ok (steps.rows, steps.listed) := by
  have values := steps.values
  rw [valueRows, run_skipKeyword_bind] at values
  split at values
  · rename_i present
    exact ⟨present, values⟩
  · obtain ⟨noRows, -⟩ := run_pure_ok.1 values
    exact absurd (by rw [← noRows, noSettings]; rfl) steps.nonempty

/-- An insertion that has rows of values alone has their conditions. -/
lemma writtenRows_eq (steps : InsertSteps env text insertion last) (noSettings : steps.assignment? = none)
    (same : steps.assigned = steps.listed) : ∃ rows,
    (commaSeparated (rowValues env.rules steps.target.columns)).run steps.valued.advance =
      .ok (rows, steps.listed) ∧
    InsertStatement.writtenRows? env text = some (steps.named.stream.check (.symbol .leftParen), rows) ∧
    insertion.context.conditions = rows.flatMap (rowConditions env.rules steps.target.columns) := by
  obtain ⟨present, read⟩ := steps.rows_read noSettings
  obtain ⟨_, inTable⟩ := targetColumns_reads steps.columns
  obtain ⟨rows, repeats, conditions⟩ :=
    exists_rowsValues (repeats_of_commaSeparated (lists_valueRow [] inTable).runs read)
  have rowsRead := commaSeparated_of_repeats runs_rowValues repeats
  obtain ⟨_, _, _, -, -, -, -, -, start⟩ := steps.front_read
  obtain ⟨into, skipped⟩ := steps.into
  refine ⟨rows, rowsRead, ?_, ?_⟩
  · have run : (writtenRows env).run ⟨.ofText text, {}⟩ =
        .ok ((steps.named.stream.check (.symbol .leftParen), rows), steps.listed) := by
      refine run_bind_ok.2 ⟨_, _, run_acceptKeyword_ok.2 ⟨steps.word, rfl, rfl⟩, ?_⟩
      refine run_bind_ok.2 ⟨into, steps.opened, skipped, ?_⟩
      refine run_bind_ok.2 ⟨(), steps.named, steps.factor, ?_⟩
      rw [(looks_checkSymbol _).run_bind, looks_context.run_bind]
      refine run_bind_ok.2 ⟨steps.target, steps.valued, steps.columns, ?_⟩
      rw [run_skipKeyword_bind, if_pos present]
      exact run_bind_ok.2 ⟨rows, steps.listed, rowsRead, rfl⟩
    rw [InsertStatement.writtenRows?, run]
  · rw [steps.conditions_eq, same, conditions, show steps.valued.advance.context.conditions = _ from start,
      List.nil_append]

end Grammar.InsertSteps

end SqlRouting
