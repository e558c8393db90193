import SqlRouting.Proofs.Assignments

/-!
# The forms of inserted values

An insertion gives its values in rows or by assignments. The rows are read first and the assignments
behind them, and either part may be missing. In a dialect that has words for assignments, nothing keeps
both from being there: an insertion with rows of values and assignments directly behind them is
accepted. Its values are marked as assignments, at the place of the rows.

## Main definitions

* `SqlRouting.InsertStatement.SingleForm` — all values of an insertion are given in the same way.
* `SqlRouting.Grammar.ValuesPart`, `SqlRouting.Grammar.SetPart` — the tokens of the two parts.

## Main results

* `SqlRouting.InsertStatement.singleForm_iff` — an accepted insertion has a single form exactly if one
  of the parts is missing.
* `SqlRouting.InsertStatement.rows_then_assignments` — an accepted insertion with both parts.
-/

set_option autoImplicit false

namespace SqlRouting

open TokenStream SqlRouting.Parser

/-! ## Forms and marks -/

/-- The edits of an insertion that mark where its values start. -/
def InsertStatement.valueMarks (insertion : InsertStatement) : List Edit :=
  insertion.context.edits.filter (·.kind == .insertValues)

/-- All values of an insertion are given in the same way, which its one mark says: in rows of values,
which start with a word for values, or in one row of assignments, which start with a word of the
dialect. -/
inductive InsertStatement.SingleForm (env : Environment) (text : String) (insertion : InsertStatement) :
    Prop
  /-- Rows of values. -/
  | values {place : Nat} {word : Token} (rows : ∀ row ∈ insertion.rows, row.form = .values)
      (mark : insertion.valueMarks = [.insertValues place .values])
      (mem : word ∈ Lexer.tokens text) (starts : word.span.start = place)
      (isWord : word.kind = .keyword .VALUES ∨ word.kind = .keyword .VALUE)
  /-- One row of assignments. -/
  | set {place : Nat} {word : Token} {row : InsertRow} {keyword : Keyword}
      (rows : insertion.rows = [row]) (form : row.form = .set)
      (mark : insertion.valueMarks = [.insertValues place .set])
      (mem : word ∈ Lexer.tokens text) (starts : word.span.start = place)
      (isWord : word.kind = .keyword keyword) (known : keyword ∈ env.dialect.insertKeywords)

namespace Grammar

variable {env : Environment} {text : String}

/-- The mark of inserted values is the only one of its kind among what is added with the columns. -/
lemma TargetRead.marks {source table : String} {index stop place : Nat} {tokens : List Token}
    {target : Target} {added : List Edit} {form : InsertForm}
    (read : TargetRead env source table index stop tokens target added) :
    (added ++ [Edit.insertValues place form]).filter (·.kind == .insertValues) =
      [.insertValues place form] := by
  cases read with
  | @listed _ _ _ names opens isList closes =>
    cases missingKey? env.rules table (names.map Text.unquoted) <;> rfl
  | known isKnown => rfl
  | unknown noColumns => rfl

/-! ## The parts of the values -/

/-- The tokens write rows of values for some columns of `table` after a word for values, or nothing,
where `index` placeholders come before them. -/
inductive ValuesPart (source table : String) (columns : List Column) (index : Nat) :
    List Token → List ReadRow → Prop
  /-- Nothing. -/
  | missing : ValuesPart source table columns index [] []
  /-- A word with rows of values behind it. -/
  | rows {word : Token} {list : List Token} {reads : List ReadRow}
      (isWord : word.kind = .keyword .VALUES ∨ word.kind = .keyword .VALUE)
      (isList : Separated (ValueRowTokens source table columns) index list reads) :
      ValuesPart source table columns index (word :: list) reads

/-- The tokens write assignments after a word out of `keywords`, or nothing, where `index` placeholders
come before them. -/
inductive SetPart (keywords : List Keyword) (source : String) (index : Nat) :
    List Token → List Setting → Prop
  /-- Nothing. -/
  | missing : SetPart keywords source index [] []
  /-- A word with assignments behind it. -/
  | assignments {word : Token} {list : List Token} {settings : List Setting} {keyword : Keyword}
      (isWord : word.kind = .keyword keyword) (known : keyword ∈ keywords)
      (isList : Separated (SettingTokens source) index list settings) :
      SetPart keywords source index (word :: list) settings

/-- The rows and the assignments that an insertion is read from, and the forms and the mark that it
keeps of them. -/
structure ValueSection (env : Environment) (text table : String) (insertion : InsertStatement)
    (columns : List Column) (front values sets : List Token) (reads : List ReadRow)
    (settings : List Setting) : Prop where
  /-- The rows of values. -/
  rowsPart : ValuesPart text table columns (placeholders front) values reads
  /-- The assignments behind them. -/
  setPart : SetPart env.dialect.insertKeywords text (placeholders (front ++ values)) sets settings
  /-- There is a row for each that is written, and one more for all assignments. -/
  forms : insertion.rows.map InsertRow.form =
    List.replicate reads.length .values ++ if sets = [] then [] else [.set]
  /-- There is one mark, at the first word of the parts, with the form of the part that is read
  last. -/
  mark : ∃ word ∈ (values ++ sets).head?, insertion.valueMarks =
    [.insertValues word.span.start (if sets = [] then .values else .set)]

namespace ValueSection

variable {table : String} {insertion : InsertStatement} {columns : List Column}
  {front values sets : List Token} {reads : List ReadRow} {settings : List Setting}

/-- Rows are kept exactly if some are written. -/
lemma reads_eq_nil_iff (h : ValueSection env text table insertion columns front values sets reads settings) :
    reads = [] ↔ values = [] := by
  cases h.rowsPart with
  | missing => exact ⟨fun _ => rfl, fun _ => rfl⟩
  | rows isWord isList => cases isList <;> simp

/-- The values have a single form exactly if a part is missing.

**Proof sketch.** The mark is at the first word of the part that is there, and has its form. With both
parts there are rows of both forms, of which a single form has no two. -/
lemma single_iff {before after : List Token}
    (h : ValueSection env text table insertion columns front values sets reads settings)
    (split : Lexer.tokens text = before ++ (values ++ sets) ++ after) :
    insertion.SingleForm env text ↔ values = [] ∨ sets = [] := by
  obtain ⟨word, isFirst, mark⟩ := h.mark
  obtain ⟨rest, whole⟩ := List.head?_eq_some_iff.1 isFirst
  have mem : word ∈ Lexer.tokens text := by simp [split, whole]
  have forms := h.forms
  constructor
  · intro single
    by_contra both
    obtain ⟨someValues, someSets⟩ := not_or.1 both
    obtain ⟨first, others, rfl⟩ :=
      List.exists_cons_of_ne_nil (fun noReads => someValues (h.reads_eq_nil_iff.1 noReads))
    rw [if_neg someSets] at forms
    cases single with
    | values rows =>
      have isSet : InsertForm.set ∈ insertion.rows.map InsertRow.form := by simp [forms]
      obtain ⟨row, isRow, same⟩ := List.mem_map.1 isSet
      exact absurd ((rows row isRow).symm.trans same) (by decide)
    | set rows =>
      have count := congrArg List.length forms
      simp [rows] at count
  · intro missing
    rcases missing with rfl | rfl
    · obtain rfl := h.reads_eq_nil_iff.2 rfl
      rw [List.nil_append] at isFirst
      cases sets with
      | nil => cases isFirst
      | cons first others =>
        obtain rfl := Option.some.inj isFirst
        cases h.setPart with
        | assignments isWord known isList =>
          obtain ⟨row, rows, form⟩ := List.map_eq_singleton_iff.1 forms
          exact .set rows form mark mem rfl isWord known
    · rw [List.append_nil] at isFirst
      cases values with
      | nil => cases isFirst
      | cons first others =>
        obtain rfl := Option.some.inj isFirst
        cases h.rowsPart with
        | rows isWord isList =>
          refine .values (fun row isRow => ?_) mark mem rfl isWord
          have isForm := List.mem_map_of_mem (f := InsertRow.form) isRow
          rw [forms, if_pos rfl, List.append_nil] at isForm
          exact List.eq_of_mem_replicate isForm

end ValueSection

namespace InsertSteps

variable {insertion : InsertStatement} {last : ParserState}

/-- What an insertion marks as its values. -/
lemma valueMarks_eq (steps : InsertSteps env text insertion last) : insertion.valueMarks =
    [.insertValues steps.place (if steps.assignment?.isSome then .set else .values)] := by
  obtain ⟨tokens, added, read, -, additions⟩ := steps.additions_eq
  have marks : insertion.valueMarks =
      (Edit.additions insertion.context.edits).filter (·.kind == .insertValues) := by
    rw [InsertStatement.valueMarks, Edit.additions, List.filter_filter]
    congr 1
    funext edit
    cases edit <;> rfl
  rw [marks, additions]
  split
  · rfl
  · exact read.marks

/-- The rows of an insertion are read from their part of the values, one row from each. -/
lemma exists_rowsPart (steps : InsertSteps env text insertion last) {front : List Token}
    (source : steps.valued.stream.source = text)
    (counted : steps.valued.context.parameters = placeholders front) : ∃ values reads,
      ValuesPart text steps.tableName steps.target.columns (placeholders front) values reads ∧
      steps.rows.map InsertRow.form = List.replicate reads.length .values ∧
      Run Context.ConditionsOnly steps.valued values steps.listed := by
  obtain ⟨-, inTable⟩ := targetColumns_reads steps.columns
  rcases valueRows_read [] inTable steps.values with ⟨noRows, same⟩ | present
  · exact ⟨[], [], .missing, by rw [noRows]; rfl, same ▸ .refl _⟩
  · obtain ⟨word, list, reads, isWord, isList, rows, run, -, -⟩ := present
    rw [source, counted] at isList
    refine ⟨word :: list, reads, .rows isWord isList, ?_, run⟩
    rw [rows, List.map_map]
    refine List.eq_replicate_iff.2 ⟨List.length_map _, fun form mem => ?_⟩
    obtain ⟨read, isRead, rfl⟩ := List.mem_map.1 mem
    obtain ⟨_, part, _, -, isRow, -⟩ := isList.located read isRead
    cases isRow with
    | values => rfl
    | set isWord known assigned => cases known

/-- The assignments of an insertion are read from their part of the values, and make one row. -/
lemma exists_setPart (steps : InsertSteps env text insertion last) {front : List Token}
    (source : steps.listed.stream.source = text)
    (counted : steps.listed.context.parameters = placeholders front) : ∃ sets settings,
      SetPart env.dialect.insertKeywords text (placeholders front) sets settings ∧
      ((steps.assignment?.map (·.2)).toList.map InsertRow.form = if sets = [] then [] else [.set]) ∧
      (steps.assignment?.isSome ↔ sets ≠ []) ∧
      Run Context.ConditionsOnly steps.listed sets steps.assigned := by
  rcases assignments_lists steps.assignments with ⟨noSettings, same⟩ | present
  · exact ⟨[], [], .missing, by rw [noSettings]; rfl, by simp [noSettings], same ▸ .refl _⟩
  · obtain ⟨word, init, final, keyword, settings, isWord, -, known, isList, assigned, run, -, -⟩ :=
      present
    rw [source, counted] at isList
    exact ⟨word :: (init ++ [final]), settings, .assignments isWord known isList,
      by rw [assigned]; rfl, by simp [assigned], run⟩

/-- The values of an insertion are read in their parts, in front of which the table and the columns
stand.

**Proof sketch.** The rows are read from the state behind the columns, which is also where the mark is
put. If there are none, the assignments are read from the same state. -/
lemma section_read (steps : InsertSteps env text insertion last) :
    ∃ head given values sets added reads settings,
      Lexer.tokens text = head ++ given ++ (values ++ sets) ++ steps.assigned.stream.ahead ∧
      steps.valued.stream.ahead = values ++ sets ++ steps.assigned.stream.ahead ∧
      HeadTokens text head steps.tableName ∧
      TargetRead env text steps.tableName (placeholders head) steps.named.stream.previousEnd given
        steps.target added ∧
      ValueSection env text steps.tableName insertion steps.target.columns (head ++ given) values sets
        reads settings := by
  obtain ⟨head, given, added, isHead, isTarget, split, source, counted, -⟩ := steps.front_read
  obtain ⟨values, reads, rowsPart, rowForms, rowsRun⟩ := steps.exists_rowsPart source counted
  have listed : steps.listed.context.parameters = placeholders (head ++ given ++ values) := by
    rw [rowsRun.parameters_eq_of_conditionsOnly, counted, ← placeholders_append]
  obtain ⟨sets, settings, setPart, setForms, isSet, setRun⟩ :=
    steps.exists_setPart (rowsRun.source_eq.trans source) listed
  have ahead : steps.valued.stream.ahead = values ++ sets ++ steps.assigned.stream.ahead := by
    rw [rowsRun.ahead_eq, setRun.ahead_eq, List.append_assoc]
  refine ⟨head, given, values, sets, added, reads, settings, ?_, ahead, isHead, isTarget, rowsPart,
    setPart, ?_, ?_⟩
  · rw [split, ahead, List.append_assoc _ (values ++ sets)]
  · rw [steps.rows_eq, List.map_append, rowForms, setForms]
  · have nonempty : values ++ sets ≠ [] := by
      intro empty
      obtain ⟨rfl, rfl⟩ := List.append_eq_nil_iff.1 empty
      cases rowsPart
      exact steps.nonempty (List.map_eq_nil_iff.1 (by rw [List.map_append, rowForms, setForms]; rfl))
    obtain ⟨word, rest, whole⟩ := List.exists_cons_of_ne_nil nonempty
    have place : steps.place = word.span.start := by
      rw [place, TokenStream.offset, TokenStream.current, ahead, whole]
      rfl
    refine ⟨word, by rw [whole]; rfl, ?_⟩
    rw [steps.valueMarks_eq, place]
    by_cases noSets : sets = []
    · rw [if_pos noSets, if_neg (fun present => isSet.1 present noSets)]
    · rw [if_neg noSets, if_pos (isSet.2 noSets)]

end InsertSteps

end Grammar

/-! ## Accepted insertions -/

namespace InsertStatement

open Grammar

/-- An accepted insertion has rows of values or assignments behind its columns, or both. Its rows and its
mark are those of these parts, so its values have a single form exactly if one of the parts is missing,
as it is where the dialect has no word for assignments.

**Proof sketch.** The two parts are read one after the other, either of them may be missing, and one of them
is there. A part that is there gives its rows their form, the last one gives the mark its form, and the mark
stands at the word of the first one. So with both of them there are rows of both forms. -/
theorem singleForm_iff {env : Environment} {text : String} {insertion : InsertStatement}
    (success : Statement.ofText env text = .ok (.insert insertion)) :
    ∃ head given values sets tail stop target added reads settings,
      Lexer.tokens text = head ++ given ++ (values ++ sets) ++ tail ∧
      HeadTokens text head (insertion.tableName?.getD "") ∧
      TargetRead env text (insertion.tableName?.getD "") (placeholders head) stop given target added ∧
      ValueSection env text (insertion.tableName?.getD "") insertion target.columns (head ++ given) values
        sets reads settings ∧
      (insertion.SingleForm env text ↔ values = [] ∨ sets = []) ∧
      (env.dialect.insertKeywords = [] → insertion.SingleForm env text) := by
  obtain ⟨last, ⟨steps⟩, -⟩ := insertion_steps success
  obtain ⟨head, given, values, sets, added, reads, settings, split, -, isHead, isTarget, read⟩ :=
    steps.section_read
  rw [steps.tableName_eq]
  refine ⟨head, given, values, sets, _, _, _, added, reads, settings, split, isHead, isTarget, read,
    read.single_iff split, fun noWords => (read.single_iff split).2 (.inr ?_)⟩
  cases read.setPart with
  | missing => rfl
  | assignments isWord known isList => simp [noWords] at known

/-- Two rows of values have a single form also in a dialect with words for assignments. -/
theorem singleForm_iff_two : ∃ (env : Environment) (text : String) (insertion : InsertStatement),
    env.dialect.insertKeywords ≠ [] ∧ Statement.ofText env text = .ok (.insert insertion) ∧
      insertion.rows.map InsertRow.form = [.values, .values] ∧ insertion.SingleForm env text := by
  let env : Environment := { dialect := .mysql }
  let text := "INSERT INTO t (a) VALUES (1), (2)"
  have seen : (insertion? env text).map (fun insertion => insertion.rows.map InsertRow.form) =
      some [.values, .values] := by decide +kernel
  obtain ⟨insertion, success, forms⟩ := exists_of_insertion seen
  obtain ⟨_, _, values, sets, _, _, _, _, reads, _, -, -, -, read, single, -⟩ := singleForm_iff success
  refine ⟨env, text, insertion, by decide, success, forms, single.2 (.inr ?_)⟩
  by_contra nonempty
  have mem : InsertForm.set ∈ insertion.rows.map InsertRow.form := by
    rw [read.forms, if_neg nonempty]
    simp
  simp [forms] at mem

/-- Rows of values with assignments directly behind them are accepted: the insertion has rows of both
forms, and its values are marked as assignments where the rows start. -/
theorem rows_then_assignments : ∃ (env : Environment) (text : String) (insertion : InsertStatement)
    (word : Token),
    env.dialect = .mysql ∧ Statement.ofText env text = .ok (.insert insertion) ∧
      insertion.rows.map InsertRow.form = [.values, .set] ∧
      insertion.valueMarks = [.insertValues word.span.start .set] ∧
      word ∈ Lexer.tokens text ∧ word.kind = .keyword .VALUES ∧ ¬ insertion.SingleForm env text := by
  let env : Environment := { dialect := .mysql }
  let text := "INSERT INTO t (a) VALUES (1) SET a = 2"
  have seen : (insertion? env text).map (fun insertion =>
      (insertion.rows.map InsertRow.form, insertion.valueMarks)) =
      some ([.values, .set], [.insertValues 18 .set]) := by decide +kernel
  obtain ⟨insertion, success, same⟩ := exists_of_insertion seen
  obtain ⟨forms, mark⟩ := Prod.mk.inj same
  refine ⟨env, text, insertion, ⟨.keyword .VALUES, ⟨18, 24⟩⟩, rfl, success, forms, mark,
    by decide +kernel, rfl, fun single => ?_⟩
  cases single with
  | values rows =>
    have isSet : InsertForm.set ∈ insertion.rows.map InsertRow.form := by simp [forms]
    obtain ⟨row, isRow, same⟩ := List.mem_map.1 isSet
    exact absurd ((rows row isRow).symm.trans same) (by decide)
  | set rows =>
    have count := congrArg List.length forms
    simp [rows] at count

end InsertStatement

end SqlRouting
