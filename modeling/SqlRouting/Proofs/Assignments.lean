import SqlRouting.Proofs.Values

/-!
# Assignments in place of rows

In some dialects an insertion may assign to columns instead of having rows of values. The assignments
replace whatever was found for the columns before: the columns, the column for a generated key, and the
edits that add them. Together they make one row.

A name in an assignment is freed of its quotation marks when it is read as a token, and once more when
it is taken for a column. So the column has the name that is assigned to only if this has no quotation
mark of its own.

## Main definitions

* `SqlRouting.Grammar.AssignmentsRead` — the assignments that a text writes.

## Main results

* `SqlRouting.InsertStatement.assignments_read` — what an insertion keeps of its assignments.
* `SqlRouting.InsertStatement.assigned_name_changed` — a name with a quotation mark is changed.
-/

set_option autoImplicit false

namespace SqlRouting

open TokenStream SqlRouting.Parser

/-- A text without quotation marks is left as it is where these are taken off. -/
lemma Text.unquoted_eq_iff {text : String} :
    unquoted text = text ↔ ∀ c ∈ text.toList, isQuotationMark c = false := by
  rw [← String.toList_inj, unquoted, String.toList_ofList, List.filter_eq_self]
  simp

namespace Grammar

variable {env : Environment} {rules : ShardingRule} {text table : String} {s s' : ParserState}

/-- The assignments that the tokens `list` of a text write, where the tokens `front` come before them
and `place` is that of the word in front, and what an insertion keeps of them. -/
structure AssignmentsRead (env : Environment) (text : String) (insertion : InsertStatement)
    (front list : List Token) (place : Nat) (settings : List Setting) : Prop where
  /-- The assignments stand one after the other, with commas between. -/
  written : Separated (SettingTokens text) (placeholders front) list settings
  /-- The columns are those that are assigned to, and no others. -/
  columns : insertion.columns = settings.map (Setting.column (insertion.tableName?.getD ""))
  /-- No column for a generated key is added. -/
  noKey : insertion.generatedKey = none
  /-- Nothing is added to the text, and the values are marked as assignments. -/
  additions : Edit.additions insertion.context.edits = [.insertValues place .set]
  /-- The conditions are those that the values set, in their order. -/
  conditions : ExactlyAssigned env.rules
    (settings.map (Setting.pair (insertion.tableName?.getD ""))) insertion.context.conditions
  /-- There is one row, which has the indices of the placeholders among the tokens. -/
  row : ∃ row, insertion.rows = [row] ∧ row.form = .set ∧
    row.placeholders = List.range' (placeholders front) (placeholders list) ∧
    ∀ rank, rank ∈ row.placeholders ↔ ∃ left token right, list = left ++ token :: right ∧
      token.kind = .symbol .question ∧ rank = placeholders (front ++ left)

/-- Assignments that are read are kept with their columns, conditions and placeholders. -/
lemma assignmentsRead_of_separated {insertion : InsertStatement} {front list : List Token}
    {place : Nat} {settings : List Setting}
    (written : Separated (SettingTokens text) (placeholders front) list settings)
    (columns : insertion.columns = settings.map (Setting.column (insertion.tableName?.getD "")))
    (noKey : insertion.generatedKey = none)
    (additions : Edit.additions insertion.context.edits = [.insertValues place .set])
    (conditions : insertion.context.conditions =
      (settings.map (Setting.pair (insertion.tableName?.getD ""))).filterMap (givenCondition? env.rules))
    (row : ∃ span, insertion.rows = [⟨.set, ranks (placeholders front) list, span⟩]) :
    AssignmentsRead env text insertion front list place settings where
  written := written
  columns := columns
  noKey := noKey
  additions := additions
  conditions := by
    rw [conditions]
    refine exactlyAssigned_filterMap text fun pair mem => ?_
    obtain ⟨setting, isSetting, rfl⟩ := List.mem_map.1 mem
    obtain ⟨_, part, _, -, isWritten⟩ := written.located setting isSetting
    cases isWritten with
    | intro isName isSign isValue => exact isValue.reads
  row := by
    obtain ⟨span, rows⟩ := row
    refine ⟨_, rows, rfl, ranks_eq_range _ _, fun rank => ?_⟩
    rw [mem_ranks]
    simp only [placeholders_append]

/-- The columns that are assigned to have the names of the assignments exactly if these have no
quotation marks. -/
lemma column_eq_iff (table : String) (settings : List Setting) :
    settings.map (Setting.column table) = settings.map (fun setting => ⟨setting.name, table⟩) ↔
      ∀ setting ∈ settings, ∀ c ∈ setting.name.toList, Text.isQuotationMark c = false := by
  rw [List.map_inj_left]
  refine forall₂_congr fun setting _ => ?_
  rw [Setting.column, namedColumn, Column.mk.injEq, Text.unquoted_eq_iff, and_iff_left rfl]

namespace InsertSteps

variable {insertion : InsertStatement} {last : ParserState}

/-- Without a row of values there are none. -/
lemma no_rows (steps : InsertSteps env text insertion last)
    (sets : ∀ row ∈ insertion.rows, row.form = .set) :
    steps.rows = [] ∧ steps.listed = steps.valued := by
  obtain ⟨-, inTable⟩ := targetColumns_reads steps.columns
  rcases valueRows_read [] inTable steps.values with missing | present
  · exact missing
  · obtain ⟨word, list, reads, -, isList, rows, -⟩ := present
    cases reads with
    | nil => cases isList
    | cons read others =>
      obtain ⟨_, part, _, -, isRow, -⟩ := isList.located read List.mem_cons_self
      have isSet : read.row.form = .set := sets _ (by rw [steps.rows_eq, rows]; simp)
      cases isRow with
      | values inTable opens listed closes => cases isSet
      | set isWord known assigned => cases known

end InsertSteps

end Grammar

/-! ## Accepted insertions -/

namespace InsertStatement

open Grammar

/-- An accepted insertion that has assignments alone has them after a word of its dialect, and they
replace the columns found before. Its columns are those that are assigned to, its conditions are exactly
those of the values that are assigned to sharding columns, nothing is added to its text, and it has one
row, with the indices of all placeholders of the assignments. The columns have the names as they are
assigned to exactly if no name has a quotation mark.

**Proof sketch.** The insertion is read in its parts, and has no rows of values. The word of the assignments
makes it forget the columns that were found, with the key and the edits for them, and keep its mark. Each
assignment of the list is a name, a sign and a value, so the columns, the conditions and the ranks are read
off one by one. A name loses its quotation marks where it is taken for a column, and nothing else. -/
theorem assignments_read {env : Environment} {text : String} {insertion : InsertStatement}
    (success : Statement.ofText env text = .ok (.insert insertion))
    (sets : ∀ row ∈ insertion.rows, row.form = .set) :
    ∃ head given word list tail settings,
      Lexer.tokens text = head ++ given ++ word :: (list ++ tail) ∧
      HeadTokens text head (insertion.tableName?.getD "") ∧
      (∃ stop target added, TargetRead env text (insertion.tableName?.getD "") (placeholders head) stop
        given target added) ∧
      (∃ keyword ∈ env.dialect.insertKeywords, word.kind = .keyword keyword) ∧ NoComma tail ∧
      AssignmentsRead env text insertion (head ++ given ++ [word]) list word.span.start settings ∧
      (insertion.columns = settings.map (fun setting => ⟨setting.name, insertion.tableName?.getD ""⟩) ↔
        ∀ setting ∈ settings, ∀ c ∈ setting.name.toList, Text.isQuotationMark c = false) := by
  obtain ⟨last, ⟨steps⟩, -⟩ := insertion_steps success
  obtain ⟨head, given, added, isHead, target, split, source, counted, start⟩ := steps.front_read
  obtain ⟨noRows, listed⟩ := steps.no_rows sets
  rcases assignments_lists steps.assignments with ⟨noSettings, -⟩ | present
  · exact absurd (by rw [noRows, noSettings]; rfl) steps.nonempty
  obtain ⟨word, init, final, keyword, settings, isWord, place, known, isList, assigned, run, stops,
    recorded⟩ := present
  rw [listed] at place isList assigned run recorded
  rw [source] at isList
  have kept : ⟨insertion.columns, insertion.generatedKey⟩ =
      Target.mk (settings.map (Setting.column steps.tableName)) none := by
    rw [steps.target_eq, assigned]
    rfl
  have columns : insertion.columns = settings.map (Setting.column steps.tableName) :=
    congrArg Target.columns kept
  have plain : word.kind ≠ .symbol .question := by simp [isWord]
  have frontCount : placeholders (head ++ given ++ [word]) = steps.valued.context.parameters := by
    rw [counted, placeholders_append, placeholders_cons_of_ne plain, placeholders_nil, Nat.add_zero]
  rw [steps.tableName_eq]
  refine ⟨head, given, word, init ++ [final], steps.assigned.stream.ahead, settings, ?_, isHead,
    ⟨_, _, added, target⟩, ⟨keyword, known, isWord⟩, stops,
    assignmentsRead_of_separated ?_ ?_ ?_ ?_ ?_ ⟨⟨word.span.stop, final.span.stop⟩, ?_⟩, ?_⟩
  · rw [split, run.ahead_eq]
    rfl
  · rwa [frontCount]
  · rw [columns, steps.tableName_eq]
  · exact congrArg Target.generatedKey kept
  · obtain ⟨_, _, -, -, additions⟩ := steps.additions_eq
    rw [additions, if_pos (by rw [assigned]; rfl), place]
    rfl
  · rw [steps.conditions_eq, recorded, start, List.nil_append, steps.tableName_eq]
    rfl
  · rw [steps.rows_eq, noRows, assigned, frontCount]
    rfl
  · rw [columns]
    exact column_eq_iff _ _

/-- Assignments behind a list of columns replace the list and the key that it leaves out. -/
theorem assignments_read_replacing : ∃ (env : Environment) (text : String) (insertion : InsertStatement),
    Statement.ofText env text = .ok (.insert insertion) ∧
      insertion.columns = [⟨"a", "t"⟩, ⟨"b", "t"⟩, ⟨"c", "t"⟩] ∧
      insertion.context.conditions =
        [.equal ⟨"a", "t"⟩ (.placeholder 0), .equal ⟨"b", "t"⟩ (.number "-2")] ∧
      insertion.rows.map (fun row => (row.form, row.placeholders)) = [(.set, [0, 1])] ∧
      ∃ front list place settings, AssignmentsRead env text insertion front list place settings := by
  let env : Environment :=
    { rules :=
        ⟨[{ table := "t", shardingColumns := ["a", "b"], generateKeyColumn := some "id" }]⟩
      dialect := .mysql }
  let text := "INSERT INTO t (d) SET a = ?, t.b = -2, `c` = f(?)"
  have seen : (insertion? env text).map (fun insertion => (insertion.columns,
      insertion.context.conditions, insertion.rows.map (fun row => (row.form, row.placeholders)))) =
      some ([⟨"a", "t"⟩, ⟨"b", "t"⟩, ⟨"c", "t"⟩],
        [.equal ⟨"a", "t"⟩ (.placeholder 0), .equal ⟨"b", "t"⟩ (.number "-2")],
        [(.set, [0, 1])]) := by decide +kernel
  obtain ⟨insertion, success, same⟩ := exists_of_insertion seen
  obtain ⟨columns, same⟩ := Prod.mk.inj same
  obtain ⟨conditions, rows⟩ := Prod.mk.inj same
  have forms : insertion.rows.map InsertRow.form = [.set] := by
    have first := congrArg (List.map Prod.fst) rows
    rwa [List.map_map] at first
  have sets : ∀ row ∈ insertion.rows, row.form = .set := by
    intro row mem
    have isForm := List.mem_map_of_mem (f := InsertRow.form) mem
    rw [forms] at isForm
    exact List.mem_singleton.1 isForm
  obtain ⟨head, given, word, list, tail, settings, -, -, -, -, -, read, -⟩ :=
    assignments_read success sets
  exact ⟨env, text, insertion, success, columns, conditions, rows, _, list, _, settings, read⟩

/-- A column is assigned to by a name with a quotation mark, which is taken off: another column is
assigned to, and a condition is set on this one. -/
theorem assigned_name_changed : ∃ (env : Environment) (text : String) (insertion : InsertStatement)
    (front left right : List Token) (sign : Token),
    Statement.ofText env text = .ok (.insert insertion) ∧
      Lexer.tokens text = front ++ (left ++ sign :: right) ∧
      ColumnNamed text (placeholders front) left "a'b" ∧ sign.kind = .symbol .eq ∧
      insertion.columns = [⟨"ab", "t"⟩] ∧
      insertion.context.conditions = [.equal ⟨"ab", "t"⟩ (.number "1")] := by
  let env : Environment :=
    { rules := ⟨[{ table := "t", shardingColumns := ["ab"] }]⟩, dialect := .mysql }
  let text := "INSERT INTO t SET `a'b` = 1"
  have seen : (insertion? env text).map (fun insertion =>
      (insertion.columns, insertion.context.conditions)) =
      some ([⟨"ab", "t"⟩], [.equal ⟨"ab", "t"⟩ (.number "1")]) := by decide +kernel
  obtain ⟨insertion, success, same⟩ := exists_of_insertion seen
  obtain ⟨columns, conditions⟩ := Prod.mk.inj same
  let front : List Token := [⟨.keyword .INSERT, ⟨0, 6⟩⟩, ⟨.keyword .INTO, ⟨7, 11⟩⟩,
    ⟨.identifier "t", ⟨12, 13⟩⟩, ⟨.keyword .SET, ⟨14, 17⟩⟩]
  have split : Lexer.tokens text = front ++ ([⟨.identifier "a'b", ⟨18, 23⟩⟩] ++
      ⟨.symbol .eq, ⟨24, 25⟩⟩ :: [⟨.number "1", ⟨26, 27⟩⟩]) := by decide +kernel
  exact ⟨env, text, insertion, front, _, _, _, success, split, .bare "a'b" _, rfl, columns, conditions⟩

end InsertStatement

end SqlRouting
