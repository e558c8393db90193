import SqlRouting.Proofs.ConfiguredTables
import SqlRouting.Proofs.Derivation
import SqlRouting.Proofs.Relisting

/-!
# Insertions that are settled

What an insertion adds to its text is there when the text is read again: the columns are listed, and the
column for a generated key is one of them. So nothing is added any more, and everything else is read as
before.

## Main definitions

* `SqlRouting.Grammar.Rereading` — an insertion that lists its columns and is like another behind them.
* `SqlRouting.InsertStatement.SettledBy` — an insertion that adds no columns and is else like another.
* `SqlRouting.InsertStatement.SettledIn` — a text that is accepted as an insertion like another, settled.

## Main results

* `SqlRouting.Grammar.Relisting.exists_again` — behind its columns an insertion is read again as before.
* `SqlRouting.RuleConfiguration.columns_ne_nil` — the columns that are known under built rules.
* `SqlRouting.InsertStatement.settled_once` — an accepted insertion is settled by what it adds.
-/

set_option autoImplicit false

namespace SqlRouting

open TokenStream SqlRouting.Parser

namespace Grammar

variable {env : Environment} {text grown : String} {insertion : InsertStatement} {last : ParserState}

/-! ## Insertions without assignments -/

/-- Without assignments no word for them is there. -/
lemma noKeyword_of_assignments {table : String} {s s' : ParserState}
    (success : (assignments env table).run s = .ok (none, s')) :
    s.stream.checkAnyKeyword env.dialect.insertKeywords = false ∧ s' = s := by
  rw [assignments, run_skipKeyword_bind] at success
  split at success
  · rw [if_pos rfl, looks_previousEnd.run_bind, run_modifyContext_bind, looks_context.run_bind] at success
    obtain ⟨columns, s₁, listed, rest⟩ := run_bind_ok.1 success
    rw [looks_previousEnd.run_bind, looks_context.run_bind, run_pure_ok] at rest
    cases rest.1
  · rename_i absent
    obtain ⟨-, rfl⟩ := run_pure_ok.1 success
    exact ⟨Bool.eq_false_iff.2 absent, rfl⟩

/-- An insertion without a missing key adds nothing, if its columns are listed or none are known. -/
lemma InsertSteps.additions_of_complete (steps : InsertSteps env text insertion last)
    (noAssignment : steps.assignment? = none) (complete : steps.target.generatedKey = none)
    (listed : steps.valued.stream.ahead ≠ steps.named.stream.ahead ∨
      env.metadata.columns? steps.tableName = none) :
    Edit.additions insertion.context.edits = [.insertValues steps.place .values] := by
  obtain ⟨tokens, added, read, run, additions⟩ := steps.additions_eq
  have nothing : added = [] := by
    generalize steps.target = target at read complete
    cases read with
    | listed opens isList closes =>
      rw [show missingKey? _ _ _ = none from complete]
      rfl
    | known isKnown =>
      rcases listed with moved | unknown
      · exact absurd run.ahead_eq.symm moved
      · rw [isKnown] at unknown
        cases unknown
    | unknown noColumns => rfl
  rw [additions, noAssignment, nothing]
  rfl

/-! ## Missing keys -/

section MissingKeys

variable {rules : ShardingRule} {table : String} {names : List String}

/-- With the missing key behind them, names lack none. -/
lemma missingKey_append (rules : ShardingRule) (table : String) (names : List String) :
    missingKey? rules table (names ++ (missingKey? rules table names).toList) = none := by
  unfold missingKey?
  cases isKey : rules.generateKeyColumn? table with
  | none => rfl
  | some key =>
    have parts (behind : List String) : Text.containsName (names ++ behind) key =
        (Text.containsName names key || Text.containsName behind key) := List.any_append
    have self : Text.containsName [key] key = true := by simp [Text.containsName, Text.sameName_self]
    rw [Option.filter_some, Option.filter_some, parts]
    cases contained : Text.containsName names key with
    | true => rfl
    | false => simp [self]

/-- Names that lack no key contain it. -/
lemma containsName_of_missingKey {key : String} (complete : missingKey? rules table names = none)
    (isKey : rules.generateKeyColumn? table = some key) : Text.containsName names key = true := by
  rw [missingKey?, isKey] at complete
  simpa using complete

end MissingKeys

/-! ## Conditions of rows -/

section Conditions

variable {rules : ShardingRule} {columns : List Column}

/-- Columns behind those that values are given to add no conditions. -/
lemma rowConditions_append {values : List Expression} (narrow : values.length ≤ columns.length)
    (more : List Column) :
    rowConditions rules (columns ++ more) values = rowConditions rules columns values := by
  have given : (columns ++ more).zip values = columns.zip values := by
    induction columns generalizing values with
    | nil => simp [List.length_eq_zero_iff.1 (Nat.le_zero.1 narrow)]
    | cons column columns ih =>
      cases values with
      | nil => rfl
      | cons value values => exact congrArg _ (ih (Nat.le_of_succ_le_succ narrow))
  rw [rowConditions, rowConditions, given]

end Conditions

/-! ## Insertions with their columns listed -/

variable {d place : Nat} {before inserted after : List Token} {columns : List Column}

/-- The insertion `again`, which another text writes, lists the columns `listed`, lacks no key and adds
nothing. Else it is like the insertion that is read in `steps`: it has the same tables and placeholders,
and rows of the same values. -/
structure Rereading (steps : InsertSteps env text insertion last) (grown : String)
    (listed : List Column) (again : InsertStatement) : Prop where
  /-- It is accepted. -/
  accepted : Statement.ofText env grown = .ok (.insert again)
  /-- It has the columns. -/
  columns : again.columns = listed
  /-- It lacks no key. -/
  generatedKey : again.generatedKey = none
  /-- The column for a generated key is one of the columns. -/
  complete : missingKey? env.rules steps.tableName (again.columns.map Column.name) = none
  /-- The place of its values is marked, and nothing else is added. -/
  additions : ∃ place, Edit.additions again.context.edits = [.insertValues place .values]
  /-- It has the same tables. -/
  tables : again.context.tables = insertion.context.tables
  /-- It has as many placeholders. -/
  parameters : again.context.parameters = insertion.context.parameters
  /-- The same placeholders stand in its rows. -/
  placeholders : again.rows.map InsertRow.placeholders = insertion.rows.map InsertRow.placeholders
  /-- Its conditions are those of the same values for its columns. -/
  conditions : ∃ rows,
    InsertStatement.writtenRows? env text = some (steps.named.stream.check (.symbol .leftParen), rows) ∧
    insertion.context.conditions = rows.flatMap (rowConditions env.rules steps.target.columns) ∧
    again.context.conditions = rows.flatMap (rowConditions env.rules listed)

/-- Behind the columns the texts stand side by side. -/
lemma Relisting.exists_valued {steps : InsertSteps env text insertion last}
    (relisting : Relisting steps grown d columns)
    (g : Lexer.Grown text grown place d before inserted after)
    (part : ∀ token ∈ steps.valued.stream.ahead, token ∈ after)
    (word : steps.valued.stream.checkAnyKeyword [.VALUES, .VALUE] = true) : ∃ valued',
      (targetColumns env steps.tableName).run relisting.named = .ok (⟨columns, none⟩, valued') ∧
      valued'.stream.kind = steps.valued.stream.kind ∧
      Beside (Alignment.behind g) steps.valued.advance valued'.advance := by
  obtain ⟨valued', read, stream, tables, parameters⟩ := relisting.list.run relisting.complete
  have stands := relisting.stands
  obtain ⟨keyword, -, isKeyword⟩ := checkAnyKeyword_iff.1 word
  have ahead := ahead_of_kind isKeyword (by simp)
  have ahead' : valued'.stream.ahead = _ := (congrArg TokenStream.ahead stream).trans stands.ahead
  rw [ahead] at ahead' part
  -- the one text
  obtain ⟨_, _, _, -, -, -, source, -, -⟩ := steps.front_read
  obtain ⟨_, -, headRun⟩ := steps.head_read
  obtain ⟨_, _, -, targetRun, -, -⟩ := targetColumns_read steps.columns
  have length : steps.valued.stream.length = Text.byteLength text.toList :=
    targetRun.length_eq.trans headRun.length_eq
  refine ⟨valued', read, ?_, ?_⟩
  · rw [isKeyword, kind_of_ahead_cons ahead']
    rfl
  · refine Alignment.beside_behind g ahead ahead' part source ?_ length ?_ ?_ ?_
    · exact (congrArg TokenStream.source stream).trans stands.source
    · exact (congrArg TokenStream.length stream).trans stands.length
    · exact tables.trans stands.tables
    · exact parameters.trans stands.parameters

/-- Rows are read beside those of an insertion, for any columns of its table, and no word for assignments
follows them if there are none. -/
lemma InsertSteps.exists_rows (steps : InsertSteps env text insertion last)
    (g : Lexer.Grown text grown place d before inserted after)
    (noAssignment : steps.assignment? = none)
    (inTable : ∀ column ∈ columns, column.tableName = steps.tableName) {t : ParserState}
    (beside : Beside (Alignment.behind g) steps.valued.advance t) : ∃ listed',
      (commaSeparated (valueRow env.rules columns)).run t =
        .ok (steps.rows.map (InsertRow.moved d), listed') ∧
      listed'.stream.checkAnyKeyword env.dialect.insertKeywords = false ∧
      Beside (Alignment.behind g) steps.listed listed' := by
  set al := Alignment.behind g
  have noComma : firstKind al.right ≠ .symbol .comma := Alignment.noComma_behind g
  obtain ⟨_, known⟩ := targetColumns_reads steps.columns
  obtain ⟨-, rowsRead⟩ := steps.rows_read noAssignment
  have like : Echoes al (List.map (InsertRow.moved al.shift))
      (commaSeparated (valueRow env.rules steps.target.columns))
      (commaSeparated (valueRow env.rules columns)) :=
    (echoes_valueRow (Alignment.closed_behind g) noComma fun _ _ _ same => same).commaSeparated
      (lists_valueRow [] known).runs (lists_valueRow [] inTable).runs noComma
  obtain ⟨listed', rowsRead', beside'⟩ := like.echo _ _ _ _ trivial beside rowsRead List.nil_suffix
  have absent := (noKeyword_of_assignments (noAssignment ▸ steps.assignments)).1
  exact ⟨listed', rowsRead', beside'.checkAnyKeyword_eq_false absent rfl, beside'⟩

/-- What follows the rows of an insertion without assignments is read beside it, up to the end. -/
lemma InsertSteps.exists_last (steps : InsertSteps env text insertion last) {last₁ : ParserState}
    (g : Lexer.Grown text grown place d before inserted after) (same : steps.assigned = steps.listed)
    (finished : finish.run last = .ok ((), last₁)) {t : ParserState}
    (beside : Beside (Alignment.behind g) steps.listed t) : ∃ last' last₁',
      (duplicateKeyUpdate env.rules steps.tableName).run t = .ok ((), last') ∧
      finish.run last' = .ok ((), last₁') ∧ Beside (Alignment.behind g) last last' := by
  obtain ⟨last', update', besideLast⟩ := (echoes_duplicateKeyUpdate (Alignment.closed_behind g) rfl).echo
    _ _ _ _ trivial (same ▸ beside) steps.update List.nil_suffix
  obtain ⟨last₁', finished', -⟩ := (echoes_finish rfl rfl).echo _ _ _ _ trivial besideLast finished
    List.nil_suffix
  exact ⟨last', last₁', update', finished', besideLast⟩

/-- A text that lists the columns of an insertion, and goes on like it behind them, writes an insertion
that is read in parts beside those of the insertion.

**Proof sketch.** Behind the columns the parts of the insertion are read in both texts side by side, one
after the other, up to the end. There are no assignments, since no word for them is there in the one
text. -/
lemma Relisting.exists_steps {steps : InsertSteps env text insertion last} {last₁ : ParserState}
    (relisting : Relisting steps grown d columns)
    (g : Lexer.Grown text grown place d before inserted after)
    (part : ∀ token ∈ steps.valued.stream.ahead, token ∈ after)
    (noAssignment : steps.assignment? = none) (same : steps.assigned = steps.listed)
    (finished : finish.run last = .ok ((), last₁)) :
    ∃ (again : InsertStatement) (last' : ParserState) (steps' : InsertSteps env grown again last'),
      Statement.ofText env grown = .ok (.insert again) ∧ steps'.target = ⟨columns, none⟩ ∧
      steps'.assignment? = none ∧ steps'.assigned = steps'.listed ∧
      steps'.valued.stream.ahead ≠ steps'.named.stream.ahead ∧
      Beside (Alignment.behind g) steps.valued.advance steps'.valued.advance ∧
      Beside (Alignment.behind g) last last' ∧
      steps'.rows.map InsertRow.placeholders = steps.rows.map InsertRow.placeholders := by
  obtain ⟨word, -⟩ := steps.rows_read noAssignment
  obtain ⟨valued', target', kind, beside⟩ := relisting.exists_valued g part word
  have word' : valued'.stream.checkAnyKeyword [.VALUES, .VALUE] = true := by
    rw [checkAnyKeyword, kind]
    exact word
  have moved : valued'.stream.ahead ≠ relisting.named.stream.ahead := by
    obtain ⟨keyword, -, isKeyword⟩ := checkAnyKeyword_iff.1 word'
    intro still
    rw [kind_eq_firstKind, still, ← kind_eq_firstKind, relisting.list.opens] at isKeyword
    cases isKeyword
  obtain ⟨listed', rowsRead, absent, besideRows⟩ :=
    steps.exists_rows g noAssignment (targetColumns_reads target').2 beside
  obtain ⟨last', _, update, finished', besideLast⟩ := steps.exists_last g same finished besideRows
  have table' : relisting.named.context.tables.firstName?.getD "" = steps.tableName :=
    congrArg (fun tables : Tables => tables.firstName?.getD "") relisting.tables
  have nonempty : steps.rows ≠ [] := by
    intro noRows
    exact steps.nonempty (by rw [noRows, noAssignment]; rfl)
  let rows' := steps.rows.map (InsertRow.moved d)
  let steps' : InsertSteps env grown ⟨last'.context, columns, rows', none⟩ last' :=
    { opened := relisting.opened
      named := relisting.named
      valued := valued'
      listed := listed'
      assigned := listed'
      target := ⟨columns, none⟩
      rows := rows'
      assignment? := none
      word := relisting.word
      into := relisting.into
      factor := relisting.factor
      columns := table' ▸ target'
      refused := run_refuseQuery word'
      values := by
        rw [valueRows, run_skipKeyword_bind, if_pos word']
        exact rowsRead
      assignments := by
        rw [assignments, run_skipKeyword_bind, if_neg (by simp [absent])]
        rfl
      nonempty := by simpa [rows'] using nonempty
      update := table' ▸ update
      result := by simp }
  have placeholders : rows'.map InsertRow.placeholders = steps.rows.map InsertRow.placeholders := by
    rw [List.map_map]
    rfl
  exact ⟨_, last', steps', steps'.accepted finished', rfl, rfl, rfl, moved, beside, besideLast,
    placeholders⟩

/-- A text that lists the columns of an insertion, and goes on like it behind them, writes an insertion
of the same. -/
lemma Relisting.exists_again {steps : InsertSteps env text insertion last} {last₁ : ParserState}
    (relisting : Relisting steps grown d columns)
    (g : Lexer.Grown text grown place d before inserted after)
    (part : ∀ token ∈ steps.valued.stream.ahead, token ∈ after)
    (noAssignment : steps.assignment? = none) (same : steps.assigned = steps.listed)
    (finished : finish.run last = .ok ((), last₁)) :
    ∃ again, Rereading steps grown columns again := by
  obtain ⟨again, last', steps', accepted, target', noAssignment', same', moved, beside, besideLast,
    placeholders⟩ := relisting.exists_steps g part noAssignment same finished
  obtain ⟨_, twin⟩ := besideLast
  have kept := steps'.target_eq
  rw [noAssignment', target'] at kept
  obtain ⟨isColumns, noKey⟩ := Target.mk.inj kept
  have additions := steps'.additions_of_complete noAssignment' (by rw [target']) (.inl moved)
  -- the rows as they are written
  obtain ⟨rows, read, written, conditions⟩ := steps.writtenRows_eq noAssignment same
  obtain ⟨rows', read', -, conditions'⟩ := steps'.writtenRows_eq noAssignment' same'
  rw [target'] at read' conditions'
  set al := Alignment.behind g
  have noComma : firstKind al.right ≠ .symbol .comma := Alignment.noComma_behind g
  have like : Echoes al (List.map (List.map (Expression.moved al.shift)))
      (commaSeparated (rowValues env.rules steps.target.columns))
      (commaSeparated (rowValues env.rules columns)) :=
    (echoes_rowValues (Alignment.closed_behind g) noComma fun _ _ _ same => same).commaSeparated
      runs_rowValues runs_rowValues noComma
  obtain ⟨_, readBeside, -⟩ := like.echo _ _ _ _ trivial beside read List.nil_suffix
  obtain ⟨rfl, -⟩ := Prod.mk.inj (Except.ok.inj (readBeside.symm.trans read'))
  exact ⟨again,
    { accepted := accepted
      columns := isColumns
      generatedKey := noKey
      complete := isColumns ▸ relisting.complete
      additions := ⟨_, additions⟩
      tables := by rw [steps'.context_eq, steps.context_eq, twin.tables]
      parameters := by rw [steps'.context_eq, steps.context_eq, twin.parameters]
      placeholders := by
        rw [steps'.rows_eq, steps.rows_eq, noAssignment', noAssignment]
        simpa using placeholders
      conditions := ⟨rows, written, conditions, by
        rw [conditions', List.flatMap_map]
        exact List.flatMap_congr fun values _ => rowConditions_moved columns values al.shift⟩ }⟩

/-! ## Texts with the columns in them -/

/-- The tokens in front of the columns are some. -/
lemma HeadTokens.ne_nil {head : List Token} {table : String} (h : HeadTokens text head table) :
    head ≠ [] := by
  cases h with
  | named => exact List.cons_ne_nil _ _
  | group => exact List.cons_ne_nil _ _

section Texts

variable {last₁ : ParserState} (steps : InsertSteps env text insertion last)
  (valid : ∀ token ∈ Lexer.tokens text, token.kind.isBroken = false)
  (noAssignment : steps.assignment? = none) (same : steps.assigned = steps.listed)
  (finished : finish.run last = .ok ((), last₁))

include valid noAssignment same finished

/-- With a key in front of the closing parenthesis, the columns are listed with the key. -/
lemma InsertSteps.exists_again_of_key {opening closing : Token} {list : List Token} {key : String}
    (ahead : steps.named.stream.ahead = opening :: (list ++ closing :: steps.valued.stream.ahead))
    (closes : closing.kind = .symbol .rightParen) (plain : Lexer.Plain key)
    (missing : missingKey? env.rules steps.tableName (steps.target.columns.map Column.name) = some key)
    (single : Edit.insertions insertion.context.edits =
      [(closing.span.start, String.join ([key].map (", " ++ ·)))]) :
    ∃ again, Rereading steps (Edit.applyInsertions text insertion.context.edits)
      (steps.target.columns ++ [namedColumn steps.tableName key]) again := by
  have complete : missingKey? env.rules steps.tableName
      ((steps.target.columns ++ [namedColumn steps.tableName key]).map Column.name) = none := by
    have whole := missingKey_append env.rules steps.tableName (steps.target.columns.map Column.name)
    rw [missing] at whole
    rw [List.map_append, List.map_singleton, namedColumn, plain.unquoted]
    exact whole
  obtain ⟨head, -, headRun⟩ := steps.head_read
  have split : Lexer.tokens text = (head ++ opening :: list) ++ closing :: steps.valued.stream.ahead := by
    rw [List.append_assoc, List.cons_append, ← ahead]
    exact headRun.ahead_eq
  obtain ⟨inserted, d, kinds, g⟩ := Edit.grown_of_item split valid closes plain single
  obtain ⟨relisting⟩ := exists_relisting_key steps g ahead closes kinds complete
  exact relisting.exists_again g (fun _ mem => List.mem_cons_of_mem _ mem) noAssignment same finished

/-- With names in parentheses behind the table, these are the columns. -/
lemma InsertSteps.exists_again_of_names {names : List String}
    (ahead : steps.named.stream.ahead = steps.valued.stream.ahead) (any : names ≠ [])
    (plain : ∀ name ∈ names, Lexer.Plain name)
    (complete : missingKey? env.rules steps.tableName names = none)
    (single : Edit.insertions insertion.context.edits =
      [(steps.named.stream.previousEnd, "(" ++ String.intercalate ", " names ++ ")")]) :
    ∃ again, Rereading steps (Edit.applyInsertions text insertion.context.edits)
      (names.map (⟨·, steps.tableName⟩)) again := by
  have columns : names.map (namedColumn steps.tableName) = names.map (⟨·, steps.tableName⟩) := by
    refine List.map_congr_left fun name mem => ?_
    rw [namedColumn, (plain name mem).unquoted]
  have complete : missingKey? env.rules steps.tableName
      ((names.map (namedColumn steps.tableName)).map Column.name) = none := by
    rw [columns, List.map_map]
    exact (congrArg _ (List.map_id _)).trans complete
  rw [← columns]
  obtain ⟨word, -⟩ := steps.rows_read noAssignment
  obtain ⟨head, isHead, headRun⟩ := steps.head_read
  obtain ⟨front, token, rfl⟩ : ∃ front token, head = front ++ [token] :=
    ⟨_, _, (List.dropLast_append_getLast isHead.ne_nil).symm⟩
  have place : steps.named.stream.previousEnd = token.span.stop :=
    congrArg (fun token : Token => token.span.stop) headRun.previous_eq
  have split : Lexer.tokens text = (front ++ [token]) ++ steps.valued.stream.ahead := by
    rw [← ahead]
    exact headRun.ahead_eq
  rw [place] at single
  obtain ⟨inserted, d, kinds, g⟩ := Edit.grown_of_columns split valid any plain single
  obtain ⟨relisting⟩ := exists_relisting_known steps g ahead word any kinds complete
  exact relisting.exists_again g (fun _ mem => mem) noAssignment same finished

end Texts

end Grammar

/-! ## Known columns -/

namespace RuleConfiguration

/-- The columns that are known under built rules are not none. -/
lemma columns_ne_nil {configuration : RuleConfiguration} {rules : ShardingRule}
    {metadata : TableMetadata} (built : configuration.build = .ok (rules, metadata)) {table : String}
    {columns : List String} (known : metadata.columns? table = some columns) : columns ≠ [] := by
  rw [(built_of_build built).columns] at known
  obtain ⟨configured, -, known⟩ := Option.bind_eq_some_iff.1 known
  rw [TableConfiguration.known?] at known
  split at known
  · cases known
  · rename_i any
    exact Option.some.inj known ▸ any

end RuleConfiguration

/-! ## Edits -/

namespace Edit

variable {text : String} {edits : List Edit}

/-- Without insertions a text stays as it is. -/
lemma applyInsertions_of_nil (nothing : insertions edits = []) : applyInsertions text edits = text := by
  have kept := toList_splice_nil (show text.toList = [] ++ text.toList from rfl)
  rw [applyInsertions, nothing, List.mergeSort_nil]
  exact String.toList_inj.1 kept

/-- Where only values are marked, no columns are inserted. -/
lemma noColumns_of_additions {place : Nat} {form : InsertForm}
    (additions : additions edits = [.insertValues place form]) {edit : Edit} (mem : edit ∈ edits) :
    edit.kind ≠ .items ∧ edit.kind ≠ .insertColumns := by
  have marked (kind : [EditKind.items, .orderBy, .insertColumns, .insertValues].contains edit.kind = true) :
      edit = .insertValues place form := by
    have isAddition : edit ∈ Edit.additions edits := List.mem_filter.2 ⟨mem, kind⟩
    rw [additions] at isAddition
    exact List.mem_singleton.1 isAddition
  constructor
  · intro isItems
    rw [marked (by rw [isItems]; rfl)] at isItems
    cases isItems
  · intro isColumns
    rw [marked (by rw [isColumns]; rfl)] at isColumns
    cases isColumns

end Edit

/-! ## Settled insertions -/

namespace InsertStatement

open Grammar

/-- An insertion is settled by `again`: no columns are inserted and no key is left out, and everything
else is as it was. -/
structure SettledBy (insertion again : InsertStatement) : Prop where
  /-- No columns are inserted. -/
  edits : ∀ edit ∈ again.context.edits, edit.kind ≠ .items ∧ edit.kind ≠ .insertColumns
  /-- No key is left out. -/
  generatedKey : again.generatedKey = none
  /-- The tables are the same. -/
  tables : again.context.tables = insertion.context.tables
  /-- The conditions are the same. -/
  conditions : again.context.conditions = insertion.context.conditions
  /-- The rows have the same placeholders. -/
  placeholders : again.rows.map InsertRow.placeholders = insertion.rows.map InsertRow.placeholders
  /-- As many placeholders are bound. -/
  parameters : again.context.parameters = insertion.context.parameters

variable {env : Environment} {text grown : String} {insertion again : InsertStatement}
  {last : ParserState}

/-- An insertion that adds nothing is settled by itself. -/
lemma settledBy_self {place : Nat} {form : InsertForm} (complete : insertion.generatedKey = none)
    (additions : Edit.additions insertion.context.edits = [.insertValues place form]) :
    SettledBy insertion insertion :=
  ⟨fun _ mem => Edit.noColumns_of_additions additions mem, complete, rfl, rfl, rfl, rfl⟩

/-- An insertion that lists columns with the same conditions settles another. -/
lemma settledBy_of_rereading {steps : InsertSteps env text insertion last} {listed : List Column}
    (rereading : Rereading steps grown listed again)
    (same : ∀ rows,
      writtenRows? env text = some (steps.named.stream.check (.symbol .leftParen), rows) →
        rows.flatMap (rowConditions env.rules listed) =
          rows.flatMap (rowConditions env.rules steps.target.columns)) :
    SettledBy insertion again := by
  obtain ⟨place, additions⟩ := rereading.additions
  obtain ⟨rows, written, conditions, conditions'⟩ := rereading.conditions
  refine ⟨fun _ mem => Edit.noColumns_of_additions additions mem, rereading.generatedKey,
    rereading.tables, ?_, rereading.placeholders, rereading.parameters⟩
  rw [conditions, conditions', same rows written]

/-- The text `grown` is accepted as an insertion that settles the one that is read in `steps`. The column
for a generated key is one of its columns, if `steps` lists columns or some are known. -/
def SettledIn (steps : InsertSteps env text insertion last) (grown : String) : Prop :=
  ∃ again, Statement.ofText env grown = .ok (.insert again) ∧ SettledBy insertion again ∧
    (steps.named.stream.check (.symbol .leftParen) = true ∨
        (env.metadata.columns? steps.tableName).isSome = true →
      missingKey? env.rules steps.tableName (again.columns.map Column.name) = none)

section Settling

variable {last₁ : ParserState} (steps : InsertSteps env text insertion last)

/-- An insertion that adds nothing stays as it is. -/
lemma settledIn_self (accepted : Statement.ofText env text = .ok (.insert insertion))
    (noKey : insertion.generatedKey = none)
    (nothing : Edit.additions insertion.context.edits = [.insertValues steps.place .values])
    (complete : steps.named.stream.check (.symbol .leftParen) = true ∨
        (env.metadata.columns? steps.tableName).isSome = true →
      missingKey? env.rules steps.tableName (insertion.columns.map Column.name) = none) :
    SettledIn steps (Edit.applyInsertions text insertion.context.edits) := by
  have noInsertions : Edit.insertions insertion.context.edits = [] := by
    rw [← Edit.insertions_additions, nothing]
    rfl
  refine ⟨insertion, ?_, settledBy_self noKey nothing, complete⟩
  rw [Edit.applyInsertions_of_nil noInsertions]
  exact accepted

/-- The columns that are read, if there are no assignments, are those of the insertion. -/
lemma target_eq_of_noAssignment (noAssignment : steps.assignment? = none) :
    steps.target = ⟨insertion.columns, insertion.generatedKey⟩ := by
  have kept := steps.target_eq
  rw [noAssignment] at kept
  exact kept.symm

/-- Where neither columns are listed nor any are known, nothing is added. -/
lemma settledIn_of_unknown (accepted : Statement.ofText env text = .ok (.insert insertion))
    (noAssignment : steps.assignment? = none)
    (noColumns : env.metadata.columns? steps.tableName = none) (isTarget : steps.target = {})
    (ahead : steps.named.stream.ahead = steps.valued.stream.ahead)
    (nothing : Edit.additions insertion.context.edits = [.insertValues steps.place .values]) :
    SettledIn steps (Edit.applyInsertions text insertion.context.edits) := by
  have noKey : insertion.generatedKey = none :=
    congrArg Target.generatedKey ((target_eq_of_noAssignment steps noAssignment).symm.trans isTarget)
  refine settledIn_self steps accepted noKey nothing fun given => ?_
  -- the word for values stands behind the table, where a list of columns would open
  obtain ⟨word, -⟩ := steps.rows_read noAssignment
  obtain ⟨keyword, -, isKeyword⟩ := checkAnyKeyword_iff.1 word
  have kind : steps.named.stream.kind = .keyword keyword := by
    rw [kind_eq_firstKind, ahead, ← kind_eq_firstKind, isKeyword]
  rcases given with opened | known
  · rw [check_symbol, kind] at opened
    cases opened
  · rw [noColumns] at known
    cases known

variable (valid : ∀ token ∈ Lexer.tokens text, token.kind.isBroken = false)
  (accepted : Statement.ofText env text = .ok (.insert insertion))
  (noAssignment : steps.assignment? = none) (same : steps.assigned = steps.listed)
  (finished : finish.run last = .ok ((), last₁))

include valid accepted noAssignment same finished

/-- A key that is missing from a list of columns is inserted at its end. -/
lemma settledIn_of_listed {opening closing : Token} {list : List Token} {names : List String}
    (ahead : steps.named.stream.ahead = opening :: (list ++ closing :: steps.valued.stream.ahead))
    (opens : opening.kind = .symbol .leftParen) (closes : closing.kind = .symbol .rightParen)
    (isTarget : steps.target = ⟨names.map (namedColumn steps.tableName),
      missingKey? env.rules steps.tableName (names.map Text.unquoted)⟩)
    (additions : Edit.additions insertion.context.edits =
      ((missingKey? env.rules steps.tableName (names.map Text.unquoted)).toList.map fun key =>
        Edit.items closing.span.start [key]) ++ [.insertValues steps.place .values])
    (plain : ∀ key, env.rules.generateKeyColumn? steps.tableName = some key → Lexer.Plain key)
    (narrow : ∀ rows, writtenRows? env text = some (true, rows) →
      ∀ row ∈ rows, row.length ≤ steps.target.columns.length) :
    SettledIn steps (Edit.applyInsertions text insertion.context.edits) := by
  have columnNames : steps.target.columns.map Column.name = names.map Text.unquoted := by
    rw [isTarget]
    exact List.map_map
  cases missing : missingKey? env.rules steps.tableName (names.map Text.unquoted) with
  | none =>
    rw [missing] at additions isTarget
    obtain ⟨isColumns, noKey⟩ :=
      Target.mk.inj ((target_eq_of_noAssignment steps noAssignment).symm.trans isTarget)
    refine settledIn_self steps accepted noKey additions fun _ => ?_
    rw [isTarget] at columnNames
    rw [isColumns, columnNames, missing]
  | some key =>
    have ofKey : env.rules.generateKeyColumn? steps.tableName = some key :=
      (Option.filter_eq_some_iff.1 missing).1
    have opened : steps.named.stream.check (.symbol .leftParen) = true :=
      check_symbol.2 ((kind_of_ahead_cons ahead).trans opens)
    rw [missing] at additions
    have inserted := (Edit.insertions_additions insertion.context.edits).symm.trans
      (congrArg Edit.insertions additions)
    obtain ⟨again, rereading⟩ := steps.exists_again_of_key valid noAssignment same finished ahead closes
      (plain key ofKey) (columnNames ▸ missing) inserted
    refine ⟨again, rereading.accepted, settledBy_of_rereading rereading ?_, fun _ => rereading.complete⟩
    intro rows written
    rw [opened] at written
    exact List.flatMap_congr fun row mem => rowConditions_append (narrow rows written row mem) _

omit accepted in
/-- Known columns are inserted as a list. -/
lemma settledIn_of_known {known : List String} (any : known ≠ [])
    (ahead : steps.named.stream.ahead = steps.valued.stream.ahead)
    (isTarget : steps.target =
      ⟨(known ++ (missingKey? env.rules steps.tableName known).toList).map (⟨·, steps.tableName⟩),
        missingKey? env.rules steps.tableName known⟩)
    (additions : Edit.additions insertion.context.edits =
      [.insertColumns steps.named.stream.previousEnd
        (known ++ (missingKey? env.rules steps.tableName known).toList),
        .insertValues steps.place .values])
    (plain : ∀ name ∈ known ++ (env.rules.generateKeyColumn? steps.tableName).toList,
      Lexer.Plain name) :
    SettledIn steps (Edit.applyInsertions text insertion.context.edits) := by
  have all : ∀ name ∈ known ++ (missingKey? env.rules steps.tableName known).toList,
      Lexer.Plain name := by
    intro name mem
    refine plain name ?_
    refine (List.mem_append.1 mem).elim (List.mem_append_left _) fun mem => List.mem_append_right _ ?_
    rw [Option.mem_toList] at mem ⊢
    exact (Option.filter_eq_some_iff.1 mem).1
  have inserted := (Edit.insertions_additions insertion.context.edits).symm.trans
    (congrArg Edit.insertions additions)
  obtain ⟨again, rereading⟩ := steps.exists_again_of_names valid noAssignment same finished ahead
    (by simp [any]) all (missingKey_append _ _ _) inserted
  refine ⟨again, rereading.accepted, settledBy_of_rereading rereading ?_, fun _ => rereading.complete⟩
  rw [isTarget]
  exact fun _ _ => rfl

/-- An insertion is settled by what is read from the text with the columns that it adds.

**Proof sketch.** A list that lacks no key, and a table of which nothing is known, add nothing, and the
text stays. A key that is missing from a list is inserted at its end, and known columns are inserted as a
list, where they are read again. -/
lemma exists_settledBy
    (any : ∀ {known}, env.metadata.columns? steps.tableName = some known → known ≠ [])
    (plain : ∀ name ∈ (env.metadata.columns? steps.tableName).getD [] ++
      (env.rules.generateKeyColumn? steps.tableName).toList, Lexer.Plain name)
    (narrow : ∀ rows, writtenRows? env text = some (true, rows) →
      ∀ row ∈ rows, row.length ≤ steps.target.columns.length) :
    SettledIn steps (Edit.applyInsertions text insertion.context.edits) := by
  obtain ⟨tokens, added, read, run, additions⟩ := steps.additions_eq
  rw [noAssignment] at additions
  have ahead := run.ahead_eq
  generalize isTarget : steps.target = target at read
  cases read with
  | listed opens isList closes =>
    rw [List.cons_append, List.append_assoc] at ahead
    refine settledIn_of_listed steps valid accepted noAssignment same finished ahead opens closes
      isTarget additions (fun key isKey => plain key ?_) narrow
    simp [isKey]
  | known isKnown =>
    rw [isKnown] at plain
    exact settledIn_of_known steps valid noAssignment same finished (any isKnown) ahead isTarget
      additions plain
  | unknown noColumns =>
    exact settledIn_of_unknown steps accepted noAssignment noColumns isTarget ahead additions

end Settling

/-- An accepted insertion that has rows of values alone, under built rules, is settled by what it adds to
its text, where the names that it adds are read as one token each and no row has more values than a list
of columns: the text with the columns is accepted, and read again it adds no columns and leaves no key
out, with the same tables, conditions and placeholders. The column for a generated key is then one of the
columns, if the columns are listed or known.

**Proof sketch.** There are three ways to give the columns. If they are listed without a key, it is inserted
in front of the parenthesis that closes the list; if they are known, they are inserted as a list behind the
table; else nothing is. In each of them the new text has the tokens of the old one with the inserted ones
between, and what is behind the columns is read as before, moved by the length of what is inserted. Rows of
a list are not longer than it, so the values are given to the same columns. -/
theorem settled_once {configuration : RuleConfiguration} {env : Environment} {text : String}
    {insertion : InsertStatement} (built : configuration.build = .ok (env.rules, env.metadata))
    (success : Statement.ofText env text = .ok (.insert insertion))
    (values : ∀ row ∈ insertion.rows, row.form = .values)
    (plain : ∀ name ∈ (env.metadata.columns? (insertion.tableName?.getD "")).getD [] ++
      (env.rules.generateKeyColumn? (insertion.tableName?.getD "")).toList, Lexer.Plain name)
    (narrow : ∀ rows, writtenRows? env text = some (true, rows) →
      ∀ row ∈ rows, row.length ≤ insertion.columns.length) :
    ∃ again, Statement.ofText env (Edit.applyInsertions text insertion.context.edits) =
        .ok (.insert again) ∧ SettledBy insertion again ∧
      ∀ key, env.rules.generateKeyColumn? (insertion.tableName?.getD "") = some key →
        ((∃ rows, writtenRows? env text = some (true, rows)) ∨
          (env.metadata.columns? (insertion.tableName?.getD "")).isSome = true) →
        again.containsColumn key = true := by
  obtain ⟨_, -, valid⟩ := insertion_steps success
  obtain ⟨last, _, finished, ⟨_, same, -⟩ | ⟨_, same, inserted⟩⟩ := ofText_reads success
  · cases same
  · cases same
    obtain ⟨steps⟩ := insert_steps inserted
    obtain ⟨noAssignment, same⟩ := steps.no_assignments values
    obtain ⟨rows, -, written, -⟩ := steps.writtenRows_eq noAssignment same
    have columns : insertion.columns = steps.target.columns := by
      have kept := steps.target_eq
      rw [noAssignment] at kept
      exact congrArg Target.columns kept
    rw [steps.tableName_eq] at plain ⊢
    obtain ⟨again, accepted, settled, complete⟩ := exists_settledBy steps valid success noAssignment same
      finished (RuleConfiguration.columns_ne_nil built) plain (columns ▸ narrow)
    refine ⟨again, accepted, settled, fun key isKey given => ?_⟩
    refine containsName_of_missingKey (complete (given.imp_left ?_)) isKey
    rintro ⟨rows', written'⟩
    exact congrArg Prod.fst (Option.some.inj (written.symm.trans written'))

/-- A key is inserted into a list of columns, and is one of them when the text is read again. -/
theorem settled_once_key : ∃ (env : Environment) (insertion again : InsertStatement),
    Statement.ofText env "INSERT INTO t (a) VALUES (?), (7)" = .ok (.insert insertion) ∧
      insertion.generatedKey = some "id" ∧
      Statement.ofText env "INSERT INTO t (a, id) VALUES (?), (7)" = .ok (.insert again) ∧
      SettledBy insertion again ∧ again.containsColumn "id" = true := by
  let configuration : RuleConfiguration :=
    ⟨[{ name := "t", shardingColumns := ["a"], generateKeyColumn := some "id" }]⟩
  let env : Environment :=
    { rules := ⟨[{ table := "t", shardingColumns := ["a"], generateKeyColumn := some "id" }]⟩ }
  let text := "INSERT INTO t (a) VALUES (?), (7)"
  have built : configuration.build = .ok (env.rules, env.metadata) := rfl
  have seen : (insertion? env text).map (fun insertion => (insertion.generatedKey,
      insertion.tableName?.getD "", Edit.applyInsertions text insertion.context.edits,
      insertion.rows.map InsertRow.form, insertion.columns.length)) =
      some (some "id", "t", "INSERT INTO t (a, id) VALUES (?), (7)", [.values, .values], 1) := by
    decide +kernel
  obtain ⟨insertion, success, same⟩ := exists_of_insertion seen
  simp only [Prod.mk.injEq] at same
  obtain ⟨generatedKey, table, grown, forms, columns⟩ := same
  have values : ∀ row ∈ insertion.rows, row.form = .values := by
    intro row mem
    have isForm := List.mem_map_of_mem (f := InsertRow.form) mem
    rw [forms] at isForm
    simpa using isForm
  have plain : ∀ name ∈ (env.metadata.columns? (insertion.tableName?.getD "")).getD [] ++
      (env.rules.generateKeyColumn? (insertion.tableName?.getD "")).toList, Lexer.Plain name := by
    rw [table]
    decide +kernel
  have narrow : ∀ rows, writtenRows? env text = some (true, rows) →
      ∀ row ∈ rows, row.length ≤ insertion.columns.length := by
    have written : (writtenRows? env text).map (fun written => written.2.map List.length) =
        some [1, 1] := by decide +kernel
    intro rows isWritten row mem
    rw [isWritten] at written
    have lengths : rows.map List.length = [1, 1] := Option.some.inj written
    have isLength := List.mem_map_of_mem (f := List.length) mem
    rw [lengths] at isLength
    rw [columns]
    exact Nat.le_of_eq (by simpa using isLength)
  obtain ⟨again, accepted, settled, contains⟩ := settled_once built success values plain narrow
  rw [grown] at accepted
  have isKey : env.rules.generateKeyColumn? (insertion.tableName?.getD "") = some "id" := by
    rw [table]
    decide +kernel
  have lists : (writtenRows? env text).map Prod.fst = some true := by decide +kernel
  obtain ⟨⟨_, rows⟩, written, rfl⟩ := Option.map_eq_some_iff.1 lists
  exact ⟨env, insertion, again, success, generatedKey, accepted, settled,
    contains "id" isKey (.inl ⟨rows, written⟩)⟩

end InsertStatement

end SqlRouting
