import SqlRouting.Proofs.Insertion

/-!
# The parts of an insertion

An insertion is read in its parts: the table, the columns, rows of values, assignments, and what to do
with rows that are already there. The columns are given, or those that are known of the table, or
there are none; where the column for a generated key is left out, it is added. Of the other parts only
assignments change what was added: they forget the columns.

## Main definitions

* `SqlRouting.Grammar.missingKey?` — the column for a generated key, if it is left out.
* `SqlRouting.Grammar.TargetRead` — the tokens that give the columns, with what is added to them.
* `SqlRouting.Grammar.HeadTokens` — the tokens that name the table.

## Main results

* `SqlRouting.Grammar.targetColumns_read` — the columns of an insertion.
* `SqlRouting.Grammar.InsertSteps.accepted` — an insertion whose parts are read is accepted.
* `SqlRouting.Grammar.InsertSteps.additions_eq` — what an insertion adds to its text.
-/

set_option autoImplicit false

namespace SqlRouting

open TokenStream SqlRouting.Parser

namespace Grammar

variable {env : Environment} {rules : ShardingRule} {text table : String} {s s' : ParserState}

/-! ## Parts without additions -/

section Leads

variable {R : ParserState → ParserState → Prop} [Passing R]

/-- Reading a column leads to related states if expressions do. -/
lemma leads_listedColumn (leads : Leads R (expression rules)) : Leads R (listedColumn rules table) :=
  .bind leads fun _ => leads_lift _

/-- Reading a row of values leads to related states if expressions do. -/
lemma leads_valueRow (leads : Leads R (expression rules)) (columns : List Column) :
    Leads R (valueRow rules columns) :=
  .bind leads_acceptSymbol fun _ => .look looks_context fun _ =>
    .bind (Leads.list leads) fun _ => .bind leads_acceptSymbol fun _ =>
      .bind (leads_modifyContext fun _ => rfl) fun _ => .look looks_context fun _ => .pure _

/-- Reading rows of values leads to related states if expressions do. -/
lemma leads_valueRows (leads : Leads R (expression rules)) (columns : List Column) :
    Leads R (valueRows rules columns) :=
  .bind (leads_skipKeyword _) fun _ => .ite (fun _ => (leads_valueRow leads columns).list)
    fun _ => .pure _

/-- Reading an assignment leads to related states if expressions do. -/
lemma leads_assignment (leads : Leads R (expression rules)) : Leads R (assignment rules table) :=
  .bind (leads_listedColumn leads) fun _ => .bind leads_acceptSymbol fun _ =>
    .bind leads fun _ => .bind (leads_modifyContext fun _ => rfl) fun _ => .pure _

/-- Reading an assignment to a row that is already there leads to related states if expressions do. -/
lemma leads_update (leads : Leads R (expression rules)) : Leads R (update rules table) := by
  refine .bind leads fun left => .bind (leads_lift _) fun column => ?_
  refine .ite (fun _ => .bind (leads_unsupported _ _) fun _ => ?_) fun _ => ?_
  all_goals exact .bind leads_acceptSymbol fun _ => .bind leads fun _ => .pure _

/-- Reading what to do with rows that are already there leads to related states if expressions do. -/
lemma leads_duplicateKeyUpdate (leads : Leads R (expression rules)) :
    Leads R (duplicateKeyUpdate rules table) := by
  refine .bind (leads_skipKeyword _) fun _ => .ite (fun _ => ?_) fun _ => .pure _
  exact .bind (leads_acceptKeyword _) fun _ => .bind (leads_acceptKeyword _) fun _ =>
    .bind (leads_acceptKeyword _) fun _ => .bind (leads_update leads).list fun _ => .pure _

end Leads

/-- Columns pass valid tokens. -/
lemma passes_targetColumns : Leads Passes (targetColumns env table) := by
  have records (edit : Edit) : Leads Passes (addEdit edit) := leads_record _
  have values (target : Target) : Leads Passes (do
      addEdit (.insertValues (← offset) .values)
      return target : Parser Target) :=
    .look looks_offset fun _ => .bind (records _).leadsFrom fun _ => .pure target
  refine .look (looks_checkSymbol _) fun isList => .look looks_checkQueryInParentheses fun isQuery => ?_
  refine .ite (fun isGiven => .bind ?_ values) fun _ => ?_
  · rw [Bool.and_eq_true] at isGiven
    refine .bind (leads_advance fun s seen => ?_) fun _ => ?_
    · rw [check_symbol.1 (seen.1.2.trans isGiven.1)]
      exact ⟨rfl, by simp⟩
    · refine .bind (Leads.list (leads_listedColumn leads_expression)) fun _ => ?_
      refine .bind leads_acceptSymbol fun _ => ?_
      split
      · exact .bind (records _).leadsFrom fun _ => .pure _
      · exact .pure _
  · split
    · exact .bind (.look looks_previousEnd fun _ => .bind (records _).leadsFrom fun _ => .pure _) values
    · exact .bind (.pure _) values

/-- Assignments pass valid tokens. -/
lemma passes_assignments : Leads Passes (assignments env table) := by
  refine .bind (leads_skipKeyword _) fun _ => .ite (fun _ => ?_) fun _ => .pure _
  refine .look looks_previousEnd fun _ => .bind (leads_record _).leadsFrom fun _ => ?_
  refine .look looks_context fun _ =>
    .bind (Leads.list (leads_assignment leads_expression)) fun _ => ?_
  exact .look looks_previousEnd fun _ => .look looks_context fun _ => .pure _

/-! ## Columns -/

/-- The column of `table` for a generated key, if it is not one of `names`. -/
def missingKey? (rules : ShardingRule) (table : String) (names : List String) : Option String :=
  (rules.generateKeyColumn? table).filter fun key => !Text.containsName names key

/-- The tokens give the columns of an insertion into `table`, where `index` placeholders come before
them and the name of the table ends at `stop`; and some edits add to them. -/
inductive TargetRead (env : Environment) (source table : String) (index stop : Nat) :
    List Token → Target → List Edit → Prop
  /-- A list of columns in parentheses, to which the column for a generated key is added if it is left
  out. -/
  | listed {opening closing : Token} {list : List Token} {names : List String}
      (opens : opening.kind = .symbol .leftParen)
      (isList : Separated (ColumnNamed source) index list names)
      (closes : closing.kind = .symbol .rightParen) :
      TargetRead env source table index stop (opening :: (list ++ [closing]))
        ⟨names.map (namedColumn table), missingKey? env.rules table (names.map Text.unquoted)⟩
        ((missingKey? env.rules table (names.map Text.unquoted)).toList.map fun key =>
          .items closing.span.start [key])
  /-- Nothing, where columns of the table are known: they are added, with the column for a generated
  key if it is not one of them. -/
  | known {known : List String} (isKnown : env.metadata.columns? table = some known) :
      TargetRead env source table index stop []
        ⟨(known ++ (missingKey? env.rules table known).toList).map (⟨·, table⟩),
          missingKey? env.rules table known⟩
        [.insertColumns stop (known ++ (missingKey? env.rules table known).toList)]
  /-- Nothing, where nothing is known. -/
  | unknown (noColumns : env.metadata.columns? table = none) :
      TargetRead env source table index stop [] {} []

/-- Columns are inserted in front of the parenthesis that closes their list, or behind the table. -/
lemma TargetRead.mem_insertions {source : String} {index stop : Nat} {tokens : List Token}
    {target : Target} {added : List Edit} {inserted : Nat × String}
    (read : TargetRead env source table index stop tokens target added)
    (mem : inserted ∈ Edit.insertions added) :
    (∃ front closing key, tokens = front ++ [closing] ∧ closing.kind = .symbol .rightParen ∧
      inserted = (closing.span.start, String.join ([key].map (", " ++ ·)))) ∨
    ∃ columns, inserted = (stop, "(" ++ String.intercalate ", " columns ++ ")") := by
  cases read with
  | @listed opening closing list names opens isList closes =>
    cases missing : missingKey? env.rules table (names.map Text.unquoted) with
    | none =>
      rw [missing] at mem
      cases mem
    | some key =>
      rw [missing] at mem
      exact .inl ⟨opening :: list, closing, key, rfl, closes, List.mem_singleton.1 mem⟩
  | known isKnown => exact .inr ⟨_, List.mem_singleton.1 mem⟩
  | unknown noColumns => cases mem

/-- A list of columns is written by its tokens, and the column for a generated key is added in front of
the closing parenthesis. -/
lemma columnList_read {target : Target} (stop : Nat) (opening : s.stream.kind = .symbol .leftParen)
    (success : (columnList env.rules table).run s = .ok (target, s')) :
    ∃ tokens added, TargetRead env s.stream.source table s.context.parameters stop tokens target added ∧
      Run Context.ConditionsOnly s tokens s' ∧ s'.context.conditions = s.context.conditions ∧
      Edit.additions s'.context.edits = Edit.additions s.context.edits ++ added := by
  rw [columnList, run_advance_bind] at success
  obtain ⟨columns, s₁, listed, rest⟩ := run_bind_ok.1 success
  obtain ⟨closing, s₂, closed, rest⟩ := run_bind_ok.1 rest
  obtain ⟨isClosing, rfl, rfl⟩ := run_acceptSymbol_ok.1 closed
  obtain ⟨list, names, isList, rfl, run, same⟩ := lists_listedColumn.commaSeparated _ _ _ listed
  have columnNames : (names.map (namedColumn table)).map Column.name = names.map Text.unquoted :=
    List.map_map
  rw [columnNames] at rest
  have passed : Run Context.ConditionsOnly s _ s₁.advance :=
    (run_token opening).trans (run.trans (run_token isClosing))
  have conditions : s₁.context.conditions = s.context.conditions := by
    rw [same, List.flatMap_eq_nil_iff.2 fun _ _ => rfl, List.append_nil]
    rfl
  have leads : Leads KeepsAdditions (commaSeparated (listedColumn env.rules table)) :=
    Leads.list (leads_listedColumn leads_expression)
  have additions : Edit.additions s₁.context.edits = Edit.additions s.advance.context.edits :=
    leads.related listed
  have written : TargetRead env s.stream.source table s.context.parameters stop
      (⟨.symbol .leftParen, s.stream.current.span⟩ ::
        (list ++ [⟨.symbol .rightParen, s₁.stream.current.span⟩])) _ _ :=
    .listed rfl isList rfl
  cases missing : missingKey? env.rules table (names.map Text.unquoted) with
  | none =>
    rw [missing] at written
    unfold missingKey? at missing
    simp only [missing] at rest
    cases rest
    exact ⟨_, _, written, passed, conditions, additions.trans (List.append_nil _).symm⟩
  | some key =>
    rw [missing] at written
    unfold missingKey? at missing
    simp only [missing] at rest
    cases rest
    refine ⟨_, _, written, passed.record ⟨rfl, rfl⟩, conditions, ?_⟩
    show Edit.additions (s₁.context.edits ++ [_]) = _
    rw [Edit.additions_append, additions]
    rfl

/-- The columns of an insertion are given by its tokens or known, and behind them the place of the
values is recorded. -/
lemma targetColumns_read {target : Target}
    (success : (targetColumns env table).run s = .ok (target, s')) :
    ∃ tokens added, TargetRead env s.stream.source table s.context.parameters s.stream.previousEnd
        tokens target added ∧
      Run Context.ConditionsOnly s tokens s' ∧ s'.context.conditions = s.context.conditions ∧
      Edit.additions s'.context.edits =
        Edit.additions s.context.edits ++ added ++ [.insertValues s'.stream.offset .values] := by
  -- whatever the columns are, the place of the values is recorded after them
  have placed {found : Target} {t : ParserState} {tokens : List Token} {added : List Edit}
      (read : TargetRead env s.stream.source table s.context.parameters s.stream.previousEnd tokens
        found added)
      (run : Run Context.ConditionsOnly s tokens t)
      (conditions : t.context.conditions = s.context.conditions)
      (additions : Edit.additions t.context.edits = Edit.additions s.context.edits ++ added)
      (done : (do addEdit (.insertValues (← offset) .values); return found : Parser Target).run t =
        .ok (target, s')) :
      ∃ tokens added, TargetRead env s.stream.source table s.context.parameters s.stream.previousEnd
          tokens target added ∧
        Run Context.ConditionsOnly s tokens s' ∧ s'.context.conditions = s.context.conditions ∧
        Edit.additions s'.context.edits =
          Edit.additions s.context.edits ++ added ++ [.insertValues s'.stream.offset .values] := by
    cases done
    refine ⟨tokens, added, read, run.record ⟨rfl, rfl⟩, conditions, ?_⟩
    show Edit.additions (t.context.edits ++ [_]) = _
    rw [Edit.additions_append, additions]
    rfl
  rw [targetColumns, (looks_checkSymbol _).run_bind] at success
  dsimp only at success
  rw [looks_checkQueryInParentheses.run_bind] at success
  split at success
  · rename_i opened
    rw [Bool.and_eq_true, check_symbol] at opened
    obtain ⟨found, s₁, listed, rest⟩ := run_bind_ok.1 success
    obtain ⟨tokens, added, read, run, conditions, additions⟩ :=
      columnList_read s.stream.previousEnd opened.1 listed
    exact placed read run conditions additions rest
  · split at success
    · rename_i isKnown
      obtain ⟨found, s₁, known, rest⟩ := run_bind_ok.1 success
      cases known
      refine placed (.known isKnown) ?_ ?_ ?_ rest
      · exact (Run.refl s).record ⟨rfl, rfl⟩
      · rfl
      · exact Edit.additions_append _ _
    · rename_i noColumns
      rw [pure_bind] at success
      exact placed (.unknown noColumns) (.refl s) rfl (List.append_nil _).symm success

/-! ## The table -/

/-- The tokens in front of the columns of an insertion into the table of a name, which is empty if a
group stands in place of the table. -/
inductive HeadTokens (source : String) : List Token → String → Prop
  /-- A table by its name. -/
  | named {word : Token} {into nameTokens aliasTokens : List Token} {name : String}
      {aliasName : Option String} (isWord : word.kind = .keyword .INSERT)
      (isInto : into = [] ∨ ∃ span, into = [⟨.keyword .INTO, span⟩])
      (isName : NameTokens nameTokens name) (isAlias : AliasTokens source aliasTokens aliasName) :
      HeadTokens source (word :: (into ++ (nameTokens ++ aliasTokens))) (Text.unquoted name)
  /-- A group in parentheses. -/
  | group {word : Token} {into group aliasTokens : List Token} {aliasName : Option String}
      (isWord : word.kind = .keyword .INSERT)
      (isInto : into = [] ∨ ∃ span, into = [⟨.keyword .INTO, span⟩])
      (balanced : Group group) (isAlias : AliasTokens source aliasTokens aliasName) :
      HeadTokens source (word :: (into ++ (group ++ aliasTokens))) ""

/-! ## Additions -/

/-- What is left of additions where assignments forget the columns. -/
lemma additions_forgetColumns (context : Context) : Edit.additions (forgetColumns context).edits =
    ((Edit.additions context.edits).filter fun edit =>
      !([EditKind.insertColumns, .items].contains edit.kind)).map (Edit.withInsertForm .set) := by
  have kinds (edit : Edit) : (edit.withInsertForm .set).kind = edit.kind := by cases edit <;> rfl
  show Edit.additions ((context.edits.filter _).map _) = _
  rw [Edit.additions, Edit.additions, List.filter_map, List.filter_filter, List.filter_filter]
  congr 2
  funext edit
  simp only [Function.comp_apply, kinds, Bool.and_comm]

/-- All that may be added to columns is forgotten. -/
lemma TargetRead.forgotten {source : String} {index stop : Nat} {tokens : List Token} {target : Target}
    {added : List Edit} (read : TargetRead env source table index stop tokens target added) :
    (added.filter fun edit => !([EditKind.insertColumns, .items].contains edit.kind)) = [] := by
  cases read with
  | @listed _ _ _ names opens isList closes =>
    cases missingKey? env.rules table (names.map Text.unquoted) <;> rfl
  | known isKnown => rfl
  | unknown noColumns => rfl

/-- Assignments forget the columns, and add nothing. -/
lemma assignments_additions {found : Option (Target × InsertRow)}
    (success : (assignments env table).run s = .ok (found, s')) :
    found = none ∧ s' = s ∨ found.isSome = true ∧
      Edit.additions s'.context.edits = Edit.additions (forgetColumns s.context).edits := by
  rw [assignments, run_skipKeyword_bind] at success
  split at success
  · rw [if_pos rfl, looks_previousEnd.run_bind, run_modifyContext_bind, looks_context.run_bind]
      at success
    obtain ⟨columns, s₁, listed, rest⟩ := run_bind_ok.1 success
    rw [looks_previousEnd.run_bind, looks_context.run_bind, run_pure_ok] at rest
    obtain ⟨rfl, rfl⟩ := rest
    have leads : Leads KeepsAdditions (commaSeparated (assignment env.rules table)) :=
      Leads.list (leads_assignment leads_expression)
    exact .inr ⟨rfl, leads.related listed⟩
  · obtain ⟨rfl, rfl⟩ := run_pure_ok.1 success
    exact .inl ⟨rfl, rfl⟩

namespace InsertSteps

variable {insertion : InsertStatement} {last : ParserState}

/-- The name of the table that an insertion is into. -/
def tableName (steps : InsertSteps env text insertion last) : String :=
  steps.named.context.tables.firstName?.getD ""

/-- An insertion whose parts are read, up to the end of the text, is accepted. -/
lemma accepted {last' : ParserState} (steps : InsertSteps env text insertion last)
    (finished : finish.run last = .ok ((), last')) :
    Statement.ofText env text = .ok (.insert insertion) := by
  obtain ⟨present, into⟩ := steps.into
  have inserted : (insert env).run ⟨.ofText text, {}⟩ = .ok (insertion, last) := by
    refine run_bind_ok.2 ⟨_, _, run_acceptKeyword_ok.2 ⟨steps.word, rfl, rfl⟩, ?_⟩
    refine run_bind_ok.2 ⟨present, steps.opened, into, ?_⟩
    refine run_bind_ok.2 ⟨(), steps.named, steps.factor, ?_⟩
    rw [looks_context.run_bind]
    refine run_bind_ok.2 ⟨steps.target, steps.valued, steps.columns, ?_⟩
    refine run_bind_ok.2 ⟨(), steps.valued, steps.refused, ?_⟩
    refine run_bind_ok.2 ⟨steps.rows, steps.listed, steps.values, ?_⟩
    refine run_bind_ok.2 ⟨steps.assignment?, steps.assigned, steps.assignments, ?_⟩
    dsimp only
    rw [if_neg (by simpa using steps.nonempty)]
    refine run_bind_ok.2 ⟨(), last, steps.update, ?_⟩
    rw [looks_context.run_bind]
    exact run_pure_ok.2 ⟨steps.result.symm, rfl⟩
  have started : (TokenStream.ofText text).checkKeyword .SELECT = false := by
    simp [TokenStream.checkKeyword, steps.word]
  have started' : (TokenStream.ofText text).checkKeyword .INSERT = true := checkKeyword_iff.2 steps.word
  refine ofText_iff.2 ⟨last', ?_⟩
  rw [statement, (looks_checkKeyword _).run_bind]
  dsimp only
  rw [(looks_checkKeyword _).run_bind, if_neg (by simp [started]), if_pos started']
  refine run_bind_ok.2 ⟨insertion, last, inserted, ?_⟩
  rw [pure_bind]
  exact run_bind_ok.2 ⟨(), last', finished, rfl⟩

/-- What an insertion collects. -/
lemma context_eq (steps : InsertSteps env text insertion last) : insertion.context = last.context :=
  congrArg InsertStatement.context steps.result

/-- The rows of an insertion are those of values and the one of the assignments. -/
lemma rows_eq (steps : InsertSteps env text insertion last) :
    insertion.rows = steps.rows ++ (steps.assignment?.map (·.2)).toList :=
  congrArg InsertStatement.rows steps.result

/-- The columns of an insertion with the key that is left out are those of the assignments, if there
are any. -/
lemma target_eq (steps : InsertSteps env text insertion last) :
    ⟨insertion.columns, insertion.generatedKey⟩ = (steps.assignment?.map (·.1)).getD steps.target :=
  congrArg (fun insertion : InsertStatement => Target.mk insertion.columns insertion.generatedKey)
    steps.result

/-- The conditions of an insertion are recorded behind its assignments. -/
lemma conditions_eq (steps : InsertSteps env text insertion last) :
    insertion.context.conditions = steps.assigned.context.conditions := by
  obtain ⟨_, run⟩ := runs_duplicateKeyUpdate.exists_run steps.update
  rw [steps.context_eq, run.conditions_eq_of_editsOnly]

/-- The name of the table is that of the insertion that is kept. -/
lemma tableName_eq (steps : InsertSteps env text insertion last) :
    insertion.tableName?.getD "" = steps.tableName := by
  rw [InsertStatement.tableName?, steps.context_eq, steps.tables_eq]
  rfl

/-- The table of an insertion is named by its first tokens. -/
lemma head_read (steps : InsertSteps env text insertion last) : ∃ head,
    HeadTokens text head steps.tableName ∧
      Run Context.TablesOnly ⟨.ofText text, {}⟩ head steps.named := by
  have word : Run Context.EditsOnly ⟨.ofText text, {}⟩ _ _ := run_token steps.word
  have intoRun : ∃ into : List Token, (into = [] ∨ ∃ span, into = [⟨.keyword .INTO, span⟩]) ∧
      Run Context.EditsOnly (ParserState.advance ⟨.ofText text, {}⟩) into steps.opened := by
    obtain ⟨present, skipped⟩ := steps.into
    rw [run_skipKeyword] at skipped
    split at skipped
    · rename_i known
      obtain ⟨keyword, mem, same⟩ := checkAnyKeyword_iff.1 known
      obtain rfl := List.mem_singleton.1 mem
      obtain ⟨-, next⟩ := Prod.mk.inj (Except.ok.inj skipped)
      rw [← next]
      exact ⟨_, .inr ⟨_, rfl⟩, run_token same⟩
    · obtain ⟨-, next⟩ := Prod.mk.inj (Except.ok.inj skipped)
      rw [← next]
      exact ⟨[], .inl rfl, .refl _⟩
  obtain ⟨into, isInto, intoRun⟩ := intoRun
  have opened := word.trans intoRun
  have openedTables : steps.opened.context.tables = {} := opened.tables_eq
  obtain ⟨source, factor⟩ := tableFactor_read steps.factor
  cases factor with
  | @named _ nameTokens aliasTokens name aliasName isName isAlias run tables =>
    rw [opened.source_eq] at isAlias
    have named : steps.tableName = Text.unquoted name := by
      rw [tableName, tables, openedTables]
      rfl
    rw [named]
    exact ⟨_, .named rfl isInto isName isAlias, (opened.mono tablesOnly_of_editsOnly).trans run⟩
  | @group _ group aliasTokens aliasName balanced isAlias run =>
    rw [opened.source_eq] at isAlias
    have unnamed : steps.tableName = "" := by
      rw [tableName, run.tables_eq, openedTables]
      rfl
    rw [unnamed]
    exact ⟨_, .group rfl isInto balanced isAlias, (opened.trans run).mono tablesOnly_of_editsOnly⟩

/-- Nothing is added in front of the columns. -/
lemma additions_named (steps : InsertSteps env text insertion last) :
    Edit.additions steps.named.context.edits = [] := by
  obtain ⟨present, into⟩ := steps.into
  have skips : Leads KeepsAdditions (skipKeyword [.INTO]) := leads_skipKeyword _
  have factor : Leads KeepsAdditions tableFactor :=
    leads_tableFactor (Recording.namedTable env.rules)
  have first : Edit.additions steps.opened.context.edits = _ := skips.related into
  have second : Edit.additions steps.named.context.edits = _ := factor.related steps.factor
  exact second.trans first

/-- The place where the values of an insertion start. -/
def place (steps : InsertSteps env text insertion last) : Nat :=
  steps.valued.stream.offset

/-- What an insertion adds to its text: the columns it leaves out, unless there are assignments, and the
mark of its values. -/
lemma additions_eq (steps : InsertSteps env text insertion last) : ∃ tokens added,
    TargetRead env steps.named.stream.source steps.tableName steps.named.context.parameters
      steps.named.stream.previousEnd tokens steps.target added ∧
    Run Context.ConditionsOnly steps.named tokens steps.valued ∧
    Edit.additions insertion.context.edits =
      if steps.assignment?.isSome then [.insertValues steps.place .set]
      else added ++ [.insertValues steps.place .values] := by
  obtain ⟨tokens, added, read, run, -, additions⟩ := targetColumns_read steps.columns
  rw [steps.additions_named, List.nil_append] at additions
  have expressions : Leads KeepsAdditions (expression env.rules) := leads_expression
  have rows : Edit.additions steps.listed.context.edits = _ :=
    (leads_valueRows expressions _).related steps.values
  have updated : Edit.additions last.context.edits = _ :=
    (leads_duplicateKeyUpdate expressions).related steps.update
  refine ⟨tokens, added, read, run, ?_⟩
  rw [steps.context_eq, updated]
  rcases assignments_additions steps.assignments with ⟨missing, same⟩ | ⟨present, forgotten⟩
  · rw [same, missing, rows, additions]
    rfl
  · rw [forgotten, additions_forgetColumns, rows, additions, if_pos present, List.filter_append,
      read.forgotten]
    rfl

/-- The table and the columns of an insertion come in front of its values, where no condition is
recorded. -/
lemma front_read (steps : InsertSteps env text insertion last) : ∃ head given added,
    HeadTokens text head steps.tableName ∧
      TargetRead env text steps.tableName (placeholders head) steps.named.stream.previousEnd given
        steps.target added ∧
      Lexer.tokens text = head ++ given ++ steps.valued.stream.ahead ∧
      steps.valued.stream.source = text ∧
      steps.valued.context.parameters = placeholders (head ++ given) ∧
      steps.valued.context.conditions = [] := by
  obtain ⟨head, isHead, headRun⟩ := steps.head_read
  obtain ⟨given, added, read, run, conditions, -⟩ := targetColumns_read steps.columns
  have counted : steps.named.context.parameters = placeholders head := by
    rw [headRun.parameters_eq sameCount_of_tablesOnly]
    exact Nat.zero_add _
  have source : steps.named.stream.source = text := headRun.source_eq
  rw [source, counted] at read
  refine ⟨head, given, added, isHead, read, ?_, run.source_eq.trans source, ?_, ?_⟩
  · rw [List.append_assoc, ← run.ahead_eq]
    exact headRun.ahead_eq
  · rw [run.parameters_eq_of_conditionsOnly, counted, placeholders_append]
  · rw [conditions, headRun.conditions_eq]

/-- The table of an insertion is reached behind the first word. -/
lemma passes_named (steps : InsertSteps env text insertion last) :
    Passes (ParserState.advance ⟨.ofText text, {}⟩) steps.named := by
  obtain ⟨present, into⟩ := steps.into
  have skips : Leads Passes (skipKeyword [.INTO]) := leads_skipKeyword _
  have factor : Leads Passes tableFactor := leads_tableFactor (Recording.namedTable env.rules)
  exact Steady.trans (skips.related into) (factor.related steps.factor)

/-- A parse reaches the table of an insertion. -/
lemma reaches_named (steps : InsertSteps env text insertion last) : Reaches text steps.named :=
  ((Reaches.start text).passes (Advancing.token steps.word)).passes steps.passes_named

/-- A parse reaches the end of an insertion. -/
lemma reaches_last (steps : InsertSteps env text insertion last) : Reaches text last := by
  have expressions : Leads Passes (expression env.rules) := leads_expression
  have valued := steps.reaches_named.passes (passes_targetColumns.related steps.columns)
  have listed := valued.passes ((leads_valueRows expressions _).related steps.values)
  have assigned := listed.passes (passes_assignments.related steps.assignments)
  exact assigned.passes ((leads_duplicateKeyUpdate expressions).related steps.update)

/-- What an insertion inserts is added to its columns, which stand behind the table. -/
lemma insertions_located (steps : InsertSteps env text insertion last) {inserted : Nat × String}
    (mem : inserted ∈ Edit.insertions insertion.context.edits) : ∃ before tokens after added,
      Lexer.tokens text = before ++ tokens ++ after ∧
      TargetRead env text steps.tableName (placeholders before) steps.named.stream.previousEnd tokens
        steps.target added ∧ inserted ∈ Edit.insertions added := by
  obtain ⟨tokens, added, read, run, additions⟩ := steps.additions_eq
  obtain ⟨before, after, split, counted⟩ := steps.keeps_named.located run
  rw [steps.keeps_named.source, counted] at read
  refine ⟨before, tokens, after, added, split, read, ?_⟩
  rw [← Edit.insertions_additions, additions] at mem
  split at mem
  · cases mem
  · rw [Edit.insertions_append] at mem
    exact (List.mem_append.1 mem).resolve_right (by simp [Edit.insertions, Edit.insertedText?])

end InsertSteps

/-- An accepted insertion is read in its parts, and its tokens are valid. -/
lemma insertion_steps {insertion : InsertStatement}
    (success : Statement.ofText env text = .ok (.insert insertion)) : ∃ last,
      Nonempty (InsertSteps env text insertion last) ∧
      ∀ token ∈ Lexer.tokens text, token.kind.isBroken = false := by
  obtain ⟨s, s', finished, ⟨_, same, -⟩ | ⟨_, same, inserted⟩⟩ := ofText_reads success
  · cases same
  · cases same
    obtain ⟨steps⟩ := insert_steps inserted
    obtain ⟨-, keeps, -⟩ := insert_reads inserted
    obtain ⟨passed, valid, split⟩ := steps.reaches_last.exists_passed
    refine ⟨s, ⟨steps⟩, ?_⟩
    rw [split]
    intro token mem
    rcases List.mem_append.1 mem with mem | mem
    · exact valid token mem
    · rcases finish_reads keeps finished with noneLeft | ⟨last, left, isSemicolon⟩
      · rw [noneLeft] at mem
        cases mem
      · rw [left] at mem
        obtain rfl := List.mem_singleton.1 mem
        exact Passage.valid_of_symbol isSemicolon

end Grammar

end SqlRouting
