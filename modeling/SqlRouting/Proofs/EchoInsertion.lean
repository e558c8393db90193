import SqlRouting.Proofs.EchoExpression
import SqlRouting.Proofs.WrittenRows

/-!
# Insertions side by side

The parts of an insertion are read in the same way in two texts with the same tokens up to some place
behind the part.

## Main definitions

* `SqlRouting.Grammar.Tabled` — two texts that part where no table goes on.

## Main results

* `SqlRouting.Grammar.echoes_tableFactor` — tables echo each other.
* `SqlRouting.Grammar.exists_targetColumns` — the columns of an insertion are read alike.
* `SqlRouting.Grammar.echoes_valueRows`, `SqlRouting.Grammar.echoes_assignments` — rows of values and
  assignments echo each other.
* `SqlRouting.Grammar.echoes_duplicateKeyUpdate`, `SqlRouting.Grammar.echoes_finish` — what follows them
  echoes, if the texts end together.
-/

set_option autoImplicit false

namespace SqlRouting

open TokenStream SqlRouting.Parser

/-- A row of an insertion `d` bytes further on in a text. -/
def InsertRow.moved (d : Nat) (row : InsertRow) : InsertRow :=
  { row with span := row.span.moved d }

/-- A row that is not moved is the same. -/
@[simp] lemma InsertRow.moved_zero (row : InsertRow) : row.moved 0 = row := rfl

/-- Further on in a text, parts that are put together are so as before. -/
lemma Span.merge_moved (d : Nat) (a b : Span) :
    (a.moved d).merge (b.moved d) = (a.merge b).moved d := by
  simp [Span.merge, Span.moved, Nat.add_min_add_right, Nat.add_max_add_right]

namespace Grammar

variable {al : Alignment} {env : Environment} {rules : ShardingRule} {table : String}

/-! ## Tables -/

/-- No table goes on with a token of this kind. -/
def EndsTable (kind : TokenKind) : Prop :=
  kind = .symbol .comma ∨ kind = .symbol .leftParen ∨ kind = .symbol .rightParen ∨
    kind = .keyword .VALUES ∨ kind = .keyword .VALUE ∨ kind = .endOfInput ∨
    kind = .symbol .semicolon ∨ kind = .keyword .ON

/-- Two texts part at tokens that no table goes on with. -/
structure Tabled (al : Alignment) : Prop where
  /-- The one text. -/
  left : EndsTable (firstKind al.left)
  /-- The other text. -/
  right : EndsTable (firstKind al.right)

namespace EndsTable

variable {kind : TokenKind}

/-- The name of a table ends there. -/
lemma noName (h : EndsTable kind) (name : String) : kind ≠ .identifier name := by
  rcases h with rfl | rfl | rfl | rfl | rfl | rfl | rfl | rfl <;> simp

/-- No name follows a schema. -/
lemma noDot (h : EndsTable kind) : kind ≠ .symbol .dot := by
  rcases h with rfl | rfl | rfl | rfl | rfl | rfl | rfl | rfl <;> simp

/-- No word for an alias or in front of a table is there. -/
lemma noKeyword (h : EndsTable kind) :
    kind.isKeywordIn [.AS] = false ∧ kind.isKeywordIn [.INTO] = false := by
  rcases h with rfl | rfl | rfl | rfl | rfl | rfl | rfl | rfl <;> exact ⟨rfl, rfl⟩

/-- No query starts there. -/
lemma noQuery (h : EndsTable kind) : kind ≠ .keyword .SELECT := by
  rcases h with rfl | rfl | rfl | rfl | rfl | rfl | rfl | rfl <;> simp

end EndsTable

/-- An alias is read on both sides. -/
lemma echoes_aliasName (tabled : Tabled al) : Echoes al id aliasName aliasName := by
  refine (Echoes.skipKeyword tabled.right.noKeyword.1).bind fun word => .ite
    (fun _ => ⟨fun s name s' success => ?_, fun s t name s' _ beside success reaches => ?_⟩) fun _ => ?_
  · rw [looks_current.run_bind] at success
    split at success
    · cases success
      exact List.tail_suffix _
    · cases success
      exact List.tail_suffix _
    · cases success
      exact List.tail_suffix _
    · exact absurd success run_unexpected_ne
  · rw [looks_current.run_bind] at success ⊢
    split at success
    · rename_i found isName
      cases success
      obtain ⟨isName', beside'⟩ := beside.advance isName reaches
      rw [show t.stream.current.kind = _ from isName']
      exact ⟨t.advance, rfl, beside'⟩
    · rename_i found isText
      cases success
      obtain ⟨isText', beside'⟩ := beside.advance isText reaches
      rw [show t.stream.current.kind = _ from isText']
      exact ⟨t.advance, rfl, beside'⟩
    · rename_i keyword isKeyword
      cases success
      obtain ⟨isKeyword', beside'⟩ := beside.advance isKeyword reaches
      have written := beside.text_current reaches
      rw [show t.stream.current.kind = _ from isKeyword']
      exact ⟨t.advance, congrArg (fun name => Except.ok (some name, t.advance)) written, beside'⟩
    · exact absurd success run_unexpected_ne
  · refine .look (fun kind kind' => kind' = kind ∨ EndsTable kind ∧ EndsTable kind') looks_kind
      looks_kind (fun common s t _ twin => ?_) fun kind kind' same => .of_echoes ?_
    · rcases twin.kind_cases with same | ⟨here, there⟩
      · exact .inl same
      · exact .inr ⟨here ▸ tabled.left, there ▸ tabled.right⟩
    · rcases same with rfl | ⟨ends, ends'⟩
      · split
        · exact Echoes.advance.bind fun _ => .pure rfl
        · exact .pure rfl
      · split
        · exact absurd rfl (ends.noName _)
        · split
          · exact absurd rfl (ends'.noName _)
          · exact .pure rfl

/-- The name of a table is read on both sides. -/
lemma echoes_tableName (tabled : Tabled al) :
    Echoes al (fun read => (read.1, read.2 + al.shift)) tableName tableName := by
  refine Echoes.acceptIdentifier.bind fun first => ?_
  refine (Echoes.skipSymbol tabled.right.noDot).bind fun dot => .ite (fun _ => ?_) fun _ => .pure rfl
  exact Echoes.acceptIdentifier.bind fun _ => .pure rfl

/-- The name of a table ends between the offsets. -/
lemma within_of_tableName {s t s' : ParserState} {read : String × Nat} (beside : Beside al s t)
    (success : tableName.run s = .ok (read, s')) (reaches : al.left <:+ s'.stream.ahead) :
    al.within read.2 := by
  obtain ⟨⟨first, span⟩, s₁, accepted, rest⟩ := run_bind_ok.1 success
  obtain ⟨-, rfl, rfl⟩ := run_acceptIdentifier_ok.1 accepted
  rw [run_skipSymbol_bind] at rest
  split at rest
  · obtain ⟨⟨name, span⟩, s₂, accepted', done⟩ := run_bind_ok.1 rest
    obtain ⟨-, rfl, rfl⟩ := run_acceptIdentifier_ok.1 accepted'
    obtain ⟨rfl, rfl⟩ := run_pure_ok.1 done
    have behind : al.left <:+ s.advance.advance.stream.ahead := reaches.trans (List.tail_suffix _)
    obtain ⟨-, -, -, beside₁⟩ := beside.passed (behind.trans (List.tail_suffix _))
    obtain ⟨-, -, -, beside₂⟩ := beside₁.passed behind
    obtain ⟨-, -, stop, -⟩ := beside₂.passed reaches
    exact stop
  · obtain ⟨rfl, rfl⟩ := run_pure_ok.1 rest
    obtain ⟨-, -, stop, -⟩ := beside.passed reaches
    exact stop

/-- A table with its alias is read on both sides. -/
lemma echoes_namedTable (tabled : Tabled al) : Echoes al id namedTable namedTable := by
  refine echoes_offset (fun s result s' success => ?_) fun start within => .of_echoes ?_
  · obtain ⟨source, factor⟩ := namedTable_read success
    obtain ⟨tokens, nonempty, run⟩ := factor.exists_run
    exact ⟨_, tokens, nonempty, run⟩
  refine .bindKnown (fun read => al.within read.2) (echoes_tableName tabled)
    (fun s t read s' beside success reaches => within_of_tableName beside success reaches)
    (fun read s result s' success => ?_) fun read stop => ?_
  · obtain ⟨aliasName, s₁, aliasRead, rest⟩ := run_bind_ok.1 success
    obtain ⟨tokens, -, run⟩ := aliasName_reads aliasRead
    rw [(looks_textOf _).run_bind] at rest
    cases rest
    show s₁.stream.ahead <:+ s.stream.ahead
    exact suffix_of_run run
  · refine (echoes_aliasName tabled).bind fun aliasName => ?_
    refine (Echoes.textOf within stop).bind fun written => ?_
    refine (Echoes.addEdit (.table _ _ written)).bind fun _ => ?_
    exact .record fun _ _ alike => al.contexts.addTable alike _

/-- Whether a query in parentheses is there is the same on both sides. -/
lemma Tabled.checkQuery_eq (tabled : Tabled al) {common : List Token} {s t : ParserState}
    (inside : Inside al s) (twin : Twin al common s t) :
    (s.stream.check (.symbol .leftParen) && s.stream.peek == .keyword .SELECT) =
      (t.stream.check (.symbol .leftParen) && t.stream.peek == .keyword .SELECT) := by
  obtain ⟨token, others, rfl⟩ := inside.exists_cons twin
  have next : (s.stream.peek == .keyword .SELECT) = (t.stream.peek == .keyword .SELECT) := by
    rw [← kind_advance, ← kind_advance]
    rcases twin.advance.kind_cases with same | ⟨here, there⟩
    · exact congrArg (· == _) same.symm
    · have noQuery : s.advance.stream.kind ≠ .keyword .SELECT := here ▸ tabled.left.noQuery
      have noQuery' : t.advance.stream.kind ≠ .keyword .SELECT := there ▸ tabled.right.noQuery
      exact (beq_eq_false_iff_ne.2 noQuery).trans (beq_eq_false_iff_ne.2 noQuery').symm
  rw [next, check, check, twin.kind_eq]

/-- A table or a group is read on both sides. -/
lemma echoes_tableFactor (tabled : Tabled al) : Echoes al id tableFactor tableFactor := by
  have echo : EchoesFrom al (Inside al) id tableFactor tableFactor := by
    refine .look Eq looks_checkQueryInParentheses looks_checkQueryInParentheses
      (fun _ _ _ inside twin => tabled.checkQuery_eq inside twin) fun isQuery _ same =>
      same ▸ .ite (fun _ => ?_) fun _ => ?_
    · exact .look (fun _ _ => True) looks_current looks_current (fun _ _ _ _ _ => trivial)
        fun _ _ _ => .unsupported _ _ _
    · refine .look Eq (looks_checkSymbol _) (looks_checkSymbol _) (fun common s t inside twin => ?_)
        fun opened _ same => same ▸ .ite (fun isOpened => ?_) fun _ => ?_
      · obtain ⟨token, others, rfl⟩ := inside.1.exists_cons twin
        rw [check, check, twin.kind_eq]
      · have group : EchoesFrom al _ _ _ _ := Echoes.parentheses
        exact .bind (group.weaken fun s known => check_symbol.1 (known.2.trans isOpened)) fun _ =>
          (echoes_aliasName tabled).bind fun _ => .pure rfl
      · exact .of_echoes (echoes_namedTable tabled)
  refine echoes_inside (fun s a s' success => ?_) echo.echo
  obtain ⟨source, factor⟩ := tableFactor_read success
  obtain ⟨tokens, nonempty, run⟩ := factor.exists_run
  exact ⟨Context.TablesOnly, tokens, nonempty, run⟩

/-! ## Columns -/

/-- An expression names the same column wherever it stands. -/
lemma assignedColumn_moved {e : Expression} {column : Column}
    (names : assignedColumn table e = .ok column) (d : Nat) :
    assignedColumn table (e.moved d) = .ok column := by
  unfold assignedColumn at names
  split at names
  all_goals rename_i same
  · rw [assignedColumn, Expression.moved, same]
    exact names
  · rw [assignedColumn, Expression.moved, same]
    exact names
  · rw [assignedColumn, Expression.moved, same]
    exact names
  · cases names

/-- A column is read on both sides. -/
lemma echoes_listedColumn (closed : Closed al) :
    Echoes al id (listedColumn rules table) (listedColumn rules table) :=
  (echoes_expression closed).bind fun _ => .lift fun _ names => assignedColumn_moved names al.shift

/-- A list of columns is read on both sides. -/
lemma echoes_columnList (closed : Closed al) (noComma : firstKind al.right ≠ .symbol .comma) :
    Echoes al id (columnList rules table) (columnList rules table) := by
  have columns : Echoes al id (commaSeparated (listedColumn rules table))
      (commaSeparated (listedColumn rules table)) := by
    rw [← List.map_id_fun]
    exact (echoes_listedColumn closed).commaSeparated runs_listedColumn runs_listedColumn noComma
  refine Echoes.advance.bind fun _ => columns.bind fun found => (Echoes.acceptSymbol _).bind fun close => ?_
  dsimp only [id]
  split
  · rename_i key _
    exact (Echoes.addEdit (.items close.span.start [key])).bind fun _ => .pure rfl
  · exact .pure rfl

/-- Known columns are added on both sides. -/
lemma echoes_knownColumns (known : List String) :
    Echoes al id (knownColumns rules table known) (knownColumns rules table known) :=
  Echoes.previousEnd.bind fun stop => (Echoes.addEdit (.insertColumns stop _)).bind fun _ => .pure rfl

/-- A query in parentheses is there on both sides, or on neither. -/
lemma Closed.checkQuery_eq (closed : Closed al) (tabled : Tabled al) {common : List Token} {s t : ParserState}
    (twin : Twin al common s t) :
    (t.stream.check (.symbol .leftParen) && t.stream.peek == .keyword .SELECT) =
      (s.stream.check (.symbol .leftParen) && s.stream.peek == .keyword .SELECT) := by
  cases common with
  | nil =>
    have absent {stream : TokenStream} {rest : List Token} (ahead : stream.ahead = rest)
        (stop : Stops (firstKind rest)) : stream.check (.symbol .leftParen) = false := by
      rw [← Bool.not_eq_true, check_symbol, kind_eq_firstKind, ahead]
      exact stop.ends.noArguments
    rw [absent twin.ahead closed.left, absent twin.ahead' closed.right]
    rfl
  | cons token common =>
    exact (tabled.checkQuery_eq ⟨token, _, twin.ahead, List.suffix_append _ _⟩ twin).symm

/-- The columns of an insertion are read on both sides, if they stand in front of the place where the texts
part.

**Proof sketch.** Behind the columns the place of the values is recorded, which is the start of a token in
front of the place where the texts part. -/
lemma exists_targetColumns {target : Target} {s t s' : ParserState} (closed : Closed al) (tabled : Tabled al)
    (noComma : firstKind al.right ≠ .symbol .comma) (beside : Beside al s t)
    (success : (targetColumns env table).run s = .ok (target, s')) (inside : Inside al s') :
    ∃ t', (targetColumns env table).run t = .ok (target, t') ∧ Beside al s' t' := by
  have reaches : al.left <:+ s'.stream.ahead := by
    obtain ⟨token, rest, ahead, reaches⟩ := inside
    rw [ahead]
    exact reaches.trans (List.suffix_cons _ _)
  -- whatever the columns are, the place of the values is recorded after them
  have placed {p : Parser Target} (like : Echoes al id p p)
      (success : (do let target ← p; addEdit (.insertValues (← offset) .values); return target).run s =
        .ok (target, s')) :
      ∃ t', (do let target ← p; addEdit (.insertValues (← offset) .values); return target).run t =
        .ok (target, t') ∧ Beside al s' t' := by
    obtain ⟨found, s₁, read, done⟩ := run_bind_ok.1 success
    cases done
    obtain ⟨t₁, read', common, twin⟩ := like.echo _ _ _ _ trivial beside read reaches
    obtain ⟨token, others, rfl⟩ := Inside.exists_cons (s := s₁) inside twin
    obtain ⟨-, moved⟩ := twin.offset
    refine ⟨_, run_bind_ok.2 ⟨_, t₁, read', rfl⟩, _, twin.record ?_⟩
    rw [moved]
    exact al.contexts.addEdit twin.alike _
  obtain ⟨common, twin⟩ := beside
  have opened := closed.check_eq twin fun _ stop => stop.ends.noArguments
  have query := closed.checkQuery_eq tabled twin
  rw [targetColumns, (looks_checkSymbol _).run_bind] at success ⊢
  dsimp only at success ⊢
  rw [looks_checkQueryInParentheses.run_bind] at success ⊢
  rw [query, opened]
  split at success
  · rename_i isGiven
    rw [if_pos isGiven]
    exact placed (echoes_columnList closed noComma) success
  · rename_i noList
    rw [if_neg noList]
    split at success
    · exact placed (echoes_knownColumns _) success
    · exact placed (.pure rfl) success

/-- A query in place of the values is refused on both sides. -/
lemma echoes_refuseQuery (closed : Closed al) (tabled : Tabled al) :
    Echoes al id refuseQuery refuseQuery := by
  have word : Echoes al id (checkKeyword .SELECT) (checkKeyword .SELECT) := by
    refine .looks (looks_checkKeyword _) (looks_checkKeyword _) fun common s t twin => ?_
    rw [id, Bool.eq_iff_iff, checkKeyword_iff, checkKeyword_iff]
    rcases twin.kind_cases with same | ⟨here, there⟩
    · rw [same]
    · rw [here, there]
      exact iff_of_false tabled.right.noQuery tabled.left.noQuery
  have query : Echoes al id checkQueryInParentheses checkQueryInParentheses :=
    .looks looks_checkQueryInParentheses looks_checkQueryInParentheses fun _ _ _ twin =>
      closed.checkQuery_eq tabled twin
  refine word.bind fun _ => query.bind fun _ => .ite (fun _ => ?_) fun _ => .pure rfl
  exact .look (fun _ _ => True) looks_current looks_current (fun _ _ _ _ _ => trivial)
    fun _ _ _ => .unsupported _ _ _

/-! ## Rows of values -/

/-- Values set the same conditions wherever they stand. -/
lemma rowConditions_moved (columns : List Column) (values : List Expression) (d : Nat) :
    rowConditions rules columns (values.map (Expression.moved d)) =
      rowConditions rules columns values := by
  rw [rowConditions, rowConditions, List.zip_map_right, List.filterMap_map]
  rfl

section Rows

variable {columns columns' : List Column}

/-- What is collected stays alike if the same values are given to the one columns and to the others. -/
def AlikeRows (al : Alignment) (rules : ShardingRule) (columns columns' : List Column) : Prop :=
  ∀ values c c', al.contexts.alike c c' → al.contexts.alike
    (c.addConditions (rowConditions rules columns values))
    (c'.addConditions (rowConditions rules columns' values))

/-- The same values may be given to the same columns. -/
lemma alikeRows_self (al : Alignment) (rules : ShardingRule) (columns : List Column) :
    AlikeRows al rules columns columns :=
  fun _ _ _ alike => al.contexts.addConditions alike _

/-- Values are read on both sides. -/
lemma echoes_values (closed : Closed al) (noComma : firstKind al.right ≠ .symbol .comma) :
    Echoes al (List.map (Expression.moved al.shift)) (commaSeparated (expression rules))
      (commaSeparated (expression rules)) :=
  (echoes_expression closed).commaSeparated runs_expression runs_expression noComma

/-- The conditions of values are recorded on both sides. -/
lemma echoes_rowConditions (alike : AlikeRows al rules columns columns') (values : List Expression) :
    Echoes al id (modifyContext (·.addConditions (rowConditions rules columns values)))
      (modifyContext (·.addConditions
        (rowConditions rules columns' (values.map (Expression.moved al.shift))))) := by
  rw [rowConditions_moved]
  exact .record (alike values)

/-- A row of values is read on both sides. -/
lemma echoes_valueRow (closed : Closed al) (noComma : firstKind al.right ≠ .symbol .comma)
    (alike : AlikeRows al rules columns columns') :
    Echoes al (InsertRow.moved al.shift) (valueRow rules columns) (valueRow rules columns') := by
  refine (Echoes.acceptSymbol _).bind fun opening => .parameters fun c c' first => ?_
  refine (echoes_values closed noComma).bind fun values => ?_
  refine (Echoes.acceptSymbol _).bind fun closing => (echoes_rowConditions alike values).bind fun _ => ?_
  refine .parameters fun d d' next => .pure ?_
  rw [InsertRow.ofRange, first, next]
  exact congrArg _ (Span.merge_moved _ _ _)

/-- The values of a row are read on both sides. -/
lemma echoes_rowValues (closed : Closed al) (noComma : firstKind al.right ≠ .symbol .comma)
    (alike : AlikeRows al rules columns columns') :
    Echoes al (List.map (Expression.moved al.shift)) (rowValues rules columns)
      (rowValues rules columns') := by
  refine (Echoes.acceptSymbol _).bind fun _ => (echoes_values closed noComma).bind fun values => ?_
  refine (Echoes.acceptSymbol _).bind fun _ => (echoes_rowConditions alike values).bind fun _ => ?_
  exact .pure rfl

end Rows

/-- Rows of values are read on both sides. -/
lemma echoes_valueRows (closed : Closed al) (noComma : firstKind al.right ≠ .symbol .comma)
    (noKeyword : (firstKind al.right).isKeywordIn [.VALUES, .VALUE] = false) {columns : List Column}
    (inTable : ∀ column ∈ columns, column.tableName = table) :
    Echoes al (List.map (InsertRow.moved al.shift)) (valueRows rules columns) (valueRows rules columns) := by
  have runs : Runs Context.ConditionsOnly (valueRow rules columns) := (lists_valueRow [] inTable).runs
  refine (Echoes.skipKeyword noKeyword).bind fun _ => .ite (fun _ => ?_) fun _ => .pure rfl
  exact (echoes_valueRow closed noComma (alikeRows_self al rules columns)).commaSeparated runs runs noComma

/-! ## Assignments -/

/-- An assignment is read on both sides. -/
lemma echoes_assignment (closed : Closed al) :
    Echoes al id (assignment rules table) (assignment rules table) := by
  refine (echoes_listedColumn closed).bind fun column => (Echoes.acceptSymbol _).bind fun _ => ?_
  refine (echoes_expression closed).bind fun value => ?_
  exact (echoes_rowConditions (alikeRows_self al rules [column]) [value]).bind fun _ => .pure rfl

/-- Assignments are read on both sides, if what is collected stays alike where the columns are
forgotten. -/
lemma echoes_assignments (closed : Closed al) (noComma : firstKind al.right ≠ .symbol .comma)
    (noKeyword : (firstKind al.right).isKeywordIn env.dialect.insertKeywords = false)
    (forgets : ∀ c c', al.contexts.alike c c' → al.contexts.alike (forgetColumns c) (forgetColumns c')) :
    Echoes al (Option.map (Prod.map id (InsertRow.moved al.shift))) (assignments env table)
      (assignments env table) := by
  have columns : Echoes al id (commaSeparated (assignment env.rules table))
      (commaSeparated (assignment env.rules table)) := by
    rw [← List.map_id_fun]
    exact (echoes_assignment closed).commaSeparated lists_setting.runs lists_setting.runs noComma
  refine (Echoes.skipKeyword noKeyword).bind fun _ => .ite (fun _ => ?_) fun _ => .pure rfl
  refine Echoes.previousEnd.bind fun start => (Echoes.record forgets).bind fun _ => ?_
  refine .parameters fun c c' first => columns.bind fun found => Echoes.previousEnd.bind fun stop => ?_
  refine .parameters fun d d' next => .pure ?_
  rw [InsertRow.ofRange, first, next]
  rfl

/-! ## Rows that are already there -/

/-- An assignment to a row that is already there is read on both sides. -/
lemma echoes_update (closed : Closed al) : Echoes al id (update rules table) (update rules table) := by
  refine (echoes_expression closed).bind fun left => ?_
  have column : Echoes al id (liftM (assignedColumn table left))
      (liftM (assignedColumn table (left.moved al.shift))) :=
    .lift fun _ names => assignedColumn_moved names al.shift
  refine column.bind fun column => ?_
  have refused (span span' : Span) :
      Echoes al id (unsupported (.updateOfShardingColumn column.name) span : Parser Unit)
        (unsupported (.updateOfShardingColumn column.name) span') := .unsupported _ _ _
  refine .ite (fun _ => (refused _ _).bind fun _ => ?_) fun _ => ?_
  all_goals exact (Echoes.acceptSymbol _).bind fun _ => (echoes_expression closed).bind fun _ => .pure rfl

/-- What to do with rows that are already there is read on both sides. -/
lemma echoes_duplicateKeyUpdate (closed : Closed al) (ends : firstKind al.right = .endOfInput) :
    Echoes al id (duplicateKeyUpdate rules table) (duplicateKeyUpdate rules table) := by
  have one : Echoes al id (update rules table) (update rules table) := echoes_update closed
  have updates := one.commaSeparated runs_update runs_update (by rw [ends]; simp)
  refine (Echoes.skipKeyword (by rw [ends]; rfl)).bind fun word =>
    .ite (fun _ => ?_) fun _ => .pure rfl
  refine (Echoes.acceptKeyword _).bind fun _ => (Echoes.acceptKeyword _).bind fun _ => ?_
  exact (Echoes.acceptKeyword _).bind fun _ => updates.bind fun _ => .pure rfl

/-- The end of the text is read on both sides. -/
lemma echoes_finish (ends : firstKind al.left = .endOfInput) (ends' : firstKind al.right = .endOfInput) :
    Echoes al id finish finish := by
  refine (Echoes.skipSymbol (by rw [ends']; simp)).bind fun _ => .look
    (fun stream stream' => stream'.atEnd = stream.atEnd) looks_stream looks_stream
    (fun common s t _ twin => ?_) fun stream stream' same => ?_
  · rw [atEnd, atEnd]
    rcases twin.kind_cases with same | ⟨here, there⟩
    · rw [same]
    · rw [here, there, ends, ends']
  · rw [same]
    exact .ite (fun _ => .pure rfl) fun _ => .unexpected _ _

end Grammar

end SqlRouting
