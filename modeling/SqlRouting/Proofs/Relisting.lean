import SqlRouting.Proofs.EchoInsertion

/-!
# Insertions with their columns listed

A text with columns inserted into the list of an insertion, or with the whole list inserted, is read
again: up to the insertion as before, then by the list with the inserted columns in it, and behind that
as before again.

## Main definitions

* `SqlRouting.Alignment.inFront`, `SqlRouting.Alignment.behind` — the two sides of an insertion.
* `SqlRouting.Grammar.ListRead` — a list of columns that is read up to its end.
* `SqlRouting.Grammar.Relisting` — the parse of a text that lists the columns of an insertion.

## Main results

* `SqlRouting.Grammar.repeats_names` — names with commas between are read as columns.
* `SqlRouting.Grammar.ListRead.run` — a list of columns with the key in it is read as it is.
* `SqlRouting.Grammar.exists_relisting_key` — a list of columns with a key inserted at its end.
* `SqlRouting.Grammar.exists_relisting_known` — a list of columns inserted behind the table.
-/

set_option autoImplicit false

namespace SqlRouting

open TokenStream SqlRouting.Parser

/-! ## The two sides of an insertion -/

/-- Contexts are alike if they have the same tables and have counted as many placeholders. -/
def Likeness.counted (d : Nat) : Likeness d where
  alike c c' := c'.tables = c.tables ∧ c'.parameters = c.parameters
  tables h := h.1
  parameters h := h.2
  addEdit h _ := h
  addConditions h _ := h
  addTable h table := ⟨congrArg (Tables.add · table) h.1, h.2⟩
  passParameters h count := ⟨h.1, congrArg (· + count) h.2⟩

namespace Alignment

variable {text grown : String} {place d : Nat} {before inserted after : List Token}

/-- A text beside the same text with something inserted, up to the insertion. -/
def inFront (g : Lexer.Grown text grown place d before inserted after) (nonempty : after ≠ []) :
    Alignment where
  text := text
  other := grown
  left := after
  right := inserted ++ after.map (Token.moved d)
  shift := 0
  within := (· ≤ place)
  slices := g.slice_before
  ending := fun empty => absurd empty nonempty
  contexts := .counted 0

/-- A text beside the same text with something inserted, behind the insertion. -/
def behind (g : Lexer.Grown text grown place d before inserted after) : Alignment where
  text := text
  other := grown
  left := []
  right := []
  shift := d
  within := (place ≤ ·)
  slices := fun start _ => g.slice_behind start
  ending := fun _ => ⟨rfl, g.within, g.length⟩
  contexts := .counted d

/-- Behind the insertion the texts part where they end. -/
lemma closed_behind (g : Lexer.Grown text grown place d before inserted after) :
    Grammar.Closed (Alignment.behind g) :=
  ⟨.inr (.inr (.inl rfl)), .inr (.inr (.inl rfl))⟩

/-- Behind the insertion no comma stands where the texts part. -/
lemma noComma_behind (g : Lexer.Grown text grown place d before inserted after) :
    firstKind (Alignment.behind g).right ≠ .symbol .comma := by
  show TokenKind.endOfInput ≠ .symbol .comma
  simp

/-- The texts start side by side. -/
lemma beside_inFront (g : Lexer.Grown text grown place d before inserted after) (nonempty : after ≠ []) :
    Beside (Alignment.inFront g nonempty) ⟨.ofText text, {}⟩ ⟨.ofText grown, {}⟩ := by
  refine beside_start (Alignment.inFront g nonempty) rfl g.tokens g.tokens_grown (fun token mem => ?_)
    (Nat.zero_le _) ⟨rfl, rfl⟩
  obtain ⟨proper, stop⟩ := g.before token mem
  exact ⟨Nat.le_trans (Nat.le_of_lt proper) stop, stop⟩

/-- Behind the first token that both texts go on with they stand side by side. -/
lemma beside_behind (g : Lexer.Grown text grown place d before inserted after) {s t : ParserState}
    {token : Token} {rest : List Token} (ahead : s.stream.ahead = token :: rest)
    (ahead' : t.stream.ahead = (token :: rest).map (Token.moved d))
    (part : ∀ other ∈ token :: rest, other ∈ after)
    (source : s.stream.source = text) (source' : t.stream.source = grown)
    (length : s.stream.length = Text.byteLength text.toList)
    (length' : t.stream.length = Text.byteLength grown.toList)
    (tables : t.context.tables = s.context.tables)
    (parameters : t.context.parameters = s.context.parameters) :
    Beside (Alignment.behind g) s.advance t.advance := by
  have inside : ∀ other ∈ token :: rest, place ≤ other.span.start ∧ place ≤ other.span.stop := by
    intro other mem
    obtain ⟨start, proper⟩ := g.after other (part other mem)
    exact ⟨start, Nat.le_trans start (Nat.le_of_lt proper)⟩
  have current : s.stream.current = token := by simp [TokenStream.current, ahead]
  have current' : t.stream.current = token.moved d := by simp [TokenStream.current, ahead']
  refine ⟨rest, source, source', ?_, ?_, ?_, ?_, ?_, length, length', tables, parameters⟩
  · show s.stream.ahead.tail = rest ++ []
    rw [ahead, List.append_nil]
    rfl
  · show t.stream.ahead.tail = rest.map (Token.moved d) ++ []
    rw [ahead', List.append_nil]
    rfl
  · exact fun other mem => inside other (List.mem_cons_of_mem _ mem)
  · show place ≤ s.stream.current.span.stop
    rw [current]
    exact (inside token List.mem_cons_self).2
  · show t.stream.current.span.stop = s.stream.current.span.stop + d
    rw [current, current']
    rfl

end Alignment

namespace Grammar

variable {env : Environment} {rules : ShardingRule} {table text : String} {s s' t : ParserState}

/-! ## Lists of names -/

/-- A name is read as a column, where nothing follows that goes on with it. -/
lemma run_listedColumn {name : String} {span : Span} {next : Token} {rest : List Token}
    (ahead : t.stream.ahead = ⟨.identifier name, span⟩ :: next :: rest) (ends : Ends next.kind) :
    ∃ t', (listedColumn rules table).run t = .ok (namedColumn table name, t') ∧
      Run Context.EditsOnly t [⟨.identifier name, span⟩] t' := by
  have ahead' : t.stream.ahead = [⟨.identifier name, span⟩] ++ next :: rest := ahead
  obtain ⟨e, t', read, node, left⟩ := expression_of_lone rules (.bare name span) ahead' ends
  obtain ⟨tokens, run⟩ := runs_expression.exists_run read
  have passed := run.ahead_eq
  rw [left, ahead'] at passed
  obtain rfl := List.append_cancel_right passed
  have names : assignedColumn table e = .ok (namedColumn table name) := by
    rw [assignedColumn, node]
    rfl
  exact ⟨t', run_bind_ok.2 ⟨e, t', read, run_lift_ok.2 ⟨names, rfl⟩⟩, run⟩

/-- Names with commas between are read as columns, up to a closing parenthesis. -/
lemma repeats_names {names : List String} (any : names ≠ []) {tokens rest : List Token} {closing : Token}
    (kinds : tokens.map Token.kind = (names.map TokenKind.identifier).intersperse (.symbol .comma))
    (closes : closing.kind = .symbol .rightParen) (ahead : t.stream.ahead = tokens ++ closing :: rest) :
    ∃ t', Repeats (listedColumn rules table) t (names.map (namedColumn table)) t' ∧
      Run Context.EditsOnly t tokens t' ∧ t'.context.parameters = t.context.parameters := by
  induction names generalizing tokens t with
  | nil => exact absurd rfl any
  | cons name names ih =>
    cases names with
    | nil =>
      obtain ⟨⟨_, span⟩, others, rfl, rfl, noOthers⟩ := List.map_eq_cons_iff.1 kinds
      obtain rfl := List.map_eq_nil_iff.1 noOthers
      have ends : Ends closing.kind := closes ▸ Stops.ends (.inl rfl)
      obtain ⟨t', read, run⟩ := run_listedColumn ahead ends
      refine ⟨t', .one read ?_, run, run.counts⟩
      rw [kind_of_ahead_cons (run.ahead_of_append ahead), closes]
      simp
    | cons next names =>
      rw [List.map_cons, List.map_cons, List.intersperse_cons_cons] at kinds
      obtain ⟨⟨_, span⟩, more, rfl, rfl, others⟩ := List.map_eq_cons_iff.1 kinds
      obtain ⟨comma, tokens, rfl, isComma, others⟩ := List.map_eq_cons_iff.1 others
      have ends : Ends comma.kind := isComma ▸ Stops.ends (.inr (.inl rfl))
      obtain ⟨t₁, read, run⟩ := run_listedColumn ahead ends
      have left : t₁.stream.ahead = comma :: (tokens ++ closing :: rest) := run.ahead_of_append ahead
      have comma' : t₁.stream.kind = .symbol .comma := (kind_of_ahead_cons left).trans isComma
      have next : t₁.advance.stream.ahead = tokens ++ closing :: rest := congrArg List.tail left
      obtain ⟨t', repeats, run', counted⟩ := ih (by simp) others next
      have passed : Run Context.EditsOnly t₁ [comma] t₁.advance :=
        .single (.token left (by simp [isComma]))
      exact ⟨t', .cons read comma' repeats, run.trans (passed.trans run'), counted.trans run.counts⟩

/-- Names with commas between do not start with a keyword. -/
lemma kind_ne_of_names {names : List String} (any : names ≠ []) {tokens rest : List Token}
    (kinds : tokens.map Token.kind = (names.map TokenKind.identifier).intersperse (.symbol .comma))
    (ahead : t.stream.ahead = tokens ++ rest) {keyword : Keyword} :
    t.stream.kind ≠ .keyword keyword := by
  obtain ⟨name, names, rfl⟩ := List.exists_cons_of_ne_nil any
  obtain ⟨token, others, rfl, isName⟩ :
      ∃ token others, tokens = token :: others ∧ token.kind = .identifier name := by
    cases names with
    | nil =>
      obtain ⟨token, others, same, isName, -⟩ := List.map_eq_cons_iff.1 kinds
      exact ⟨token, others, same, isName⟩
    | cons next names =>
      obtain ⟨token, others, same, isName, -⟩ := List.map_eq_cons_iff.1 kinds
      exact ⟨token, others, same, isName⟩
  rw [kind_of_ahead_cons ahead, isName]
  simp

/-- A key behind a comma is read as another column behind one, up to a closing parenthesis. -/
lemma exists_repeats_of_key {t₁ : ParserState} {column : Column} {key : String} {comma closing : Token}
    {tokens rest : List Token} (read : (listedColumn rules table).run t = .ok (column, t₁))
    (ahead : t₁.stream.ahead = comma :: (tokens ++ closing :: rest))
    (isComma : comma.kind = .symbol .comma) (isKey : tokens.map Token.kind = [.identifier key])
    (closes : closing.kind = .symbol .rightParen) :
    ∃ t', Repeats (listedColumn rules table) t [column, namedColumn table key] t' ∧
      t'.stream.kind = .symbol .rightParen ∧
      Run Context.EditsOnly t₁ (comma :: (tokens ++ [closing])) t'.advance ∧
      t'.advance.context.parameters = t₁.context.parameters := by
  have behind : t₁.advance.stream.ahead = tokens ++ closing :: rest := congrArg List.tail ahead
  obtain ⟨t', repeats, run, counted⟩ := repeats_names (List.cons_ne_nil key []) isKey closes behind
  have last : t'.stream.ahead = closing :: rest := run.ahead_of_append behind
  have passed : Run Context.EditsOnly t₁ [comma] t₁.advance :=
    .single (.token ahead (by simp [isComma]))
  have closed : Run Context.EditsOnly t' [closing] t'.advance :=
    .single (.token last (by simp [closes]))
  exact ⟨t', .cons read ((kind_of_ahead_cons ahead).trans isComma) repeats,
    (kind_of_ahead_cons last).trans closes, passed.trans (run.trans closed), counted⟩

/-! ## Lists of columns -/

/-- What stands between parentheses in front of the values is a list of columns, which is read up to the
closing one. -/
structure ListRead (env : Environment) (table : String) (s : ParserState) (columns : List Column)
    (s₁ : ParserState) : Prop where
  /-- A parenthesis opens the list. -/
  opens : s.stream.kind = .symbol .leftParen
  /-- No query follows it. -/
  noQuery : s.stream.peek ≠ .keyword .SELECT
  /-- The columns are read. -/
  columns : (commaSeparated (listedColumn env.rules table)).run s.advance = .ok (columns, s₁)
  /-- A parenthesis closes the list. -/
  closes : s₁.stream.kind = .symbol .rightParen

/-- Columns that are passed are read from a list. -/
lemma exists_listRead {target : Target}
    (success : (targetColumns env table).run s = .ok (target, s'))
    (moved : s'.stream.ahead ≠ s.stream.ahead) : ∃ s₁, ListRead env table s target.columns s₁ ∧
      s'.stream = s₁.stream.advance ∧ s'.context.tables = s₁.context.tables ∧
      s'.context.parameters = s₁.context.parameters := by
  rw [targetColumns, (looks_checkSymbol _).run_bind] at success
  dsimp only at success
  rw [looks_checkQueryInParentheses.run_bind] at success
  split at success
  · rename_i opened
    rw [Bool.and_eq_true, check_symbol] at opened
    have noQuery : s.stream.peek ≠ .keyword .SELECT := by
      intro isQuery
      rw [check_symbol.2 opened.1, isQuery] at opened
      simp at opened
    obtain ⟨found, s₂, read, placed⟩ := run_bind_ok.1 success
    cases placed
    rw [columnList, run_advance_bind] at read
    obtain ⟨columns, s₁, listed, rest⟩ := run_bind_ok.1 read
    obtain ⟨closing, s₃, closed, rest⟩ := run_bind_ok.1 rest
    obtain ⟨isClosing, rfl, rfl⟩ := run_acceptSymbol_ok.1 closed
    split at rest
    · cases rest
      exact ⟨s₁, ⟨opened.1, noQuery, listed, isClosing⟩, rfl, rfl, rfl⟩
    · cases rest
      exact ⟨s₁, ⟨opened.1, noQuery, listed, isClosing⟩, rfl, rfl, rfl⟩
  · split at success
    · obtain ⟨found, s₂, known, placed⟩ := run_bind_ok.1 success
      cases known
      cases placed
      exact absurd rfl moved
    · rw [pure_bind] at success
      cases success
      exact absurd rfl moved

/-- A list of columns that the column for a generated key is not missing from is read as it is. -/
lemma ListRead.run {columns : List Column} {s₁ : ParserState} (h : ListRead env table s columns s₁)
    (complete : missingKey? env.rules table (columns.map Column.name) = none) :
    ∃ s', (targetColumns env table).run s = .ok (⟨columns, none⟩, s') ∧
      s'.stream = s₁.stream.advance ∧ s'.context.tables = s₁.context.tables ∧
      s'.context.parameters = s₁.context.parameters := by
  have opened : (s.stream.check (.symbol .leftParen) &&
      !(s.stream.check (.symbol .leftParen) && s.stream.peek == .keyword .SELECT)) = true := by
    simpa [check_symbol.2 h.opens] using h.noQuery
  have list : (columnList env.rules table).run s = .ok (⟨columns, none⟩, s₁.advance) := by
    rw [columnList, run_advance_bind]
    refine run_bind_ok.2 ⟨columns, s₁, h.columns, ?_⟩
    refine run_bind_ok.2 ⟨_, _, run_acceptSymbol_ok.2 ⟨h.closes, rfl, rfl⟩, ?_⟩
    unfold missingKey? at complete
    simp only [complete]
    rfl
  let edit : Edit := .insertValues s₁.advance.stream.offset .values
  refine ⟨{ s₁.advance with context := s₁.context.addEdit edit }, ?_, rfl, rfl, rfl⟩
  rw [targetColumns, (looks_checkSymbol _).run_bind]
  dsimp only
  rw [looks_checkQueryInParentheses.run_bind, if_pos opened]
  exact run_bind_ok.2 ⟨_, _, list, rfl⟩

/-- A list of columns ends in front of the closing parenthesis. -/
lemma ListRead.ahead_eq {columns : List Column} {s₁ : ParserState}
    (h : ListRead env table s columns s₁) {tokens rest : List Token} {closing : Token}
    (ahead : s.advance.stream.ahead = tokens ++ closing :: rest)
    (behind : s₁.stream.advance.ahead = rest) : s₁.stream.ahead = closing :: rest := by
  obtain ⟨passed, run⟩ := lists_listedColumn.runs.commaSeparated.exists_run h.columns
  have last : s₁.stream.ahead = _ := ahead_of_kind h.closes (by simp)
  rw [behind] at last
  have same := run.ahead_eq.symm.trans ahead
  exact (List.append_inj' same (by simp [last])).2

/-- Names in parentheses are a list of columns. -/
lemma exists_listRead_of_names {names : List String} (any : names ≠ []) {opening closing : Token}
    {tokens rest : List Token} (ahead : s.stream.ahead = opening :: (tokens ++ closing :: rest))
    (opens : opening.kind = .symbol .leftParen)
    (isList : tokens.map Token.kind = (names.map TokenKind.identifier).intersperse (.symbol .comma))
    (closes : closing.kind = .symbol .rightParen) :
    ∃ s₁, ListRead env table s (names.map (namedColumn table)) s₁ ∧
      Run Context.EditsOnly s (opening :: (tokens ++ [closing])) s₁.advance ∧
      s₁.advance.context.parameters = s.context.parameters := by
  have behind : s.advance.stream.ahead = tokens ++ closing :: rest := congrArg List.tail ahead
  have noQuery : s.stream.peek ≠ .keyword .SELECT := by
    rw [← kind_advance]
    exact kind_ne_of_names any isList behind
  obtain ⟨s₁, repeats, run, counted⟩ := repeats_names any isList closes behind
  have last : s₁.stream.ahead = closing :: rest := run.ahead_of_append behind
  have opened : Run Context.EditsOnly s [opening] s.advance :=
    .single (.token ahead (by simp [opens]))
  have closed : Run Context.EditsOnly s₁ [closing] s₁.advance :=
    .single (.token last (by simp [closes]))
  refine ⟨s₁, ⟨(kind_of_ahead_cons ahead).trans opens, noQuery, ?_,
    (kind_of_ahead_cons last).trans closes⟩, opened.trans (run.trans closed), counted⟩
  exact commaSeparated_of_repeats lists_listedColumn.runs repeats

/-! ## Insertions -/

variable {grown : String} {insertion : InsertStatement} {last : ParserState} {d : Nat}

/-- The table of an insertion is read beside it in another text. -/
lemma InsertSteps.exists_named (steps : InsertSteps env text insertion last) {al : Alignment}
    (tabled : Tabled al) (beside : Beside al ⟨.ofText text, {}⟩ ⟨.ofText grown, {}⟩)
    (reaches : al.left <:+ steps.named.stream.ahead) : ∃ opened named,
    (TokenStream.ofText grown).kind = .keyword .INSERT ∧
      (∃ present, (skipKeyword [.INTO]).run (ParserState.advance ⟨.ofText grown, {}⟩) =
        .ok (present, opened)) ∧
      tableFactor.run opened = .ok ((), named) ∧ Beside al steps.named named := by
  have into : Echoes al id (skipKeyword [.INTO]) (skipKeyword [.INTO]) :=
    .skipKeyword tabled.right.noKeyword.2
  have factor := echoes_tableFactor tabled
  obtain ⟨present, skipped⟩ := steps.into
  have opened := reaches.trans (factor.forward _ _ _ steps.factor)
  have started := opened.trans (into.forward _ _ _ skipped)
  obtain ⟨word, beside₁⟩ := beside.advance steps.word started
  obtain ⟨opened', skipped', beside₂⟩ := into.echo _ _ _ _ trivial beside₁ skipped opened
  obtain ⟨named', factor', beside'⟩ := factor.echo _ _ _ _ trivial beside₂ steps.factor reaches
  exact ⟨opened', named', word, ⟨present, skipped'⟩, factor', beside'⟩

/-- A state of the text `grown` knows what the state `s` knows, and has the tokens `rest` left, `d` bytes
further on. -/
structure Stands (grown : String) (d : Nat) (rest : List Token) (s t : ParserState) : Prop where
  /-- The state is one of the text. -/
  source : t.stream.source = grown
  /-- The end of the text is known. -/
  length : t.stream.length = Text.byteLength grown.toList
  /-- The tokens that are left. -/
  ahead : t.stream.ahead = rest.map (Token.moved d)
  /-- The same tables are known. -/
  tables : t.context.tables = s.context.tables
  /-- As many placeholders are counted. -/
  parameters : t.context.parameters = s.context.parameters

/-- What is known behind tokens without placeholders is known in front of them. -/
lemma stands_of_run {al : Alignment} {s t t' : ParserState} {common tokens rest : List Token}
    (twin : Twin al common s t) (run : Run Context.EditsOnly t tokens t')
    (ahead : t.stream.ahead = tokens ++ rest.map (Token.moved d))
    (counted : t'.context.parameters = t.context.parameters) : Stands al.other d rest s t' where
  source := run.source_eq.trans twin.source'
  length := run.length_eq.trans twin.length'
  ahead := run.ahead_of_append ahead
  tables := run.tables_eq.trans twin.tables
  parameters := counted.trans twin.parameters

/-- The parse of a text that lists the columns of an insertion, up to the place from which on it goes on
like the insertion. -/
structure Relisting (steps : InsertSteps env text insertion last) (grown : String) (d : Nat)
    (columns : List Column) where
  /-- The state in front of the table. -/
  opened : ParserState
  /-- The state behind the table. -/
  named : ParserState
  /-- The state in front of the parenthesis that closes the list. -/
  listed : ParserState
  /-- The first word. -/
  word : (TokenStream.ofText grown).kind = .keyword .INSERT
  /-- The word in front of the table. -/
  into : ∃ present, (skipKeyword [.INTO]).run (ParserState.advance ⟨.ofText grown, {}⟩) =
    .ok (present, opened)
  /-- The table. -/
  factor : tableFactor.run opened = .ok ((), named)
  /-- The table is the one of the insertion. -/
  tables : named.context.tables = steps.named.context.tables
  /-- The columns. -/
  list : ListRead env steps.tableName named columns listed
  /-- The column for a generated key is not missing. -/
  complete : missingKey? env.rules steps.tableName (columns.map Column.name) = none
  /-- Behind the list the text goes on like the insertion. -/
  stands : Stands grown d steps.valued.stream.ahead steps.valued listed.advance

/-- A list of columns with the name of a key inserted at its end is read with the key.

**Proof sketch.** Up to the closing parenthesis the columns are read beside the list. There a comma and
the name follow instead. -/
lemma exists_relisting_key (steps : InsertSteps env text insertion last) {opening closing : Token}
    {list before inserted : List Token} {key : String}
    (g : Lexer.Grown text grown closing.span.start d before inserted
      (closing :: steps.valued.stream.ahead))
    (ahead : steps.named.stream.ahead = opening :: (list ++ closing :: steps.valued.stream.ahead))
    (closes : closing.kind = .symbol .rightParen)
    (kinds : inserted.map Token.kind = [.symbol .comma, .identifier key])
    (complete : missingKey? env.rules steps.tableName
      ((steps.target.columns ++ [namedColumn steps.tableName key]).map Column.name) = none) :
    Nonempty (Relisting steps grown d (steps.target.columns ++ [namedColumn steps.tableName key])) := by
  obtain ⟨comma, more, rfl, isComma, isKey⟩ := List.map_eq_cons_iff.1 kinds
  set al := Alignment.inFront g (List.cons_ne_nil _ _) with isAl
  have left : firstKind al.left = .symbol .rightParen := closes
  have right : firstKind al.right = .symbol .comma := isComma
  have tabled : Tabled al := ⟨.inr (.inr (.inl left)), .inl right⟩
  have closed : Closed al := ⟨.inl left, .inr (.inl right)⟩
  have right_eq : al.right = comma ::
      (more ++ closing.moved d :: steps.valued.stream.ahead.map (Token.moved d)) := by
    simp [isAl, Alignment.inFront]
  -- the list of the one text
  have behind : steps.named.advance.stream.ahead = list ++ al.left := congrArg List.tail ahead
  have reaches : al.left <:+ steps.named.advance.stream.ahead := ⟨list, behind.symm⟩
  have moved : steps.valued.stream.ahead ≠ steps.named.stream.ahead := by
    intro same
    have lengths := congrArg List.length (same.trans ahead)
    simp only [List.length_cons, List.length_append] at lengths
    omega
  obtain ⟨s₁, isList, stream, tables, parameters⟩ := exists_listRead steps.columns moved
  have stops : s₁.stream.ahead = al.left :=
    isList.ahead_eq behind (congrArg TokenStream.ahead stream).symm
  have runs : Runs Context.ConditionsOnly (listedColumn env.rules steps.tableName) := lists_listedColumn.runs
  have like : Echoes al id (listedColumn env.rules steps.tableName)
      (listedColumn env.rules steps.tableName) := echoes_listedColumn closed
  -- the list of the other text
  obtain ⟨opened, named, word, into, factor, beside⟩ := steps.exists_named tabled
    (Alignment.beside_inFront g _) (reaches.trans (List.tail_suffix _))
  obtain ⟨opens, beside₁⟩ := beside.advance isList.opens reaches
  have noQuery : named.stream.peek ≠ .keyword .SELECT := by
    rw [← kind_advance]
    refine beside₁.kind_ne ?_ (by rw [right]; simp)
    show steps.named.stream.advance.kind ≠ _
    rw [kind_advance]
    exact isList.noQuery
  have goesOn : ∀ t₀ b t₁, (listedColumn env.rules steps.tableName).run t₀ = .ok (b, t₁) →
      Beside al s₁ t₁ → ∃ t', Repeats (listedColumn env.rules steps.tableName) t₀
          (b :: [namedColumn steps.tableName key]) t' ∧
        t'.stream.kind = .symbol .rightParen ∧
          Stands grown d steps.valued.stream.ahead s₁ t'.advance := by
    intro t₀ b t₁ read beside'
    have twin := beside'.twin_nil stops
    have first := twin.ahead'.trans right_eq
    obtain ⟨t', repeats, closes', run, counted⟩ := exists_repeats_of_key read first isComma isKey closes
    exact ⟨t', repeats, closes', stands_of_run twin run (by simp [first]) counted⟩
  obtain ⟨t', repeats, closes', stands⟩ :=
    like.repeats (repeats_of_commaSeparated runs isList.columns) beside₁ (stops ▸ List.suffix_refl _) goesOn
  rw [List.map_id] at repeats
  have tables' : named.context.tables = steps.named.context.tables := by
    obtain ⟨_, twin⟩ := beside
    exact twin.tables
  exact ⟨⟨opened, named, t', word, into, factor, tables',
    ⟨opens, noQuery, commaSeparated_of_repeats runs repeats, closes'⟩, complete,
    ⟨stands.source, stands.length, stands.ahead, stands.tables.trans tables.symm,
      stands.parameters.trans parameters.symm⟩⟩⟩

/-- A list of the known columns behind the table is read as it is. -/
lemma exists_relisting_known (steps : InsertSteps env text insertion last) {place : Nat}
    {before inserted : List Token} {names : List String}
    (g : Lexer.Grown text grown place d before inserted steps.valued.stream.ahead)
    (ahead : steps.named.stream.ahead = steps.valued.stream.ahead)
    (word : steps.valued.stream.checkAnyKeyword [.VALUES, .VALUE] = true) (any : names ≠ [])
    (kinds : inserted.map Token.kind = .symbol .leftParen ::
      ((names.map TokenKind.identifier).intersperse (.symbol .comma) ++ [.symbol .rightParen]))
    (complete : missingKey? env.rules steps.tableName
      ((names.map (namedColumn steps.tableName)).map Column.name) = none) :
    Nonempty (Relisting steps grown d (names.map (namedColumn steps.tableName))) := by
  obtain ⟨opening, others, rfl, isOpening, more⟩ := List.map_eq_cons_iff.1 kinds
  obtain ⟨list, ending, rfl, isList, last⟩ := List.map_eq_append_iff.1 more
  obtain ⟨closing, behind, rfl, closes, noneBehind⟩ := List.map_eq_cons_iff.1 last
  obtain rfl := List.map_eq_nil_iff.1 noneBehind
  -- nothing is passed in front of the values
  obtain ⟨keyword, known, isKeyword⟩ := checkAnyKeyword_iff.1 word
  have nonempty : steps.valued.stream.ahead ≠ [] := by
    rw [ahead_of_kind isKeyword (by simp)]
    exact List.cons_ne_nil _ _
  obtain ⟨tokens, _, -, target, -, -⟩ := targetColumns_read steps.columns
  obtain rfl : tokens = [] := List.self_eq_append_left.1 (ahead.symm.trans target.ahead_eq)
  have counted : steps.valued.context.parameters = steps.named.context.parameters :=
    target.parameters_eq_of_conditionsOnly
  -- the table of the other text
  set al := Alignment.inFront g nonempty with isAl
  have left : firstKind al.left = .keyword keyword := (kind_eq_firstKind _).symm.trans isKeyword
  have tabled : Tabled al := by
    refine ⟨?_, .inr (.inl isOpening)⟩
    have isWord : keyword = .VALUES ∨ keyword = .VALUE := by simpa using known
    rw [left]
    rcases isWord with rfl | rfl <;> simp [EndsTable]
  obtain ⟨opened, named, word, into, factor, beside⟩ :=
    steps.exists_named tabled (Alignment.beside_inFront g _) (ahead ▸ List.suffix_refl _)
  have twin := beside.twin_nil ahead
  -- the list of the other text
  have first : named.stream.ahead =
      opening :: (list ++ closing :: steps.valued.stream.ahead.map (Token.moved d)) := by
    rw [twin.ahead']
    simp [isAl, Alignment.inFront]
  obtain ⟨listed, isListed, run, kept⟩ := exists_listRead_of_names any first isOpening isList closes
  have stands : Stands grown d steps.valued.stream.ahead steps.named listed.advance :=
    stands_of_run twin run (by simp [first]) kept
  exact ⟨⟨opened, named, listed, word, into, factor, twin.tables, isListed, complete,
    ⟨stands.source, stands.length, stands.ahead,
      stands.tables.trans target.tables_eq_of_conditionsOnly.symm,
      stands.parameters.trans counted.symm⟩⟩⟩

end Grammar

end SqlRouting
