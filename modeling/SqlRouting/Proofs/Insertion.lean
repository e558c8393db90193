import SqlRouting.Grammar.Statement
import SqlRouting.Proofs.Predicate
import SqlRouting.Proofs.SourceText

/-!
# Reading insertions

An insertion gives values to the columns of one table, in rows or by assignments. The reading of a
row says which tokens write it, which values it has and which columns they are given to; its
placeholders and its conditions are determined by that.

## Main definitions

* `SqlRouting.TokenStream.ranks` — the numbers of the placeholders among tokens.
* `SqlRouting.Grammar.Assigns` — the condition that giving a value to a column sets.
* `SqlRouting.Grammar.ColumnNamed` — the tokens that name a column.
* `SqlRouting.Grammar.SettingTokens` — the tokens that write an assignment.
* `SqlRouting.Grammar.ReadRow` — a row of an insertion with the columns and values it was read from.
* `SqlRouting.Grammar.RowTokens` — the tokens that write a row.
* `SqlRouting.Grammar.Lists` — a parser that is passed by tokens which write what it gives.
* `SqlRouting.Grammar.InsertionRead` — the rows of the insertion that a text writes.
* `SqlRouting.Grammar.InsertSteps` — the parts that an insertion is read in.

## Main results

* `SqlRouting.TokenStream.mem_ranks` — the ranks count the placeholders before each one.
* `SqlRouting.Grammar.RowTokens.mem_conditions` — the conditions that a row sets.
* `SqlRouting.Grammar.valueRows_read`, `SqlRouting.Grammar.assignments_lists` — rows of values, and
  assignments, are written by their tokens.
* `SqlRouting.Grammar.insertion_read` — an accepted insertion has a reading, which says what it
  collects.
-/

set_option autoImplicit false

namespace SqlRouting

open TokenStream

/-! ## Ranks of placeholders -/

namespace TokenStream

/-- The numbers of the placeholders among tokens, where `index` placeholders come before them. -/
def ranks (index : Nat) : List Token → List Nat
  | [] => []
  | token :: tokens =>
    if token.kind == .symbol .question then index :: ranks (index + 1) tokens
    else ranks index tokens

/-- The ranks are the numbers from `index` on, one for each placeholder. -/
lemma ranks_eq_range (index : Nat) (tokens : List Token) :
    ranks index tokens = List.range' index (placeholders tokens) := by
  induction tokens generalizing index with
  | nil => rfl
  | cons token tokens ih =>
    rw [ranks]
    split
    · rename_i isPlaceholder
      rw [ih, placeholders_cons_of_eq (beq_iff_eq.1 isPlaceholder), List.range'_succ]
    · rename_i plain
      rw [ih, placeholders_cons_of_ne (by simpa using plain)]

/-- The ranks in the tokens before and after a place are ranks in all of them. -/
lemma ranks_append (index : Nat) (before after : List Token) :
    ranks index (before ++ after) =
      ranks index before ++ ranks (index + placeholders before) after := by
  simp only [ranks_eq_range, placeholders_append, List.range'_append_1]

/-- A token that is no placeholder has no rank. -/
lemma ranks_cons_of_ne {token : Token} (plain : token.kind ≠ .symbol .question) (index : Nat)
    (tokens : List Token) : ranks index (token :: tokens) = ranks index tokens := by
  rw [ranks, if_neg (by simpa using plain)]

/-- The rank of a placeholder is the number of placeholders before it. -/
lemma mem_ranks {index rank : Nat} {tokens : List Token} :
    rank ∈ ranks index tokens ↔ ∃ before token after, tokens = before ++ token :: after ∧
      token.kind = .symbol .question ∧ rank = index + placeholders before := by
  induction tokens generalizing index with
  | nil => simp [ranks]
  | cons token tokens ih =>
    rw [ranks]
    split
    · rename_i isPlaceholder
      rw [beq_iff_eq] at isPlaceholder
      rw [List.mem_cons, ih]
      constructor
      · rintro (rfl | ⟨before, other, after, rfl, isOther, rfl⟩)
        · exact ⟨[], token, tokens, rfl, isPlaceholder, rfl⟩
        · refine ⟨token :: before, other, after, rfl, isOther, ?_⟩
          rw [placeholders_cons_of_eq isPlaceholder]
          omega
      · rintro ⟨before, other, after, split, isOther, rfl⟩
        cases before with
        | nil => exact .inl rfl
        | cons first before =>
          obtain ⟨rfl, rfl⟩ := List.cons.inj split
          refine .inr ⟨before, other, after, rfl, isOther, ?_⟩
          rw [placeholders_cons_of_eq isPlaceholder]
          omega
    · rename_i plain
      have plain : token.kind ≠ .symbol .question := by simpa using plain
      rw [ih]
      constructor
      · rintro ⟨before, other, after, rfl, isOther, rfl⟩
        exact ⟨token :: before, other, after, rfl, isOther, by rw [placeholders_cons_of_ne plain]⟩
      · rintro ⟨before, other, after, split, isOther, rfl⟩
        cases before with
        | nil =>
          obtain ⟨rfl, -⟩ := List.cons.inj split
          exact absurd isOther plain
        | cons first before =>
          obtain ⟨rfl, rfl⟩ := List.cons.inj split
          exact ⟨before, other, after, rfl, isOther, by rw [placeholders_cons_of_ne plain]⟩

end TokenStream

namespace Grammar

open SqlRouting.Parser

variable {env : Environment} {rules : ShardingRule} {text table : String} {s s' : ParserState}

/-! ## Values -/

/-- A value of an insertion, as it is read. -/
structure ReadValue where
  /-- The number of placeholders before it. -/
  index : Nat
  /-- Its tokens. -/
  tokens : List Token
  /-- The expression it is read as. -/
  expression : Expression

/-- The tokens write a value, where `index` placeholders come before them. -/
structure ValueTokens (source : String) (index : Nat) (tokens : List Token) (value : ReadValue) :
    Prop where
  /-- The placeholders before the value. -/
  numbered : value.index = index
  /-- The tokens are those of the value. -/
  same : value.tokens = tokens
  /-- The tokens are those of an expression. -/
  operand : Operand tokens
  /-- The tokens write the shape of the expression. -/
  written : Written source index tokens value.expression.node

/-- The tokens of a value write its shape after the placeholders before it. -/
lemma ValueTokens.reads {source : String} {index : Nat} {tokens : List Token} {value : ReadValue}
    (h : ValueTokens source index tokens value) :
    Written source value.index value.tokens value.expression.node := by
  rw [h.numbered, h.same]
  exact h.written

/-- Giving a value to a column sets a condition: the column is a sharding column, and the tokens of the
value write a plain one. -/
inductive Assigns (rules : ShardingRule) (column : Column) (value : ReadValue) :
    RouteCondition → Prop
  /-- The column equals the value. -/
  | intro {plain : RoutingValue}
      (sharding : rules.isShardingColumn column.name column.tableName = true)
      (isPlain : PlainValue value.index value.tokens plain) :
      Assigns rules column value (.equal column plain)

/-- The condition that is recorded where a value is given to a column, if there is one. -/
def givenCondition? (rules : ShardingRule) (pair : Column × ReadValue) : Option RouteCondition :=
  if rules.isShardingColumn pair.1.name pair.1.tableName then
    equalCondition? (some pair.1) pair.2.expression.node
  else none

/-- The condition that is recorded is the one that giving the value sets. -/
lemma givenCondition_iff {source : String} {pair : Column × ReadValue} {condition : RouteCondition}
    (written : Written source pair.2.index pair.2.tokens pair.2.expression.node) :
    givenCondition? rules pair = some condition ↔ Assigns rules pair.1 pair.2 condition := by
  unfold givenCondition?
  constructor
  · intro isSome
    split at isSome
    · rename_i sharding
      obtain ⟨_, plain, same, isPlain, rfl⟩ := equalCondition_iff.1 isSome
      obtain rfl := Option.some.inj same
      exact .intro sharding (written.ofNode_iff.1 isPlain)
    · cases isSome
  · rintro ⟨sharding, isPlain⟩
    rw [if_pos sharding]
    exact equalCondition_iff.2 ⟨_, _, rfl, written.ofNode_iff.2 isPlain, rfl⟩

/-- The conditions of a row are those of its values with their columns. -/
lemma rowConditions_eq (columns : List Column) (values : List ReadValue) :
    rowConditions rules columns (values.map ReadValue.expression) =
      (columns.zip values).filterMap (givenCondition? rules) := by
  rw [rowConditions, List.zip_map_right, List.filterMap_map]
  rfl

/-! ## Columns and assignments -/

/-- The tokens name a column, where `index` placeholders come before them: by the name of a reference,
by a name alone, or by what is written there, without quotation marks, if they write no lone shape. -/
inductive ColumnNamed (source : String) (index : Nat) : List Token → String → Prop
  /-- A name alone. -/
  | bare (name : String) (span : Span) : ColumnNamed source index [⟨.identifier name, span⟩] name
  /-- A name after an owner and a dot. -/
  | qualified (owner name : String) (span dot : Span) (token : Token)
      (named : columnName? source token = some name) (noStar : name ≠ "*") :
      ColumnNamed source index [⟨.identifier owner, span⟩, ⟨.symbol .dot, dot⟩, token] name
  /-- Anything else that is written. -/
  | other {tokens : List Token} {first last : Token} (operand : Operand tokens)
      (noLone : ∀ node, ¬ Lone source index tokens node) (isFirst : tokens.head? = some first)
      (isLast : tokens.getLast? = some last) :
      ColumnNamed source index tokens
        (Text.unquoted (Text.trimmed (Text.slice source first.span.start last.span.stop)))

/-- The column of `table` that a name is taken for. -/
def namedColumn (table name : String) : Column :=
  ⟨Text.unquoted name, table⟩

/-- An assignment, as it is written. -/
structure Setting where
  /-- The name that is assigned to. -/
  name : String
  /-- The value that is assigned. -/
  value : ReadValue

/-- The tokens write an assignment, where `index` placeholders come before them. -/
inductive SettingTokens (source : String) (index : Nat) : List Token → Setting → Prop
  /-- What names the column, a sign and the value. -/
  | intro {left right : List Token} {sign : Token} {name : String} {value : ReadValue}
      (isName : ColumnNamed source index left name) (isSign : sign.kind = .symbol .eq)
      (isValue : ValueTokens source (index + placeholders left) right value) :
      SettingTokens source index (left ++ sign :: right) ⟨name, value⟩

namespace Setting

/-- The column of `table` that is assigned to. -/
def column (table : String) (setting : Setting) : Column :=
  namedColumn table setting.name

/-- The value that is assigned, with its column. -/
def pair (table : String) (setting : Setting) : Column × ReadValue :=
  (setting.column table, setting.value)

end Setting

/-- An assignment has tokens. -/
lemma SettingTokens.ne_nil (source : String) (index : Nat) (tokens : List Token) (setting : Setting)
    (h : SettingTokens source index tokens setting) : tokens ≠ [] := by
  cases h
  simp

/-! ## Rows -/

/-- A row of an insertion, as it is read. -/
structure ReadRow where
  /-- The columns that its values are given to. -/
  columns : List Column
  /-- Its values. -/
  values : List ReadValue
  /-- What is kept of it. -/
  row : InsertRow

/-- The conditions that a row sets. -/
def ReadRow.conditions (rules : ShardingRule) (read : ReadRow) : List RouteCondition :=
  rowConditions rules read.columns (read.values.map ReadValue.expression)

/-- The tokens write a row, where `index` placeholders come before them. -/
inductive RowTokens (keywords : List Keyword) (source table : String) (index : Nat) :
    List Token → ReadRow → Prop
  /-- Values in parentheses, which are given to columns of the table. -/
  | values {opening closing : Token} {list : List Token} {columns : List Column}
      {values : List ReadValue} (inTable : ∀ column ∈ columns, column.tableName = table)
      (opens : opening.kind = .symbol .leftParen)
      (listed : Separated (ValueTokens source) index list values)
      (closes : closing.kind = .symbol .rightParen) :
      RowTokens keywords source table index (opening :: (list ++ [closing]))
        ⟨columns, values, ⟨.values, ranks index list, opening.span.merge closing.span⟩⟩
  /-- Assignments after a word. -/
  | set {word last : Token} {front : List Token} {keyword : Keyword} {settings : List Setting}
      (isWord : word.kind = .keyword keyword) (known : keyword ∈ keywords)
      (assigned : Separated (SettingTokens source) index (front ++ [last]) settings) :
      RowTokens keywords source table index (word :: (front ++ [last]))
        ⟨settings.map (Setting.column table), settings.map Setting.value,
          ⟨.set, ranks index (front ++ [last]), ⟨word.span.stop, last.span.stop⟩⟩⟩

/-- A row is one of a text: its tokens stand there, and are numbered by the placeholders before
them. -/
def ReadRow.Means (keywords : List Keyword) (text table : String) (read : ReadRow) : Prop :=
  ∃ before tokens after, Lexer.tokens text = before ++ tokens ++ after ∧
    RowTokens keywords text table (placeholders before) tokens read

namespace RowTokens

variable {keywords : List Keyword} {source : String} {index : Nat} {tokens : List Token}
  {read : ReadRow}

/-- The values of a row are given to columns of the table. -/
lemma tableName_eq (h : RowTokens keywords source table index tokens read) :
    ∀ column ∈ read.columns, column.tableName = table := by
  cases h with
  | values inTable opens listed closes => exact inTable
  | set isWord known assigned =>
    intro column mem
    obtain ⟨setting, -, rfl⟩ := List.mem_map.1 mem
    rfl

/-- Each value of a row is written by some of the tokens. -/
lemma located (h : RowTokens keywords source table index tokens read) :
    ∀ value ∈ read.values, ∃ before after, tokens = before ++ value.tokens ++ after ∧
      ValueTokens source (index + placeholders before) value.tokens value := by
  cases h with
  | @values opening closing list columns values inTable opens listed closes =>
    intro value mem
    obtain ⟨before, part, after, rfl, isValue⟩ := listed.located value mem
    have plain : opening.kind ≠ .symbol .question := by simp [opens]
    obtain rfl := isValue.same
    exact ⟨opening :: before, after ++ [closing], by simp,
      by rwa [placeholders_cons_of_ne plain]⟩
  | @set word last front keyword settings isWord known assigned =>
    intro value mem
    obtain ⟨setting, isSetting, rfl⟩ : ∃ setting ∈ settings, setting.value = value :=
      List.mem_map.1 mem
    obtain ⟨before, part, after, split, written⟩ := assigned.located setting isSetting
    cases written with
    | @intro left right sign name value isName isSign isValue =>
      have plainWord : word.kind ≠ .symbol .question := by simp [isWord]
      have plainSign : sign.kind ≠ .symbol .question := by simp [isSign]
      obtain rfl : value.tokens = right := isValue.same
      refine ⟨word :: (before ++ left ++ [sign]), after, by simp [split], ?_⟩
      rw [placeholders_cons_of_ne plainWord, placeholders_append, placeholders_append,
        placeholders_cons_of_ne plainSign, placeholders_nil, Nat.add_zero, ← Nat.add_assoc]
      exact isValue

/-- The placeholders of a row are numbered by those before them. -/
lemma placeholders_eq (h : RowTokens keywords source table index tokens read) :
    read.row.placeholders = ranks index tokens := by
  cases h with
  | @values opening closing list columns values inTable opens listed closes =>
    have plainOpening : opening.kind ≠ .symbol .question := by simp [opens]
    have plainClosing : closing.kind ≠ .symbol .question := by simp [closes]
    simp only [ranks_eq_range, placeholders_cons_of_ne plainOpening, placeholders_append,
      placeholders_cons_of_ne plainClosing, placeholders_nil, Nat.add_zero]
  | @set word last front keyword settings isWord known assigned =>
    have plainWord : word.kind ≠ .symbol .question := by simp [isWord]
    simp only [ranks_eq_range, placeholders_cons_of_ne plainWord]

/-- The tokens of each value of a row write its shape. -/
lemma reads (h : RowTokens keywords source table index tokens read) {value : ReadValue}
    (mem : value ∈ read.values) : Written source value.index value.tokens value.expression.node := by
  obtain ⟨before, after, -, isValue⟩ := h.located value mem
  exact isValue.reads

/-- A row sets the conditions that its sharding columns equal plain values. -/
lemma mem_conditions (h : RowTokens keywords source table index tokens read)
    {condition : RouteCondition} : condition ∈ read.conditions rules ↔
      ∃ column value plain, (column, value) ∈ read.columns.zip read.values ∧
        rules.isShardingColumn column.name column.tableName = true ∧
        PlainValue value.index value.tokens plain ∧ condition = .equal column plain := by
  rw [ReadRow.conditions, rowConditions_eq, List.mem_filterMap]
  constructor
  · rintro ⟨⟨column, value⟩, mem, isSome⟩
    cases (givenCondition_iff (h.reads (List.of_mem_zip mem).2)).1 isSome with
    | intro sharding isPlain => exact ⟨column, value, _, mem, sharding, isPlain, rfl⟩
  · rintro ⟨column, value, plain, mem, sharding, isPlain, rfl⟩
    exact ⟨(column, value), mem,
      (givenCondition_iff (h.reads (List.of_mem_zip mem).2)).2 (.intro sharding isPlain)⟩

end RowTokens

/-! ## Lists that are read -/

/-- Each success of `item` passes tokens that write what it gives, and records its conditions. -/
def Lists {α β : Type} (item : Parser β) (written : String → Nat → List Token → α → Prop)
    (of : α → β) (conditions : α → List RouteCondition) : Prop :=
  ∀ s b s', item.run s = .ok (b, s') → ∃ tokens a,
    written s.stream.source s.context.parameters tokens a ∧ of a = b ∧
      Run Context.ConditionsOnly s tokens s' ∧
      s'.context.conditions = s.context.conditions ++ conditions a

/-- The tokens do not start with a comma. -/
def NoComma (tokens : List Token) : Prop :=
  ∀ token ∈ tokens.head?, token.kind ≠ .symbol .comma

section Lists

variable {α β : Type} {item : Parser β} {written : String → Nat → List Token → α → Prop} {of : α → β}
  {conditions : α → List RouteCondition}

/-- Each success of what lists is a run. -/
lemma Lists.runs (h : Lists item written of conditions) : Runs Context.ConditionsOnly item := by
  intro s b s' _ success
  obtain ⟨tokens, a, -, -, run, -⟩ := h s b s' success
  exact ⟨tokens, run⟩

/-- A list goes on until there is no comma. -/
lemma Lists.noComma {items : List β} (h : Lists item written of conditions)
    (success : (commaSeparated item).run s = .ok (items, s')) : NoComma s'.stream.ahead := by
  have repeated := repeats_of_commaSeparated h.runs success
  intro token isFirst isComma
  obtain ⟨rest, ahead⟩ := List.head?_eq_some_iff.1 isFirst
  exact repeated.noComma ((kind_of_ahead_cons ahead).trans isComma)

/-- A list is written by its tokens, and records the conditions of its items. -/
lemma Lists.commaSeparated (h : Lists item written of conditions) :
    Lists (commaSeparated item) (fun source => Separated (written source)) (List.map of)
      (List.flatMap conditions) := by
  intro s items s' success
  have repeated := repeats_of_commaSeparated h.runs success
  clear success
  induction repeated with
  | one last noComma =>
    obtain ⟨tokens, a, isItem, rfl, run, recorded⟩ := h _ _ _ last
    exact ⟨tokens, [a], .one isItem, rfl, run, by simpa using recorded⟩
  | @cons s s₁ s' b others first comma rest ih =>
    obtain ⟨tokens, a, isItem, rfl, run, recorded⟩ := h _ _ _ first
    obtain ⟨more, as, areItems, rfl, restRun, restRecorded⟩ := ih
    have passed := run.trans (run_token comma)
    have next : s₁.advance.context.parameters = s₁.context.parameters := rfl
    have counted : s₁.context.parameters = s.context.parameters + placeholders tokens :=
      run.parameters_eq_of_conditionsOnly
    have source : s₁.advance.stream.source = s.stream.source := passed.source_eq
    rw [next, counted, source] at areItems
    refine ⟨_, a :: as, .cons isItem rfl areItems, rfl, run.trans ((run_token comma).trans restRun), ?_⟩
    have same : s₁.advance.context.conditions = s₁.context.conditions := rfl
    rw [restRecorded, same, recorded, List.flatMap_cons, List.append_assoc]

end Lists

/-- An expression is written by its tokens. -/
lemma lists_expression :
    Lists (expression rules) ValueTokens ReadValue.expression fun _ => [] := by
  intro s e s' success
  obtain ⟨tokens, operand, run, written⟩ := expression_reads success
  refine ⟨tokens, ⟨s.context.parameters, tokens, e⟩, ⟨rfl, rfl, operand, written⟩, rfl,
    run.mono conditionsOnly_of_editsOnly, ?_⟩
  rw [List.append_nil]
  exact run.conditions_eq_of_editsOnly

/-! ## Rows are read -/

/-- A row of values is written by its tokens, and gives its values to the columns. -/
lemma lists_valueRow (keywords : List Keyword) {columns : List Column}
    (inTable : ∀ column ∈ columns, column.tableName = table) :
    Lists (valueRow rules columns) (fun source index tokens read =>
      RowTokens keywords source table index tokens read ∧ read.columns = columns)
      ReadRow.row (ReadRow.conditions rules) := by
  intro s row s' success
  obtain ⟨opening, s₁, opened, rest⟩ := run_bind_ok.1 success
  obtain ⟨isOpening, rfl, rfl⟩ := run_acceptSymbol_ok.1 opened
  rw [looks_context.run_bind] at rest
  obtain ⟨expressions, s₂, listed, rest⟩ := run_bind_ok.1 rest
  obtain ⟨closing, s₃, closed, rest⟩ := run_bind_ok.1 rest
  obtain ⟨isClosing, rfl, rfl⟩ := run_acceptSymbol_ok.1 closed
  rw [run_modifyContext_bind, looks_context.run_bind, run_pure_ok] at rest
  obtain ⟨rfl, rfl⟩ := rest
  obtain ⟨list, values, isList, rfl, run, same⟩ := lists_expression.commaSeparated _ _ _ listed
  have counted : s₂.context.parameters = s.advance.context.parameters + placeholders list :=
    run.parameters_eq_of_conditionsOnly
  have start : s.advance.context.parameters = s.context.parameters := rfl
  have passed := (run_token isOpening).trans
    (run.trans (run_token isClosing))
  have kept : s₂.context.conditions = s.context.conditions := by
    rw [same, List.flatMap_eq_nil_iff.2 fun _ _ => rfl, List.append_nil]
    rfl
  have ranked : List.range' s.context.parameters (s₂.context.parameters - s.context.parameters) =
      ranks s.context.parameters list := by
    rw [ranks_eq_range, counted, start, Nat.add_sub_cancel_left]
  refine ⟨_, ⟨columns, values, _⟩, ⟨.values inTable rfl isList rfl, rfl⟩, ?_, passed.record ⟨rfl, rfl⟩, ?_⟩
  · rw [← ranked]
    rfl
  · rw [← kept]
    rfl

/-! ## Columns and assignments are read -/

/-- Taking the quotation marks off a text twice takes no more of it. -/
lemma unquoted_unquoted (text : String) : Text.unquoted (Text.unquoted text) = Text.unquoted text := by
  rw [Text.unquoted, Text.unquoted, String.toList_ofList, List.filter_filter]
  simp only [Bool.and_self]

/-- An expression that is read as a column is named by its tokens. -/
lemma exists_name {target : Expression} {column : Column}
    (success : (expression rules).run s = .ok (target, s'))
    (names : assignedColumn table target = .ok column) : ∃ tokens name,
      ColumnNamed s.stream.source s.context.parameters tokens name ∧ namedColumn table name = column ∧
        Run Context.EditsOnly s tokens s' := by
  obtain ⟨tokens, operand, run, written⟩ := expression_reads success
  obtain ⟨-, isText⟩ := expression_text success
  refine ⟨tokens, ?_⟩
  unfold assignedColumn at names
  split at names
  · rename_i owner name same
    cases names
    have lone := written.lone (by simp [same])
    rw [same] at lone
    cases lone with
    | qualified _ _ span dot token named noStar =>
      exact ⟨name, .qualified owner name span dot token named noStar, rfl, run⟩
  · rename_i name same
    cases names
    have lone := written.lone (by simp [same])
    rw [same] at lone
    cases lone with
    | bare _ span => exact ⟨name, .bare name span, rfl, run⟩
  · rename_i source same
    cases names
    have noLone : ∀ node, ¬ Lone s.stream.source s.context.parameters tokens node := by
      rcases written with lone | ⟨-, noLone⟩
      · rw [same] at lone
        cases lone
      · exact noLone
    -- the text is what is written from the first token up to the last one
    obtain ⟨front, last, rfl⟩ : ∃ front last, tokens = front ++ [last] :=
      ⟨_, _, (List.dropLast_append_getLast operand.ne_nil).symm⟩
    obtain ⟨first, rest, whole⟩ := List.exists_cons_of_ne_nil operand.ne_nil
    have start : s.stream.offset = first.span.start := by
      rw [TokenStream.offset, TokenStream.current, run.ahead_eq, whole]
      rfl
    have stop : s'.stream.previousEnd = last.span.stop := by
      rw [TokenStream.previousEnd, run.previous_eq]
    have raw := isText source same
    rw [start, stop, TokenStream.slice, run.source_eq] at raw
    have isFirst : (front ++ [last]).head? = some first := by rw [whole]; rfl
    refine ⟨_, .other operand noLone isFirst List.getLast?_concat, ?_, run⟩
    rw [namedColumn, unquoted_unquoted, raw]
  · cases names

/-- A listed column is named by its tokens. -/
lemma lists_listedColumn :
    Lists (listedColumn rules table) ColumnNamed (namedColumn table) fun _ => [] := by
  intro s column s' success
  obtain ⟨target, s₁, read, named⟩ := run_bind_ok.1 success
  obtain ⟨names, rfl⟩ := run_lift_ok.1 named
  obtain ⟨tokens, name, isName, same, run⟩ := exists_name read names
  refine ⟨tokens, name, isName, same, run.mono conditionsOnly_of_editsOnly, ?_⟩
  rw [List.append_nil]
  exact run.conditions_eq_of_editsOnly

/-- An assignment is written by its tokens, and records the condition that its value sets. -/
lemma lists_setting : Lists (assignment rules table) SettingTokens (Setting.column table)
    fun setting => [setting.pair table].filterMap (givenCondition? rules) := by
  intro s column s' success
  obtain ⟨column, s₁, listed, rest⟩ := run_bind_ok.1 success
  obtain ⟨left, name, isName, rfl, run, kept⟩ := lists_listedColumn _ _ _ listed
  obtain ⟨sign, s₂, accepted, rest⟩ := run_bind_ok.1 rest
  obtain ⟨isSign, rfl, rfl⟩ := run_acceptSymbol_ok.1 accepted
  obtain ⟨expression, s₃, valueRead, rest⟩ := run_bind_ok.1 rest
  rw [run_modifyContext_bind, run_pure_ok] at rest
  obtain ⟨rfl, rfl⟩ := rest
  obtain ⟨right, value, isValue, rfl, run', kept'⟩ := lists_expression _ _ _ valueRead
  have first : Run Context.ConditionsOnly s _ s₁.advance := run.trans (run_token isSign)
  have counted : s₁.advance.context.parameters = s.context.parameters + placeholders left :=
    run.parameters_eq_of_conditionsOnly
  rw [first.source_eq, counted] at isValue
  have conditions : s₃.context.conditions = s.context.conditions := by
    rw [kept', List.append_nil]
    exact kept.trans (List.append_nil _)
  refine ⟨_, ⟨name, value⟩, .intro isName rfl isValue, rfl,
    (run.trans ((run_token isSign).trans run')).record ⟨rfl, rfl⟩, ?_⟩
  rw [← conditions]
  exact congrArg (s₃.context.conditions ++ ·) (rowConditions_eq [namedColumn table name] [value])

/-- A list of items that have tokens has tokens. -/
lemma Separated.ne_nil {α : Type} {item : Nat → List Token → α → Prop} {index : Nat}
    {tokens : List Token} {items : List α} (h : Separated item index tokens items)
    (nonempty : ∀ index tokens a, item index tokens a → tokens ≠ []) : tokens ≠ [] := by
  cases h with
  | one first => exact nonempty _ _ _ first
  | cons first isComma more => simp

/-- Assignments follow a word, and make one row, which gives its values to the columns that are
assigned to. -/
lemma assignments_lists {found : Option (Target × InsertRow)}
    (success : (assignments env table).run s = .ok (found, s')) :
    found = none ∧ s' = s ∨ ∃ word front last keyword settings,
      word.kind = .keyword keyword ∧ word.span.start = s.stream.offset ∧
      keyword ∈ env.dialect.insertKeywords ∧
      Separated (SettingTokens s.stream.source) s.context.parameters (front ++ [last]) settings ∧
      found = some (⟨settings.map (Setting.column table), none⟩,
        ⟨.set, ranks s.context.parameters (front ++ [last]), ⟨word.span.stop, last.span.stop⟩⟩) ∧
      Run Context.ConditionsOnly s (word :: (front ++ [last])) s' ∧ NoComma s'.stream.ahead ∧
      s'.context.conditions = s.context.conditions ++
        (settings.map (Setting.pair table)).filterMap (givenCondition? env.rules) := by
  rw [assignments, run_skipKeyword_bind] at success
  split at success
  · rename_i present
    obtain ⟨keyword, known, word⟩ := checkAnyKeyword_iff.1 present
    rw [if_pos rfl, looks_previousEnd.run_bind, run_modifyContext_bind, looks_context.run_bind]
      at success
    obtain ⟨columns, s₁, listed, rest⟩ := run_bind_ok.1 success
    rw [looks_previousEnd.run_bind, looks_context.run_bind, run_pure_ok] at rest
    obtain ⟨rfl, rfl⟩ := rest
    obtain ⟨list, settings, isList, rfl, run, same⟩ := lists_setting.commaSeparated _ _ _ listed
    have tokens : list ≠ [] := isList.ne_nil (SettingTokens.ne_nil _)
    obtain ⟨front, last, rfl⟩ : ∃ front last, list = front ++ [last] :=
      ⟨_, _, (List.dropLast_append_getLast tokens).symm⟩
    have entered : Run Context.ConditionsOnly s _
        ⟨s.advance.stream, forgetColumns s.advance.context⟩ :=
      (run_token word).record ⟨rfl, rfl⟩
    have stop : s₁.stream.previousEnd = last.span.stop := by
      rw [TokenStream.previousEnd, run.previous_eq]
    have ranked : List.range' s.context.parameters (s₁.context.parameters - s.context.parameters) =
        ranks s.context.parameters (front ++ [last]) := by
      have start : (forgetColumns s.advance.context).parameters = s.context.parameters := rfl
      rw [ranks_eq_range, run.parameters_eq_of_conditionsOnly, start, Nat.add_sub_cancel_left]
    refine .inr ⟨⟨.keyword keyword, s.stream.current.span⟩, front, last, keyword, settings, rfl, rfl,
      known, isList, ?_, entered.trans run, lists_setting.noComma listed, ?_⟩
    · rw [← ranked, ← stop]
      rfl
    · rw [same, List.map_eq_flatMap, List.filterMap_flatMap]
      rfl
  · obtain ⟨rfl, rfl⟩ := run_pure_ok.1 success
    exact .inl ⟨rfl, rfl⟩

/-- Assignments are written by their tokens after a word, and make one row. -/
lemma assignments_reads {found : Option (Target × InsertRow)}
    (success : (assignments env table).run s = .ok (found, s')) :
    found = none ∧ s' = s ∨
      ∃ tokens read, found = some (⟨read.columns, none⟩, read.row) ∧
        RowTokens env.dialect.insertKeywords s.stream.source table s.context.parameters tokens read ∧
        Run Context.ConditionsOnly s tokens s' ∧
        s'.context.conditions = s.context.conditions ++ read.conditions env.rules := by
  rcases assignments_lists success with missing | present
  · exact .inl missing
  · obtain ⟨word, front, last, keyword, settings, isWord, -, known, isList, rfl, run, -, same⟩ :=
      present
    refine .inr ⟨_, ⟨settings.map (Setting.column table), settings.map Setting.value, _⟩, rfl,
      .set isWord known isList, run, ?_⟩
    rw [same, ReadRow.conditions, rowConditions_eq, List.zip_map']
    rfl

/-! ## Columns of an insertion -/

/-- A listed column is passed by a run. -/
lemma runs_listedColumn : Runs Context.EditsOnly (listedColumn rules table) :=
  .bind runs_expression fun _ => runs_lift _

/-- A column that an expression names is one of the table. -/
lemma tableName_of_assignedColumn {target : Expression} {column : Column}
    (names : assignedColumn table target = .ok column) : column.tableName = table := by
  unfold assignedColumn at names
  split at names
  · cases names; rfl
  · cases names; rfl
  · cases names; rfl
  · cases names

/-- Listed columns are columns of the table. -/
lemma tableName_of_listed {columns : List Column}
    (listed : Repeats (listedColumn rules table) s columns s') :
    ∀ column ∈ columns, column.tableName = table := by
  have ofItem {s s' : ParserState} {column : Column}
      (success : (listedColumn rules table).run s = .ok (column, s')) :
      column.tableName = table := by
    obtain ⟨target, s₁, read, named⟩ := run_bind_ok.1 success
    exact tableName_of_assignedColumn (run_lift_ok.1 named).1
  induction listed with
  | one last noComma => simpa using ofItem last
  | cons first comma rest ih => simpa using ⟨ofItem first, ih⟩

/-- A list of columns is passed by a run, and has columns of the table. -/
lemma columnList_reads {target : Target} (opening : s.stream.kind = .symbol .leftParen)
    (success : (columnList rules table).run s = .ok (target, s')) :
    (∃ tokens, Run Context.EditsOnly s tokens s') ∧
      ∀ column ∈ target.columns, column.tableName = table := by
  rw [columnList, run_advance_bind] at success
  obtain ⟨columns, s₁, listed, rest⟩ := run_bind_ok.1 success
  obtain ⟨closing, s₂, closed, rest⟩ := run_bind_ok.1 rest
  obtain ⟨isClosing, rfl, rfl⟩ := run_acceptSymbol_ok.1 closed
  obtain ⟨tokens, run⟩ := runs_listedColumn.commaSeparated.exists_run listed
  have inTable := tableName_of_listed (repeats_of_commaSeparated runs_listedColumn listed)
  have first : Run Context.EditsOnly s _ s.advance := run_token opening
  have passed := first.trans (run.trans (run_token isClosing))
  split at rest
  · cases rest
    exact ⟨⟨_, passed.record ⟨rfl, rfl, rfl⟩⟩, inTable⟩
  · cases rest
    exact ⟨⟨_, passed⟩, inTable⟩

/-- The columns of an insertion are passed by a run, if they are given, and are columns of the
table. -/
lemma targetColumns_reads {target : Target}
    (success : (targetColumns env table).run s = .ok (target, s')) :
    (∃ tokens, Run Context.EditsOnly s tokens s') ∧
      ∀ column ∈ target.columns, column.tableName = table := by
  -- whatever the columns are, the place of the values is recorded after them
  have placed {found : Target} {t : ParserState} (run : ∃ tokens, Run Context.EditsOnly s tokens t)
      (inTable : ∀ column ∈ found.columns, column.tableName = table)
      (done : (do addEdit (.insertValues (← offset) .values); return found : Parser Target).run t =
        .ok (target, s')) :
      (∃ tokens, Run Context.EditsOnly s tokens s') ∧
        ∀ column ∈ target.columns, column.tableName = table := by
    cases done
    obtain ⟨tokens, run⟩ := run
    exact ⟨⟨tokens, run.record ⟨rfl, rfl, rfl⟩⟩, inTable⟩
  rw [targetColumns, (looks_checkSymbol _).run_bind] at success
  dsimp only at success
  rw [looks_checkQueryInParentheses.run_bind] at success
  split at success
  · rename_i opened
    rw [Bool.and_eq_true, check_symbol] at opened
    obtain ⟨found, s₁, listed, rest⟩ := run_bind_ok.1 success
    obtain ⟨run, inTable⟩ := columnList_reads opened.1 listed
    exact placed run inTable rest
  · split at success
    · obtain ⟨found, s₁, known, rest⟩ := run_bind_ok.1 success
      cases known
      refine placed ?_ ?_ rest
      · exact ⟨[], (Run.refl s).record ⟨rfl, rfl, rfl⟩⟩
      · intro column mem
        obtain ⟨name, -, rfl⟩ := List.mem_map.1 mem
        rfl
    · rw [pure_bind] at success
      exact placed ⟨[], .refl s⟩ (by simp) success

/-! ## Rows that are already there -/

/-- An assignment to a row that is already there is passed by a run. -/
lemma runs_update : Runs Context.EditsOnly (update rules table) := by
  refine .bind runs_expression fun left => .bind (runs_lift _) fun column => ?_
  refine .ite (fun _ => .bind (runs_unsupported _ _) fun _ => ?_) fun _ => ?_
  · exact .bind (runs_acceptSymbol (by decide)) fun _ => .bind runs_expression fun _ => .pure _
  · exact .bind (runs_acceptSymbol (by decide)) fun _ => .bind runs_expression fun _ => .pure _

/-- What to do with rows that are already there is passed by a run. -/
lemma runs_duplicateKeyUpdate : Runs Context.EditsOnly (duplicateKeyUpdate rules table) := by
  refine .bind (runs_skipKeyword [.ON]) fun _ => .ite (fun _ => ?_) fun _ => .pure _
  refine .bind (runs_acceptKeyword .DUPLICATE) fun _ => ?_
  refine .bind (runs_acceptKeyword .KEY) fun _ => ?_
  refine .bind (runs_acceptKeyword .UPDATE) fun _ => ?_
  exact .bind runs_update.commaSeparated fun _ => .pure _

/-- Where a query is refused and reading goes on, nothing is passed. -/
lemma run_refuseQuery_ok {result : Unit} (success : refuseQuery.run s = .ok (result, s')) :
    s' = s := by
  rw [refuseQuery, (looks_checkKeyword _).run_bind] at success
  rw [looks_checkQueryInParentheses.run_bind] at success
  split at success
  · rw [looks_current.run_bind] at success
    exact absurd success run_unsupported_ne
  · exact (run_pure_ok.1 success).2.symm

/-- No query stands where a word in front of values is. -/
lemma run_refuseQuery (word : s.stream.checkAnyKeyword [.VALUES, .VALUE] = true) :
    refuseQuery.run s = .ok ((), s) := by
  obtain ⟨keyword, known, isKeyword⟩ := checkAnyKeyword_iff.1 word
  have noSelect : keyword ≠ .SELECT := by
    rintro rfl
    simp at known
  have noQuery : s.stream.checkKeyword .SELECT = false := by
    simpa [TokenStream.checkKeyword, isKeyword] using noSelect
  have noParenthesis : s.stream.check (.symbol .leftParen) = false := by
    simp [check, isKeyword, TokenKind.sameClass]
  rw [refuseQuery, (looks_checkKeyword _).run_bind, noQuery]
  rw [looks_checkQueryInParentheses.run_bind, noParenthesis]
  rfl

/-! ## Insertions -/

/-- Rows of values follow a word, and have the columns of the insertion. -/
lemma valueRows_read {rows : List InsertRow} {columns : List Column} (keywords : List Keyword)
    (inTable : ∀ column ∈ columns, column.tableName = table)
    (success : (valueRows rules columns).run s = .ok (rows, s')) :
    rows = [] ∧ s' = s ∨ ∃ word list reads,
      (word.kind = .keyword .VALUES ∨ word.kind = .keyword .VALUE) ∧
      Separated (fun index tokens read =>
          RowTokens keywords s.stream.source table index tokens read ∧ read.columns = columns)
        s.context.parameters list reads ∧
      rows = reads.map ReadRow.row ∧ Run Context.ConditionsOnly s (word :: list) s' ∧
      NoComma s'.stream.ahead ∧
      s'.context.conditions = s.context.conditions ++ reads.flatMap (ReadRow.conditions rules) := by
  rw [valueRows, run_skipKeyword_bind] at success
  split at success
  · rename_i present
    obtain ⟨keyword, known, word⟩ := checkAnyKeyword_iff.1 present
    rw [if_pos rfl] at success
    have lists : Lists (valueRow rules columns) _ _ _ := lists_valueRow keywords inTable
    obtain ⟨list, reads, isList, rfl, run, recorded⟩ := lists.commaSeparated _ _ _ success
    have first : Run Context.ConditionsOnly s _ s.advance := run_token word
    refine .inr ⟨_, list, reads, ?_, isList, rfl, first.trans run, lists.noComma success, recorded⟩
    simpa using known
  · cases success
    exact .inl ⟨rfl, rfl⟩

/-- Rows of values are written by their tokens, and have the columns of the insertion. -/
lemma valueRows_reads {rows : List InsertRow} {columns : List Column} (keeps : KeepsCount text s)
    (inTable : ∀ column ∈ columns, column.tableName = table)
    (success : (valueRows rules columns).run s = .ok (rows, s')) (keywords : List Keyword) :
    ∃ (tokens : List Token) (reads : List ReadRow), rows = reads.map ReadRow.row ∧
      Run Context.ConditionsOnly s tokens s' ∧
      s'.context.conditions = s.context.conditions ++ reads.flatMap (ReadRow.conditions rules) ∧
      ∀ read ∈ reads, read.Means keywords text table ∧ read.columns = columns := by
  rcases valueRows_read keywords inTable success with ⟨rfl, rfl⟩ | present
  · exact ⟨[], [], rfl, .refl _, by simp, by simp⟩
  · obtain ⟨word, list, reads, isWord, isList, rfl, run, -, recorded⟩ := present
    have plain : word.kind ≠ .symbol .question := by rcases isWord with same | same <;> simp [same]
    obtain ⟨before, after, split, counted⟩ := keeps.located run
    refine ⟨_, reads, rfl, run, recorded, fun read mem => ?_⟩
    obtain ⟨front, part, back, rfl, isRow, same⟩ := isList.located read mem
    refine ⟨⟨before ++ word :: front, part, back ++ after, by simp [split], ?_⟩, same⟩
    rw [placeholders_append, placeholders_cons_of_ne plain]
    rwa [counted, keeps.source] at isRow

/-- The rows of the insertion that a text writes. -/
structure InsertionRead (env : Environment) (text : String) (insertion : InsertStatement)
    (reads : List ReadRow) : Prop where
  /-- One source is named. -/
  tables : ∃ source, insertion.context.tables = ({} : Tables).withSources [source]
  /-- The rows are the ones that are read. -/
  rows : insertion.rows = reads.map ReadRow.row
  /-- The conditions are those of the rows. -/
  conditions : insertion.context.conditions = reads.flatMap (ReadRow.conditions env.rules)
  /-- The rows are written by the text. -/
  means : ∀ read ∈ reads,
    read.Means env.dialect.insertKeywords text (insertion.tableName?.getD "")

/-- Assignments are rows of the text, if there are any. -/
lemma assignments_means {found : Option (Target × InsertRow)} (keeps : KeepsCount text s)
    (success : (assignments env table).run s = .ok (found, s')) :
    ∃ (tokens : List Token) (reads : List ReadRow),
      (found.map (·.2)).toList = reads.map ReadRow.row ∧ Run Context.ConditionsOnly s tokens s' ∧
      s'.context.conditions = s.context.conditions ++ reads.flatMap (ReadRow.conditions env.rules) ∧
      ∀ read ∈ reads, read.Means env.dialect.insertKeywords text table := by
  rcases assignments_reads success with ⟨rfl, rfl⟩ | ⟨tokens, read, rfl, isRow, run, recorded⟩
  · exact ⟨[], [], rfl, .refl _, by simp, by simp⟩
  · refine ⟨tokens, [read], rfl, run, by simpa using recorded, ?_⟩
    obtain ⟨before, after, split, counted⟩ := keeps.located run
    simp only [List.mem_singleton, forall_eq]
    rw [keeps.source, counted] at isRow
    exact ⟨before, tokens, after, split, isRow⟩

/-- The parts that an insertion is read in, one after the other, with the states between them. -/
structure InsertSteps (env : Environment) (text : String) (insertion : InsertStatement)
    (last : ParserState) where
  /-- The state in front of the table. -/
  opened : ParserState
  /-- The state behind the table. -/
  named : ParserState
  /-- The state in front of the values. -/
  valued : ParserState
  /-- The state behind the rows of values. -/
  listed : ParserState
  /-- The state behind the assignments. -/
  assigned : ParserState
  /-- The columns that are given or known. -/
  target : Target
  /-- The rows of values. -/
  rows : List InsertRow
  /-- The columns of the assignments, with the row they make. -/
  assignment? : Option (Target × InsertRow)
  /-- The first word. -/
  word : (TokenStream.ofText text).kind = .keyword .INSERT
  /-- The word in front of the table. -/
  into : ∃ present, (skipKeyword [.INTO]).run (ParserState.advance ⟨.ofText text, {}⟩) =
    .ok (present, opened)
  /-- The table. -/
  factor : tableFactor.run opened = .ok ((), named)
  /-- The columns. -/
  columns : (targetColumns env (named.context.tables.firstName?.getD "")).run named =
    .ok (target, valued)
  /-- No query stands in place of the values. -/
  refused : refuseQuery.run valued = .ok ((), valued)
  /-- The rows of values. -/
  values : (valueRows env.rules target.columns).run valued = .ok (rows, listed)
  /-- The assignments. -/
  assignments : (assignments env (named.context.tables.firstName?.getD "")).run listed =
    .ok (assignment?, assigned)
  /-- There are rows or assignments. -/
  nonempty : rows ++ (assignment?.map (·.2)).toList ≠ []
  /-- What to do with rows that are already there. -/
  update : (duplicateKeyUpdate env.rules (named.context.tables.firstName?.getD "")).run assigned =
    .ok ((), last)
  /-- What is kept. -/
  result : insertion =
    { context := last.context
      columns := ((assignment?.map (·.1)).getD target).columns
      rows := rows ++ (assignment?.map (·.2)).toList
      generatedKey := ((assignment?.map (·.1)).getD target).generatedKey }

/-- An insertion is read in its parts. -/
lemma insert_steps {insertion : InsertStatement}
    (success : (insert env).run ⟨.ofText text, {}⟩ = .ok (insertion, s)) :
    Nonempty (InsertSteps env text insertion s) := by
  obtain ⟨word, s₁, accepted, afterWord⟩ := run_bind_ok.1 success
  obtain ⟨isInsert, -, rfl⟩ := run_acceptKeyword_ok.1 accepted
  obtain ⟨into, opened, skipped, afterInto⟩ := run_bind_ok.1 afterWord
  obtain ⟨_, named, factorRead, afterFactor⟩ := run_bind_ok.1 afterInto
  rw [looks_context.run_bind] at afterFactor
  obtain ⟨target, valued, targetRead, afterTarget⟩ := run_bind_ok.1 afterFactor
  obtain ⟨_, s₅, refused, afterRefusal⟩ := run_bind_ok.1 afterTarget
  obtain ⟨rows, listed, rowsRead, afterRows⟩ := run_bind_ok.1 afterRefusal
  obtain ⟨assignment?, assigned, assignedRead, afterAssigned⟩ := run_bind_ok.1 afterRows
  obtain rfl := run_refuseQuery_ok refused
  dsimp only at afterAssigned
  split at afterAssigned
  · exact absurd afterAssigned run_unexpected_ne
  · rename_i nonempty
    obtain ⟨_, s₈, updated, last⟩ := run_bind_ok.1 afterAssigned
    rw [looks_context.run_bind, run_pure_ok] at last
    obtain ⟨rfl, rfl⟩ := last
    exact ⟨⟨opened, named, _, listed, assigned, target, rows, assignment?, isInsert,
      ⟨into, skipped⟩, factorRead, targetRead, refused, rowsRead, assignedRead,
      by simpa using nonempty, updated, rfl⟩⟩

/-- Count is kept up to the columns of an insertion, where one source is known and no condition is
recorded. -/
lemma InsertSteps.reads_named {insertion : InsertStatement} (steps : InsertSteps env text insertion s) :
    KeepsCount text steps.named ∧
      (∃ source, steps.named.context.tables = ({} : Tables).withSources [source]) ∧
      steps.named.context.conditions = [] := by
  have insertRun : Run Context.EditsOnly ⟨.ofText text, {}⟩ _ _ := run_token steps.word
  obtain ⟨_, skipped⟩ := steps.into
  obtain ⟨intoTokens, intoRun⟩ := (runs_skipKeyword [.INTO]).exists_run skipped
  have opened := insertRun.trans intoRun
  obtain ⟨source, factor⟩ := tableFactor_read steps.factor
  obtain ⟨factorTokens, -, factorRun⟩ := factor.exists_run
  refine ⟨((KeepsCount.start text).editsOnly opened).tablesOnly factorRun, ⟨source, ?_⟩, ?_⟩
  · rw [factor.tables_eq, opened.tables_eq]
  · rw [factorRun.conditions_eq, opened.conditions_eq_of_editsOnly]

/-- Count is kept up to the columns of an insertion. -/
lemma InsertSteps.keeps_named {insertion : InsertStatement} (steps : InsertSteps env text insertion s) :
    KeepsCount text steps.named :=
  steps.reads_named.1

/-- The columns and the values of an insertion are passed by a run. -/
lemma InsertSteps.run_assigned {insertion : InsertStatement} (steps : InsertSteps env text insertion s) :
    ∃ tokens, Run Context.ConditionsOnly steps.named tokens steps.assigned := by
  obtain ⟨⟨_, targetRun⟩, inTable⟩ := targetColumns_reads steps.columns
  have keeps := steps.keeps_named.editsOnly targetRun
  obtain ⟨_, _, -, rowsRun, -, -⟩ := valueRows_reads keeps inTable steps.values []
  obtain ⟨_, _, -, setRun, -, -⟩ :=
    assignments_means (keeps.conditionsOnly rowsRun) steps.assignments
  exact ⟨_, (targetRun.mono conditionsOnly_of_editsOnly).trans (rowsRun.trans setRun)⟩

/-- Count is kept up to the end of the values of an insertion. -/
lemma InsertSteps.keeps_assigned {insertion : InsertStatement} (steps : InsertSteps env text insertion s) :
    KeepsCount text steps.assigned := by
  obtain ⟨_, run⟩ := steps.run_assigned
  exact steps.keeps_named.conditionsOnly run

/-- The source of an insertion is known from its columns on. -/
lemma InsertSteps.tables_eq {insertion : InsertStatement} (steps : InsertSteps env text insertion s) :
    s.context.tables = steps.named.context.tables := by
  obtain ⟨_, run⟩ := steps.run_assigned
  obtain ⟨_, updateRun⟩ := runs_duplicateKeyUpdate.exists_run steps.update
  rw [updateRun.tables_eq, run.tables_eq_of_conditionsOnly]

/-- An insertion that is read has a reading, and keeps count. -/
lemma insert_reads {insertion : InsertStatement}
    (success : (insert env).run ⟨.ofText text, {}⟩ = .ok (insertion, s)) :
    insertion.context = s.context ∧ KeepsCount text s ∧
      ∃ reads, InsertionRead env text insertion reads := by
  obtain ⟨steps⟩ := insert_steps success
  -- the runs of the parts behind the table, one after the other
  obtain ⟨keepsFactor, ⟨source, tables⟩, conditions⟩ := steps.reads_named
  obtain ⟨⟨targetTokens, targetRun⟩, inTable⟩ := targetColumns_reads steps.columns
  have keepsTarget := keepsFactor.editsOnly targetRun
  obtain ⟨rowsTokens, rowReads, sameRows, rowsRun, rowsRecorded, rowsMean⟩ :=
    valueRows_reads keepsTarget inTable steps.values env.dialect.insertKeywords
  have keepsRows := keepsTarget.conditionsOnly rowsRun
  obtain ⟨setTokens, setReads, sameSet, setRun, setRecorded, setMeans⟩ :=
    assignments_means keepsRows steps.assignments
  have keepsSet := keepsRows.conditionsOnly setRun
  obtain ⟨updateTokens, updateRun⟩ := runs_duplicateKeyUpdate.exists_run steps.update
  have conditionsStart : steps.valued.context.conditions = [] := by
    rw [targetRun.conditions_eq_of_editsOnly, conditions]
  have sameTables := steps.tables_eq
  rw [steps.result]
  refine ⟨rfl, keepsSet.editsOnly updateRun, rowReads ++ setReads, ?_, ?_, ?_, ?_⟩
  · exact ⟨source, sameTables.trans tables⟩
  · rw [List.map_append, ← sameRows, ← sameSet]
  · rw [updateRun.conditions_eq_of_editsOnly, setRecorded, rowsRecorded,
      conditionsStart, List.nil_append, List.flatMap_append]
  · intro read mem
    rw [InsertStatement.tableName?, sameTables]
    rcases List.mem_append.1 mem with mem | mem
    · exact (rowsMean read mem).1
    · exact setMeans read mem

/-- An accepted insertion has a reading, and its count is that of all placeholders. -/
lemma insertion_read {insertion : InsertStatement}
    (success : Statement.ofText env text = .ok (.insert insertion)) :
    insertion.context.parameters = placeholders (Lexer.tokens text) ∧
      ∃ reads, InsertionRead env text insertion reads := by
  obtain ⟨s, s', finished, ⟨_, same, -⟩ | ⟨_, same, inserted⟩⟩ := ofText_reads success
  · cases same
  · cases same
    obtain ⟨context, keeps, reading⟩ := insert_reads inserted
    rw [context]
    exact ⟨(finish_reads keeps finished).parameters_eq keeps, reading⟩

end Grammar

end SqlRouting
