import SqlRouting.Grammar.Limit
import SqlRouting.Grammar.Ordering
import SqlRouting.Grammar.SelectList
import SqlRouting.Proofs.Expression

/-!
# Reading the clauses that shape a result

The select list, the grouping, the ordering and the limit say nothing about the route: their readers
record edits alone. The operands of a limit may be placeholders, which are numbered like any other. A
state behind some tokens is determined by these tokens, so what the reader of limits does is told by the
tokens that it accepts.

## Main definitions

* `SqlRouting.Grammar.LimitOperand` — the token that writes an operand of a limit.
* `SqlRouting.Grammar.LimitTokens` — the tokens that write a limit.
* `SqlRouting.Grammar.WrittenLimit` — the tokens that write its operands, with their places and with
  what comes behind them.

## Main results

* `SqlRouting.Grammar.runs_selectList`, `runs_grouping`, `runs_ordering`, `runs_limit` — the readers
  record edits alone.
* `SqlRouting.Grammar.limit_run_ok` — a limit is accepted exactly if its operands are written.
* `SqlRouting.Grammar.limit_reads` — a limit is what its tokens write.
-/

set_option autoImplicit false

namespace SqlRouting.Grammar

open SqlRouting.Parser TokenStream

variable {rules : ShardingRule} {s s' : ParserState}

/-! ## Select lists -/

/-- Looking for a called aggregate function leaves the state, and finds one only at a keyword. -/
lemma run_calledAggregate_ok {found : Option AggregateFunction}
    (success : calledAggregate?.run s = .ok (found, s')) :
    s' = s ∧ ∀ function, found = some function → ∃ keyword, s.stream.kind = .keyword keyword := by
  rw [calledAggregate?, looks_kind.run_bind] at success
  split at success
  · rename_i keyword same
    rw [looks_peek.run_bind] at success
    split at success
    · obtain ⟨-, rfl⟩ := run_pure_ok.1 success
      exact ⟨rfl, fun _ _ => ⟨keyword, same⟩⟩
    · obtain ⟨-, rfl⟩ := run_pure_ok.1 success
      exact ⟨rfl, fun _ _ => ⟨keyword, same⟩⟩
  · obtain ⟨rfl, rfl⟩ := run_pure_ok.1 success
    exact ⟨rfl, fun _ isSome => by cases isSome⟩

/-- Looking for the owner of a star leaves the state, and finds one only where the owner, a dot and
the star are the next three tokens. -/
lemma run_starOwner_ok {found : Option String} (success : starOwner?.run s = .ok (found, s')) :
    s' = s ∧ ∀ owner, found = some owner → s.stream.kind = .identifier owner ∧
      s.stream.advance.kind = .symbol .dot ∧ s.stream.advance.advance.kind = .symbol .star := by
  rw [starOwner?, looks_kind.run_bind] at success
  split at success
  · rename_i name same
    rw [looks_stream.run_bind] at success
    split at success
    · rename_i next
      rw [Bool.and_eq_true, beq_iff_eq, beq_iff_eq] at next
      obtain ⟨rfl, rfl⟩ := run_pure_ok.1 success
      refine ⟨rfl, fun owner isSome => ?_⟩
      obtain rfl := Option.some.inj isSome
      exact ⟨same, kind_advance.trans next.1, kind_advance_advance.trans next.2⟩
    · obtain ⟨rfl, rfl⟩ := run_pure_ok.1 success
      exact ⟨rfl, fun _ isSome => by cases isSome⟩
  · obtain ⟨rfl, rfl⟩ := run_pure_ok.1 success
    exact ⟨rfl, fun _ isSome => by cases isSome⟩

/-- An aggregate call is passed by a run. -/
lemma runs_aggregateItem (function : AggregateFunction) (keyword : Keyword) :
    RunsFrom Context.EditsOnly (fun s => s.stream.kind = .keyword keyword)
      (aggregateItem rules function) := by
  refine .look looks_offset fun start => ?_
  refine .bind (.advance (fun s h => h.1) (by simp) (by simp)) fun _ => ?_
  refine .look looks_offset fun innerStart => ?_
  refine .bind runs_skipParentheses.runsFrom fun _ => ?_
  refine .look (looks_textFrom innerStart) fun inner => ?_
  refine .look looks_checkComposite fun isComposite => .ite (fun _ => ?_) fun _ => ?_
  · refine .bind runs_composite.runsFrom fun _ => ?_
    refine .look (looks_textFrom start) fun text => ?_
    exact .bind runs_aliasName.runsFrom fun _ => .pure _
  · exact .bind runs_aliasName.runsFrom fun _ => .pure _

/-- An expression with its alias is passed by a run. -/
lemma runs_plainItem : Runs Context.EditsOnly (plainItem rules) := by
  refine .bind runs_expression fun expression => ?_
  refine .look (looks_textOf expression.span) fun text => ?_
  exact .bind runs_aliasName.runsFrom fun _ => .pure _

/-- An item of a select list is passed by a run. -/
lemma runs_selectItem : Runs Context.EditsOnly (selectItem rules) := by
  refine .bind (runs_skipSymbol (by decide)) fun star => .ite (fun _ => .pure _) fun _ => ?_
  intro s item s' _ success
  obtain ⟨owner, s₁, starred, rest⟩ := run_bind_ok.1 success
  obtain ⟨rfl, isStar⟩ := run_starOwner_ok starred
  split at rest
  · rename_i owner
    obtain ⟨isOwner, isDot, isStar⟩ := isStar owner rfl
    rw [run_advance_bind, run_advance_bind, run_advance_bind, run_pure_ok] at rest
    obtain ⟨-, rfl⟩ := rest
    have first : Run Context.EditsOnly s₁ _ s₁.advance := run_token isOwner
    have second : Run Context.EditsOnly s₁.advance _ s₁.advance.advance :=
      run_token isDot
    exact ⟨_, first.trans (second.trans (run_token isStar))⟩
  · obtain ⟨found, s₂, called, last⟩ := run_bind_ok.1 rest
    obtain ⟨rfl, isKeyword⟩ := run_calledAggregate_ok called
    split at last
    · rename_i function
      obtain ⟨keyword, same⟩ := isKeyword function rfl
      exact runs_aggregateItem function keyword _ item s' same last
    · exact runs_plainItem.exists_run last

/-- A select list is passed by a run. -/
lemma runs_selectList (shape : ResultShape) :
    Runs Context.EditsOnly (selectList rules shape) := by
  have rest (distinct : Bool) : Runs Context.EditsOnly (do
      let items ← commaSeparated (selectItem rules)
      return {
        shape with
        items := shape.items ++ (if distinct then foldDistinct items else items)
        containsStar := shape.containsStar || items.any isStar
        selectListStop := ← offset }) := by
    exact .bind runs_selectItem.commaSeparated fun _ => .look looks_offset fun _ => .pure _
  refine .bind (runs_skipKeyword [.DISTINCT]) fun distinct => .ite (fun _ => ?_) fun _ => rest distinct
  exact .bind (runs_skipKeyword [.ALL]) fun _ => rest distinct

/-! ## Orderings and groupings -/

/-- A direction is passed by a run. -/
lemma runs_direction : Runs Context.EditsOnly direction := by
  refine .bind (runs_skipKeyword [.DESC]) fun _ => .ite (fun _ => .pure _) fun _ => ?_
  exact .bind (runs_skipKeyword [.ASC]) fun _ => .pure _

/-- An item to order or group by is passed by a run. -/
lemma runs_orderItem (shape : ResultShape) : Runs Context.EditsOnly (orderItem rules shape) :=
  .bind runs_expression fun _ => .bind runs_direction fun _ => runs_lift _

/-- An ordering is passed by a run. -/
lemma runs_ordering (shape : ResultShape) : Runs Context.EditsOnly (ordering rules shape) := by
  refine .bind (runs_skipKeyword [.ORDER]) fun _ => .ite (fun _ => ?_) fun _ => .pure _
  refine .bind (runs_acceptKeyword .BY) fun _ => ?_
  exact .bind (runs_orderItem shape).commaSeparated fun _ => .pure _

/-- A grouping is passed by a run. -/
lemma runs_grouping (dialect : Dialect) (shape : ResultShape) :
    Runs Context.EditsOnly (grouping dialect rules shape) := by
  refine .bind (runs_skipKeyword [.GROUP]) fun _ => .ite (fun _ => ?_) fun _ => .pure _
  refine .bind (runs_acceptKeyword .BY) fun _ => ?_
  refine .bind (runs_orderItem shape).commaSeparated fun _ => ?_
  exact .bind (runs_skipAllKeywords _) fun _ => .look looks_previousEnd fun _ => .pure _

/-! ## Limits -/

/-- The token writes an operand of a limit, where `index` placeholders come before it. -/
inductive LimitOperand (index : Nat) : Token → LimitValue → Prop
  /-- A number. -/
  | literal {token : Token} {literal : String} {value : Nat}
      (isNumber : token.kind = .number literal) (fits : Text.decimal64? literal = some value) :
      LimitOperand index token (.literal value)
  /-- A placeholder, which is numbered by those before it. -/
  | placeholder {token : Token} (isPlaceholder : token.kind = .symbol .question) :
      LimitOperand index token (.placeholder index)

/-- The tokens write a limit, where `index` placeholders come before them. -/
inductive LimitTokens (index : Nat) : List Token → Option LimitValue → LimitValue → Prop
  /-- The number of rows. -/
  | rows {word count : Token} {rowCount : LimitValue} (isLimit : word.kind = .keyword .LIMIT)
      (isCount : LimitOperand index count rowCount) : LimitTokens index [word, count] none rowCount
  /-- The number of rows to skip, a comma and the number of rows. -/
  | comma {word skipped comma count : Token} {offset rowCount : LimitValue}
      (isLimit : word.kind = .keyword .LIMIT) (isOffset : LimitOperand index skipped offset)
      (isComma : comma.kind = .symbol .comma)
      (isCount : LimitOperand (index + placeholders [skipped]) count rowCount) :
      LimitTokens index [word, skipped, comma, count] (some offset) rowCount
  /-- The number of rows, a word and the number of rows to skip. -/
  | offset {word count between skipped : Token} {offset rowCount : LimitValue}
      (isLimit : word.kind = .keyword .LIMIT) (isCount : LimitOperand index count rowCount)
      (isWord : between.kind = .keyword .OFFSET)
      (isOffset : LimitOperand (index + placeholders [count]) skipped offset) :
      LimitTokens index [word, count, between, skipped] (some offset) rowCount

variable {token : Token} {literal : String} {style : LimitStyle} {shape shape' : ResultShape}

/-- At a number, the reader of operands gives its value if it fits, and refuses it otherwise. -/
lemma limitValue_run_number (isNumber : s.stream.kind = .number literal) :
    limitValue.run s = match Text.decimal64? literal with
      | some value => .ok ((.literal value, s.stream.current.span), s.advance)
      | none => .error (.unexpected .nonNegativeInteger (.number literal) s.stream.current.span) := by
  have same : s.stream.current.kind = .number literal := isNumber
  rw [limitValue, looks_current.run_bind, same]
  simp only
  rw [run_advance_bind]
  cases Text.decimal64? literal <;> rfl

/-- At a placeholder, the reader of operands gives its index. -/
lemma limitValue_run_placeholder (isPlaceholder : s.stream.kind = .symbol .question) :
    limitValue.run s = .ok ((.placeholder s.context.parameters, s.stream.current.span),
      s.pass [s.stream.current]) := by
  have same : s.stream.current.kind = .symbol .question := isPlaceholder
  rw [limitValue, looks_current.run_bind, same, ParserState.pass, placeholders_cons_of_eq same]
  rfl

/-- Elsewhere the reader of operands fails. -/
lemma limitValue_run_other (noNumber : ∀ literal, s.stream.kind ≠ .number literal)
    (noPlaceholder : s.stream.kind ≠ .symbol .question) :
    limitValue.run s = .error (s.stream.unexpected .limitValue) := by
  rw [limitValue, looks_current.run_bind]
  split
  · exact absurd ‹_› (noNumber _)
  · exact absurd ‹_› noPlaceholder
  · rfl

/-- A token in front is read as an operand if it is one, with its span. -/
lemma limitValue_run_operand {value : LimitValue} {rest : List Token}
    (ahead : s.stream.ahead = token :: rest) (isOperand : LimitOperand s.context.parameters token value) :
    limitValue.run s = .ok ((value, token.span), s.pass [token]) := by
  have same := kind_of_ahead_cons ahead
  have first : s.stream.current = token := ParserState.current_of_ahead ahead
  rcases isOperand with ⟨isNumber, fits⟩ | isPlaceholder
  · rw [limitValue_run_number (same.trans isNumber), fits, first,
      ParserState.advance_eq_pass token (by simp [isNumber])]
  · rw [limitValue_run_placeholder (same.trans isPlaceholder), first]

/-- What is read as an operand is the token in front. -/
lemma operand_of_limitValue {operand : LimitValue × Span} (success : limitValue.run s = .ok (operand, s')) :
    ∃ token value rest, s.stream.ahead = token :: rest ∧ LimitOperand s.context.parameters token value ∧
      operand = (value, token.span) ∧ s' = s.pass [token] := by
  by_cases number : ∃ literal, s.stream.kind = .number literal
  · obtain ⟨literal, isNumber⟩ := number
    have ahead := ahead_of_kind isNumber (by simp)
    rw [limitValue_run_number isNumber] at success
    split at success
    · rename_i value fits
      cases success
      exact ⟨_, _, _, ahead, .literal rfl fits, rfl, ParserState.advance_eq_pass _ (by simp)⟩
    · cases success
  by_cases isPlaceholder : s.stream.kind = .symbol .question
  · have ahead := ahead_of_kind isPlaceholder (by simp)
    rw [limitValue_run_placeholder isPlaceholder, ParserState.current_of_ahead ahead] at success
    cases success
    exact ⟨_, _, _, ahead, .placeholder rfl, rfl, rfl⟩
  · rw [limitValue_run_other (not_exists.1 number) isPlaceholder] at success
    cases success

/-- The tokens behind the word `LIMIT` write the operands of a limit: the number of rows to skip, if it
is there, and the number of rows, both with their spans. There are `index` placeholders before these
tokens, and a token of kind `next` comes after them. -/
inductive WrittenLimit (style : LimitStyle) (index : Nat) (next : TokenKind) :
    List Token → Option (LimitValue × Span) → LimitValue × Span → Prop
  /-- The number of rows, and nothing that starts a second operand. -/
  | rows {count : Token} {rowCount : LimitValue} (isCount : LimitOperand index count rowCount)
      (noComma : style = .commaSeparated → next ≠ .symbol .comma) (noWord : next ≠ .keyword .OFFSET) :
      WrittenLimit style index next [count] none (rowCount, count.span)
  /-- The number of rows to skip, a comma and the number of rows, in the style that has this form. -/
  | comma {skipped comma count : Token} {offset rowCount : LimitValue} (isStyle : style = .commaSeparated)
      (isOffset : LimitOperand index skipped offset) (isComma : comma.kind = .symbol .comma)
      (isCount : LimitOperand (index + placeholders [skipped]) count rowCount) :
      WrittenLimit style index next [skipped, comma, count] (some (offset, skipped.span))
        (rowCount, count.span)
  /-- The number of rows, a word and the number of rows to skip. -/
  | offset {count word skipped : Token} {offset rowCount : LimitValue}
      (isCount : LimitOperand index count rowCount) (isWord : word.kind = .keyword .OFFSET)
      (isOffset : LimitOperand (index + placeholders [count]) skipped offset) :
      WrittenLimit style index next [count, word, skipped] (some (offset, skipped.span))
        (rowCount, count.span)

/-- A second operand is read behind the first one and a token between them. -/
lemma limitValue_run_second {first between last : Token} {value : LimitValue} {rest : List Token}
    (ahead : s.stream.ahead = first :: between :: last :: rest)
    (plain : between.kind ≠ .symbol .question)
    (isOperand : LimitOperand (s.context.parameters + placeholders [first]) last value) :
    limitValue.run (s.pass [first]).advance =
      .ok ((value, last.span), s.pass [first, between, last]) := by
  have behind : (s.pass [first]).advance = s.pass [first, between] := by
    rw [ParserState.advance_eq_pass between plain, ParserState.pass_pass]
    rfl
  have numbered : (s.pass [first, between]).context.parameters =
      s.context.parameters + placeholders [first] := by
    rw [← behind]
    rfl
  rw [behind, limitValue_run_operand (ParserState.ahead_pass _ ahead) (numbered ▸ isOperand),
    ParserState.pass_pass]
  rfl

/-- The operands of a limit are read if they are written. -/
lemma limitOperands_run {tokens rest : List Token} {skipped : Option (LimitValue × Span)}
    {count : LimitValue × Span} (ahead : s.stream.ahead = tokens ++ rest)
    (written : WrittenLimit style s.context.parameters (s.pass tokens).stream.kind tokens skipped count) :
    (limitOperands style).run s = .ok ((skipped, count), s.pass tokens) := by
  rw [limitOperands]
  cases written with
  | @rows count rowCount isCount noComma noWord =>
    rw [run_bind_ok]
    refine ⟨_, _, limitValue_run_operand ahead isCount, ?_⟩
    rw [(looks_checkSymbol _).run_bind, if_neg, run_skipKeyword_bind, if_neg]
    · rfl
    · simpa [checkAnyKeyword_iff] using noWord
    · rw [Bool.and_eq_true, check_symbol, beq_iff_eq]
      exact fun ⟨isStyle, isComma⟩ => noComma isStyle isComma
  | @comma skipped comma count offset rowCount isStyle isOffset isComma isCount =>
    have next : (s.pass [skipped]).stream.kind = .symbol .comma :=
      (kind_of_ahead_cons (ParserState.ahead_pass [skipped] ahead)).trans isComma
    rw [run_bind_ok]
    refine ⟨_, _, limitValue_run_operand ahead isOffset, ?_⟩
    rw [(looks_checkSymbol _).run_bind, if_pos (by simp [isStyle, check_symbol, next]), run_advance_bind,
      run_bind_ok]
    exact ⟨_, _, limitValue_run_second ahead (by simp [isComma]) isCount, rfl⟩
  | @offset count word skipped offset rowCount isCount isWord isOffset =>
    have next : (s.pass [count]).stream.kind = .keyword .OFFSET :=
      (kind_of_ahead_cons (ParserState.ahead_pass [count] ahead)).trans isWord
    rw [run_bind_ok]
    refine ⟨_, _, limitValue_run_operand ahead isCount, ?_⟩
    rw [(looks_checkSymbol _).run_bind, if_neg (by simp [check_symbol, next]), run_skipKeyword_bind,
      if_pos (checkAnyKeyword_iff.2 ⟨_, List.mem_singleton_self _, next⟩), if_pos rfl, run_bind_ok]
    exact ⟨_, _, limitValue_run_second ahead (by simp [isWord]) isOffset, rfl⟩

/-- A second operand that is read is behind the first one and the token between them. -/
lemma second_of_limitValue {first : Token} {kind : TokenKind} {rest : List Token}
    {operand : LimitValue × Span} (ahead : s.stream.ahead = first :: rest)
    (between : (s.pass [first]).stream.kind = kind) (plain : kind ≠ .symbol .question)
    (notEnd : kind ≠ .endOfInput) (success : limitValue.run (s.pass [first]).advance = .ok (operand, s')) :
    ∃ (middle last : Token) (value : LimitValue) (others : List Token), middle.kind = kind ∧
      s.stream.ahead = [first, middle, last] ++ others ∧
      LimitOperand (s.context.parameters + placeholders [first]) last value ∧
      operand = (value, last.span) ∧ s' = s.pass [first, middle, last] := by
  have behind : (s.pass [first]).stream.ahead = rest := ParserState.ahead_pass [first] ahead
  have split := ahead_of_kind between notEnd
  obtain ⟨last, value, others, next, isOperand, rfl, rfl⟩ := operand_of_limitValue success
  have next : (s.pass [first]).stream.advance.ahead = last :: others := next
  rw [behind, next] at split
  refine ⟨_, last, value, others, rfl, ahead.trans (congrArg _ split), isOperand, rfl, ?_⟩
  rw [ParserState.advance_eq_pass ⟨kind, _⟩ plain, ParserState.pass_pass,
    ParserState.pass_pass]
  rfl

/-- The operands of a limit that are read are written. -/
lemma written_of_limitOperands {skipped : Option (LimitValue × Span)} {count : LimitValue × Span}
    (success : (limitOperands style).run s = .ok ((skipped, count), s')) :
    ∃ tokens, tokens <+: s.stream.ahead ∧ s' = s.pass tokens ∧
      WrittenLimit style s.context.parameters s'.stream.kind tokens skipped count := by
  obtain ⟨operand, s₁, firstRead, rest⟩ := run_bind_ok.1 success
  obtain ⟨first, value, behind, ahead, isFirst, rfl, rfl⟩ := operand_of_limitValue firstRead
  rw [(looks_checkSymbol _).run_bind] at rest
  split at rest
  · rename_i separated
    rw [Bool.and_eq_true, check_symbol, beq_iff_eq] at separated
    rw [run_advance_bind] at rest
    obtain ⟨operand, s₂, read, done⟩ := run_bind_ok.1 rest
    obtain ⟨same, rfl⟩ := run_pure_ok.1 done
    cases same
    obtain ⟨comma, last, value', others, isComma, split, isLast, rfl, rfl⟩ :=
      second_of_limitValue ahead separated.2 (by simp) (by simp) read
    exact ⟨_, ⟨_, split.symm⟩, rfl, .comma separated.1 isFirst isComma isLast⟩
  · rename_i notSeparated
    rw [Bool.and_eq_true, check_symbol, beq_iff_eq, not_and] at notSeparated
    rw [run_skipKeyword_bind] at rest
    split at rest
    · rename_i present
      obtain ⟨keyword, isOffset, isWord⟩ := checkAnyKeyword_iff.1 present
      obtain rfl := List.mem_singleton.1 isOffset
      obtain ⟨operand, s₂, read, done⟩ := run_bind_ok.1 rest
      obtain ⟨same, rfl⟩ := run_pure_ok.1 done
      cases same
      obtain ⟨word, last, value', others, isWord, split, isLast, rfl, rfl⟩ :=
        second_of_limitValue ahead isWord (by simp) (by simp) read
      exact ⟨_, ⟨_, split.symm⟩, rfl, .offset isFirst isWord isLast⟩
    · rename_i absent
      obtain ⟨same, rfl⟩ := run_pure_ok.1 rest
      cases same
      refine ⟨_, ⟨_, ahead.symm⟩, rfl, .rows isFirst notSeparated fun isWord => absent ?_⟩
      exact checkAnyKeyword_iff.2 ⟨_, List.mem_singleton_self _, isWord⟩

/-- The edits that the operands of a limit give. -/
def limitEdits (operands : Option (LimitValue × Span) × LimitValue × Span) : List Edit :=
  operands.1.toList.flatMap (limitEdit .offset) ++ limitEdit .rowCount operands.2

/-- Recording edits adds them in their order. -/
lemma addEdits_run (edits : List Edit) : (edits.forM addEdit).run s = .ok ((), s.withEdits edits) := by
  induction edits generalizing s with
  | nil => simp [ParserState.withEdits]; rfl
  | cons edit edits ih =>
    show (edits.forM addEdit).run { s with context := s.context.addEdit edit } = _
    rw [ih]
    simp [ParserState.withEdits, Context.addEdit]

/-- Recording edits changes nothing else. -/
lemma addEdits_ok {edits : List Edit} {result : Unit} :
    (edits.forM addEdit).run s = .ok (result, s') ↔ s' = s.withEdits edits := by
  rw [addEdits_run]
  exact ⟨fun same => (by cases same; rfl), fun same => (by rw [same])⟩

/-- A limit is accepted exactly if its operands are written behind the word. It is recorded with their
values, and the numbers are recorded as edits at their places, that of the rows to skip first. -/
lemma limit_run_ok (style : LimitStyle) (shape : ResultShape)
    (atLimit : s.stream.kind = .keyword .LIMIT) :
    (limit style shape).run s = .ok (shape', s') ↔
      ∃ tokens skipped count, tokens <+: s.stream.advance.ahead ∧
        WrittenLimit style s.context.parameters s'.stream.kind tokens skipped count ∧
        shape' = { shape with
          limit := some ⟨skipped.map (·.1), some count.1, ⟨s.stream.offset, s'.stream.previousEnd⟩⟩ } ∧
        s' = (s.advance.pass tokens).withEdits (limitEdits (skipped, count)) := by
  have present : s.stream.checkAnyKeyword [.LIMIT] = true :=
    checkAnyKeyword_iff.2 ⟨_, List.mem_singleton_self _, atLimit⟩
  rw [limit, looks_offset.run_bind, run_skipKeyword_bind, if_pos present, if_pos rfl, run_bind_ok]
  constructor
  · rintro ⟨⟨skipped, count⟩, s₁, operands, rest⟩
    obtain ⟨tokens, ahead, rfl, written⟩ := written_of_limitOperands operands
    obtain ⟨_, s₂, edited, rest⟩ := run_bind_ok.1 rest
    obtain rfl := addEdits_ok.1 edited
    rw [looks_previousEnd.run_bind, run_pure_ok] at rest
    obtain ⟨rfl, rfl⟩ := rest
    exact ⟨tokens, skipped, count, ahead, written, rfl, rfl⟩
  · rintro ⟨tokens, skipped, count, ⟨rest, ahead⟩, written, rfl, rfl⟩
    refine ⟨_, _, limitOperands_run ahead.symm written, run_bind_ok.2 ⟨_, _, addEdits_run _, ?_⟩⟩
    rw [looks_previousEnd.run_bind]
    rfl

/-- What writes the operands of a limit writes the limit, behind the word. -/
lemma WrittenLimit.limitTokens {index : Nat} {next : TokenKind} {tokens : List Token}
    {skipped : Option (LimitValue × Span)} {count : LimitValue × Span} (word : Token)
    (isLimit : word.kind = .keyword .LIMIT)
    (written : WrittenLimit style index next tokens skipped count) :
    LimitTokens index (word :: tokens) (skipped.map (·.1)) count.1 := by
  cases written with
  | rows isCount => exact .rows isLimit isCount
  | comma _ isOffset isComma isCount => exact .comma isLimit isOffset isComma isCount
  | offset isCount isWord isOffset => exact .offset isLimit isCount isWord isOffset

/-- A limit is what its tokens write, and without the word there is none. -/
lemma limit_reads (success : (limit style shape).run s = .ok (shape', s')) :
    s' = s ∧ shape' = shape ∨
      ∃ tokens read offset rowCount, Run Context.EditsOnly s tokens s' ∧
        LimitTokens s.context.parameters tokens offset rowCount ∧
        shape' = { shape with limit := some read } ∧ read.offset = offset ∧
        read.rowCount = some rowCount := by
  by_cases word : s.stream.kind = .keyword .LIMIT
  · obtain ⟨tokens, skipped, count, ⟨rest, ahead⟩, written, rfl, rfl⟩ :=
      (limit_run_ok style shape word).1 success
    have first : Run Context.EditsOnly s _ s.advance := run_token word
    have operands : Run Context.EditsOnly s.advance tokens
        ((s.advance.pass tokens).withEdits (limitEdits (skipped, count))) :=
      (Run.pass tokens ahead.symm).record ⟨rfl, rfl, rfl⟩
    exact .inr ⟨_, _, _, _, first.trans operands, written.limitTokens _ rfl, rfl, rfl, rfl⟩
  · rw [limit, looks_offset.run_bind, run_skipKeyword_bind,
      if_neg (by simpa [checkAnyKeyword_iff] using word)] at success
    obtain ⟨rfl, rfl⟩ := run_pure_ok.1 success
    exact .inl ⟨rfl, rfl⟩

/-- A limit is passed by a run. -/
lemma runs_limit (style : LimitStyle) (shape : ResultShape) :
    Runs Context.EditsOnly (limit style shape) := by
  intro s shape' s' _ success
  rcases limit_reads success with ⟨rfl, -⟩ | ⟨tokens, -, -, -, run, -⟩
  · exact ⟨[], .refl _⟩
  · exact ⟨tokens, run⟩

end SqlRouting.Grammar
