import SqlRouting.Proofs.Decimal
import SqlRouting.Proofs.Layout
import SqlRouting.Proofs.Refusal

/-!
# What a limit gives

A limit has one operand or two, and where there are two, the number of rows to skip is written before
a comma or behind a word. Whichever way it is written, each operand is a number below `2 ^ 64` or a
placeholder, its value and its place go together, and a placeholder has its number from those in front
of it in the text.

## Main definitions

* `SqlRouting.Grammar.OperandDue` — the tokens after which an operand is due.
* `SqlRouting.Grammar.ReadsLimit` — what the reader of limits does.

## Main results

* `SqlRouting.Grammar.limit_run_number` — a number is refused exactly if it does not fit.
* `SqlRouting.Grammar.reads_limit` — the reader of limits gives each operand its value and its place.
-/

set_option autoImplicit false

namespace SqlRouting

open TokenStream SqlRouting.Parser

/-- The number that an operand of a limit is, unless it is a placeholder. -/
def LimitValue.literal? : LimitValue → Option Nat
  | .literal value => some value
  | .placeholder _ => none

namespace Grammar

variable {s : ParserState} {style : LimitStyle} {shape : ResultShape} {token : Token} {literal : String}

/-! ## Operands -/

/-- A number is an operand if its digits write a number below `2 ^ 64`, which is its value. -/
lemma limitOperand_iff_of_number {index value : Nat} (isNumber : token.kind = .number literal) :
    LimitOperand index token (.literal value) ↔ Text.Writes literal value ∧ value < 2 ^ 64 := by
  rw [← Text.decimal64?_eq_some]
  constructor
  · rintro (⟨isNumber', fits⟩ | _)
    rw [isNumber'] at isNumber
    obtain rfl := TokenKind.number.inj isNumber
    exact fits
  · exact .literal isNumber

/-- Only a number that does not fit is refused as a number. -/
lemma unfit_of_limitValue {span : Span} (failure : limitValue.run s =
    .error (.unexpected .nonNegativeInteger (.number literal) span)) :
    Text.decimal64? literal = none := by
  by_cases number : ∃ literal, s.stream.kind = .number literal
  · obtain ⟨literal, isNumber⟩ := number
    rw [limitValue_run_number isNumber] at failure
    split at failure
    · cases failure
    · cases failure
      assumption
  by_cases isPlaceholder : s.stream.kind = .symbol .question
  · rw [limitValue_run_placeholder isPlaceholder] at failure
    cases failure
  · rw [limitValue_run_other (not_exists.1 number) isPlaceholder] at failure
    have other := Except.error.inj failure
    unfold TokenStream.unexpected ParseError.ofToken at other
    split at other <;> cases other

/-! ## Numbers that do not fit -/

/-- A token is an operand of a limit: a number that fits, or a placeholder. -/
def IsLimitOperand (token : Token) : Prop :=
  ∃ index value, LimitOperand index token value

/-- An operand has a value wherever it is read. -/
lemma IsLimitOperand.exists_value (isOperand : IsLimitOperand token) (index : Nat) :
    ∃ value, LimitOperand index token value := by
  obtain ⟨_, _, ⟨isNumber, fits⟩ | isPlaceholder⟩ := isOperand
  · exact ⟨_, .literal isNumber fits⟩
  · exact ⟨_, .placeholder isPlaceholder⟩

/-- Behind these tokens after the word an operand is due: there are none, or an operand and what
introduces another one. -/
inductive OperandDue (style : LimitStyle) : List Token → Prop
  /-- The first operand. -/
  | first : OperandDue style []
  /-- The second operand. -/
  | second {operand between : Token} (isOperand : IsLimitOperand operand)
      (introduces : style = .commaSeparated ∧ between.kind = .symbol .comma ∨
        between.kind = .keyword .OFFSET) : OperandDue style [operand, between]

/-- Where a number does not fit, the operands are refused at its place. -/
lemma limitOperands_run_unfit {before rest : List Token} (due : OperandDue style before)
    (ahead : s.stream.ahead = before ++ token :: rest) (isNumber : token.kind = .number literal)
    (unfit : Text.decimal64? literal = none) :
    (limitOperands style).run s =
      .error (.unexpected .nonNegativeInteger (.number literal) token.span) := by
  have refused {t : ParserState} (front : t.stream.ahead = token :: rest) :
      limitValue.run t = .error (.unexpected .nonNegativeInteger (.number literal) token.span) := by
    rw [limitValue_run_number ((kind_of_ahead_cons front).trans isNumber), unfit,
      ParserState.current_of_ahead front]
  rw [limitOperands, run_bind_error]
  cases due with
  | first => exact .inl (refused ahead)
  | @second operand between isOperand introduces =>
    obtain ⟨value, isOperand⟩ := isOperand.exists_value s.context.parameters
    have behind : (s.pass [operand]).stream.ahead = between :: token :: rest :=
      ParserState.ahead_pass [operand] ahead
    have last : (s.pass [operand]).advance.stream.ahead = token :: rest := congrArg List.tail behind
    have next := kind_of_ahead_cons behind
    refine .inr ⟨_, _, limitValue_run_operand ahead isOperand, ?_⟩
    rw [(looks_checkSymbol _).run_bind]
    rcases introduces with ⟨isStyle, isComma⟩ | isWord
    · rw [if_pos (by simp [isStyle, check_symbol, next, isComma]), run_advance_bind]
      exact run_bind_error.2 (.inl (refused last))
    · rw [if_neg (by simp [check_symbol, next, isWord]), run_skipKeyword_bind,
        if_pos (checkAnyKeyword_iff.2 ⟨_, List.mem_singleton_self _, next.trans isWord⟩), if_pos rfl]
      exact run_bind_error.2 (.inl (refused last))

/-- Only where a number does not fit are the operands refused as a number. -/
lemma unfit_of_limitOperands {span : Span} (failure : (limitOperands style).run s =
    .error (.unexpected .nonNegativeInteger (.number literal) span)) :
    Text.decimal64? literal = none := by
  rcases run_bind_error.1 failure with first | ⟨operand, s₁, -, rest⟩
  · exact unfit_of_limitValue first
  rw [(looks_checkSymbol _).run_bind] at rest
  split at rest
  · rw [run_advance_bind] at rest
    rcases run_bind_error.1 rest with second | ⟨_, _, -, done⟩
    · exact unfit_of_limitValue second
    · cases done
  · rw [run_skipKeyword_bind] at rest
    split at rest
    · rcases run_bind_error.1 rest with second | ⟨_, _, -, done⟩
      · exact unfit_of_limitValue second
      · cases done
    · cases rest

/-- Where an operand is due, a number is refused, at its place, exactly if it does not fit. -/
lemma limit_run_number {before : List Token} (atLimit : s.stream.kind = .keyword .LIMIT)
    (due : OperandDue style before) (ahead : before ++ [token] <+: s.stream.advance.ahead)
    (isNumber : token.kind = .number literal) :
    (limit style shape).run s = .error (.unexpected .nonNegativeInteger (.number literal) token.span) ↔
      ¬ ∃ value, Text.Writes literal value ∧ value < 2 ^ 64 := by
  have present : s.stream.checkAnyKeyword [.LIMIT] = true :=
    checkAnyKeyword_iff.2 ⟨_, List.mem_singleton_self _, atLimit⟩
  simp only [← Text.decimal64?_eq_some, ← Option.ne_none_iff_exists', not_not]
  rw [limit, looks_offset.run_bind, run_skipKeyword_bind, if_pos present, if_pos rfl, run_bind_error]
  constructor
  · rintro (operands | ⟨⟨skipped, count⟩, s₁, -, edited⟩)
    · exact unfit_of_limitOperands operands
    · rcases run_bind_error.1 edited with edits | ⟨_, _, -, done⟩
      · rw [addEdits_run] at edits
        cases edits
      · cases done
  · intro unfit
    obtain ⟨rest, ahead⟩ := ahead
    rw [List.append_assoc] at ahead
    exact .inl (limitOperands_run_unfit (s := s.advance) due ahead.symm isNumber unfit)

/-! ## The places of operands -/

/-- The tokens that write a limit are valid. -/
lemma WrittenLimit.valid {index : Nat} {next : TokenKind} {tokens : List Token}
    {skipped : Option (LimitValue × Span)} {count : LimitValue × Span}
    (written : WrittenLimit style index next tokens skipped count) :
    ∀ token ∈ tokens, token.kind.isBroken = false := by
  have operand {index : Nat} {token : Token} {value : LimitValue}
      (isOperand : LimitOperand index token value) : token.kind.isBroken = false := by
    rcases isOperand with ⟨isNumber, -⟩ | isPlaceholder
    · rw [isNumber]
      rfl
    · rw [isPlaceholder]
      rfl
  cases written with
  | rows isCount _ _ => simp [operand isCount]
  | @comma skipped comma count _ _ _ isOffset isComma isCount =>
    have separator : comma.kind.isBroken = false := by
      rw [isComma]
      rfl
    simp [operand isOffset, separator, operand isCount]
  | @offset count word skipped _ _ isCount isWord isOffset =>
    have separator : word.kind.isBroken = false := by
      rw [isWord]
      rfl
    simp [operand isCount, separator, operand isOffset]

/-- A number among valid tokens in front is what is written at its place. -/
lemma text_number_of_mem {text : String} {tokens : List Token} (reaches : Reaches text s)
    (ahead : tokens <+: s.stream.ahead) (valid : ∀ token ∈ tokens, token.kind.isBroken = false)
    (mem : token ∈ tokens) (isNumber : token.kind = .number literal) :
    token.span.text text = literal := by
  obtain ⟨before, after, rfl⟩ := List.append_of_mem mem
  obtain ⟨rest, ahead⟩ := ahead
  have split : s.stream.ahead = before ++ token :: (after ++ rest) := by
    rw [← ahead, List.append_assoc, List.cons_append]
  have behind : (s.pass before).stream.ahead = token :: (after ++ rest) := ParserState.ahead_pass before split
  have passes : Passes s (s.pass before) :=
    ⟨before, fun known mem => valid known (List.mem_append_left _ mem), by rw [behind, split], rfl⟩
  have written := text_number (reaches.passes passes) ((kind_of_ahead_cons behind).trans isNumber)
  rwa [ParserState.current_of_ahead behind] at written

/-! ## Both ways to write a limit -/

/-- Operands of one kind are the same number, wherever they are read, or both are placeholders. -/
lemma LimitOperand.literal?_eq {index index' : Nat} {token token' : Token} {value value' : LimitValue}
    (isOperand : LimitOperand index token value) (isOperand' : LimitOperand index' token' value')
    (same : token'.kind = token.kind) : value.literal? = value'.literal? := by
  rcases isOperand with ⟨isNumber, fits⟩ | isPlaceholder <;>
    rcases isOperand' with ⟨isNumber', fits'⟩ | isPlaceholder'
  · rw [isNumber, isNumber'] at same
    obtain rfl := TokenKind.number.inj same
    exact fits.symm.trans fits'
  · rw [isNumber, isPlaceholder'] at same
    cases same
  · rw [isPlaceholder, isNumber'] at same
    cases same
  · rfl

/-- What the reader of limits does at the word, in a state `s` of a parse of the text. -/
structure ReadsLimit (text : String) (style : LimitStyle) (shape : ResultShape) (s : ParserState) :
    Prop where
  /-- A limit is accepted exactly if its operands are written behind the word. It is recorded with their
  values, and the numbers are recorded as edits at their places, that of the rows to skip first. -/
  accepted (shape' : ResultShape) (s' : ParserState) :
    (limit style shape).run s = .ok (shape', s') ↔
      ∃ tokens skipped count, tokens <+: s.stream.advance.ahead ∧
        WrittenLimit style s.context.parameters s'.stream.kind tokens skipped count ∧
        shape' = { shape with
          limit := some ⟨skipped.map (·.1), some count.1, ⟨s.stream.offset, s'.stream.previousEnd⟩⟩ } ∧
        s' = (s.advance.pass tokens).withEdits (limitEdits (skipped, count))
  /-- A number is an operand if its digits write a number below `2 ^ 64`, which is its value. -/
  numbers {index value : Nat} {token : Token} {literal : String} (isNumber : token.kind = .number literal) :
    LimitOperand index token (.literal value) ↔ Text.Writes literal value ∧ value < 2 ^ 64
  /-- Where an operand is due, any other number is refused at its place. -/
  refused {before : List Token} {token : Token} {literal : String} (due : OperandDue style before)
    (ahead : before ++ [token] <+: s.stream.advance.ahead) (isNumber : token.kind = .number literal) :
    (limit style shape).run s = .error (.unexpected .nonNegativeInteger (.number literal) token.span) ↔
      ¬ ∃ value, Text.Writes literal value ∧ value < 2 ^ 64
  /-- The place of a number is where it is written. -/
  places {next : TokenKind} {tokens : List Token} {skipped : Option (LimitValue × Span)}
    {count : LimitValue × Span} (ahead : tokens <+: s.stream.advance.ahead)
    (written : WrittenLimit style s.context.parameters next tokens skipped count) :
    ∀ token ∈ tokens, ∀ literal, token.kind = .number literal → token.span.text text = literal
  /-- For MySQL, a limit with both operands can be written with a comma, here in `s`, or with a word, in
  another state `t`. Either way it has the same numbers. A placeholder has its number from those in
  front of it. -/
  bothWays (isStyle : style = Dialect.mysql.limitStyle) {t : ParserState}
    (atLimit : t.stream.kind = .keyword .LIMIT) {a b a' b' comma word : Token} {rest rest' : List Token}
    (withComma : s.stream.advance.ahead = a :: comma :: b :: rest) (isComma : comma.kind = .symbol .comma)
    (withWord : t.stream.advance.ahead = b' :: word :: a' :: rest') (isWord : word.kind = .keyword .OFFSET)
    (sameOffset : a'.kind = a.kind) (sameCount : b'.kind = b.kind)
    (isOffset : IsLimitOperand a) (isCount : IsLimitOperand b) :
    ∃ offset rowCount offset' rowCount' span span' s' t',
      (limit style shape).run s = .ok ({ shape with limit := some ⟨some offset, some rowCount, span⟩ }, s') ∧
      (limit style shape).run t =
        .ok ({ shape with limit := some ⟨some offset', some rowCount', span'⟩ }, t') ∧
      offset.literal? = offset'.literal? ∧ rowCount.literal? = rowCount'.literal? ∧
      LimitOperand s.context.parameters a offset ∧
      LimitOperand (s.context.parameters + placeholders [a]) b rowCount ∧
      LimitOperand t.context.parameters b' rowCount' ∧
      LimitOperand (t.context.parameters + placeholders [b']) a' offset'

/-- An operand of the kind of another one is an operand. -/
lemma IsLimitOperand.of_kind {token' : Token} (isOperand : IsLimitOperand token)
    (same : token'.kind = token.kind) : IsLimitOperand token' := by
  obtain ⟨index, _, ⟨isNumber, fits⟩ | isPlaceholder⟩ := isOperand
  · exact ⟨index, _, .literal (same.trans isNumber) fits⟩
  · exact ⟨index, _, .placeholder (same.trans isPlaceholder)⟩

/-- The reader of limits gives each operand its value and its place, whichever way the limit is
written.

**Proof sketch.** The reader accepts a limit exactly if its operands are written behind the word, and takes
their values as it goes. An operand depends on its token alone, but for the number of placeholders before
it, so the two ways to write a limit give the same values in the other order. -/
theorem reads_limit {text : String} (reaches : Reaches text s) (atLimit : s.stream.kind = .keyword .LIMIT)
    (style : LimitStyle) (shape : ResultShape) : ReadsLimit text style shape s where
  accepted _ _ := limit_run_ok style shape atLimit
  numbers isNumber := limitOperand_iff_of_number isNumber
  refused due ahead isNumber := limit_run_number atLimit due ahead isNumber
  places ahead written token mem literal isNumber := by
    have entered : Passes s s.advance := passes_token atLimit rfl
    exact text_number_of_mem (reaches.passes entered) ahead written.valid mem isNumber
  bothWays {isStyle t atLimit' a b a' b' comma word rest rest'} withComma isComma withWord isWord
      sameOffset sameCount isOffset isCount := by
    obtain ⟨offset, readsOffset⟩ := isOffset.exists_value s.context.parameters
    obtain ⟨rowCount, readsCount⟩ := isCount.exists_value (s.context.parameters + placeholders [a])
    obtain ⟨rowCount', readsCount'⟩ := (isCount.of_kind sameCount).exists_value t.context.parameters
    obtain ⟨offset', readsOffset'⟩ :=
      (isOffset.of_kind sameOffset).exists_value (t.context.parameters + placeholders [b'])
    have first := (limit_run_ok style shape atLimit).2
      ⟨_, _, _, ⟨_, withComma.symm⟩, .comma isStyle readsOffset isComma readsCount, rfl, rfl⟩
    have second := (limit_run_ok style shape atLimit').2
      ⟨_, _, _, ⟨_, withWord.symm⟩, .offset readsCount' isWord readsOffset', rfl, rfl⟩
    exact ⟨offset, rowCount, offset', rowCount', _, _, _, _, first, second,
      readsOffset.literal?_eq readsOffset' sameOffset, readsCount.literal?_eq readsCount' sameCount,
      readsOffset, readsCount, readsCount', readsOffset'⟩

/-- In front of the limit of a statement, the reader gives its operands, of which one has a zero in
front. -/
theorem reads_limit_page :
    let text := "SELECT a FROM t LIMIT ?, 07"
    let s := (⟨.ofText text, {}⟩ : ParserState).pass ((Lexer.tokens text).take 4)
    ReadsLimit text .commaSeparated {} s ∧
      ((limit .commaSeparated {}).run s).toOption.map (·.1.limit) =
        some (some ⟨some (.placeholder 0), some (.literal 7), ⟨16, 27⟩⟩) := by
  refine ⟨reads_limit ⟨_, ?_, ?_, rfl⟩ ?_ _ _, ?_⟩ <;> decide +kernel

end Grammar

end SqlRouting
