import Mathlib.Tactic.FinCases
import SqlRouting.Proofs.Decimal
import SqlRouting.Proofs.Inserted
import SqlRouting.Proofs.SourceText

/-!
# Copies of expressions

What preparing a query inserts is made of copies: the arguments of averages, and the expressions to
order and group by. A copy is what the tokens of the expression are written as, without quotation marks,
or it is put together from the names of a reference. So a copy is read as the tokens of the expression
where these are written without quotation marks, and else it may be read as others.

## Main definitions

* `SqlRouting.Grammar.Copy` — what is copied of the tokens of an expression.
* `SqlRouting.Grammar.Kept` — a copy is read as the tokens that it was made of.
* `SqlRouting.Aggregate.ReadFrom`, `SqlRouting.OrderItem.ReadFrom` — the tokens that an aggregate call and
  an item are read from.

## Main results

* `SqlRouting.Grammar.Copy.kept` — a copy without quotation marks is kept.
* `SqlRouting.SelectStatement.copies_kept` — the copies that a query inserts.
* `SqlRouting.SelectStatement.quotation_marks_lost` — copies that lose quotation marks.
-/

set_option autoImplicit false

namespace SqlRouting

/-! ## Plain text -/

namespace Lexer

open Text

/-- A decimal digit starts a number. -/
lemma scan_digit {c : Char} (isDigit : isDecimalDigit c = true) (cs : List Char) :
    startsTrivia c cs = false ∧ scan c cs = scanNumber c cs := by
  have mem := mem_digits isDigit
  fin_cases mem <;> exact ⟨rfl, rfl⟩

/-- A nonempty run of decimal digits is cut off as a number. -/
lemma cut_digits {cs : List Char} (nonempty : cs ≠ []) (digits : ∀ c ∈ cs, isDecimalDigit c = true) :
    Cut cs [.number (String.ofList cs)] [] := by
  obtain ⟨c, cs, rfl⟩ := List.exists_cons_of_ne_nil nonempty
  obtain ⟨isDigit, others⟩ := List.forall_mem_cons.1 digits
  obtain ⟨starts, same⟩ := scan_digit isDigit cs
  have decimal : scanNumber c cs = scanDecimal c cs := by
    unfold scanNumber
    split
    · rfl
    · rename_i x rest
      refine if_neg ?_
      rintro isHex
      have isDigit' := others x List.mem_cons_self
      simp only [Bool.and_eq_true, Bool.or_eq_true, beq_iff_eq] at isHex
      rcases isHex.2 with rfl | rfl <;> exact absurd isDigit' (by decide)
  have whole : spanDigits cs = (cs, []) := by
    have split : spanDigits (cs ++ []) = (cs, []) := by
      rw [spanDigits, List.takeWhile_append_of_pos others, List.dropWhile_append_of_pos others]
      simp
    rwa [List.append_nil] at split
  refine .token starts ?_ rfl
  rw [same, decimal, scanDecimal, whole]
  simp [spanFraction, spanExponent]

/-- A number is written by decimal digits. -/
lemma cut_toString (n : Nat) : Cut (toString n).toList [.number (toString n)] [] := by
  rw [← String.ofList_toList (s := toString n), toList_numeral, String.toList_ofList]
  exact cut_digits Nat.toDigits_ne_nil fun c mem => isDecimalDigit_of_mem mem

end Lexer

/-- What has no quotation marks is left as it is. -/
lemma Text.unquoted_of_plain {raw : List Char} (plain : ∀ c ∈ raw, isQuotationMark c = false) :
    unquoted (String.ofList raw) = String.ofList raw := by
  rw [unquoted, String.toList_ofList, List.filter_eq_self.2]
  intro c mem
  rw [plain c mem]
  rfl

/-! ## Copies -/

namespace Grammar

open Lexer

/-- What is copied of the tokens of an expression, which are written as `raw`. -/
inductive Copy (text : String) : List Token → List Char → String → Prop
  /-- What is written, without quotation marks. -/
  | source (part : List Token) (raw : List Char) :
      Copy text part raw (Text.unquoted (String.ofList raw))
  /-- A name by its value. -/
  | name (name : String) (span : Span) (raw : List Char) : Copy text [⟨.identifier name, span⟩] raw name
  /-- A reference by its names. -/
  | reference {owner name : String} {span dot : Span} {column : Token} {raw : List Char}
      (named : columnName? text column = some name) :
      Copy text [⟨.identifier owner, span⟩, ⟨.symbol .dot, dot⟩, column] raw (owner ++ "." ++ name)

/-- A copy of some tokens is read as these tokens, also in front of a separator. -/
def Kept (part : List Token) (copy : String) : Prop :=
  ∀ rest, Apart rest → kindsOf (copy.toList ++ rest) = part.map Token.kind ++ kindsOf rest

/-- What is cut up into the kinds of some tokens is read as these tokens. -/
lemma kept_of_cuts {part : List Token} {copy : String}
    (cuts : Cuts copy.toList (part.map Token.kind) []) : Kept part copy := by
  intro rest apart
  have start : Cuts (copy.toList ++ ([] ++ [])) (part.map Token.kind) ([] ++ []) := by simpa using cuts
  exact (start.replace apart.detached).kindsOf_eq

/-- A name that is written without quotation marks is a word, and stands for what is written. -/
lemma word_of_name {name : String} {raw : List Char} (cut : Cut raw [.identifier name] [])
    (plain : ∀ c ∈ raw, Text.isQuotationMark c = false) : Word raw ∧
      TokenKind.identifier name = wordKind (String.ofList raw) ∧ name = String.ofList raw := by
  obtain ⟨word, same⟩ := word_of_cut cut (.inr ⟨⟨name, rfl⟩, plain⟩)
  refine ⟨word, same, ?_⟩
  unfold wordKind at same
  split at same
  · cases same
  · exact TokenKind.identifier.inj same

/-- The name of a column after its owner is written by a word, if it is written without quotation marks:
a keyword stands for what is written as well. -/
lemma word_of_columnName {text name : String} {column : Token} {raw : List Char} (front : List Token)
    (named : columnName? text column = some name) (place : front ++ [column] <:+: tokens text)
    (valid : ∀ token ∈ tokens text, token.kind.isBroken = false) (cut : Cut raw [column.kind] [])
    (plain : ∀ c ∈ raw, Text.isQuotationMark c = false) : ∃ letters, Word letters ∧
      column.kind = wordKind (String.ofList letters) ∧ name = String.ofList letters := by
  unfold columnName? at named
  split at named
  · rename_i found isName
    cases named
    rw [isName] at cut ⊢
    exact ⟨raw, word_of_name cut plain⟩
  · rename_i keyword isKeyword
    cases named
    obtain ⟨before, after, split⟩ := place
    have split' : tokens text = (before ++ front) ++ column :: after := by simp [← split]
    obtain ⟨letters, own, written⟩ := exists_cut split'
      (fun token mem => valid token (by rw [split']; exact List.mem_append_left _ mem))
      (valid column (by simp [split']))
    obtain ⟨word, same⟩ := word_of_cut own (.inl ⟨keyword, isKeyword⟩)
    exact ⟨letters, word, same, written⟩
  · cases named

/-- A copy is kept if the tokens are written without quotation marks.

**Proof sketch.** Source text without quotation marks is copied as it is. A name without them is a word,
and so is a keyword after a dot, so a reference is copied as a word, a dot and a word. -/
lemma Copy.kept {text : String} {part : List Token} {raw : List Char} {copy : String}
    (h : Copy text part raw copy) (extract : Extract text part raw)
    (valid : ∀ token ∈ tokens text, token.kind.isBroken = false)
    (plain : ∀ c ∈ raw, Text.isQuotationMark c = false) : Kept part copy := by
  cases h with
  | source =>
    rw [Text.unquoted_of_plain plain]
    exact kept_of_cuts (by simpa using extract.cuts)
  | name name span =>
    obtain ⟨lead, written, behind, rfl, cut, -⟩ := extract.cuts.exists_first
    obtain ⟨-, -, rfl⟩ := word_of_name cut fun c mem => plain c (by simp [mem])
    exact kept_of_cuts (by simpa using Cuts.single cut)
  | @reference owner name span dot column _ named =>
    obtain ⟨lead, first, behind, rfl, cut, rest⟩ := extract.cuts.exists_first
    obtain ⟨word, sameKind, rfl⟩ := word_of_name cut fun c mem => plain c (by simp [mem])
    obtain ⟨lead', point, behind, rfl, -, rest⟩ := rest.exists_first
    obtain ⟨lead'', second, _, rfl, cut', -⟩ := rest.exists_first
    obtain ⟨letters, word', sameKind', rfl⟩ :=
      word_of_columnName [_, _] named extract.place valid cut' fun c mem => plain c (by simp [mem])
    refine kept_of_cuts ?_
    have cuts := word.cuts_reference word'
    simp only [List.map_cons, List.map_nil, sameKind, sameKind']
    simpa using cuts

end Grammar

/-! ## Items to order and group by -/

open Grammar in
/-- An item to order or group by is read from some tokens of the text, which are written as `raw`. -/
structure OrderItem.ReadFrom (text : String) (item : OrderItem) (part : List Token) (raw : List Char) :
    Prop where
  /-- They are the tokens of an expression. -/
  operand : Operand part
  /-- They stand next to each other. -/
  extract : Lexer.Extract text part raw
  /-- They stand where the item was read. -/
  span : ∃ first last, part.head? = some first ∧ part.getLast? = some last ∧
    item.span = ⟨first.span.start, last.span.stop⟩
  /-- The item is written by a copy of them, or else by its position. -/
  written : item.index = none ∧ Copy text part raw item.written ∨
    ∃ index literal count, item.index = some index ∧ item.written = toString index ∧
      Lone text count part (.number literal) ∧ Text.decimal64? literal = some index

/-- An item is kept if it is written without quotation marks, and if the tokens of a position write it as
it is written. -/
lemma OrderItem.ReadFrom.kept {text : String} {item : OrderItem} {part : List Token} {raw : List Char}
    (h : item.ReadFrom text part raw) (valid : ∀ token ∈ Lexer.tokens text, token.kind.isBroken = false)
    (plain : ∀ c ∈ raw, Text.isQuotationMark c = false)
    (position : ∀ index, item.index = some index → part.map Token.kind = [.number (toString index)]) :
    Grammar.Kept part item.written := by
  rcases h.written with ⟨-, copy⟩ | ⟨index, literal, count, isIndex, same, -, -⟩
  · exact copy.kept h.extract valid plain
  · refine Grammar.kept_of_cuts ?_
    rw [position index isIndex, same]
    exact .single (Lexer.cut_toString index)

namespace Grammar

open SqlRouting.Parser TokenStream

variable {text : String} {rules : ShardingRule} {s s' : ParserState}

/-- The item that an expression gives is written by a copy of its tokens, or by its position. -/
lemma itemOf_written {shape : ResultShape} {direction : OrderDirection} {span : Span}
    {node : ExpressionNode} {item : OrderItem} {part : List Token} {raw : List Char} {count : Nat}
    (written : Written text count part node)
    (isText : ∀ source, node = .other source → source = String.ofList raw)
    (success : itemOf shape direction span node = .ok item) : item.span = span ∧
      (item.index = none ∧ Copy text part raw item.written ∨
        ∃ index literal count, item.index = some index ∧ item.written = toString index ∧
          Lone text count part (.number literal) ∧ Text.decimal64? literal = some index) := by
  cases node with
  | number literal =>
    rw [itemOf] at success
    split at success
    · rename_i index value
      cases success
      exact ⟨rfl, .inr ⟨index, literal, count, rfl, rfl, written.lone (by simp), value⟩⟩
    · cases success
  | bare name =>
    cases success
    have lone := written.lone (by simp)
    cases lone
    exact ⟨rfl, .inl ⟨rfl, .name name _ raw⟩⟩
  | qualified owner name =>
    cases success
    have lone := written.lone (by simp)
    cases lone with
    | qualified _ _ _ _ token named => exact ⟨rfl, .inl ⟨rfl, .reference named⟩⟩
  | other source =>
    cases success
    rw [isText source rfl]
    exact ⟨rfl, .inl ⟨rfl, .source part raw⟩⟩
  | text | placeholder => cases success

/-- An item to order or group by is read from the tokens of its expression, and made of the shape that they
write. -/
lemma orderItem_reads {shape : ResultShape} {item : OrderItem} (reaches : Reaches text s)
    (success : (orderItem rules shape).run s = .ok (item, s')) :
    ∃ part raw, item.ReadFrom text part raw ∧ ∃ direction span node count,
      Written text count part node ∧ itemOf shape direction span node = .ok item := by
  obtain ⟨e, s₁, read, rest⟩ := run_bind_ok.1 success
  obtain ⟨direction, s₂, -, made⟩ := run_bind_ok.1 rest
  obtain ⟨made, -⟩ := run_lift_ok.1 made
  obtain ⟨part, operand, run, written⟩ := expression_reads read
  obtain ⟨span, isText⟩ := expression_text read
  have passes : Passes s s₁ := Leads.related leads_expression read
  obtain ⟨raw, first, last, extract, isFirst, isLast, start, stop, slice⟩ :=
    reaches.exists_extract passes run.ahead_eq operand.ne_nil
  rw [reaches.source_eq] at written
  have isRaw : ∀ source, e.node = .other source → source = String.ofList raw := by
    intro source same
    rw [isText source same, TokenStream.slice, run.source_eq, reaches.source_eq, slice]
    exact extract.trimmed_eq
  obtain ⟨sameSpan, copied⟩ := itemOf_written written isRaw made
  refine ⟨part, raw, ⟨operand, extract, ⟨first, last, isFirst, isLast, ?_⟩, copied⟩,
    direction, e.span, e.node, _, written, made⟩
  rw [sameSpan, span, start, stop]

/-! ## Aggregate calls -/

/-- The keyword of a called aggregate function is followed by a parenthesis. -/
lemma run_calledAggregate_some {function : AggregateFunction}
    (success : calledAggregate?.run s = .ok (some function, s')) : ∃ keyword,
      s.stream.kind = .keyword keyword ∧ s.advance.stream.kind = .symbol .leftParen ∧
        aggregateFunction? keyword = some function := by
  rw [calledAggregate?, looks_kind.run_bind] at success
  split at success
  · rename_i keyword same
    rw [looks_peek.run_bind] at success
    split at success
    · rename_i opened
      obtain ⟨isFunction, -⟩ := run_pure_ok.1 success
      exact ⟨keyword, same, kind_advance.trans (beq_iff_eq.1 opened), isFunction⟩
    · cases success
  · cases success

end Grammar

/-- An aggregate call is read from a keyword and its arguments, a group that is written as `raw`. -/
structure Aggregate.ReadFrom (text : String) (call : Aggregate) (part : List Token) (raw : List Char) :
    Prop where
  /-- The keyword stands in front of the arguments. -/
  word : ∃ keyword span, Grammar.aggregateFunction? keyword = some call.function ∧
    ⟨.keyword keyword, span⟩ :: part <:+: Lexer.tokens text
  /-- The arguments are a group in parentheses. -/
  group : TokenStream.splitGroup? .parentheses 0 part = some (part, []) ∧
    ∃ span rest, part = ⟨.symbol .leftParen, span⟩ :: rest
  /-- They stand next to each other. -/
  extract : Lexer.Extract text part raw
  /-- They are copied without quotation marks. -/
  inner : call.inner = Text.unquoted (String.ofList raw)

/-- The arguments of a call are kept if they are written without quotation marks. -/
lemma Aggregate.ReadFrom.kept {text : String} {call : Aggregate} {part : List Token} {raw : List Char}
    (h : call.ReadFrom text part raw) (valid : ∀ token ∈ Lexer.tokens text, token.kind.isBroken = false)
    (plain : ∀ c ∈ raw, Text.isQuotationMark c = false) : Grammar.Kept part call.inner := by
  rw [h.inner]
  exact (Grammar.Copy.source part raw).kept h.extract valid plain

namespace Grammar

open SqlRouting.Parser TokenStream

variable {text : String} {rules : ShardingRule} {s s' : ParserState}

/-- An aggregate call of a select list is read from its keyword and its arguments. -/
lemma aggregateItem_reads {function : AggregateFunction} {keyword : Keyword} {call : Aggregate}
    (reaches : Reaches text s) (word : s.stream.kind = .keyword keyword)
    (opened : s.advance.stream.kind = .symbol .leftParen)
    (named : aggregateFunction? keyword = some function)
    (success : (aggregateItem rules function).run s = .ok (.aggregate call, s')) :
    ∃ part raw, call.ReadFrom text part raw := by
  rw [aggregateItem, looks_offset.run_bind, run_advance_bind, looks_offset.run_bind] at success
  obtain ⟨_, s₁, skipped, success⟩ := run_bind_ok.1 success
  have reaches' : Reaches text s.advance := reaches.passes (Advancing.token word)
  have leads : Leads Passes skipParentheses := leads_skipParentheses
  have passes := leads.related skipped
  obtain ⟨part, _, split, rfl⟩ := run_skipParentheses_of_eq opened skipped
  have run : Run Context.EditsOnly s.advance part _ := .single (.group split)
  obtain ⟨raw, first, last, extract, -, -, -, -, slice⟩ :=
    reaches'.exists_extract passes run.ahead_eq (eq_append_of_splitGroup split).2
  rw [(looks_textFrom _).run_bind, looks_checkComposite.run_bind] at success
  split at success
  · obtain ⟨_, s₂, -, success⟩ := run_bind_ok.1 success
    rw [(looks_textFrom _).run_bind] at success
    obtain ⟨_, s₃, -, done⟩ := run_bind_ok.1 success
    cases done
  · obtain ⟨_, s₂, -, done⟩ := run_bind_ok.1 success
    cases done
    obtain ⟨span, rest, starts⟩ := group_starts opened (by simp) split
    obtain ⟨passed, -, whole⟩ := reaches.exists_passed
    have ahead : s.stream.ahead = _ :: s.advance.stream.ahead := ahead_of_kind word (by simp)
    refine ⟨part, raw, ⟨keyword, s.stream.current.span, named, ?_⟩,
      ⟨splitGroup_self split, span, rest, starts⟩, extract, ?_⟩
    · rw [run.ahead_eq] at ahead
      exact ⟨passed, _, by rw [whole, ahead, List.append_assoc, List.cons_append]⟩
    · rw [TokenStream.slice, run.source_eq, reaches'.source_eq, slice, extract.trimmed_eq]

/-- An aggregate call of a select list is read where a function is called. -/
lemma selectItem_calls {call : Aggregate}
    (success : (selectItem rules).run s = .ok (.aggregate call, s')) :
    ∃ s₁ keyword function, Passes s s₁ ∧ s₁.stream.kind = .keyword keyword ∧
      s₁.advance.stream.kind = .symbol .leftParen ∧ aggregateFunction? keyword = some function ∧
      (aggregateItem rules function).run s₁ = .ok (.aggregate call, s') := by
  obtain ⟨star, s₁, skipped, rest⟩ := run_bind_ok.1 success
  have leads : Leads Passes (skipSymbol .star) := leads_skipSymbol
  split at rest
  · cases rest
  · obtain ⟨owner, s₂, starred, item⟩ := run_bind_ok.1 rest
    obtain ⟨rfl, -⟩ := run_starOwner_ok starred
    split at item
    · rw [run_advance_bind, run_advance_bind, run_advance_bind] at item
      cases item
    · obtain ⟨found, s₃, called, last⟩ := run_bind_ok.1 item
      obtain ⟨rfl, -⟩ := run_calledAggregate_ok called
      split at last
      · obtain ⟨keyword, word, opened, named⟩ := run_calledAggregate_some called
        exact ⟨_, keyword, _, leads.related skipped, word, opened, named, last⟩
      · obtain ⟨e, s₄, -, plain⟩ := run_bind_ok.1 last
        rw [(looks_textOf _).run_bind] at plain
        obtain ⟨_, s₅, -, done⟩ := run_bind_ok.1 plain
        cases done

/-- An aggregate call of a select list is read from its keyword and its arguments. -/
lemma selectItem_reads {call : Aggregate} (reaches : Reaches text s)
    (success : (selectItem rules).run s = .ok (.aggregate call, s')) :
    ∃ part raw, call.ReadFrom text part raw := by
  obtain ⟨s₁, keyword, function, passes, word, opened, named, read⟩ := selectItem_calls success
  exact aggregateItem_reads (reaches.passes passes) word opened named read

end Grammar

/-! ## Shapes -/

/-- The aggregate calls of a select list and the items to order and group by are read from the text. -/
structure ResultShape.ReadFrom (text : String) (shape : ResultShape) : Prop where
  /-- The calls are. -/
  calls : ∀ call, .aggregate call ∈ shape.items → ∃ part raw, call.ReadFrom text part raw
  /-- The items are. -/
  items : ∀ item ∈ shape.orderBy ++ shape.groupBy, ∃ part raw, item.ReadFrom text part raw

namespace Grammar

open SqlRouting.Parser

variable {env : Environment} {text : String}

/-- Clauses read calls and items from the text. -/
lemma keepsShape_readFrom : KeepsShape env text (ResultShape.ReadFrom text) := by
  have items : KeepsShape env text fun shape => ∀ item ∈ shape.orderBy ++ shape.groupBy,
      ∃ part raw, item.ReadFrom text part raw := by
    refine keepsShape_items fun reaches read => ?_
    obtain ⟨part, raw, isRead, -⟩ := orderItem_reads reaches read
    exact ⟨part, raw, isRead⟩
  have calls : KeepsShape env text fun shape => ∀ item ∈ shape.items, ∀ call, item = .aggregate call →
      ∃ part raw, call.ReadFrom text part raw :=
    keepsShape_selected (by simp) fun reaches read call same => selectItem_reads reaches (same ▸ read)
  refine calls.both items fun shape => ⟨fun read => ⟨?_, read.items⟩, fun read => ⟨?_, read.2⟩⟩
  · exact fun item mem call same => read.calls call (same ▸ mem)
  · exact fun call mem => read.1 _ mem call rfl

end Grammar

namespace SelectStatement

open Grammar

/-- The texts that an accepted query inserts are made of copies: counts and sums of the arguments of its
averages, and the expressions of its items to order and group by, as columns and as an ordering. A copy
is kept, token for token, if the expression is written without quotation marks, and a position if it is
written as a plain number.

**Proof sketch.** The clauses read each call and each item from tokens that stand next to each other, and
preparing the query inserts nothing else. -/
theorem copies_kept {env : Environment} {text : String} {query : SelectStatement}
    (once : env.dialect.clauses.count .tables ≤ 1)
    (success : Statement.ofText env text = .ok (.select query)) :
    ∃ level : SelectLevel,
      ({ toSelectLevel := level } : SelectStatement).prepare env.metadata = .ok query ∧
      (∀ call, .aggregate call ∈ level.shape.items → ∃ part raw, call.ReadFrom text part raw ∧
        ((∀ c ∈ raw, Text.isQuotationMark c = false) → Kept part call.inner)) ∧
      (∀ item ∈ level.shape.orderBy ++ level.shape.groupBy, ∃ part raw, item.ReadFrom text part raw ∧
        ((∀ c ∈ raw, Text.isQuotationMark c = false) →
          (∀ index, item.index = some index → part.map Token.kind = [.number (toString index)]) →
          Kept part item.written)) ∧
      ∃ fragments orders, (∀ fragment ∈ fragments, Fragment level fragment) ∧
        (orders = [] ∨ ∃ stop,
          orders = [.orderBy stop (level.shape.groupBy.map fun item =>
            item.written ++ " " ++ item.direction.word)]) ∧
        Edit.insertions query.context.edits = Edit.insertions
          ((if fragments.isEmpty then [] else [.items level.shape.selectListStop fragments]) ++ orders) := by
  obtain ⟨level, passages, trail, prepared⟩ := query_trail once success
  obtain ⟨fragments, orders, isFragment, edits, isOrder⟩ := prepare_edits prepared
  have read := trail.shape keepsShape_readFrom
  refine ⟨level, prepared, fun call mem => ?_, fun item mem => ?_, fragments, orders, isFragment, ?_, ?_⟩
  · obtain ⟨part, raw, isRead⟩ := read.calls call mem
    exact ⟨part, raw, isRead, isRead.kept trail.valid⟩
  · obtain ⟨part, raw, isRead⟩ := read.items item mem
    exact ⟨part, raw, isRead, isRead.kept trail.valid⟩
  · rcases isOrder with ordered | ⟨stop, -, rfl⟩
    · exact .inl ordered
    · exact .inr ⟨stop, rfl⟩
  · rw [edits, Edit.insertions_append, Edit.insertions_append, trail.insertions, List.nil_append,
      Edit.insertions_append]

/-- An average, an item of a grouping and a position are copied, each as it is written. -/
theorem copies_kept_grouping : ∃ (text : String) (query : SelectStatement) (level : SelectLevel),
    Statement.ofText {} text = .ok (.select query) ∧
      Edit.insertions query.context.edits =
        [(14, ", COUNT(a) AS AVG_COUNT_0 , SUM(a) AS AVG_SUM_0 , f(b) AS GROUP_BY_DERIVED_0 "),
          (37, " ORDER BY f(b) ASC, 1 ASC ")] ∧
      ({ toSelectLevel := level } : SelectStatement).prepare {} = .ok query ∧
      (∀ call, .aggregate call ∈ level.shape.items → ∃ part raw, call.ReadFrom text part raw) ∧
      ∀ item ∈ level.shape.groupBy, ∃ part raw, item.ReadFrom text part raw := by
  let text := "SELECT AVG(a) FROM t GROUP BY f(b), 1"
  have seen : (query? {} text).map (fun query => Edit.insertions query.context.edits) = some
      [(14, ", COUNT(a) AS AVG_COUNT_0 , SUM(a) AS AVG_SUM_0 , f(b) AS GROUP_BY_DERIVED_0 "),
        (37, " ORDER BY f(b) ASC, 1 ASC ")] := by decide +kernel
  obtain ⟨query, success, insertions⟩ := exists_of_query seen
  obtain ⟨level, prepared, calls, items, -⟩ := copies_kept (by decide) success
  refine ⟨text, query, level, success, insertions, prepared, fun call mem => ?_, fun item mem => ?_⟩
  · obtain ⟨part, raw, isRead, -⟩ := calls call mem
    exact ⟨part, raw, isRead⟩
  · obtain ⟨part, raw, isRead, -⟩ := items item (List.mem_append_right _ mem)
    exact ⟨part, raw, isRead⟩

/-- The string in an average is copied as a name, and so is that in an expression to order by. -/
theorem quotation_marks_lost :
    (∃ query part, Statement.ofText {} "SELECT AVG(IF(x = 'a', 1, 0)) FROM t" = .ok (.select query) ∧
      ⟨.keyword .AVG, ⟨7, 10⟩⟩ :: part <:+: Lexer.tokens "SELECT AVG(IF(x = 'a', 1, 0)) FROM t" ∧
      Group part ∧
      Edit.insertions query.context.edits =
        [(30, ", COUNT(IF(x = a, 1, 0)) AS AVG_COUNT_0 , SUM(IF(x = a, 1, 0)) AS AVG_SUM_0 ")] ∧
      ¬ Kept part "(IF(x = a, 1, 0))") ∧
    ∃ query part, Statement.ofText {} "SELECT a FROM t ORDER BY f('x')" = .ok (.select query) ∧
      ⟨.keyword .BY, ⟨22, 24⟩⟩ :: part <:+ Lexer.tokens "SELECT a FROM t ORDER BY f('x')" ∧
      Edit.insertions query.context.edits = [(9, ", f(x) AS ORDER_BY_DERIVED_0 ")] ∧
      ¬ Kept part "f(x)" := by
  have differ {part : List Token} {copy : String}
      (kinds : Lexer.kindsOf copy.toList ≠ part.map Token.kind) : ¬ Kept part copy := by
    intro kept
    have alone := kept [] Lexer.apart_nil
    rw [List.append_nil, Lexer.kindsOf_nil, List.append_nil] at alone
    exact kinds alone
  constructor
  · let text := "SELECT AVG(IF(x = 'a', 1, 0)) FROM t"
    have seen : (query? {} text).map (fun query => Edit.insertions query.context.edits) = some
        [(30, ", COUNT(IF(x = a, 1, 0)) AS AVG_COUNT_0 , SUM(IF(x = a, 1, 0)) AS AVG_SUM_0 ")] := by
      decide +kernel
    obtain ⟨query, success, insertions⟩ := exists_of_query seen
    refine ⟨query, ((Lexer.tokens text).drop 2).take 12, success, ?_, .inl ?_, insertions, differ ?_⟩
    all_goals decide +kernel
  · let text := "SELECT a FROM t ORDER BY f('x')"
    have seen : (query? {} text).map (fun query => Edit.insertions query.context.edits) = some
        [(9, ", f(x) AS ORDER_BY_DERIVED_0 ")] := by decide +kernel
    obtain ⟨query, success, insertions⟩ := exists_of_query seen
    refine ⟨query, (Lexer.tokens text).drop 6, success, ?_, insertions, differ ?_⟩
    all_goals decide +kernel

end SelectStatement

end SqlRouting
