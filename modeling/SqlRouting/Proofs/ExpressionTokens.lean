import SqlRouting.Proofs.SourceText

/-!
# What an expression tells of its tokens

An expression passes some tokens of a text, from the place where it is read up to the place where it
leaves the stream. What it gives tells them: its span goes from the first to the last of them, a lone
shape is written by them and by nothing else, and any other tokens are kept as what is written there. This
is so wherever in a text an expression is read, also behind tokens that could not be read.

## Main definitions

* `SqlRouting.Expression.Tells` — an expression tells the tokens that it was read from.

## Main results

* `SqlRouting.Expression.span_and_shape_of_tokens` — an expression that is read has the span and the shape
  of the tokens that are passed.
-/

set_option autoImplicit false

namespace SqlRouting

open TokenStream SqlRouting.Parser

/-- An expression tells the tokens that it was read from, where `index` placeholders come before them. -/
structure Expression.Tells (e : Expression) (text : String) (index : Nat) (tokens : List Token) :
    Prop where
  /-- Its span goes from the first token to the last one. -/
  span : ∃ first last, tokens.head? = some first ∧ tokens.getLast? = some last ∧
    e.span = ⟨first.span.start, last.span.stop⟩
  /-- Its shape is the lone one that the tokens write. If they write none, it is what is written from the
  first to the last of them. -/
  shape : Grammar.Lone text index tokens e.node ∨
    e.node = .other (e.span.text text) ∧ ∀ node, ¬ Grammar.Lone text index tokens node

variable {text : String} {place : Nat} {s s' : ParserState} {before tokens : List Token}

/-- A stream of a text has the tokens from its place on in front of it. -/
lemma TokenStream.ahead_ofText (text : String) (place : Nat) :
    ((ofText text).advanceBy place).ahead = (Lexer.tokens text).drop place := by
  rw [ahead_advanceBy]
  rfl

/-- The text of an expression that is no lone shape is what is written within its span.

**Proof sketch.** The text is cut out without the blanks at its ends. There are none: the tokens that
are passed are valid, so what is cut out starts and ends with characters of tokens. -/
lemma Grammar.text_eq_of_other {rules : ShardingRule} {e : Expression} {source : String}
    (isText : s.stream.source = text) (split : Lexer.tokens text = before ++ s.stream.ahead)
    (success : (Grammar.expression rules).run s = .ok (e, s'))
    (ahead : s.stream.ahead = tokens ++ s'.stream.ahead) (nonempty : tokens ≠ [])
    (isOther : e.node = .other source) : source = e.span.text text := by
  obtain ⟨span, written⟩ := Grammar.expression_text success
  have passes : Passes s s' := Leads.related Grammar.leads_expression success
  have sameText : s'.stream.source = text := by
    obtain ⟨_, -, -, moved⟩ := passes
    rw [moved, source_advanceBy, isText]
  obtain ⟨raw, -, -, extract, -, -, -, -, slice⟩ := passes.exists_extract split ahead nonempty
  calc source = Text.trimmed (s'.stream.slice s.stream.offset s'.stream.previousEnd) :=
        written source isOther
    _ = Text.trimmed (String.ofList raw) := by rw [TokenStream.slice, sameText, slice]
    _ = Text.slice text s.stream.offset s'.stream.previousEnd := by rw [extract.trimmed_eq, slice]
    _ = e.span.text text := by rw [span, Span.text]

/-- An expression that is read at some place of a text tells the tokens from there up to the place where it
leaves the stream, and counts the placeholders among them.

**Proof sketch.** The tokens of a lone shape are read as that shape, and no others are. The span is put
together from where the stream stands before and behind the expression. -/
theorem Expression.span_and_shape_of_tokens {rules : ShardingRule} {context : Context} {e : Expression}
    (success : (Grammar.expression rules).run ⟨(ofText text).advanceBy place, context⟩ =
      .ok (e, s')) :
    ∃ tokens : List Token,
      (Lexer.tokens text).drop place = tokens ++ (Lexer.tokens text).drop (place + tokens.length) ∧
      s'.stream = (ofText text).advanceBy (place + tokens.length) ∧
      e.Tells text context.parameters tokens ∧
      s'.context.parameters = context.parameters + placeholders tokens := by
  obtain ⟨tokens, operand, run, written⟩ := Grammar.expression_reads success
  have stream : s'.stream = (ofText text).advanceBy (place + tokens.length) := by
    rw [run.stream_eq, advanceBy_advanceBy]
  have isText : ((ofText text).advanceBy place).source = text := source_advanceBy place _
  have split : Lexer.tokens text =
      (Lexer.tokens text).take place ++ ((ofText text).advanceBy place).ahead := by
    rw [ahead_ofText, List.take_append_drop]
  have passes : Passes ⟨(ofText text).advanceBy place, context⟩ s' :=
    Leads.related Grammar.leads_expression success
  obtain ⟨-, first, last, -, isFirst, isLast, start, stop, -⟩ :=
    passes.exists_extract split run.ahead_eq operand.ne_nil
  refine ⟨tokens, ?_, stream, ⟨⟨first, last, isFirst, isLast, ?_⟩, ?_⟩, run.counts⟩
  · have ahead := run.ahead_eq
    rwa [stream, ahead_ofText, ahead_ofText] at ahead
  · rw [(Grammar.expression_text success).1, start, stop]
  · rw [isText] at written
    refine written.imp_right fun ⟨⟨source, isOther⟩, notLone⟩ => ⟨?_, notLone⟩
    rw [isOther, Grammar.text_eq_of_other isText split success run.ahead_eq operand.ne_nil isOther]

/-- A product behind a character that is no token is kept as it is written, and its placeholder is
counted. -/
theorem Expression.span_and_shape_of_product :
    ∃ e s', (Grammar.expression {}).run ⟨(ofText "$ t.a * ( ? ) , b").advanceBy 1, {}⟩ =
        .ok (e, s') ∧
      e = ⟨.other "t.a * ( ? )", ⟨2, 13⟩⟩ ∧
      ∃ tokens : List Token, (Lexer.tokens "$ t.a * ( ? ) , b").drop 1 =
          tokens ++ (Lexer.tokens "$ t.a * ( ? ) , b").drop (1 + tokens.length) ∧
        s'.stream = (ofText "$ t.a * ( ? ) , b").advanceBy (1 + tokens.length) ∧
        e.Tells "$ t.a * ( ? ) , b" 0 tokens ∧ s'.context.parameters = 0 + placeholders tokens := by
  have seen : ((Grammar.expression {}).run
      ⟨(ofText "$ t.a * ( ? ) , b").advanceBy 1, {}⟩).toOption.map (·.1) =
        some ⟨.other "t.a * ( ? )", ⟨2, 13⟩⟩ := by decide +kernel
  cases success : (Grammar.expression {}).run ⟨(ofText "$ t.a * ( ? ) , b").advanceBy 1, {}⟩ with
  | error error => simp [success, Except.toOption] at seen
  | ok read =>
    obtain ⟨e, s'⟩ := read
    refine ⟨e, s', rfl, by simpa [success, Except.toOption] using seen, ?_⟩
    exact Expression.span_and_shape_of_tokens success

end SqlRouting
