import SqlRouting.Proofs.Partition
import SqlRouting.Proofs.Reach

/-!
# The source text of expressions

An expression that has no shape of its own is kept as its source text: what is written from its first
token up to its last one. So its text is that of the tokens that it was read from, which stand next to
each other in the statement.

## Main definitions

* `SqlRouting.Grammar.IsText` — a shape is no text but what is read from some place on.
* `SqlRouting.Grammar.TextsFrom` — a parser that gives no text but what is read from some place on.

## Main results

* `SqlRouting.Grammar.expression_text` — the span and the source text of an expression.
* `SqlRouting.Passes.exists_extract`, `SqlRouting.Reaches.exists_extract` — the tokens that are passed have
  an extract.
-/

set_option autoImplicit false

namespace SqlRouting

namespace Grammar

open SqlRouting.Parser TokenStream

variable {α : Type} {rules : ShardingRule} {operand : Parser Expression} {start : Nat}
  {node node' : ExpressionNode} {s s₁ s' : ParserState}

/-! ## Parsers of source text -/

/-- If a shape is source text, it is what is written from `start` up to the token read last. -/
def IsText (start : Nat) (node : ExpressionNode) (s : ParserState) : Prop :=
  ∀ source, node = .other source →
    source = Text.trimmed (s.stream.slice start s.stream.previousEnd)

/-- Each shape that `p` gives is no source text but what is written from `start` on. -/
def TextsFrom (start : Nat) (p : Parser ExpressionNode) : Prop :=
  ∀ s node s', p.run s = .ok (node, s') → IsText start node s'

namespace TextsFrom

/-- A shape that is no source text. -/
lemma pure (shaped : ∀ source, node ≠ .other source) : TextsFrom start (pure node) := by
  intro s _ s' success source same
  obtain ⟨rfl, -⟩ := run_pure_ok.1 success
  exact absurd same (shaped source)

/-- The source text from `start` on. -/
lemma other (start : Nat) : TextsFrom start (do return .other (← textFrom start)) := by
  intro s node s' success source same
  rw [(looks_textFrom start).run_bind, run_pure_ok] at success
  obtain ⟨rfl, rfl⟩ := success
  exact (ExpressionNode.other.inj same).symm

/-- A failing parser gives no shape. -/
lemma unexpected (expected : Expectation) : TextsFrom start (Parser.unexpected expected) :=
  fun _ _ _ success => absurd success run_unexpected_ne

/-- What comes before does not matter. -/
lemma bind {p : Parser α} {f : α → Parser ExpressionNode} (rest : ∀ a, TextsFrom start (f a)) :
    TextsFrom start (p >>= f) := by
  intro s node s' success
  obtain ⟨a, s₁, -, last⟩ := run_bind_ok.1 success
  exact rest a s₁ node s' last

/-- A choice gives no other text if neither side does. -/
lemma ite {c : Prop} [Decidable c] {p q : Parser ExpressionNode} (hp : TextsFrom start p)
    (hq : TextsFrom start q) : TextsFrom start (if c then p else q) := by
  split
  · exact hp
  · exact hq

end TextsFrom

/-! ## The parts of an expression -/

/-- An operator of one operand gives source text. -/
lemma texts_unaryWith (start : Nat) : TextsFrom start (unaryWith operand start) :=
  .bind fun _ => .bind fun _ => .other start

/-- A sign gives a number, or source text. -/
lemma texts_signedWith (start : Nat) (sign : String) :
    TextsFrom start (signedWith operand start sign) := by
  refine .bind fun next => ?_
  split
  · exact .bind fun _ => .bind fun _ => .pure (by simp)
  · exact texts_unaryWith start

/-- A keyword gives source text. -/
lemma texts_keywordWith (start : Nat) (keyword : Keyword) :
    TextsFrom start (keywordWith operand start keyword) := by
  refine .ite (texts_unaryWith start) (.ite (.bind fun _ => .other start) (.bind fun next => ?_))
  exact .ite (.bind fun _ => .other start) (.unexpected _)

/-- A symbol gives a placeholder, a number or source text. -/
lemma texts_symbolWith (start : Nat) (symbol : Symbol) :
    TextsFrom start (symbolWith operand start symbol) := by
  unfold symbolWith
  split
  · exact .bind fun _ => .pure (by simp)
  · exact texts_signedWith start _
  · exact texts_signedWith start _
  · exact texts_unaryWith start
  · exact texts_unaryWith start
  · exact .bind fun _ => .other start
  · exact .unexpected _

/-- The part of an expression before any operator or arguments gives a lone shape or source text. -/
lemma primaryWith_text (success : (primaryWith operand).run s = .ok (node, s')) :
    IsText s.stream.offset node s' := by
  rw [primaryWith, looks_offset.run_bind, looks_kind.run_bind] at success
  generalize s.stream.offset = start at success ⊢
  split at success
  · exact TextsFrom.bind (fun _ => .pure (by simp)) s node s' success
  · exact TextsFrom.bind (fun _ => .pure (by simp)) s node s' success
  · exact TextsFrom.bind (fun _ => .pure (by simp)) s node s' success
  · exact TextsFrom.bind (fun _ => .other start) s node s' success
  · exact texts_keywordWith start _ s node s' success
  · exact texts_symbolWith start _ s node s' success
  · exact absurd success run_unexpected_ne

/-- The rest of a reference gives a reference, or source text from its owner on. -/
lemma texts_qualifiedWith (owner : String) (ownerSpan : Span) :
    TextsFrom ownerSpan.start (qualifiedWith operand rules owner ownerSpan) := by
  refine .bind fun name => .bind fun _ => .bind fun _ => .bind fun isComposite => ?_
  exact .ite (.bind fun _ => .other _) (.pure (by simp))

/-- A reference after its first name gives no other source text. -/
lemma referenceWith_text (before : IsText start node s)
    (success : (referenceWith operand rules start node).run s = .ok (node', s')) :
    IsText start node' s' := by
  unfold referenceWith at success
  split at success
  · rename_i owner
    refine TextsFrom.bind (fun _ => .ite (.bind fun dot => ?_) (.pure (by simp))) s node' s' success
    exact texts_qualifiedWith owner ⟨start, dot.span.start⟩
  · obtain ⟨rfl, rfl⟩ := run_pure_ok.1 success
    exact before

/-- Arguments give source text. -/
lemma argumentsAfter_text (before : IsText start node s)
    (success : (argumentsAfter start node).run s = .ok (node', s')) : IsText start node' s' := by
  rw [argumentsAfter, (looks_checkSymbol _).run_bind] at success
  split at success
  · exact TextsFrom.bind (fun _ => .other start) s node' s' success
  · obtain ⟨rfl, rfl⟩ := run_pure_ok.1 success
    exact before

/-- Operators give source text. -/
lemma operatorsWith_text (before : IsText start node s)
    (success : (operatorsWith operand start node).run s = .ok (node', s')) :
    IsText start node' s' := by
  rw [operatorsWith, looks_checkComposite.run_bind] at success
  split at success
  · exact TextsFrom.bind (fun _ => .other start) s node' s' success
  · obtain ⟨rfl, rfl⟩ := run_pure_ok.1 success
    exact before

/-- An expression spans from its first token up to its last one, and its source text, if it has no shape
of its own, is what is written there. -/
lemma expression_text {e : Expression} (success : (expression rules).run s = .ok (e, s')) :
    e.span = ⟨s.stream.offset, s'.stream.previousEnd⟩ ∧ IsText s.stream.offset e.node s' := by
  rw [expression, looks_remaining.run_bind] at success
  generalize s.stream.remaining = n at success
  cases n with
  | zero => exact absurd success run_unexpected_ne
  | succ n =>
    rw [expressionUpTo, expressionWith, looks_offset.run_bind] at success
    obtain ⟨_, s₁, primary, success⟩ := run_bind_ok.1 success
    obtain ⟨_, s₂, reference, success⟩ := run_bind_ok.1 success
    obtain ⟨_, s₃, arguments, success⟩ := run_bind_ok.1 success
    obtain ⟨_, s₄, operators, success⟩ := run_bind_ok.1 success
    rw [looks_previousEnd.run_bind, run_pure_ok] at success
    obtain ⟨rfl, rfl⟩ := success
    have text := referenceWith_text (primaryWith_text primary) reference
    exact ⟨rfl, operatorsWith_text (argumentsAfter_text text arguments) operators⟩

end Grammar

/-! ## Extracts of passed tokens -/

open TokenStream

/-- Valid tokens that are passed have an extract, which is the slice from the start of the first one to the
end of the last one. What stands in front of them does not matter. -/
lemma Passes.exists_extract {text : String} {s s' : ParserState} {before part : List Token}
    (passes : Passes s s') (split : Lexer.tokens text = before ++ s.stream.ahead)
    (ahead : s.stream.ahead = part ++ s'.stream.ahead) (nonempty : part ≠ []) :
    ∃ raw first last, Lexer.Extract text part raw ∧ part.head? = some first ∧
      part.getLast? = some last ∧ s.stream.offset = first.span.start ∧
      s'.stream.previousEnd = last.span.stop ∧
      Text.slice text s.stream.offset s'.stream.previousEnd = String.ofList raw := by
  obtain ⟨tokens, valid, ahead', stream⟩ := passes
  obtain rfl : tokens = part := List.append_cancel_right (ahead'.symm.trans ahead)
  obtain ⟨init, last, rfl⟩ := List.eq_nil_or_concat tokens |>.resolve_left nonempty
  rw [List.concat_eq_append] at *
  obtain ⟨validInit, validLast⟩ := List.forall_mem_append.1 valid
  rw [ahead, List.append_assoc, List.singleton_append] at split
  obtain ⟨left, behind, same⟩ := Lexer.exists_rest_of_tokens split
  obtain ⟨raw, extract⟩ := Lexer.exists_extract_of_suffix split behind same validInit
    (validLast last List.mem_cons_self)
  obtain ⟨first, last', isFirst, isLast, slice⟩ := extract.slice_eq
  have start : s.stream.offset = first.span.start := by
    obtain ⟨rest, same⟩ := List.head?_eq_some_iff.1 isFirst
    rw [TokenStream.offset, TokenStream.current, ahead, same]
    rfl
  have stop : s'.stream.previousEnd = last'.span.stop := by
    obtain rfl : last = last' := by simpa using isLast
    rw [List.append_assoc, List.singleton_append] at ahead
    rw [stream, TokenStream.previousEnd, previous_advanceBy ahead]
  exact ⟨raw, first, last', extract, isFirst, isLast, start, stop, by rw [start, stop, slice]⟩

/-- The tokens that a parse passes have an extract, which is the slice from the start of the first one
to the end of the last one. -/
lemma Reaches.exists_extract {text : String} {s s' : ParserState} {part : List Token}
    (reaches : Reaches text s) (passes : Passes s s')
    (ahead : s.stream.ahead = part ++ s'.stream.ahead) (nonempty : part ≠ []) :
    ∃ raw first last, Lexer.Extract text part raw ∧ part.head? = some first ∧
      part.getLast? = some last ∧ s.stream.offset = first.span.start ∧
      s'.stream.previousEnd = last.span.stop ∧
      Text.slice text s.stream.offset s'.stream.previousEnd = String.ofList raw := by
  obtain ⟨passed, -, split⟩ := reaches.exists_passed
  exact passes.exists_extract split ahead nonempty

end SqlRouting
