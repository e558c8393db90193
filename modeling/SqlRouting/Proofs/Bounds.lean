import SqlRouting.Proofs.Expression

/-!
# Bounds on expressions

An expression is read while at most so many tokens are left. What the bound is has no influence on what
is read, as long as the tokens that are left fit in it: an operand stands behind a token at least, so
each level of operands has one token less, and one less is the bound of each level. An expression that is
read is so with every such bound, whatever the bound was that it was read with; its errors are compared
only where they matter.

## Main definitions

* `SqlRouting.Parser.Covers` — a parser that does what another does where few tokens are left.

## Main results

* `SqlRouting.Grammar.covers_expressionWith` — an expression is covered if its operands are, where one
  token more is left.
* `SqlRouting.Grammar.expressionUpTo_of_le` — an expression is read within every bound that the tokens
  that are left fit in.
-/

set_option autoImplicit false

namespace SqlRouting

open TokenStream

/-! ## Parsers that cover others -/

namespace Parser

variable {α β : Type} {errors : Prop} {k : Nat}

/-- Where at most `k` tokens are left, `q` does what `p` does if that succeeds, and there are no more tokens
left afterwards; if `errors` holds, `q` fails as `p` does, too. -/
def Covers (errors : Prop) (k : Nat) (p q : Parser α) : Prop :=
  ∀ s, s.stream.remaining ≤ k →
    (∀ a s', p.run s = .ok (a, s') →
      q.run s = .ok (a, s') ∧ s'.stream.remaining ≤ s.stream.remaining) ∧
    ∀ error, p.run s = .error error → errors → q.run s = .error error

namespace Covers

/-- Where fewer tokens are left, no less is covered. -/
lemma mono {n : Nat} {p q : Parser α} (h : Covers errors k p q) (fewer : n ≤ k) : Covers errors n p q :=
  fun s enough => h s (Nat.le_trans enough fewer)

/-- A parser that only moves forward covers itself. -/
lemma of_suffix {p : Parser α}
    (forward : ∀ s a s', p.run s = .ok (a, s') → s'.stream.ahead <:+ s.stream.ahead) :
    Covers errors k p p :=
  fun s _ => ⟨fun a s' success => ⟨success, (forward s a s' success).length_le⟩, fun _ failure _ => failure⟩

/-- Giving a value. -/
lemma pure (a : α) : Covers errors k (pure a : Parser α) (pure a) := by
  refine of_suffix fun s b s' success => ?_
  obtain ⟨-, rfl⟩ := run_pure_ok.1 success
  exact List.suffix_refl _

/-- A balanced group covers itself. -/
lemma skipGroup (brackets : Brackets) :
    Covers errors k (Parser.skipGroup brackets) (Parser.skipGroup brackets) := by
  refine of_suffix fun s a s' success => ?_
  obtain ⟨group, rest, -, rfl⟩ := run_skipGroup_ok.1 success
  rw [ahead_advanceBy]
  exact List.drop_suffix _ _

/-- Parentheses cover themselves. -/
lemma skipParentheses : Covers errors k Parser.skipParentheses Parser.skipParentheses := by
  refine of_suffix fun s a s' success => ?_
  by_cases present : s.stream.kind = .symbol .leftParen
  · obtain ⟨group, rest, -, rfl⟩ := run_skipParentheses_of_eq present success
    rw [ahead_advanceBy]
    exact List.drop_suffix _ _
  · exact run_skipParentheses_of_ne present success ▸ List.suffix_refl _

/-- A failing parser covers itself. -/
lemma unexpected (expected : Expectation) :
    Covers errors k (Parser.unexpected expected : Parser α) (Parser.unexpected expected) :=
  of_suffix fun _ _ _ success => absurd success run_unexpected_ne

/-- A failing parser is covered by any other, where errors do not matter. -/
lemma of_unexpected (noErrors : ¬errors) (expected : Expectation) (q : Parser α) :
    Covers errors k (Parser.unexpected expected) q :=
  fun _ _ => ⟨fun _ _ success => absurd success run_unexpected_ne, fun _ _ matter => absurd matter noErrors⟩

/-- Sequences cover each other if their parts do. -/
lemma bind {p q : Parser α} {f g : α → Parser β} (first : Covers errors k p q)
    (rest : ∀ a, Covers errors k (f a) (g a)) : Covers errors k (p >>= f) (q >>= g) := by
  intro s enough
  obtain ⟨succeeds, fails⟩ := first s enough
  constructor
  · intro b s' success
    obtain ⟨a, s₁, read, last⟩ := run_bind_ok.1 success
    obtain ⟨read', fewer⟩ := succeeds a s₁ read
    obtain ⟨last', fewer'⟩ := (rest a s₁ (Nat.le_trans fewer enough)).1 b s' last
    exact ⟨run_bind_ok.2 ⟨a, s₁, read', last'⟩, Nat.le_trans fewer' fewer⟩
  · intro error failure matter
    rw [StateT.run_bind] at failure ⊢
    cases read : p.run s with
    | error early =>
      rw [read] at failure
      rw [fails early read matter]
      exact failure
    | ok result =>
      obtain ⟨a, s₁⟩ := result
      obtain ⟨read', fewer⟩ := succeeds a s₁ read
      rw [read] at failure
      rw [read']
      exact (rest a s₁ (Nat.le_trans fewer enough)).2 error failure matter

/-- Sequences that start with looking cover each other if they do for what is seen. -/
lemma look {p : Parser α} {value : ParserState → α} {f g : α → Parser β} (sees : Looks p value)
    (rest : ∀ a, Covers errors k (f a) (g a)) : Covers errors k (p >>= f) (p >>= g) := by
  intro s enough
  rw [sees.run_bind, sees.run_bind]
  exact rest _ s enough

/-- Choices cover each other if their sides do. -/
lemma ite {c : Prop} [Decidable c] {p p' q q' : Parser α} (hp : Covers errors k p p')
    (hq : Covers errors k q q') : Covers errors k (if c then p else q) (if c then p' else q') := by
  by_cases holds : c
  · rw [if_pos holds, if_pos holds]
    exact hp
  · rw [if_neg holds, if_neg holds]
    exact hq

/-- What covers each other behind the current token does so with one token more. -/
lemma behind {p q : Parser α} (h : Covers errors k p q) {s : ParserState}
    (enough : s.stream.remaining ≤ k + 1) :
    (∀ a s', p.run s.advance = .ok (a, s') →
      q.run s.advance = .ok (a, s') ∧ s'.stream.remaining ≤ s.stream.remaining) ∧
    ∀ error, p.run s.advance = .error error → errors → q.run s.advance = .error error := by
  have fewer : s.advance.stream.remaining = s.stream.remaining - 1 := List.length_tail
  obtain ⟨succeeds, fails⟩ := h s.advance (by omega)
  refine ⟨fun a s' success => ?_, fails⟩
  obtain ⟨covered, left⟩ := succeeds a s' success
  exact ⟨covered, by omega⟩

/-- Behind a token one less is left. -/
lemma advance {f g : Token → Parser β} (rest : ∀ token, Covers errors k (f token) (g token)) :
    Covers errors (k + 1) (Parser.advance >>= f) (Parser.advance >>= g) := by
  intro s enough
  rw [run_advance_bind, run_advance_bind]
  exact (rest _).behind enough

end Covers

end Parser

namespace Grammar

open SqlRouting.Parser

/-! ## The parts of an expression -/

section Parts

variable {operand operand' : Parser Expression} {errors : Prop} {k start : Nat} {rules : ShardingRule}

/-- Source text covers itself. -/
lemma covers_text (start : Nat) : Covers errors k (do return .other (← textFrom start))
    (do return .other (← textFrom start) : Parser ExpressionNode) :=
  .look (looks_textFrom start) fun _ => .pure _

/-- The name of a column covers itself. -/
lemma covers_columnName : Covers errors k columnName columnName := by
  refine .of_suffix fun s name s' success => ?_
  obtain ⟨rfl, -, -⟩ := run_columnName_ok success
  exact List.suffix_refl _

/-- Recording an owner covers itself. -/
lemma covers_recordOwner (owner : String) (span : Span) :
    Covers errors k (recordOwner rules owner span) (recordOwner rules owner span) := by
  refine .of_suffix fun s result s' success => ?_
  exact (recordOwner_run success).2 ▸ List.suffix_refl _

variable (like : Covers errors k operand operand')

include like

/-- An operator of one operand is covered if the operand is. -/
lemma covers_unaryWith : Covers errors (k + 1) (unaryWith operand start) (unaryWith operand' start) :=
  .advance fun _ => like.bind fun _ => covers_text start

/-- A sign is covered if operands are. -/
lemma covers_signedWith (sign : String) :
    Covers errors (k + 1) (signedWith operand start sign) (signedWith operand' start sign) := by
  refine .look looks_peek fun kind => ?_
  split
  · exact .advance fun _ => .mono (.advance fun _ => .pure _) (Nat.le_succ k)
  · exact covers_unaryWith like

/-- What starts with a keyword is covered if operands are. -/
lemma covers_keywordWith (keyword : Keyword) :
    Covers errors (k + 1) (keywordWith operand start keyword) (keywordWith operand' start keyword) := by
  refine .ite (covers_unaryWith like) (.ite ?_ (.look looks_peek fun kind => .ite ?_ (.unexpected _)))
  · exact (Covers.skipGroup _).bind fun _ => covers_text start
  · exact .advance fun _ => covers_text start

/-- What starts with a symbol is covered if operands are. -/
lemma covers_symbolWith (symbol : Symbol) :
    Covers errors (k + 1) (symbolWith operand start symbol) (symbolWith operand' start symbol) := by
  unfold symbolWith
  split
  · have placeholder : Covers errors (k + 1) placeholder placeholder :=
      .advance fun _ => .look looks_context fun _ => .of_suffix fun s index s' success => by
        cases success
        exact List.suffix_refl _
    exact placeholder.bind fun _ => .pure _
  · exact covers_signedWith like _
  · exact covers_signedWith like _
  · exact covers_unaryWith like
  · exact covers_unaryWith like
  · exact Covers.skipParentheses.bind fun _ => covers_text start
  · exact .unexpected _

/-- The part of an expression before any operator or arguments is covered if operands are. -/
lemma covers_primaryWith : Covers errors (k + 1) (primaryWith operand) (primaryWith operand') := by
  refine .look looks_offset fun start => .look looks_kind fun kind => ?_
  split
  · exact .advance fun _ => .pure _
  · exact .advance fun _ => .pure _
  · exact .advance fun _ => .pure _
  · exact .advance fun _ => covers_text start
  · exact covers_keywordWith like _
  · exact covers_symbolWith like _
  · exact .unexpected _

/-- Operators are covered if their operands are. -/
lemma covers_compositeWith : Covers errors (k + 1) (compositeWith operand) (compositeWith operand') := by
  have upTo (n : Nat) : Covers errors (k + 1) (compositeUpTo operand n) (compositeUpTo operand' n) := by
    induction n with
    | zero => exact .pure _
    | succ n ih =>
      refine .look looks_checkComposite fun joined => .ite ?_ (.pure _)
      exact .advance fun _ => like.bind fun _ => ih.mono (Nat.le_succ k)
  exact .look looks_remaining upTo

/-- The rest of a reference is covered if operands are. -/
lemma covers_referenceWith (node : ExpressionNode) :
    Covers errors (k + 1) (referenceWith operand rules start node)
      (referenceWith operand' rules start node) := by
  have composite : Covers errors k (compositeWith operand) (compositeWith operand') :=
    (covers_compositeWith like).mono (Nat.le_succ k)
  unfold referenceWith
  split
  · refine .look (looks_checkSymbol _) fun isDot => .ite (.advance fun dot => ?_) (.pure _)
    refine covers_columnName.bind fun name => ?_
    refine .mono (.advance fun _ => ?_) (Nat.le_succ k)
    refine (covers_recordOwner _ _).bind fun _ => .look looks_checkComposite fun joined => ?_
    exact .ite (composite.bind fun _ => covers_text _) (.pure _)
  · exact .pure _

/-- Operators after an expression are covered if operands are. -/
lemma covers_operatorsWith (node : ExpressionNode) :
    Covers errors (k + 1) (operatorsWith operand start node) (operatorsWith operand' start node) := by
  refine .look looks_checkComposite fun joined => .ite ?_ (.pure _)
  exact (covers_compositeWith like).bind fun _ => covers_text start

omit like in
/-- Arguments cover themselves. -/
lemma covers_argumentsAfter (node : ExpressionNode) :
    Covers errors k (argumentsAfter start node) (argumentsAfter start node) := by
  refine .look (looks_checkSymbol _) fun opened => .ite ?_ (.pure _)
  exact Covers.skipParentheses.bind fun _ => covers_text start

/-- An expression is covered if operands are, where one token more is left. -/
lemma covers_expressionWith :
    Covers errors (k + 1) (expressionWith operand rules) (expressionWith operand' rules) := by
  refine .look looks_offset fun start => (covers_primaryWith like).bind fun node => ?_
  refine (covers_referenceWith like node).bind fun node => ?_
  refine (covers_argumentsAfter node).bind fun node => ?_
  refine (covers_operatorsWith like node).bind fun node => ?_
  exact .look looks_previousEnd fun _ => .pure _

end Parts

/-! ## Whole expressions -/

variable {rules : ShardingRule}

/-- Where at most `m` tokens are left, the bound `m` is as good as any.

**Proof sketch.** Induction on `m`. Where no token is left no expression is read; and the operands of an
expression stand behind one token at least. -/
lemma covers_expressionUpTo (m n : Nat) :
    Covers False m (expressionUpTo rules n) (expressionUpTo rules m) := by
  induction m generalizing n with
  | zero =>
    refine fun s spent => ⟨fun e s' success => ?_, fun _ _ matter => matter.elim⟩
    obtain ⟨tokens, isOperand, run, -⟩ := expressionUpTo_writes success
    have passed := run.remaining_eq
    have nonempty := List.length_pos_iff.2 isOperand.ne_nil
    omega
  | succ m ih =>
    cases n with
    | zero => exact .of_unexpected not_false _ _
    | succ n => exact covers_expressionWith (ih n)

/-- An expression that is read within a bound is read within every bound that the tokens that are left
fit in. -/
lemma expressionUpTo_of_le {n m : Nat} {s s' : ParserState} {e : Expression}
    (success : (expressionUpTo rules n).run s = .ok (e, s')) (enough : s.stream.remaining ≤ m) :
    (expressionUpTo rules m).run s = .ok (e, s') :=
  ((covers_expressionUpTo m n s enough).1 e s' success).1

end Grammar

end SqlRouting
