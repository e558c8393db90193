import SqlRouting.Proofs.Bounds
import SqlRouting.Proofs.Echo

/-!
# Expressions side by side

An expression of one text is read in the same way in another that has the same tokens up to some place
behind the expression, if neither of the two goes on with an expression there.

## Main definitions

* `SqlRouting.Grammar.Stops` — the tokens that an expression neither starts with nor goes on with.
* `SqlRouting.Grammar.Closed` — two texts that part at such tokens.

## Main results

* `SqlRouting.Grammar.echoes_expression` — expressions echo each other.
-/

set_option autoImplicit false

namespace SqlRouting.Grammar

open SqlRouting.Parser TokenStream

variable {β : Type} {al : Alignment} {rules : ShardingRule}

/-! ## Where expressions end -/

/-- No expression goes on with a token of this kind, and none starts with it. -/
def Stops (kind : TokenKind) : Prop :=
  kind = .symbol .rightParen ∨ kind = .symbol .comma ∨ kind = .endOfInput ∨
    kind = .symbol .semicolon ∨ kind = .keyword .ON

/-- Two texts part at tokens that no expression starts or goes on with. -/
structure Closed (al : Alignment) : Prop where
  /-- The one text. -/
  left : Stops (firstKind al.left)
  /-- The other text. -/
  right : Stops (firstKind al.right)

/-- An expression ends where it is stopped. -/
lemma Stops.ends {kind : TokenKind} (h : Stops kind) : Ends kind := by
  rcases h with rfl | rfl | rfl | rfl | rfl <;> exact ⟨rfl, by simp, by simp⟩

/-- No number follows where an expression is stopped. -/
lemma Stops.noNumber {kind : TokenKind} (h : Stops kind) (literal : String) : kind ≠ .number literal := by
  rcases h with rfl | rfl | rfl | rfl | rfl <;> simp

/-- The current token stands in front of the place where the texts part. -/
def Inside (al : Alignment) (s : ParserState) : Prop :=
  ∃ token rest, s.stream.ahead = token :: rest ∧ al.left <:+ rest

/-- In front of the place where the texts part there are tokens. -/
lemma Inside.exists_cons {common : List Token} {s t : ParserState} (inside : Inside al s)
    (twin : Twin al common s t) : ∃ token others, common = token :: others := by
  obtain ⟨token, rest, ahead, reaches⟩ := inside
  rw [← List.singleton_append] at ahead
  obtain ⟨others, same⟩ := twin.exists_append ahead reaches
  exact ⟨token, others, same⟩

/-- A parser that passes a token starts in front of the place, if it does not pass that. -/
lemma inside_of_run {records : Context → Context → Prop} {s s' : ParserState} {tokens : List Token}
    (run : Run records s tokens s') (nonempty : tokens ≠ []) (reaches : al.left <:+ s'.stream.ahead) :
    Inside al s := by
  obtain ⟨token, others, rfl⟩ := List.exists_cons_of_ne_nil nonempty
  exact ⟨token, others ++ s'.stream.ahead, run.ahead_eq, reaches.trans (List.suffix_append _ _)⟩

/-- What passes a token echoes if it does from in front of the place where the texts part. -/
lemma echoes_inside {move : β → β} {p q : Parser β}
    (moves : ∀ s a s', p.run s = .ok (a, s') →
      ∃ records tokens, tokens ≠ [] ∧ Run records s tokens s')
    (echo : ∀ s t a s', Inside al s → Beside al s t → p.run s = .ok (a, s') →
      al.left <:+ s'.stream.ahead → ∃ t', q.run t = .ok (move a, t') ∧ Beside al s' t') :
    Echoes al move p q where
  forward := by
    intro s a s' success
    obtain ⟨_, tokens, -, run⟩ := moves s a s' success
    exact suffix_of_run run
  echo := by
    intro s t a s' _ beside success reaches
    obtain ⟨_, tokens, nonempty, run⟩ := moves s a s' success
    exact echo s t a s' (inside_of_run run nonempty reaches) beside success reaches

/-- What starts with the offset of the current token and passes a token echoes from inside. -/
lemma echoes_offset {move : β → β} {f g : Nat → Parser β}
    (moves : ∀ s a s', (offset >>= f).run s = .ok (a, s') →
      ∃ records tokens, tokens ≠ [] ∧ Run records s tokens s')
    (rest : ∀ start, al.within start →
      EchoesFrom al (Inside al) move (f start) (g (start + al.shift))) :
    Echoes al move (offset >>= f) (offset >>= g) := by
  refine echoes_inside moves ?_
  intro s t a s' inside beside success reaches
  obtain ⟨common, twin⟩ := beside
  obtain ⟨first, front, rfl⟩ := inside.exists_cons twin
  obtain ⟨within, moved⟩ := twin.offset
  rw [looks_offset.run_bind] at success ⊢
  rw [moved]
  exact (rest _ within).echo s t a s' inside ⟨_, twin⟩ success reaches

/-- A symbol that does not stop expressions is there on both sides, or on neither. -/
lemma Closed.check_eq (closed : Closed al) {common : List Token} {s t : ParserState}
    (twin : Twin al common s t) {symbol : Symbol} (noStop : ∀ kind, Stops kind → kind ≠ .symbol symbol) :
    t.stream.check (.symbol symbol) = s.stream.check (.symbol symbol) := by
  rw [Bool.eq_iff_iff, check_symbol, check_symbol]
  rcases twin.kind_cases with same | ⟨here, there⟩
  · rw [same]
  · rw [here, there]
    exact iff_of_false (noStop _ closed.right) (noStop _ closed.left)

/-- Whether a symbol is there that does not stop expressions is the same on both sides. -/
lemma Closed.checkSymbol (closed : Closed al) {symbol : Symbol}
    (noStop : ∀ kind, Stops kind → kind ≠ .symbol symbol) :
    Echoes al id (checkSymbol symbol) (checkSymbol symbol) :=
  .looks (looks_checkSymbol _) (looks_checkSymbol _) fun _ _ _ twin => closed.check_eq twin noStop

/-- Whether an operator is there is the same on both sides. -/
lemma Closed.isComposite_eq (closed : Closed al) {s t : ParserState} (beside : Beside al s t) :
    t.stream.kind.isComposite = s.stream.kind.isComposite := by
  obtain ⟨common, twin⟩ := beside
  rcases twin.kind_cases with same | ⟨here, there⟩
  · rw [same]
  · rw [here, there, closed.left.ends.noOperator, closed.right.ends.noOperator]

/-- Whether an operator is there is the same on both sides. -/
lemma Closed.checkComposite (closed : Closed al) : Echoes al id checkComposite checkComposite :=
  .looks looks_checkComposite looks_checkComposite fun common _ _ twin =>
    closed.isComposite_eq ⟨common, twin⟩

/-- Parentheses are passed on both sides. -/
lemma Closed.skipParentheses (closed : Closed al) :
    Echoes al id skipParentheses skipParentheses :=
  .skipParentheses closed.right.ends.noArguments

/-- The kind of a token in front of the place is the same on both sides. -/
lemma echoes_kind {move : β → β} {f g : TokenKind → Parser β}
    (rest : ∀ kind, EchoesFrom al (Inside al) move (f kind) (g kind)) :
    EchoesFrom al (Inside al) move (kind >>= f) (kind >>= g) := by
  refine .look Eq looks_kind looks_kind ?_ fun kind _ isKind =>
    isKind ▸ (rest kind).weaken fun _ seen => seen.1
  intro common s t inside twin
  obtain ⟨token, others, rfl⟩ := inside.exists_cons twin
  exact twin.kind_eq.symm

/-- The kind of the token behind one in front of the place is the same on both sides, or expressions are
stopped there. -/
lemma Closed.peek (closed : Closed al) {move : β → β} {f g : TokenKind → Parser β}
    (rest : ∀ kind, EchoesFrom al (Inside al) move (f kind) (g kind))
    (stopped : ∀ kind kind', Stops kind → Stops kind' →
      EchoesFrom al (Inside al) move (f kind) (g kind')) :
    EchoesFrom al (Inside al) move (peek >>= f) (peek >>= g) := by
  refine .look (fun kind kind' => kind' = kind ∨ Stops kind ∧ Stops kind') looks_peek looks_peek ?_ ?_
  · intro common s t inside twin
    obtain ⟨token, others, rfl⟩ := inside.exists_cons twin
    rw [← kind_advance, ← kind_advance]
    rcases twin.advance.kind_cases with same | ⟨here, there⟩
    · exact .inl same
    · refine .inr ⟨?_, ?_⟩
      · exact here ▸ closed.left
      · exact there ▸ closed.right
  · rintro kind kind' (rfl | ⟨stop, stop'⟩)
    · exact (rest _).weaken fun _ seen => seen.1
    · exact (stopped _ _ stop stop').weaken fun _ seen => seen.1

/-! ## The parts of an expression -/

section Parts

variable {operand operand' : Parser Expression} {start : Nat}

/-- Source text from the same offset on. -/
lemma echoes_text (within : al.within start) : Echoes al id (do return .other (← textFrom start))
    (do return .other (← textFrom (start + al.shift)) : Parser ExpressionNode) :=
  (Echoes.text within).bind fun _ => .pure rfl

variable (like : Echoes al (Expression.moved al.shift) operand operand')

include like

/-- An operator of one operand echoes if the operand does. -/
lemma echoes_unaryWith (within : al.within start) :
    Echoes al id (unaryWith operand start) (unaryWith operand' (start + al.shift)) :=
  Echoes.advance.bind fun _ => like.bind fun _ => echoes_text within

variable (closed : Closed al)

include closed

/-- A sign echoes if operands do. -/
lemma echoes_signedWith (within : al.within start) (sign : String) : EchoesFrom al (Inside al) id
    (signedWith operand start sign) (signedWith operand' (start + al.shift) sign) := by
  have unary : EchoesFrom al (Inside al) id _ _ := .of_echoes (echoes_unaryWith like within)
  refine closed.peek (fun kind => ?_) fun kind kind' stop stop' => ?_
  · split
    · exact .of_echoes (Echoes.advance.bind fun _ => Echoes.advance.bind fun _ => .pure rfl)
    · exact unary
  · split
    · exact absurd rfl (stop.noNumber _)
    · split
      · exact absurd rfl (stop'.noNumber _)
      · exact unary

/-- What starts with a keyword echoes if operands do. -/
lemma echoes_keywordWith (within : al.within start) (keyword : Keyword) :
    EchoesFrom al (Inside al) id (keywordWith operand start keyword)
      (keywordWith operand' (start + al.shift) keyword) := by
  refine .ite (fun _ => .of_echoes (echoes_unaryWith like within)) fun _ => .ite (fun _ => ?_) fun _ => ?_
  · exact .of_echoes ((Echoes.skipGroup _).bind fun _ => echoes_text within)
  · have word : EchoesFrom al (Inside al) id
        (do let _ ← advance; return ExpressionNode.other (← textFrom start))
        (do let _ ← advance; return ExpressionNode.other (← textFrom (start + al.shift))) :=
      .of_echoes (Echoes.advance.bind fun _ => echoes_text within)
    refine closed.peek (fun kind => ?_) fun kind kind' stop stop' => ?_
    · exact .ite (fun _ => word) fun _ => .unexpected _ _
    · have noCall (kind : TokenKind) (stop : Stops kind) : (kind == .symbol .leftParen) = false := by
        simpa using stop.ends.noArguments
      rw [noCall kind stop, noCall kind' stop']
      exact .ite (fun _ => word) fun _ => .unexpected _ _

/-- What starts with a symbol echoes if operands do. -/
lemma echoes_symbolWith (within : al.within start) (symbol : Symbol) :
    EchoesFrom al (Inside al) id (symbolWith operand start symbol)
      (symbolWith operand' (start + al.shift) symbol) := by
  unfold symbolWith
  split
  · exact .of_echoes (Echoes.placeholder.bind fun _ => .pure rfl)
  · exact echoes_signedWith like closed within _
  · exact echoes_signedWith like closed within _
  · exact .of_echoes (echoes_unaryWith like within)
  · exact .of_echoes (echoes_unaryWith like within)
  · exact .of_echoes (closed.skipParentheses.bind fun _ => echoes_text within)
  · exact .unexpected _ _

variable (reads : Reads operand)

include reads

/-- The part of an expression before any operator or arguments echoes if operands do. -/
lemma echoes_primaryWith : Echoes al id (primaryWith operand) (primaryWith operand') := by
  refine echoes_offset (fun s node s' success => ?_) fun start within => echoes_kind fun kind => ?_
  · rcases primaryWith_opens reads success with ⟨tokens, isOperand, run, -⟩ | ⟨-, -, keyword, span, run⟩
    · exact ⟨_, tokens, isOperand.ne_nil, run⟩
    · exact ⟨_, _, by simp, run⟩
  · split
    · exact .of_echoes (Echoes.advance.bind fun _ => .pure rfl)
    · exact .of_echoes (Echoes.advance.bind fun _ => .pure rfl)
    · exact .of_echoes (Echoes.advance.bind fun _ => .pure rfl)
    · exact .of_echoes (Echoes.advance.bind fun _ => echoes_text within)
    · exact echoes_keywordWith like closed within _
    · exact echoes_symbolWith like closed within _
    · exact .unexpected _ _

/-- Operators that are read up to a bound are read on the other side, up to any bound that the tokens left
there do not exceed.

**Proof sketch.** Induction on the bound. Where it is the number of tokens left, each side stops only where
no operator is; and an operator with its operand leaves fewer tokens on both sides. -/
lemma compositeUpTo_beside {n m : Nat} {s t s' : ParserState} {a : Unit} (enough : s.stream.remaining ≤ n)
    (enough' : t.stream.remaining ≤ m) (beside : Beside al s t)
    (success : (compositeUpTo operand n).run s = .ok (a, s')) (reaches : al.left <:+ s'.stream.ahead) :
    ∃ t', (compositeUpTo operand' m).run t = .ok ((), t') ∧ Beside al s' t' := by
  induction n generalizing m s t with
  | zero =>
    obtain ⟨-, rfl⟩ := run_pure_ok.1 success
    have ended : s.stream.ahead = [] := List.length_eq_zero_iff.1 (Nat.le_zero.1 enough)
    have noOperator : s.stream.kind.isComposite = false := by
      rw [kind_of_ahead_nil ended]
      rfl
    exact ⟨t, run_compositeUpTo ((closed.isComposite_eq beside).trans noOperator) m, beside⟩
  | succ n ih =>
    rw [compositeUpTo, looks_checkComposite.run_bind] at success
    split at success
    · rename_i isComposite
      rw [run_advance_bind, run_bind_ok] at success
      obtain ⟨e, s₁, read, rest⟩ := success
      obtain ⟨tokens, -, run⟩ := compositeUpTo_reads reads rest
      have within := reaches.trans (suffix_of_run run)
      have behind := within.trans (like.forward _ _ _ read)
      obtain ⟨same, beside₁⟩ := beside.advance rfl behind
      obtain ⟨t₁, read', beside₂⟩ := like.echo _ _ e s₁ trivial beside₁ read within
      have passed : s₁.stream.remaining ≤ s.advance.stream.remaining :=
        (like.forward _ _ _ read).length_le
      have shorter : s.advance.stream.remaining = s.stream.remaining - 1 := List.length_tail
      have left := remaining_pos rfl (ne_of_isComposite isComposite).2
      -- the other side has as many tokens fewer
      have before := beside.remaining_add
      have after := beside₂.remaining_add
      obtain ⟨m, rfl⟩ : ∃ k, m = k + 1 := Nat.exists_eq_add_one.2 (by omega)
      obtain ⟨t', rest', beside'⟩ :=
        ih (by omega : s₁.stream.remaining ≤ n) (by omega : t₁.stream.remaining ≤ m) beside₂ rest
      refine ⟨t', ?_, beside'⟩
      rw [compositeUpTo, looks_checkComposite.run_bind, same, if_pos isComposite, run_advance_bind]
      exact run_bind_ok.2 ⟨_, t₁, read', rest'⟩
    · rename_i noOperator
      obtain ⟨-, rfl⟩ := run_pure_ok.1 success
      have noOperator' := (closed.isComposite_eq beside).trans (Bool.eq_false_iff.2 noOperator)
      exact ⟨t, run_compositeUpTo noOperator' m, beside⟩

/-- Operators echo if their operands do. -/
lemma echoes_compositeWith : Echoes al id (compositeWith operand) (compositeWith operand') where
  forward := by
    intro s a s' success
    obtain ⟨tokens, -, run⟩ := compositeWith_reads reads success
    exact suffix_of_run run
  echo := by
    intro s t a s' _ beside success reaches
    rw [compositeWith, looks_remaining.run_bind] at success ⊢
    exact compositeUpTo_beside like closed reads (Nat.le_refl _) (Nat.le_refl _) beside success reaches

omit like closed reads in
/-- The name of a column is the same on both sides, if it is not where the texts part. -/
lemma echoes_columnName : EchoesFrom al (Inside al) id columnName columnName where
  forward := by
    intro s name s' success
    obtain ⟨rfl, -, -⟩ := run_columnName_ok success
    exact List.suffix_refl _
  echo := by
    intro s t name s' inside beside success reaches
    obtain ⟨rfl, -, -⟩ := run_columnName_ok success
    obtain ⟨common, twin⟩ := beside
    obtain ⟨token, others, rfl⟩ := inside.exists_cons twin
    obtain ⟨here, there, start, stop⟩ := twin.current
    rw [columnName, looks_current.run_bind, here] at success
    rw [columnName, looks_current.run_bind, there, Token.kind_moved]
    split at success
    · cases success
      exact ⟨t, rfl, _, twin⟩
    · obtain ⟨t', written, beside'⟩ :=
        (Echoes.textOf start stop).echo s' t name s' trivial ⟨_, twin⟩ success reaches
      exact ⟨t', written, beside'⟩
    · cases success
      exact ⟨t, rfl, _, twin⟩
    · exact absurd success run_unexpected_ne

omit like closed reads in
/-- An owner is recorded on both sides. -/
lemma echoes_recordOwner (owner : String) {span : Span} (start : al.within span.start)
    (stop : al.within span.stop) : Echoes al id
    (recordOwner rules owner span) (recordOwner rules owner (span.moved al.shift)) :=
  .ite (fun _ => (Echoes.textOf start stop).bind fun _ => Echoes.addEdit (.table span owner _)) fun _ =>
    .pure rfl

/-- The rest of a qualified reference echoes if operands do. -/
lemma echoes_qualifiedWith (owner : String) {span : Span} (within : al.within span.start)
    (stop : al.within span.stop) :
    Echoes al id (qualifiedWith operand rules owner span)
      (qualifiedWith operand' rules owner (span.moved al.shift)) := by
  have echo : EchoesFrom al (Inside al) id (qualifiedWith operand rules owner span)
      (qualifiedWith operand' rules owner (span.moved al.shift)) := by
    refine echoes_columnName.bind fun name => Echoes.advance.bind fun _ => ?_
    refine (echoes_recordOwner _ within stop).bind fun _ => ?_
    refine closed.checkComposite.bind fun joined => .ite (fun _ => ?_) fun _ => .pure rfl
    exact (echoes_compositeWith like closed reads).bind fun _ => echoes_text within
  refine echoes_inside (fun s node s' success => ?_) echo.echo
  obtain ⟨token, rest, -, -, -, run, -⟩ := qualifiedWith_reads reads success
  exact ⟨_, token :: rest, by simp, run⟩

/-- The rest of a reference echoes if operands do. -/
lemma echoes_referenceWith (within : al.within start) (node : ExpressionNode) :
    Echoes al id (referenceWith operand rules start node)
      (referenceWith operand' rules (start + al.shift) node) := by
  unfold referenceWith
  split
  · refine (closed.checkSymbol ?_).bind fun isDot => .ite (fun _ => ?_) fun _ => .pure rfl
    · exact fun kind stop => stop.ends.noDot
    · refine .bindKnown (fun dot => al.within dot.span.start) Echoes.advance
        (fun s t dot s' beside success reaches => ?_) (fun dot s node s' success => ?_)
        fun dot stop => echoes_qualifiedWith like closed reads _ within stop
      · cases success
        obtain ⟨-, start, -, -⟩ := beside.passed reaches
        exact start
      · obtain ⟨token, rest, -, -, -, run, -⟩ := qualifiedWith_reads reads success
        exact suffix_of_run run
  · exact .pure rfl

omit like reads in
/-- Arguments echo. -/
lemma echoes_argumentsAfter (within : al.within start) (node : ExpressionNode) :
    Echoes al id (argumentsAfter start node) (argumentsAfter (start + al.shift) node) := by
  refine (closed.checkSymbol ?_).bind fun opened => .ite (fun _ => ?_) fun _ => .pure rfl
  · exact fun kind stop => stop.ends.noArguments
  · exact closed.skipParentheses.bind fun _ => echoes_text within

/-- Operators after an expression echo if operands do. -/
lemma echoes_operatorsWith (within : al.within start) (node : ExpressionNode) :
    Echoes al id (operatorsWith operand start node) (operatorsWith operand' (start + al.shift) node) := by
  refine closed.checkComposite.bind fun joined => .ite (fun _ => ?_) fun _ => .pure rfl
  exact (echoes_compositeWith like closed reads).bind fun _ => echoes_text within

/-- An expression echoes if operands do. -/
lemma echoes_expressionWith : Echoes al (Expression.moved al.shift) (expressionWith operand rules)
    (expressionWith operand' rules) := by
  refine echoes_offset (fun s e s' success => ?_) fun start within => ?_
  · obtain ⟨tokens, isOperand, run, -⟩ := expressionWith_writes reads success
    exact ⟨_, tokens, isOperand.ne_nil, run⟩
  · refine .of_echoes ((echoes_primaryWith like closed reads).bind fun node => ?_)
    refine (echoes_referenceWith like closed reads within node).bind fun node => ?_
    refine (echoes_argumentsAfter closed within node).bind fun node => ?_
    refine (echoes_operatorsWith like closed reads within node).bind fun node => ?_
    exact Echoes.previousEnd.bind fun _ => .pure rfl

end Parts

/-! ## Whole expressions -/

/-- Expressions echo each other, however many tokens the texts go on with.

**Proof sketch.** Within the same bound they do, by induction on the bound. And the bound that one of the
texts gives has no influence on what is read in the other. -/
lemma echoes_expression (closed : Closed al) :
    Echoes al (Expression.moved al.shift) (expression rules) (expression rules) where
  forward := by
    intro s e s' success
    obtain ⟨tokens, run⟩ := runs_expression.exists_run success
    exact suffix_of_run run
  echo := by
    have upTo (n : Nat) :
        Echoes al (Expression.moved al.shift) (expressionUpTo rules n) (expressionUpTo rules n) := by
      induction n with
      | zero => exact .unexpected _ _
      | succ n ih =>
        exact echoes_expressionWith ih closed fun _ _ _ success =>
          (expressionUpTo_writes success).exists_operand
    intro s t e s' _ beside success reaches
    rw [expression, looks_remaining.run_bind] at success ⊢
    obtain ⟨t', success', beside'⟩ := (upTo _).echo s t e s' trivial beside success reaches
    exact ⟨t', expressionUpTo_of_le success' (Nat.le_refl _), beside'⟩

end SqlRouting.Grammar
