import SqlRouting.Proofs.Runs
import SqlRouting.Proofs.Shape

/-!
# Reading expressions

An expression passes the tokens of an operand and records nothing but edits, and its shape is the
one that the tokens write. The tokens of a lone shape are always read, and as that shape, where
nothing follows that goes on with the expression.

## Main definitions

* `SqlRouting.Grammar.Reads` — a parser that passes the tokens of an operand.
* `SqlRouting.Grammar.Ends` — the tokens that do not go on with an expression.

## Main results

* `SqlRouting.Grammar.expression_reads` — an expression passes tokens that write its shape.
* `SqlRouting.Grammar.expression_of_lone` — tokens that write a lone shape are read as that shape.
-/

set_option autoImplicit false

namespace SqlRouting.Grammar

open SqlRouting.Parser TokenStream

variable {source : String} {index : Nat} {tokens more : List Token} {node node' : ExpressionNode}

/-! ## The parts of an expression -/

/-- Each success of `p` passes the tokens of an operand and records nothing but edits. -/
def Reads {α : Type} (p : Parser α) : Prop :=
  ∀ s a s', p.run s = .ok (a, s') → ∃ tokens, Operand tokens ∧ Run Context.EditsOnly s tokens s'

/-- The tokens go on with any operand to give an operand. -/
def GoesOn (tokens : List Token) : Prop :=
  ∀ left, Operand left → Operand (left ++ tokens)

/-- The state of a parser leads to another by the tokens of an operand, which write a shape. -/
def Writes (s : ParserState) (node : ExpressionNode) (s' : ParserState) : Prop :=
  ∃ tokens, Operand tokens ∧ Run Context.EditsOnly s tokens s' ∧
    Written s.stream.source s.context.parameters tokens node

/-- An operator is neither a placeholder nor the end of the input. -/
lemma ne_of_isComposite {kind : TokenKind} (isComposite : kind.isComposite = true) :
    kind ≠ .symbol .question ∧ kind ≠ .endOfInput := by
  constructor <;> rintro rfl <;> simp [TokenKind.isComposite, Symbol.isComposite] at isComposite

section Parts

variable {operand : Parser Expression} {s s' : ParserState} {start : Nat}

/-- Operators and their operands go on with what stands before them. -/
lemma compositeUpTo_reads (reads : Reads operand) {n : Nat} {result : Unit}
    (success : (compositeUpTo operand n).run s = .ok (result, s')) :
    ∃ tokens, GoesOn tokens ∧ Run Context.EditsOnly s tokens s' := by
  induction n generalizing s with
  | zero =>
    obtain ⟨-, rfl⟩ := run_pure_ok.1 success
    exact ⟨[], fun left h => by rwa [List.append_nil], .refl s⟩
  | succ n ih =>
    rw [compositeUpTo, looks_checkComposite.run_bind] at success
    split at success
    · rename_i isComposite
      obtain ⟨plain, notEnd⟩ := ne_of_isComposite isComposite
      rw [run_advance_bind, run_bind_ok] at success
      obtain ⟨_, s₁, read, rest⟩ := success
      obtain ⟨tokens, isOperand, run⟩ := reads _ _ _ read
      obtain ⟨more, goesOn, run'⟩ := ih rest
      refine ⟨_, fun left h => ?_, (run_token rfl plain notEnd).trans (run.trans run')⟩
      have joined := goesOn _ (h.joined isComposite isOperand)
      rw [List.append_assoc] at joined
      exact joined
    · obtain ⟨-, rfl⟩ := run_pure_ok.1 success
      exact ⟨[], fun left h => by rwa [List.append_nil], .refl s⟩

/-- Operators and their operands go on with what stands before them. -/
lemma compositeWith_reads (reads : Reads operand) {result : Unit}
    (success : (compositeWith operand).run s = .ok (result, s')) :
    ∃ tokens, GoesOn tokens ∧ Run Context.EditsOnly s tokens s' := by
  rw [compositeWith, looks_remaining.run_bind] at success
  exact compositeUpTo_reads reads success

/-- Where an operator comes first, passing operators and their operands passes it. -/
lemma compositeWith_reads_cons (reads : Reads operand)
    (isComposite : s.stream.kind.isComposite = true) {result : Unit}
    (success : (compositeWith operand).run s = .ok (result, s')) :
    ∃ token tokens, token.kind.isComposite = true ∧ GoesOn (token :: tokens) ∧
      Run Context.EditsOnly s (token :: tokens) s' := by
  obtain ⟨plain, notEnd⟩ := ne_of_isComposite isComposite
  rw [compositeWith, looks_remaining.run_bind] at success
  obtain ⟨n, same⟩ := Nat.exists_eq_add_one.2 (remaining_pos rfl notEnd)
  rw [same, compositeUpTo, looks_checkComposite.run_bind, if_pos isComposite, run_advance_bind,
    run_bind_ok] at success
  obtain ⟨_, s₁, read, rest⟩ := success
  obtain ⟨tokens, isOperand, run⟩ := reads _ _ _ read
  obtain ⟨more, goesOn, run'⟩ := compositeUpTo_reads reads rest
  refine ⟨_, _, isComposite, fun left h => ?_, (run_token rfl plain notEnd).trans (run.trans run')⟩
  have joined := goesOn _ (h.joined isComposite isOperand)
  rw [List.append_assoc] at joined
  exact joined

/-- Without an operator no operand is passed. -/
lemma run_compositeUpTo (noOperator : s.stream.kind.isComposite = false) (n : Nat) :
    (compositeUpTo operand n).run s = .ok ((), s) := by
  cases n with
  | zero => rfl
  | succ n =>
    rw [compositeUpTo, looks_checkComposite.run_bind, noOperator]
    rfl

/-- An operator of one operand passes its own token and those of the operand. -/
lemma unaryWith_reads (reads : Reads operand) {kind : TokenKind} (same : s.stream.kind = kind)
    (plain : kind ≠ .symbol .question) (notEnd : kind ≠ .endOfInput)
    (success : (unaryWith operand start).run s = .ok (node, s')) :
    (∃ text, node = .other text) ∧ ∃ span tokens, Operand tokens ∧
      Run Context.EditsOnly s (⟨kind, span⟩ :: tokens) s' := by
  rw [unaryWith, run_advance_bind, run_bind_ok] at success
  obtain ⟨_, s₁, read, rest⟩ := success
  rw [(looks_textFrom start).run_bind, run_pure_ok] at rest
  obtain ⟨rfl, rfl⟩ := rest
  obtain ⟨tokens, isOperand, run⟩ := reads _ _ _ read
  exact ⟨⟨_, rfl⟩, _, tokens, isOperand, (run_token same plain notEnd).trans run⟩

/-- A token that writes a lone shape by itself is passed as an operand. -/
lemma writes_token {kind : TokenKind} (same : s.stream.kind = kind)
    (plain : kind ≠ .symbol .question) (notEnd : kind ≠ .endOfInput)
    (stands : standsAlone kind = true)
    (written : ∀ span, Written s.stream.source s.context.parameters [⟨kind, span⟩] node) :
    Writes s node s.advance :=
  ⟨_, .alone stands, run_token same plain notEnd, written _⟩

/-- What starts with a sign is a number if a number follows, and source text otherwise. -/
lemma signedWith_writes (reads : Reads operand) {symbol : Symbol} {sign : String}
    (same : s.stream.kind = .symbol symbol)
    (isSign : symbol = .minus ∧ sign = "-" ∨ symbol = .plus ∧ sign = "")
    (success : (signedWith operand start sign).run s = .ok (node, s')) : Writes s node s' := by
  have plain : TokenKind.symbol symbol ≠ .symbol .question := by
    rcases isSign with ⟨rfl, -⟩ | ⟨rfl, -⟩ <;> simp
  have stands : standsBefore (.symbol symbol) = true := by
    rcases isSign with ⟨rfl, -⟩ | ⟨rfl, -⟩ <;> rfl
  rw [signedWith, looks_peek.run_bind] at success
  split at success
  · rename_i literal next
    have second : s.advance.stream.kind = .number literal := kind_advance.trans next
    rw [run_advance_bind, run_advance_bind, run_pure_ok] at success
    obtain ⟨rfl, rfl⟩ := success
    have passed : Run Context.EditsOnly s _ s.advance.advance :=
      (run_token same plain (by simp)).trans (run_token second)
    refine ⟨_, .prefixed stands (.alone rfl), passed, .inl ?_⟩
    rcases isSign with ⟨rfl, rfl⟩ | ⟨rfl, rfl⟩
    · exact .negative literal _ _
    · simpa using Lone.positive literal _ _
  · rename_i noNumber
    obtain ⟨isOther, span, tokens, isOperand, run⟩ :=
      unaryWith_reads reads same plain (by simp) success
    refine ⟨_, .prefixed stands isOperand, run, .inr ⟨isOther, fun lone h => ?_⟩⟩
    -- a lone shape after a sign is a number, which would have been seen
    obtain ⟨literal, numberSpan, rfl⟩ :
        ∃ literal numberSpan, tokens = [⟨.number literal, numberSpan⟩] := by
      cases h
      · exact ⟨_, _, rfl⟩
      · exact ⟨_, _, rfl⟩
      · exact absurd rfl plain
    refine noNumber literal ?_
    simp [TokenStream.peek, peekNth, run.ahead_eq]

/-- A balanced group starts with the token that opens it. -/
lemma group_starts {brackets : Brackets} {group rest : List Token} {kind : TokenKind}
    (same : s.stream.kind = kind) (notEnd : kind ≠ .endOfInput)
    (split : splitGroup? brackets 0 s.stream.ahead = some (group, rest)) :
    ∃ span tokens, group = ⟨kind, span⟩ :: tokens := by
  obtain ⟨ahead, nonempty⟩ := eq_append_of_splitGroup split
  obtain ⟨first, tokens, rfl⟩ := List.exists_cons_of_ne_nil nonempty
  rw [ahead_of_kind same notEnd, List.cons_append, List.cons.injEq] at ahead
  exact ⟨_, tokens, by rw [ahead.1]⟩

/-- What is split off is a group. -/
lemma group_of_split {brackets : Brackets} {tokens group rest : List Token}
    (isBrackets : brackets = .parentheses ∨ brackets = .conditional)
    (split : splitGroup? brackets 0 tokens = some (group, rest)) : Group group := by
  rcases isBrackets with rfl | rfl
  · exact .inl (splitGroup_self split)
  · exact .inr (splitGroup_self split)

/-- A group of a kind that starts no lone shape is source text. -/
lemma group_writes {brackets : Brackets} {group rest : List Token} {kind : TokenKind}
    (isBrackets : brackets = .parentheses ∨ brackets = .conditional)
    (same : s.stream.kind = kind) (notEnd : kind ≠ .endOfInput) (starts : startsLone kind = false)
    (split : splitGroup? brackets 0 s.stream.ahead = some (group, rest)) (text : String) :
    Writes s (.other text)
      ⟨s.stream.advanceBy group.length, s.context.passParameters (placeholders group)⟩ := by
  obtain ⟨span, tokens, same⟩ := group_starts same notEnd split
  refine ⟨group, .group (group_of_split isBrackets split), .single (.group split), ?_⟩
  rw [same]
  exact .of_starts starts

/-- An operator of one operand, which starts no lone shape, gives source text. -/
lemma unaryWith_writes (reads : Reads operand) {kind : TokenKind} (same : s.stream.kind = kind)
    (plain : kind ≠ .symbol .question) (notEnd : kind ≠ .endOfInput)
    (starts : startsLone kind = false) (stands : standsBefore kind = true)
    (success : (unaryWith operand start).run s = .ok (node, s')) : Writes s node s' := by
  obtain ⟨⟨text, rfl⟩, span, tokens, isOperand, run⟩ :=
    unaryWith_reads reads same plain notEnd success
  exact ⟨_, .prefixed stands isOperand, run, .of_starts starts⟩

/-- The state of a parser leads to another by the tokens of an operand, or by a word in front of its
arguments. -/
def Opens (s : ParserState) (node : ExpressionNode) (s' : ParserState) : Prop :=
  Writes s node s' ∨
    s'.stream.kind = .symbol .leftParen ∧ (∃ text, node = .other text) ∧
      ∃ keyword span, Run Context.EditsOnly s [⟨.keyword keyword, span⟩] s'

/-- What starts with a keyword is source text. -/
lemma keywordWith_opens (reads : Reads operand) {keyword : Keyword}
    (same : s.stream.kind = .keyword keyword)
    (success : (keywordWith operand start keyword).run s = .ok (node, s')) : Opens s node s' := by
  unfold keywordWith at success
  split at success
  · rename_i stands
    exact .inl (unaryWith_writes reads same (by simp) (by simp) rfl stands success)
  · split at success
    · rw [run_bind_ok] at success
      obtain ⟨_, s₁, skipped, rest⟩ := success
      rw [(looks_textFrom start).run_bind, run_pure_ok] at rest
      obtain ⟨rfl, rfl⟩ := rest
      obtain ⟨group, _, split, rfl⟩ := run_skipGroup_ok.1 skipped
      exact .inl (group_writes (.inr rfl) same (by simp) rfl split _)
    · rw [looks_peek.run_bind] at success
      split at success
      · rename_i isWord
        rw [run_advance_bind, (looks_textFrom start).run_bind, run_pure_ok] at success
        obtain ⟨rfl, rfl⟩ := success
        rw [Bool.or_eq_true, beq_iff_eq, ← kind_advance] at isWord
        rcases isWord with stands | called
        · exact .inl (writes_token same (by simp) (by simp) stands fun _ => .of_starts rfl)
        · exact .inr ⟨called, ⟨_, rfl⟩, keyword, _, run_token same⟩
      · exact absurd success run_unexpected_ne

/-- What starts with a symbol is a placeholder, a number after its sign, or source text. -/
lemma symbolWith_writes (reads : Reads operand) {symbol : Symbol}
    (same : s.stream.kind = .symbol symbol)
    (success : (symbolWith operand start symbol).run s = .ok (node, s')) : Writes s node s' := by
  unfold symbolWith at success
  split at success
  · obtain ⟨index, s₁, read, rest⟩ := run_bind_ok.1 success
    obtain ⟨rfl, rfl⟩ := run_pure_ok.1 rest
    cases read
    have ahead := ahead_of_kind same (by simp)
    exact ⟨_, .alone rfl, .single (.placeholder ahead rfl), .inl (.placeholder _)⟩
  · exact signedWith_writes reads same (.inl ⟨rfl, rfl⟩) success
  · exact signedWith_writes reads same (.inr ⟨rfl, rfl⟩) success
  · exact unaryWith_writes reads same (by simp) (by simp) rfl rfl success
  · exact unaryWith_writes reads same (by simp) (by simp) rfl rfl success
  · obtain ⟨_, s₁, skipped, rest⟩ := run_bind_ok.1 success
    rw [(looks_textFrom start).run_bind, run_pure_ok] at rest
    obtain ⟨rfl, rfl⟩ := rest
    obtain ⟨group, _, split, rfl⟩ := run_skipParentheses_of_eq same skipped
    exact group_writes (.inl rfl) same (by simp) rfl split _
  · exact absurd success run_unexpected_ne

/-- The part of an expression before any operator or arguments passes tokens that write it. -/
lemma primaryWith_opens (reads : Reads operand)
    (success : (primaryWith operand).run s = .ok (node, s')) : Opens s node s' := by
  rw [primaryWith, looks_offset.run_bind, looks_kind.run_bind] at success
  split at success
  · rename_i value same
    rw [run_advance_bind, run_pure_ok] at success
    obtain ⟨rfl, rfl⟩ := success
    exact .inl (writes_token same (by simp) (by simp) rfl fun _ => .inl (.text value _))
  · rename_i literal same
    rw [run_advance_bind, run_pure_ok] at success
    obtain ⟨rfl, rfl⟩ := success
    exact .inl (writes_token same (by simp) (by simp) rfl fun _ => .inl (.number literal _))
  · rename_i name same
    rw [run_advance_bind, run_pure_ok] at success
    obtain ⟨rfl, rfl⟩ := success
    exact .inl (writes_token same (by simp) (by simp) rfl fun _ => .inl (.bare name _))
  · rename_i name same
    rw [run_advance_bind, (looks_textFrom _).run_bind, run_pure_ok] at success
    obtain ⟨rfl, rfl⟩ := success
    exact .inl (writes_token same (by simp) (by simp) rfl fun _ => .of_starts rfl)
  · rename_i keyword same
    exact keywordWith_opens reads same success
  · rename_i symbol same
    exact .inl (symbolWith_writes reads same success)
  · exact absurd success run_unexpected_ne

/-- The name of a column is that of the current token, or a star, and nothing is passed. -/
lemma run_columnName_ok {name : String} (success : columnName.run s = .ok (name, s')) :
    s' = s ∧ namesColumn s.stream.kind = true ∧
      name = (columnName? s.stream.source s.stream.current).getD "*" := by
  rw [columnName, looks_current.run_bind] at success
  unfold TokenStream.kind
  split at success
  · rename_i found same
    obtain ⟨rfl, rfl⟩ := run_pure_ok.1 success
    exact ⟨rfl, by rw [same]; rfl, by simp [columnName?, same]⟩
  · rename_i keyword same
    cases (looks_textOf _ s).symm.trans success
    exact ⟨rfl, by rw [same]; rfl, by simp [columnName?, same]⟩
  · rename_i same
    obtain ⟨rfl, rfl⟩ := run_pure_ok.1 success
    exact ⟨rfl, by rw [same]; rfl, by simp [columnName?, same, Symbol.text]⟩
  · exact absurd success run_unexpected_ne

/-- The name of a column is neither a placeholder nor the end of the input. -/
lemma ne_of_namesColumn {kind : TokenKind} (isName : namesColumn kind = true) :
    kind ≠ .symbol .question ∧ kind ≠ .endOfInput := by
  constructor <;> rintro rfl <;> simp [namesColumn] at isName

/-- Recording an owner records an edit at most, and leaves the stream as it is. -/
lemma recordOwner_run {rules : ShardingRule} {owner : String} {span : Span} {result : Unit}
    (success : (recordOwner rules owner span).run s = .ok (result, s')) :
    Run Context.EditsOnly s [] s' ∧ s'.stream = s.stream := by
  unfold recordOwner at success
  split at success
  · cases success
    exact ⟨.single (.record ⟨rfl, rfl, rfl⟩), rfl⟩
  · obtain ⟨-, rfl⟩ := run_pure_ok.1 success
    exact ⟨.refl s, rfl⟩

/-- The rest of a reference is a name and nothing more, or else the whole is source text. -/
lemma qualifiedWith_reads (reads : Reads operand) {rules : ShardingRule} {owner : String}
    {span : Span} (success : (qualifiedWith operand rules owner span).run s = .ok (node, s')) :
    ∃ token rest name, namesColumn token.kind = true ∧ GoesOn rest ∧
      Run Context.EditsOnly s (token :: rest) s' ∧
      name = (columnName? s.stream.source token).getD "*" ∧
      (node = .qualified owner name ∧ rest = [] ∧ name ≠ "*" ∨
        (∃ text, node = .other text) ∧ (name = "*" ∨ rest ≠ [])) := by
  obtain ⟨name, s₁, named, afterName⟩ := run_bind_ok.1 success
  obtain ⟨rfl, isName, value⟩ := run_columnName_ok named
  obtain ⟨plain, notEnd⟩ := ne_of_namesColumn isName
  rw [run_advance_bind] at afterName
  obtain ⟨_, s₂, recorded, afterEdit⟩ := run_bind_ok.1 afterName
  obtain ⟨edited, -⟩ := recordOwner_run recorded
  have passed := (run_token rfl plain notEnd).trans edited
  rw [looks_checkComposite.run_bind] at afterEdit
  split at afterEdit
  · rename_i joined
    obtain ⟨_, s₃, composed, rest⟩ := run_bind_ok.1 afterEdit
    rw [(looks_textFrom _).run_bind, run_pure_ok] at rest
    obtain ⟨rfl, rfl⟩ := rest
    by_cases isComposite : s₂.stream.kind.isComposite = true
    · obtain ⟨token, tokens, -, goesOn, run⟩ := compositeWith_reads_cons reads isComposite composed
      refine ⟨_, _, name, isName, goesOn, passed.trans run, value, ?_⟩
      exact .inr ⟨⟨_, rfl⟩, .inr (by simp)⟩
    · obtain ⟨tokens, goesOn, run⟩ := compositeWith_reads reads composed
      have star : name = "*" := by simpa [isComposite] using joined
      refine ⟨_, _, name, isName, goesOn, passed.trans run, value, ?_⟩
      exact .inr ⟨⟨_, rfl⟩, .inl star⟩
  · rename_i alone
    obtain ⟨rfl, rfl⟩ := run_pure_ok.1 afterEdit
    have noStar : name ≠ "*" := fun star => alone (by simp [star])
    refine ⟨_, [], name, isName, fun left h => ?_, passed, value, .inl ⟨rfl, rfl, noStar⟩⟩
    rwa [List.append_nil]

/-- A reference is complete after its first name, or passes a dot and the rest.

**Proof sketch.** Without a dot nothing is passed. After a dot, the tokens are those of a lone
reference exactly if nothing follows the name of the column and the name is no star. -/
lemma referenceWith_opens (reads : Reads operand) {rules : ShardingRule} {s₁ : ParserState}
    (before : Opens s node s₁)
    (success : (referenceWith operand rules start node).run s₁ = .ok (node', s')) :
    Opens s node' s' := by
  unfold referenceWith at success
  split at success
  · rename_i owner
    rw [(looks_checkSymbol _).run_bind] at success
    split at success
    · rename_i dotted
      rw [check_symbol] at dotted
      rw [run_advance_bind] at success
      obtain ⟨tokens, -, run, written⟩ := before.resolve_right (by simp)
      obtain ⟨token, rest, name, isName, goesOn, run', value, outcome⟩ :=
        qualifiedWith_reads reads success
      have lone := written.lone (by simp)
      have source : s₁.advance.stream.source = s.stream.source := run.source_eq
      rw [source] at value
      cases lone with
      | bare _ ownerSpan =>
        have dot : Run Context.EditsOnly s₁ _ s₁.advance := run_token dotted
        have isReference : Operand
            [⟨.identifier owner, ownerSpan⟩, ⟨.symbol .dot, s₁.stream.current.span⟩, token] :=
          .reference rfl isName
        refine .inl ⟨_, goesOn _ isReference, run.trans (dot.trans run'), ?_⟩
        rcases outcome with ⟨rfl, rfl, noStar⟩ | ⟨⟨text, rfl⟩, more⟩
        · cases named : columnName? s.stream.source token with
          | none => exact absurd (by rw [value, named]; rfl) noStar
          | some found =>
            rw [named] at value
            subst value
            exact .inl (.qualified owner _ _ _ token named noStar)
        · refine .inr ⟨⟨text, rfl⟩, fun lone h => ?_⟩
          cases h with
          | qualified _ found _ _ _ named noStar =>
            rw [named] at value
            rcases more with star | nonempty
            · exact noStar (value.symm.trans star)
            · exact nonempty rfl
    · obtain ⟨rfl, rfl⟩ := run_pure_ok.1 success
      exact before
  · obtain ⟨rfl, rfl⟩ := run_pure_ok.1 success
    exact before

/-- A list of arguments makes what stands before it source text. -/
lemma argumentsAfter_writes {s₁ : ParserState} (before : Opens s node s₁)
    (success : (argumentsAfter start node).run s₁ = .ok (node', s')) : Writes s node' s' := by
  rw [argumentsAfter, (looks_checkSymbol _).run_bind] at success
  split at success
  · rename_i called
    have opened : s₁.stream.kind = .symbol .leftParen := by
      rw [Bool.and_eq_true, check_symbol] at called
      exact called.1
    obtain ⟨_, s₂, skipped, rest⟩ := run_bind_ok.1 success
    rw [(looks_textFrom _).run_bind, run_pure_ok] at rest
    obtain ⟨rfl, rfl⟩ := rest
    obtain ⟨group, _, split, rfl⟩ := run_skipParentheses_of_eq opened skipped
    have balanced := group_of_split (.inl rfl) split
    rcases before with ⟨tokens, isOperand, run, -⟩ | ⟨-, -, keyword, span, run⟩
    · obtain ⟨span, inner, rfl⟩ := group_starts opened (by simp) split
      refine ⟨_, isOperand.called balanced, run.trans (.single (.group split)), ?_⟩
      exact .of_mem isOperand.ne_nil List.mem_cons_self (.inr rfl)
    · exact ⟨_, .word rfl balanced, run.trans (.single (.group split)), .of_starts rfl⟩
  · rename_i notCalled
    obtain ⟨rfl, rfl⟩ := run_pure_ok.1 success
    refine before.resolve_right ?_
    rintro ⟨opened, ⟨text, rfl⟩, -⟩
    exact notCalled (by rw [check_symbol.2 opened]; rfl)

/-- Operators make what stands before them source text. -/
lemma operatorsWith_writes (reads : Reads operand) {s₁ : ParserState} (before : Writes s node s₁)
    (success : (operatorsWith operand start node).run s₁ = .ok (node', s')) :
    Writes s node' s' := by
  rw [operatorsWith, looks_checkComposite.run_bind] at success
  split at success
  · rename_i isComposite
    obtain ⟨_, s₂, composed, rest⟩ := run_bind_ok.1 success
    rw [(looks_textFrom _).run_bind, run_pure_ok] at rest
    obtain ⟨rfl, rfl⟩ := rest
    obtain ⟨token, inner, joins, goesOn, run'⟩ :=
      compositeWith_reads_cons reads isComposite composed
    obtain ⟨tokens, isOperand, run, -⟩ := before
    refine ⟨_, goesOn tokens isOperand, run.trans run', ?_⟩
    exact .of_mem isOperand.ne_nil List.mem_cons_self (.inl joins)
  · obtain ⟨rfl, rfl⟩ := run_pure_ok.1 success
    exact before

/-- An expression passes tokens that write its shape, if its operands are expressions. -/
lemma expressionWith_writes (reads : Reads operand) {rules : ShardingRule} {e : Expression}
    (success : (expressionWith operand rules).run s = .ok (e, s')) : Writes s e.node s' := by
  rw [expressionWith, looks_offset.run_bind] at success
  obtain ⟨_, s₁, primary, success⟩ := run_bind_ok.1 success
  obtain ⟨_, s₂, reference, success⟩ := run_bind_ok.1 success
  obtain ⟨_, s₃, arguments, success⟩ := run_bind_ok.1 success
  obtain ⟨_, s₄, operators, success⟩ := run_bind_ok.1 success
  rw [looks_previousEnd.run_bind, run_pure_ok] at success
  obtain ⟨rfl, rfl⟩ := success
  have opens := referenceWith_opens reads (primaryWith_opens reads primary) reference
  exact operatorsWith_writes reads (argumentsAfter_writes opens arguments) operators

end Parts

/-! ## Whole expressions -/

variable {rules : ShardingRule} {s s' : ParserState} {e : Expression}

/-- The tokens of a shape are those of an operand, whatever the shape. -/
lemma Writes.exists_operand (h : Writes s node s') :
    ∃ tokens, Operand tokens ∧ Run Context.EditsOnly s tokens s' := by
  obtain ⟨tokens, isOperand, run, -⟩ := h
  exact ⟨tokens, isOperand, run⟩

/-- An expression passes tokens that write its shape. -/
lemma expressionUpTo_writes {n : Nat}
    (success : (expressionUpTo rules n).run s = .ok (e, s')) : Writes s e.node s' := by
  induction n generalizing s s' e with
  | zero => exact absurd success run_unexpected_ne
  | succ n ih => exact expressionWith_writes (fun s a s' read => (ih read).exists_operand) success

/-- An expression passes tokens that write its shape, and records nothing but edits.

**Proof sketch.** The parts of an expression are read one after the other. The first part passes
what it is written by; a dot and a name complete it to a reference; and arguments or operators,
with their operands, leave no lone shape that could be written by the same tokens. -/
lemma expression_reads (success : (expression rules).run s = .ok (e, s')) :
    ∃ tokens, Operand tokens ∧ Run Context.EditsOnly s tokens s' ∧
      Written s.stream.source s.context.parameters tokens e.node := by
  rw [expression, looks_remaining.run_bind] at success
  exact expressionUpTo_writes success

/-- An expression passes tokens and records nothing but edits. -/
lemma reads_expression : Reads (expression rules) :=
  fun _ _ _ success => Writes.exists_operand (expression_reads success)

/-- The successes of an expression are runs. -/
lemma runs_expression : Runs Context.EditsOnly (expression rules) := by
  intro s e s' _ success
  obtain ⟨tokens, -, run⟩ := reads_expression s e s' success
  exact ⟨tokens, run⟩

/-- The operators after an expression are passed by a run. -/
lemma runs_composite : Runs Context.EditsOnly (composite rules) := by
  intro s result s' _ success
  obtain ⟨tokens, -, run⟩ := compositeWith_reads reads_expression success
  exact ⟨tokens, run⟩

/-! ## Lone shapes are read -/

/-- A token of this kind does not go on with an expression. -/
structure Ends (kind : TokenKind) : Prop where
  /-- It is no operator. -/
  noOperator : kind.isComposite = false
  /-- It opens no list of arguments. -/
  noArguments : kind ≠ .symbol .leftParen
  /-- It is no dot. -/
  noDot : kind ≠ .symbol .dot

section Lone

variable {operand : Parser Expression} {start : Nat} {s₁ : ParserState}

/-- Where the expression ends, it is complete. -/
lemma run_complete (operand : Parser Expression) (start : Nat) (ends : Ends s.stream.kind) :
    (argumentsAfter start node >>= operatorsWith operand start).run s = .ok (node, s) := by
  have noArguments : s.stream.check (.symbol .leftParen) = false := by
    simpa using ends.noArguments ∘ check_symbol.1
  have arguments : (argumentsAfter start node).run s = .ok (node, s) := by
    rw [argumentsAfter, (looks_checkSymbol _).run_bind, noArguments]
    rfl
  rw [StateT.run_bind, arguments]
  show (operatorsWith operand start node).run s = _
  rw [operatorsWith, looks_checkComposite.run_bind, ends.noOperator]
  rfl

/-- An expression is what its reference gives, where it ends after that. -/
lemma run_expressionWith (ends : Ends s₁.stream.kind)
    (read : (primaryWith operand >>= referenceWith operand rules s.stream.offset).run s =
      .ok (node, s₁)) :
    ∃ span, (expressionWith operand rules).run s = .ok (⟨node, span⟩, s₁) := by
  obtain ⟨first, s₀, primary, reference⟩ := run_bind_ok.1 read
  obtain ⟨second, s₂, arguments, operators⟩ :=
    run_bind_ok.1 (run_complete operand s.stream.offset ends)
  refine ⟨⟨s.stream.offset, s₁.stream.previousEnd⟩, ?_⟩
  rw [expressionWith, looks_offset.run_bind]
  refine run_bind_ok.2 ⟨first, s₀, primary, ?_⟩
  refine run_bind_ok.2 ⟨node, s₁, reference, ?_⟩
  refine run_bind_ok.2 ⟨second, s₂, arguments, ?_⟩
  exact run_bind_ok.2 ⟨node, s₁, operators, rfl⟩

/-- A number after a sign is read. -/
lemma run_signedWith {literal : String} (sign : String)
    (next : s.stream.peek = .number literal) :
    (signedWith operand start sign).run s = .ok (.number (sign ++ literal), s.advance.advance) := by
  rw [signedWith, looks_peek.run_bind, next]
  rfl

/-- A lone shape other than a qualified reference is the first part of an expression. -/
lemma run_primaryWith {rest : List Token} (operand : Parser Expression)
    (lone : Lone s.stream.source s.context.parameters tokens node)
    (short : ∀ owner name, node ≠ .qualified owner name)
    (ahead : s.stream.ahead = tokens ++ rest) :
    ∃ s₁, (primaryWith operand).run s = .ok (node, s₁) ∧
      s₁.stream = s.stream.advanceBy tokens.length := by
  have same : s.stream.kind = (tokens.headD s.stream.current).kind := by
    cases lone <;> exact kind_of_ahead_cons ahead
  rw [primaryWith, looks_offset.run_bind, looks_kind.run_bind, same]
  cases lone with
  | text value span => exact ⟨s.advance, rfl, rfl⟩
  | number literal span => exact ⟨s.advance, rfl, rfl⟩
  | positive literal sign span =>
    have next : s.stream.peek = .number literal := by simp [TokenStream.peek, peekNth, ahead]
    refine ⟨s.advance.advance, ?_, rfl⟩
    show (signedWith operand _ "").run s = _
    rw [run_signedWith "" next, String.empty_append]
  | negative literal sign span =>
    have next : s.stream.peek = .number literal := by simp [TokenStream.peek, peekNth, ahead]
    exact ⟨s.advance.advance, run_signedWith "-" next, rfl⟩
  | placeholder span => exact ⟨⟨s.stream.advance, s.context.passParameters 1⟩, rfl, rfl⟩
  | bare name span => exact ⟨s.advance, rfl, rfl⟩
  | qualified owner name span dot token named noStar => exact absurd rfl (short owner name)

/-- The name of a column is read without passing it. -/
lemma run_columnName {name : String}
    (named : columnName? s.stream.source s.stream.current = some name) :
    columnName.run s = .ok (name, s) := by
  rw [columnName, looks_current.run_bind]
  unfold columnName? at named
  split at named
  · rename_i found same
    rw [same, ← Option.some.inj named]
    rfl
  · rename_i keyword same
    rw [same, ← Option.some.inj named]
    rfl
  · cases named

/-- Recording an owner always succeeds. -/
lemma exists_run_recordOwner (rules : ShardingRule) (owner : String) (span : Span)
    (s : ParserState) : ∃ s₁, (recordOwner rules owner span).run s = .ok ((), s₁) ∧
      s₁.stream = s.stream := by
  unfold recordOwner
  split
  · exact ⟨_, rfl, rfl⟩
  · exact ⟨s, rfl, rfl⟩

/-- A qualified reference is read after its owner, where the expression ends after it. -/
lemma run_referenceWith {owner name : String} {token : Token} {rest : List Token}
    (same : s.stream.kind = .symbol .dot) (ahead : s.stream.advance.ahead = token :: rest)
    (named : columnName? s.stream.source token = some name) (noStar : name ≠ "*")
    (ends : Ends s.stream.advance.advance.kind) :
    ∃ s₁, (referenceWith operand rules start (.bare owner)).run s =
        .ok (.qualified owner name, s₁) ∧
      s₁.stream = s.stream.advance.advance := by
  have current : s.advance.stream.current = token := by
    simp [ParserState.advance, TokenStream.current, ahead]
  have isName : columnName.run s.advance = .ok (name, s.advance) :=
    run_columnName (by rw [current]; exact named)
  obtain ⟨s₁, recorded, kept⟩ := exists_run_recordOwner rules owner
    ⟨start, s.stream.current.span.start⟩ s.advance.advance
  have stream : s₁.stream = s.stream.advance.advance := kept
  refine ⟨s₁, ?_, stream⟩
  have alone : (s₁.stream.kind.isComposite || name == "*") = false := by
    have noOperator := ends.noOperator
    rw [← stream] at noOperator
    simp [noStar, noOperator]
  have dotted : s.stream.check (.symbol .dot) = true := check_symbol.2 same
  rw [referenceWith, (looks_checkSymbol _).run_bind, dotted, if_pos rfl, run_advance_bind]
  refine run_bind_ok.2 ⟨name, s.advance, isName, ?_⟩
  rw [run_advance_bind]
  refine run_bind_ok.2 ⟨(), s₁, recorded, ?_⟩
  rw [looks_checkComposite.run_bind, alone]
  rfl

/-- A shape other than a name alone is no start of a reference. -/
lemma run_referenceWith_of_ne (shaped : ∀ owner, node ≠ .bare owner) :
    (referenceWith operand rules start node).run s = .ok (node, s) := by
  unfold referenceWith
  split
  · exact absurd rfl (shaped _)
  · rfl

/-- A name without a dot after it is the whole reference. -/
lemma run_referenceWith_bare {name : String} (ends : Ends s.stream.kind) :
    (referenceWith operand rules start (.bare name)).run s = .ok (.bare name, s) := by
  have noDot : s.stream.check (.symbol .dot) = false := by
    simpa using ends.noDot ∘ check_symbol.1
  rw [referenceWith, (looks_checkSymbol _).run_bind, noDot]
  rfl

end Lone

/-- The reference of a lone shape is read, where the expression ends after it. -/
lemma run_reference_of_lone (rules : ShardingRule) {next : Token} {rest : List Token}
    (operand : Parser Expression)
    (lone : Lone s.stream.source s.context.parameters tokens node)
    (ahead : s.stream.ahead = tokens ++ next :: rest) (ends : Ends next.kind) :
    ∃ s₁, (primaryWith operand >>= referenceWith operand rules s.stream.offset).run s =
        .ok (node, s₁) ∧
      s₁.stream = s.stream.advanceBy tokens.length := by
  by_cases long : ∃ owner name, node = .qualified owner name
  · obtain ⟨owner, name, rfl⟩ := long
    cases lone with
    | qualified _ _ span dot token named noStar =>
      -- the owner is read as a name alone, and the rest of the reference follows
      have bare : Lone s.stream.source s.context.parameters [⟨.identifier owner, span⟩]
        (.bare owner) := .bare owner span
      obtain ⟨s₁, primary, stream⟩ := run_primaryWith operand bare (by simp) ahead
      have left : s₁.stream.ahead = [⟨.symbol .dot, dot⟩, token] ++ next :: rest := by
        rw [stream, ahead_advanceBy, ahead]
        rfl
      have source : s₁.stream.source = s.stream.source := by rw [stream, source_advanceBy]
      have second : s₁.stream.advance.ahead = token :: next :: rest := by
        rw [TokenStream.advance, left]
        rfl
      have last : s₁.stream.advance.advance.ahead = next :: rest := by
        rw [TokenStream.advance, second]
        rfl
      rw [← source] at named
      obtain ⟨s₂, reference, stream'⟩ := run_referenceWith (kind_of_ahead_cons left) second named
        noStar (kind_of_ahead_cons last ▸ ends)
      exact ⟨s₂, run_bind_ok.2 ⟨_, s₁, primary, reference⟩, by rw [stream', stream]; rfl⟩
  · have short (owner name : String) : node ≠ .qualified owner name :=
      fun same => long ⟨owner, name, same⟩
    obtain ⟨s₁, primary, stream⟩ := run_primaryWith operand lone short ahead
    have left : s₁.stream.ahead = next :: rest := by
      rw [stream, ahead_advanceBy, ahead, List.drop_left]
    refine ⟨s₁, run_bind_ok.2 ⟨node, s₁, primary, ?_⟩, stream⟩
    by_cases named : ∃ name, node = .bare name
    · obtain ⟨name, rfl⟩ := named
      exact run_referenceWith_bare (kind_of_ahead_cons left ▸ ends)
    · exact run_referenceWith_of_ne fun name same => named ⟨name, same⟩

/-- Tokens that write a lone shape are read as that shape, where the expression ends after them.

**Proof sketch.** The tokens are seen one after the other up to the end of a reference, and nothing
is left to go on with. -/
lemma expression_of_lone (rules : ShardingRule) {next : Token} {rest : List Token}
    (lone : Lone s.stream.source s.context.parameters tokens node)
    (ahead : s.stream.ahead = tokens ++ next :: rest) (ends : Ends next.kind) :
    ∃ e s', (expression rules).run s = .ok (e, s') ∧ e.node = node ∧
      s'.stream.ahead = next :: rest := by
  obtain ⟨n, remaining⟩ : ∃ n, s.stream.remaining = n + 1 :=
    ⟨(tokens ++ rest).length, by simp [TokenStream.remaining, ahead, Nat.add_assoc]⟩
  obtain ⟨s₁, read, stream⟩ :=
    run_reference_of_lone rules (expressionUpTo rules n) lone ahead ends
  have ahead' : s₁.stream.ahead = next :: rest := by
    rw [stream, ahead_advanceBy, ahead, List.drop_left]
  have same := kind_of_ahead_cons ahead'
  obtain ⟨span, success⟩ := run_expressionWith (same ▸ ends) read
  refine ⟨⟨node, span⟩, s₁, ?_, rfl, ahead'⟩
  rw [expression, looks_remaining.run_bind, remaining]
  exact success

/-! ## Aliases -/

/-- An alias passes tokens that write it. -/
lemma aliasName_reads {name : Option String} (success : aliasName.run s = .ok (name, s')) :
    ∃ tokens, AliasTokens s.stream.source tokens name ∧ Run Context.EditsOnly s tokens s' := by
  rw [aliasName, run_skipKeyword_bind] at success
  split at success
  · rename_i present
    obtain ⟨keyword, isAs, word⟩ := checkAnyKeyword_iff.1 present
    obtain rfl := List.mem_singleton.1 isAs
    have first : Run Context.EditsOnly s _ s.advance := run_token word
    rw [if_pos rfl, looks_current.run_bind] at success
    split at success
    · rename_i found same
      rw [run_advance_bind, run_pure_ok] at success
      obtain ⟨rfl, rfl⟩ := success
      exact ⟨_, .name found _ _, first.trans (run_token same)⟩
    · rename_i value same
      rw [run_advance_bind, run_pure_ok] at success
      obtain ⟨rfl, rfl⟩ := success
      exact ⟨_, .text value _ _, first.trans (run_token same)⟩
    · rename_i keyword same
      rw [run_advance_bind, (looks_textOf _).run_bind, run_pure_ok] at success
      obtain ⟨rfl, rfl⟩ := success
      exact ⟨_, .keyword keyword _ _, first.trans (run_token same)⟩
    · exact absurd success run_unexpected_ne
  · rw [if_neg (by simp), looks_kind.run_bind] at success
    split at success
    · rename_i found same
      rw [run_advance_bind, run_pure_ok] at success
      obtain ⟨rfl, rfl⟩ := success
      exact ⟨_, .bare found _, run_token same⟩
    · obtain ⟨rfl, rfl⟩ := run_pure_ok.1 success
      exact ⟨[], .nil, .refl s⟩

/-- An alias is passed by a run. -/
lemma runs_aliasName : Runs Context.EditsOnly aliasName := by
  intro s name s' _ success
  obtain ⟨tokens, -, run⟩ := aliasName_reads success
  exact ⟨tokens, run⟩

end SqlRouting.Grammar
