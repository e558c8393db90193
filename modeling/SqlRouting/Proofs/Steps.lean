import SqlRouting.Proofs.Move

/-!
# The steps of a parser

What each of the steps that the grammar is built from does in a given state: the steps that only
look give what they see and leave the state, and the others succeed under a condition on the
current token and leave a state that is known.

## Main definitions

* `SqlRouting.ParserState.advance` — the state after the current token.
* `SqlRouting.Parser.Looks` — a parser that only looks, with what it sees.

## Main results

* `SqlRouting.Parser.run_bind_ok` — a sequence succeeds exactly if its parts do.
* `SqlRouting.Parser.run_skipGroup_ok` — a group is passed exactly if it is balanced.
-/

set_option autoImplicit false

namespace SqlRouting

open TokenStream

/-! ## The current token -/

/-- A kind agrees with a symbol exactly if it is that symbol. -/
lemma TokenKind.sameClass_symbol {kind : TokenKind} {symbol : Symbol} :
    kind.sameClass (.symbol symbol) = true ↔ kind = .symbol symbol := by
  cases kind <;> simp [sameClass]

namespace TokenStream

variable {stream : TokenStream} {kind : TokenKind}

/-- The end of the input is of its own kind. -/
lemma kind_of_ahead_nil (noneLeft : stream.ahead = []) : stream.kind = .endOfInput := by
  simp [TokenStream.kind, current, noneLeft, ending]

/-- The kind of a stream is that of the first token left. -/
lemma kind_of_ahead_cons {token : Token} {rest : List Token}
    (ahead : stream.ahead = token :: rest) : stream.kind = token.kind := by
  simp [TokenStream.kind, current, ahead]

/-- A stream whose kind is not the end of the input has a token left, of this kind. -/
lemma ahead_of_kind (same : stream.kind = kind) (notEnd : kind ≠ .endOfInput) :
    stream.ahead = ⟨kind, stream.current.span⟩ :: stream.advance.ahead := by
  cases ahead : stream.ahead with
  | nil => exact absurd (kind_of_ahead_nil ahead ▸ same).symm notEnd
  | cons token rest =>
    have read := kind_of_ahead_cons ahead
    simp [advance, current, ahead, ← same, read]

/-- A stream of some kind other than the end of the input has tokens left. -/
lemma remaining_pos (same : stream.kind = kind) (notEnd : kind ≠ .endOfInput) :
    0 < stream.remaining := by
  rw [remaining, ahead_of_kind same notEnd]
  simp

/-- The kind after the current token is the one seen by looking ahead. -/
lemma kind_advance : stream.advance.kind = stream.peek := by
  rw [peek, peekNth, TokenStream.kind, current, advance]
  rcases stream.ahead with - | ⟨first, - | ⟨second, rest⟩⟩ <;> rfl

/-- The kind after the next two tokens is the one seen by looking ahead. -/
lemma kind_advance_advance : stream.advance.advance.kind = stream.peekNth 2 := by
  rw [peekNth, TokenStream.kind, current, advance, advance]
  rcases stream.ahead with - | ⟨first, - | ⟨second, - | ⟨third, rest⟩⟩⟩ <;> rfl

/-- After the current token there are no more tokens left than before. -/
lemma remaining_advance_le : stream.advance.remaining ≤ stream.remaining := by
  rw [remaining, remaining, advance, List.length_tail]
  omega

/-- The current token agrees with a symbol exactly if it is that symbol. -/
lemma check_symbol {symbol : Symbol} :
    stream.check (.symbol symbol) = true ↔ stream.kind = .symbol symbol :=
  TokenKind.sameClass_symbol

/-- The current token is a keyword exactly if its kind says so. -/
lemma checkKeyword_iff {keyword : Keyword} :
    stream.checkKeyword keyword = true ↔ stream.kind = .keyword keyword := by
  simp [checkKeyword]

/-- The current token is a keyword out of some exactly if its kind is one of them. -/
lemma checkAnyKeyword_iff {keywords : List Keyword} :
    stream.checkAnyKeyword keywords = true ↔ ∃ k ∈ keywords, stream.kind = .keyword k := by
  unfold checkAnyKeyword
  cases stream.kind <;> simp [TokenKind.isKeywordIn]

end TokenStream

namespace Parser

variable {α β : Type} {s s' : ParserState}

/-! ## Sequences -/

/-- A sequence succeeds exactly if its parts do, one after the other. -/
lemma run_bind_ok {p : Parser α} {f : α → Parser β} {result : β × ParserState} :
    (p >>= f).run s = .ok result ↔
      ∃ a s₁, p.run s = .ok (a, s₁) ∧ (f a).run s₁ = .ok result := by
  rw [StateT.run_bind]
  cases p.run s with
  | error error => simp [bind, Except.bind]
  | ok read =>
    obtain ⟨a, s₁⟩ := read
    constructor
    · exact fun h => ⟨a, s₁, rfl, h⟩
    · rintro ⟨a', s₁', same, h⟩
      cases same
      exact h

/-- Giving a value leaves the state as it is. -/
lemma run_pure_ok {a b : α} : (pure a : Parser α).run s = .ok (b, s') ↔ a = b ∧ s = s' := by
  rw [StateT.run_pure]
  simp [pure, Except.pure]

/-- What each step of a loop keeps is kept by the loop. -/
lemma run_foldlM_keeps {step : β → α → Parser β} {P : β → ParserState → Prop} {as : List α}
    (kept : ∀ a ∈ as, ∀ b b' s s', P b s → (step b a).run s = .ok (b', s') → P b' s')
    {b b' : β} (holds : P b s) (success : (as.foldlM step b).run s = .ok (b', s')) : P b' s' := by
  induction as generalizing b s with
  | nil =>
    obtain ⟨rfl, rfl⟩ := run_pure_ok.1 success
    exact holds
  | cons a as ih =>
    obtain ⟨now, later⟩ := List.forall_mem_cons.1 kept
    rw [List.foldlM_cons] at success
    obtain ⟨b₁, s₁, first, rest⟩ := run_bind_ok.1 success
    exact ih later (now _ _ _ _ holds first) rest

/-- A result that needs no state succeeds exactly if it is a value. -/
lemma run_lift_ok {result : Except ParseError α} {a : α} :
    (liftM result : Parser α).run s = .ok (a, s') ↔ result = .ok a ∧ s = s' := by
  cases result with
  | error error => exact ⟨fun h => (by cases h), fun h => (by cases h.1)⟩
  | ok value =>
    constructor
    · intro h
      cases h
      exact ⟨rfl, rfl⟩
    · rintro ⟨h, rfl⟩
      cases h
      rfl

/-- A step of the stream succeeds exactly if it does on the stream of the state. -/
lemma run_ofStream_ok {step : TokenStream → Except ParseError α × TokenStream} {a : α} :
    (ofStream step).run s = .ok (a, s') ↔
      ∃ stream, step s.stream = (.ok a, stream) ∧ s' = { s with stream } := by
  simp only [ofStream, StateT.run]
  rcases step s.stream with ⟨error | value, stream⟩
  · simp
  · constructor
    · intro h
      cases h
      exact ⟨stream, rfl, rfl⟩
    · rintro ⟨stream', same, rfl⟩
      cases same
      rfl

/-! ## Steps that look -/

/-- The parser `p` only looks, and sees `value`. -/
def Looks (p : Parser α) (value : ParserState → α) : Prop :=
  ∀ s, p.run s = .ok (value s, s)

/-- A sequence that starts with looking goes on from the same state. -/
lemma Looks.run_bind {p : Parser α} {value : ParserState → α} (looks : Looks p value)
    (f : α → Parser β) (s : ParserState) : (p >>= f).run s = (f (value s)).run s := by
  rw [StateT.run_bind, looks s]
  rfl

lemma looks_stream : Looks stream (·.stream) := fun _ => rfl

lemma looks_current : Looks current (·.stream.current) := fun _ => rfl

lemma looks_kind : Looks kind (·.stream.kind) := fun _ => rfl

lemma looks_peek : Looks peek (·.stream.peek) := fun _ => rfl

lemma looks_offset : Looks offset (·.stream.offset) := fun _ => rfl

lemma looks_previousEnd : Looks previousEnd (·.stream.previousEnd) := fun _ => rfl

lemma looks_remaining : Looks remaining (·.stream.remaining) := fun _ => rfl

lemma looks_context : Looks context (·.context) := fun _ => rfl

lemma looks_checkSymbol (symbol : Symbol) :
    Looks (checkSymbol symbol) (·.stream.check (.symbol symbol)) := fun _ => rfl

lemma looks_checkKeyword (keyword : Keyword) :
    Looks (checkKeyword keyword) (·.stream.checkKeyword keyword) := fun _ => rfl

lemma looks_checkComposite : Looks checkComposite (·.stream.kind.isComposite) := fun _ => rfl

lemma looks_checkQueryInParentheses :
    Looks checkQueryInParentheses fun s =>
      s.stream.check (.symbol .leftParen) && s.stream.peek == .keyword .SELECT := fun _ => rfl

lemma looks_textOf (span : Span) : Looks (textOf span) (span.text ·.stream.source) := fun _ => rfl

lemma looks_textFrom (start : Nat) :
    Looks (textFrom start) fun s =>
      Text.trimmed (s.stream.slice start s.stream.previousEnd) := fun _ => rfl

/-! ## Steps that move -/

/-- A sequence that starts with advancing goes on after the current token. -/
lemma run_advance_bind (f : Token → Parser β) :
    (advance >>= f).run s = (f s.stream.current).run s.advance := rfl

/-- A symbol is skipped if it is there. -/
lemma run_skipSymbol (symbol : Symbol) :
    (skipSymbol symbol).run s =
      if s.stream.kind = .symbol symbol then .ok (true, s.advance) else .ok (false, s) := by
  simp only [skipSymbol, ofTest, ofStream, StateT.run, TokenStream.skipIf, check_symbol]
  split <;> rfl

/-- A sequence that starts with skipping a symbol goes on after it if it is there. -/
lemma run_skipSymbol_bind (symbol : Symbol) (f : Bool → Parser β) :
    (skipSymbol symbol >>= f).run s =
      if s.stream.kind = .symbol symbol then (f true).run s.advance else (f false).run s := by
  rw [StateT.run_bind, run_skipSymbol]
  split <;> rfl

/-- A keyword is skipped if it is one of those wanted. -/
lemma run_skipKeyword (keywords : List Keyword) :
    (skipKeyword keywords).run s =
      if s.stream.checkAnyKeyword keywords then .ok (true, s.advance) else .ok (false, s) := by
  simp only [skipKeyword, ofTest, ofStream, StateT.run, TokenStream.skipIfKeyword]
  split <;> rfl

/-- A sequence that starts with skipping a keyword goes on after it if it is one of those wanted. -/
lemma run_skipKeyword_bind (keywords : List Keyword) (f : Bool → Parser β) :
    (skipKeyword keywords >>= f).run s =
      if s.stream.checkAnyKeyword keywords then (f true).run s.advance else (f false).run s := by
  rw [StateT.run_bind, run_skipKeyword]
  split <;> rfl

/-- A step that passes the current token if `c` holds, and fails otherwise, succeeds exactly if `c`
holds. -/
lemma run_ofStream_ite_ok {step : TokenStream → Except ParseError α × TokenStream} {c : Prop}
    [Decidable c] {a value : α} {error : ParseError}
    (does : step s.stream =
      if c then (.ok value, s.stream.advance) else (.error error, s.stream)) :
    (ofStream step).run s = .ok (a, s') ↔ c ∧ a = value ∧ s' = s.advance := by
  rw [run_ofStream_ok, does]
  by_cases present : c
  · rw [if_pos present]
    constructor
    · rintro ⟨stream, same, rfl⟩
      cases same
      exact ⟨present, rfl, rfl⟩
    · rintro ⟨-, rfl, rfl⟩
      exact ⟨_, rfl, rfl⟩
  · simp [present]

/-- A symbol is accepted exactly if it is there. -/
lemma run_acceptSymbol_ok {symbol : Symbol} {token : Token} :
    (acceptSymbol symbol).run s = .ok (token, s') ↔
      s.stream.kind = .symbol symbol ∧ token = s.stream.current ∧ s' = s.advance := by
  rw [acceptSymbol, run_ofStream_ite_ok (c := s.stream.check (.symbol symbol) = true) rfl,
    check_symbol]

/-- A keyword is accepted exactly if it is there. -/
lemma run_acceptKeyword_ok {keyword : Keyword} {token : Token} :
    (acceptKeyword keyword).run s = .ok (token, s') ↔
      s.stream.kind = .keyword keyword ∧ token = s.stream.current ∧ s' = s.advance := by
  rw [acceptKeyword, run_ofStream_ite_ok (c := s.stream.checkKeyword keyword = true) rfl,
    checkKeyword_iff]

/-- A name is accepted exactly if it is there. -/
lemma run_acceptIdentifier_ok {name : String} {span : Span} :
    acceptIdentifier.run s = .ok ((name, span), s') ↔
      s.stream.kind = .identifier name ∧ span = s.stream.current.span ∧ s' = s.advance := by
  rw [acceptIdentifier, run_ofStream_ok]
  unfold TokenStream.acceptIdentifier
  cases s.stream.kind with
  | identifier found =>
    constructor
    · rintro ⟨stream, same, rfl⟩
      cases same
      exact ⟨rfl, rfl, rfl⟩
    · rintro ⟨same, rfl, rfl⟩
      cases same
      exact ⟨_, rfl, rfl⟩
  | _ => simp

/-- A sequence that starts with a change of the context goes on in that context. -/
lemma run_modifyContext_bind (change : Context → Context) (f : Unit → Parser β) :
    (modifyContext change >>= f).run s = (f ()).run { s with context := change s.context } := rfl

/-- A group is passed exactly if it is balanced. -/
lemma run_skipGroup_ok {brackets : Brackets} {result : Unit} :
    (skipGroup brackets).run s = .ok (result, s') ↔
      ∃ group rest, splitGroup? brackets 0 s.stream.ahead = some (group, rest) ∧
        s' = ⟨s.stream.advanceBy group.length, s.context.passParameters (placeholders group)⟩ := by
  rw [skipGroup, run_bind_ok]
  simp only [run_ofStream_ok, TokenStream.skipGroup]
  cases split : splitGroup? brackets 0 s.stream.ahead with
  | none => simp
  | some parts =>
    constructor
    · rintro ⟨count, s₁, ⟨stream, same, rfl⟩, counted⟩
      cases same
      cases counted
      exact ⟨_, _, rfl, rfl⟩
    · rintro ⟨group, rest, same, rfl⟩
      cases same
      exact ⟨_, _, ⟨_, rfl, rfl⟩, rfl⟩

/-- Skipping parentheses is skipping a group at an opening parenthesis, and nothing elsewhere. -/
lemma run_skipParentheses :
    skipParentheses.run s =
      if s.stream.kind = .symbol .leftParen then (skipGroup .parentheses).run s else .ok ((), s) := by
  by_cases present : s.stream.kind = .symbol .leftParen
  · have opened : s.stream.skipParentheses = s.stream.skipGroup .parentheses := by
      rw [TokenStream.skipParentheses, if_pos (check_symbol.2 present)]
    rw [if_pos present, skipParentheses, skipGroup, StateT.run_bind, StateT.run_bind]
    simp only [ofStream, StateT.run, opened]
  · have unopened : s.stream.skipParentheses = (.ok 0, s.stream) := by
      rw [TokenStream.skipParentheses, if_neg (present ∘ check_symbol.1)]
    rw [if_neg present, skipParentheses, StateT.run_bind]
    simp only [ofStream, StateT.run, unopened]
    rfl

/-- Without an opening parenthesis nothing is skipped. -/
lemma run_skipParentheses_of_ne (absent : s.stream.kind ≠ .symbol .leftParen) {result : Unit}
    (h : skipParentheses.run s = .ok (result, s')) : s' = s := by
  rw [run_skipParentheses, if_neg absent] at h
  cases h
  rfl

/-- At an opening parenthesis, skipping parentheses is skipping a group. -/
lemma run_skipParentheses_of_eq (present : s.stream.kind = .symbol .leftParen) {result : Unit}
    (h : skipParentheses.run s = .ok (result, s')) :
    ∃ group rest, splitGroup? .parentheses 0 s.stream.ahead = some (group, rest) ∧
      s' = ⟨s.stream.advanceBy group.length, s.context.passParameters (placeholders group)⟩ := by
  rw [run_skipParentheses, if_pos present] at h
  exact run_skipGroup_ok.1 h

/-- Failing gives no result. -/
lemma run_unexpected_ne {expected : Expectation} {result : α × ParserState} :
    (unexpected expected : Parser α).run s ≠ .ok result := by
  intro h
  cases h

/-- Failing gives no result. -/
lemma run_unsupported_ne {construct : Construct} {span : Span} {result : α × ParserState} :
    (unsupported construct span : Parser α).run s ≠ .ok result := by
  intro h
  cases h

/-- Keywords that are not refused leave the state as it is. -/
lemma run_refuseKeywords_ok {keywords : List Keyword} {result : Unit}
    (h : (refuseKeywords keywords).run s = .ok (result, s')) : s' = s := by
  rw [refuseKeywords, run_bind_ok] at h
  obtain ⟨_, s₁, got, refused⟩ := h
  cases got
  exact (run_lift_ok.1 refused).2.symm

end Parser

end SqlRouting
