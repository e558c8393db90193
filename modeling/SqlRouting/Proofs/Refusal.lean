import SqlRouting.Proofs.Edges

/-!
# Refusals

A statement is refused at tokens of its text: at the current token, or at those of an expression read
before. If the current token is input that is no token, it is the first such input, because a parse
passes valid tokens only. The rules of this module follow the way parsers are built, so that this is
seen from the text of the parsers.

## Main definitions

* `SqlRouting.Lexer.Stretch` — a span from the start of a token to the end of it or of a later one.
* `SqlRouting.Refusal` — an error that names tokens of a text.
* `SqlRouting.Parser.Answers` — a parser that passes valid tokens, or fails with a refusal.

## Main results

* `SqlRouting.Refusal.stretch` — where a refusal points.
* `SqlRouting.Reaches.refusal_unexpected` — the refusal of the current token.
* `SqlRouting.Parser.AnswersFrom.bind`, `AnswersFrom.look`, `SqlRouting.Parser.Answers.commaSeparated` —
  sequences and lists of parsers that answer.
-/

set_option autoImplicit false

namespace SqlRouting

open TokenStream

/-! ## Places of tokens -/

/-- Whether a kind is input that is no token. -/
def TokenKind.isInvalid : TokenKind → Bool
  | .invalid _ => true
  | _ => false

/-- Nothing can be read at input that is no token. -/
lemma TokenKind.isInvalid_of_valid {kind : TokenKind} (valid : kind.isBroken = false) :
    kind.isInvalid = false := by
  cases kind <;> first | rfl | cases valid

/-- A span reaches from the start of a token of a text to the end of it or of a later one. -/
def Lexer.Stretch (text : String) (span : Span) : Prop :=
  ∃ before part after first last, tokenize text = before ++ part ++ after ∧
    part.head? = some first ∧ part.getLast? = some last ∧ span = ⟨first.span.start, last.span.stop⟩

/-- The span of a token is a stretch. -/
lemma Lexer.stretch_of_mem {text : String} {token : Token} (mem : token ∈ tokenize text) :
    Stretch text token.span := by
  obtain ⟨before, after, split⟩ := List.append_of_mem mem
  exact ⟨before, [token], after, token, token, by rw [split]; simp, rfl, rfl, rfl⟩

/-! ## Refusals -/

/-- An error that names tokens of a text. Input that is no token is named only where it comes first. -/
inductive Refusal (text : String) : ParseError → Prop
  /-- A required token is absent. -/
  | unexpected {expected : Expectation} {found : TokenKind} {span : Span}
      (place : Lexer.Stretch text span) : Refusal text (.unexpected expected found span)
  /-- A construct is not handled. -/
  | unsupported {construct : Construct} {span : Span} (place : Lexer.Stretch text span) :
      Refusal text (.unsupported construct span)
  /-- An expression names no column. -/
  | invalidColumn {found : String} {span : Span} (place : Lexer.Stretch text span) :
      Refusal text (.invalidColumn found span)
  /-- The first input that is no token is met. -/
  | lexical {reason : String} {span : Span}
      (first : (Lexer.tokenize text).find? (·.kind.isInvalid) = some ⟨.invalid reason, span⟩) :
      Refusal text (.lexical reason span)

/-- A refusal points at tokens of the text. -/
lemma Refusal.stretch {text : String} {error : ParseError} (h : Refusal text error) :
    Lexer.Stretch text error.span := by
  cases h with
  | unexpected place => exact place
  | unsupported place => exact place
  | invalidColumn place => exact place
  | lexical first => exact Lexer.stretch_of_mem (List.mem_of_find?_eq_some first)

/-! ## States of a parse -/

/-- The kind of the current token, where the token is known. -/
lemma kind_of_current {s : ParserState} {token : Token} {kind : TokenKind}
    (seen : s.stream.current = token) (same : token.kind = kind) : s.stream.kind = kind := by
  rw [TokenStream.kind, seen, same]

/-- The step past a valid token passes it. -/
lemma passes_advance {s : ParserState} (valid : s.stream.kind.isBroken = false) :
    Passes s s.advance := by
  refine ⟨[s.stream.current], List.forall_mem_singleton.2 valid, ?_, rfl⟩
  have notEnd : s.stream.kind ≠ .endOfInput := fun atEnd => by simp [atEnd, TokenKind.isBroken] at valid
  exact ahead_of_kind rfl notEnd

/-- A balanced group at the current token is passed. -/
lemma passes_group {s : ParserState} {brackets : Brackets} {group rest : List Token}
    (split : splitGroup? brackets 0 s.stream.ahead = some (group, rest)) (context : Context) :
    Passes s ⟨s.stream.advanceBy group.length, context⟩ := by
  refine ⟨group, Passage.valid_of_splitGroup split, ?_, rfl⟩
  obtain ⟨ahead, -⟩ := eq_append_of_splitGroup split
  rw [ahead_advanceBy, ahead, List.drop_left]

/-- The tokens up to the first one at which nothing can be read are passed. -/
lemma passes_valid (s : ParserState) : Passes s
    { s with stream := s.stream.advanceBy (s.stream.ahead.takeWhile (!·.kind.isBroken)).length } := by
  refine ⟨s.stream.ahead.takeWhile (!·.kind.isBroken), ?_, ?_, rfl⟩
  · exact fun token mem => by simpa using List.all_eq_true.1 List.all_takeWhile token mem
  · rw [ahead_advanceBy]
    exact (List.prefix_iff_eq_append.1 (List.takeWhile_prefix _)).symm

namespace Reaches

variable {text : String} {s s' : ParserState}

/-- The current token is a token of the text. -/
lemma current_mem_tokenize (h : Reaches text s) : s.stream.current ∈ Lexer.tokenize text := by
  obtain ⟨passed, whole⟩ := h.tokenize_eq
  obtain ⟨rest, left⟩ := h.current_mem
  rw [whole, left]
  simp

/-- If the current token is input that is no token, it is the first such input. -/
lemma find_invalid (h : Reaches text s) {reason : String} (invalid : s.stream.kind = .invalid reason) :
    (Lexer.tokenize text).find? (·.kind.isInvalid) = some ⟨.invalid reason, s.stream.current.span⟩ := by
  obtain ⟨passed, valid, split⟩ := h.exists_passed
  rw [ahead_of_kind invalid (by simp)] at split
  have before : passed.find? (·.kind.isInvalid) = none := by
    simpa using fun token mem => TokenKind.isInvalid_of_valid (valid token mem)
  rw [Lexer.tokenize, split, List.append_assoc, List.find?_append, before]
  rfl

/-- Meeting the current token where another one is required is a refusal. -/
lemma refusal_unexpected (h : Reaches text s) (expected : Expectation) :
    Refusal text (s.stream.unexpected expected) := by
  rw [TokenStream.unexpected]
  cases kind : s.stream.kind with
  | invalid reason => exact .lexical (h.find_invalid kind)
  | _ => exact .unexpected (Lexer.stretch_of_mem h.current_mem_tokenize)

/-- The tokens that an expression was read from are a stretch of the text. -/
lemma stretch_expression (h : Reaches text s) {rules : ShardingRule} {e : Expression}
    (success : (Grammar.expression rules).run s = .ok (e, s')) : Lexer.Stretch text e.span := by
  obtain ⟨part, operand, run, -⟩ := Grammar.expression_reads success
  have passes : Passes s s' :=
    Parser.Leads.related Grammar.leads_expression success
  obtain ⟨-, first, last, -, isFirst, isLast, start, stop, -⟩ :=
    h.exists_extract passes run.ahead_eq operand.ne_nil
  obtain ⟨passed, whole⟩ := h.tokenize_eq
  refine ⟨passed, part, s'.stream.ahead ++ [Lexer.ending text], first, last, ?_, isFirst, isLast, ?_⟩
  · rw [whole, run.ahead_eq, List.append_assoc, List.append_assoc]
  · rw [(Grammar.expression_text success).1, start, stop]

end Reaches

/-! ## Parsers that answer -/

namespace Parser

variable {α β : Type} {text : String} {start : ParserState → Prop} {s s' : ParserState}

/-- A sequence fails if one of its parts does. -/
lemma run_bind_error {p : Parser α} {f : α → Parser β} {error : ParseError} :
    (p >>= f).run s = .error error ↔
      p.run s = .error error ∨ ∃ a s₁, p.run s = .ok (a, s₁) ∧ (f a).run s₁ = .error error := by
  rw [StateT.run_bind]
  cases p.run s with
  | error other => simp [Bind.bind, Except.bind]
  | ok result => simp [Bind.bind, Except.bind, Prod.ext_iff]

/-- From the states of a parse of the text where `start` holds, `p` passes valid tokens, or fails with a
refusal. -/
structure AnswersFrom (text : String) (start : ParserState → Prop) (p : Parser α) : Prop where
  /-- A success passes valid tokens. -/
  passes {s s' : ParserState} {a : α} (reaches : Reaches text s) (holds : start s)
    (success : p.run s = .ok (a, s')) : Passes s s'
  /-- A failure is a refusal. -/
  refused {s : ParserState} {error : ParseError} (reaches : Reaches text s) (holds : start s)
    (failure : p.run s = .error error) : Refusal text error

/-- From the states of a parse of the text, `p` passes valid tokens, or fails with a refusal. -/
def Answers (text : String) (p : Parser α) : Prop :=
  AnswersFrom text (fun _ => True) p

namespace AnswersFrom

/-- A parser that answers does so from fewer states. -/
lemma weaken {p : Parser α} {before : ParserState → Prop} (h : AnswersFrom text before p)
    (implies : ∀ s, start s → before s) : AnswersFrom text start p where
  passes reaches holds := h.passes reaches (implies _ holds)
  refused reaches holds := h.refused reaches (implies _ holds)

/-- A parser that always succeeds answers if it passes valid tokens. -/
lemma of_leads {p : Parser α} (leads : LeadsFrom Passes start p)
    (succeeds : ∀ s error, p.run s ≠ .error error) : AnswersFrom text start p where
  passes _ holds := leads _ _ _ holds
  refused _ _ failure := absurd failure (succeeds _ _)

/-- Giving a value answers. -/
lemma pure (a : α) : AnswersFrom text start (pure a : Parser α) :=
  of_leads (.pure a) fun _ _ failure => nomatch failure

/-- A sequence answers if its parts do, where what is known of the result of the first part and of the
state behind it may be used. -/
lemma bindKnown {p : Parser α} {f : α → Parser β} (known : α → ParserState → Prop)
    (hp : AnswersFrom text start p)
    (knows : ∀ s a s', Reaches text s → start s → p.run s = .ok (a, s') → known a s')
    (hf : ∀ a, AnswersFrom text (known a) (f a)) : AnswersFrom text start (p >>= f) where
  passes {s s' b} reaches holds success := by
    obtain ⟨a, s₁, first, second⟩ := run_bind_ok.1 success
    have before := hp.passes reaches holds first
    have now := knows s a s₁ reaches holds first
    exact Steady.trans before ((hf a).passes (reaches.passes before) now second)
  refused {s error} reaches holds failure := by
    rcases run_bind_error.1 failure with first | ⟨a, s₁, first, second⟩
    · exact hp.refused reaches holds first
    · have before := hp.passes reaches holds first
      exact (hf a).refused (reaches.passes before) (knows s a s₁ reaches holds first) second

/-- A sequence answers if its parts do. -/
lemma bind {p : Parser α} {f : α → Parser β} (hp : AnswersFrom text start p)
    (hf : ∀ a, Answers text (f a)) : AnswersFrom text start (p >>= f) :=
  .bindKnown (fun _ _ => True) hp (fun _ _ _ _ _ _ => trivial) hf

/-- What is seen by looking is known of the state from which a sequence goes on. -/
lemma look {p : Parser α} {value : ParserState → α} {f : α → Parser β} (looks : Looks p value)
    (hf : ∀ a, AnswersFrom text (fun s => start s ∧ value s = a) (f a)) :
    AnswersFrom text start (p >>= f) where
  passes {s s' b} reaches holds success := by
    rw [looks.run_bind] at success
    exact (hf _).passes reaches ⟨holds, rfl⟩ success
  refused {s error} reaches holds failure := by
    rw [looks.run_bind] at failure
    exact (hf _).refused reaches ⟨holds, rfl⟩ failure

/-- Looking answers. -/
lemma looks {p : Parser α} {value : ParserState → α} (looks : Looks p value) :
    AnswersFrom text start p :=
  .of_leads (fun s a s' _ success => by rw [looks s] at success; cases success; exact Steady.refl s)
    fun s error failure => by rw [looks s] at failure; cases failure

/-- A choice answers if both of its sides do. -/
lemma ite {c : Prop} [Decidable c] {p q : Parser α} (hp : c → AnswersFrom text start p)
    (hq : ¬ c → AnswersFrom text start q) : AnswersFrom text start (if c then p else q) := by
  split
  · exact hp ‹_›
  · exact hq ‹_›

end AnswersFrom

/-- A parser that answers does so from any states. -/
lemma Answers.answersFrom {p : Parser α} (h : Answers text p) : AnswersFrom text start p :=
  h.weaken fun _ _ => trivial

/-- A sequence answers if its parts do. -/
lemma Answers.bind {p : Parser α} {f : α → Parser β} (hp : Answers text p)
    (hf : ∀ a, Answers text (f a)) : AnswersFrom text start (p >>= f) :=
  hp.answersFrom.bind hf

/-! ## Failing -/

/-- Failing at the current token is a refusal. -/
lemma answers_unexpected (expected : Expectation) :
    AnswersFrom text start (@unexpected α expected) where
  passes _ _ success := absurd success run_unexpected_ne
  refused reaches _ failure := by
    cases failure
    exact reaches.refusal_unexpected expected

/-- Refusing a construct at tokens of the text is a refusal. -/
lemma answers_unsupported (construct : Construct) {span : Span}
    (place : ∀ s, Reaches text s → start s → Lexer.Stretch text span) :
    AnswersFrom text start (@unsupported α construct span) where
  passes _ _ success := absurd success run_unsupported_ne
  refused reaches holds failure := by
    cases failure
    exact .unsupported (place _ reaches holds)

/-- A result that needs no state answers if its error is a refusal. -/
lemma answers_lift {result : Except ParseError α}
    (refused : ∀ s error, Reaches text s → start s → result = .error error → Refusal text error) :
    AnswersFrom text start (liftM result : Parser α) where
  passes _ holds := leads_lift result _ _ _ holds
  refused {s error} reaches holds failure := by
    cases result with
    | error other =>
      cases failure
      exact refused s error reaches holds rfl
    | ok a => cases failure

/-- Refusing keywords is a refusal of the current token. -/
lemma answers_refuseKeywords (keywords : List Keyword) :
    AnswersFrom text start (refuseKeywords keywords) := by
  have looks : Looks get id := fun _ => rfl
  refine .look looks fun current => answers_lift fun s error reaches seen refused => ?_
  obtain rfl : s = current := seen.2
  unfold TokenStream.refuseKeywords at refused
  split at refused
  · split at refused
    · cases refused
      exact .unsupported (Lexer.stretch_of_mem reaches.current_mem_tokenize)
    · cases refused
  · cases refused

/-! ## Moving -/

/-- Passing a valid token answers. -/
lemma answers_advance (valid : ∀ s, start s → s.stream.kind.isBroken = false) :
    AnswersFrom text start advance := by
  refine .of_leads (fun s token s' holds success => ?_) fun _ _ failure => nomatch failure
  cases success
  exact passes_advance (valid s holds)

/-- A sequence that starts with passing a token of a valid kind answers if it goes on so. -/
lemma AnswersFrom.pass {kind : TokenKind} {f : Token → Parser α}
    (same : ∀ s, start s → s.stream.kind = kind) (valid : kind.isBroken = false)
    (rest : ∀ token, Answers text (f token)) : AnswersFrom text start (Parser.advance >>= f) :=
  .bind (answers_advance fun s holds => same s holds ▸ valid) rest

/-- A sequence that starts with passing a valid token answers, where what is known in front of the token
may be used behind it. -/
lemma AnswersFrom.advance_bind {f : Token → Parser α}
    (valid : ∀ s, start s → s.stream.kind.isBroken = false)
    (hf : ∀ token, AnswersFrom text (fun s' => ∃ s, start s ∧ s' = s.advance) (f token)) :
    AnswersFrom text start (advance >>= f) :=
  .bindKnown (fun _ s' => ∃ s, start s ∧ s' = s.advance) (answers_advance valid)
    (fun s _ _ _ holds success => by cases success; exact ⟨s, holds, rfl⟩) hf

/-- Skipping a symbol answers. -/
lemma answers_skipSymbol (symbol : Symbol) : AnswersFrom text start (skipSymbol symbol) := by
  refine .of_leads (fun s found s' _ success => ?_) fun s error failure => ?_
  · rw [run_skipSymbol] at success
    split at success
    · cases success
      exact passes_advance (by simp [*, TokenKind.isBroken])
    · cases success
      exact Steady.refl s
  · rw [run_skipSymbol] at failure
    split at failure <;> cases failure

/-- Skipping a keyword answers. -/
lemma answers_skipKeyword (keywords : List Keyword) : AnswersFrom text start (skipKeyword keywords) := by
  refine .of_leads (leads_skipKeyword keywords) fun s error failure => ?_
  rw [run_skipKeyword] at failure
  split at failure <;> cases failure

/-- Skipping keywords one after the other answers. -/
lemma answers_skipAllKeywords (keywords : List Keyword) :
    AnswersFrom text start (skipAllKeywords keywords) :=
  .of_leads (leads_skipAllKeywords keywords) fun _ _ failure => nomatch failure

/-- A step of the stream fails with its error. -/
lemma run_ofStream_error {step : TokenStream → Except ParseError α × TokenStream} {error : ParseError}
    (failure : (ofStream step).run s = .error error) :
    ∃ stream, step s.stream = (.error error, stream) := by
  simp only [StateT.run, ofStream] at failure
  split at failure
  · cases failure
  · cases failure
    exact ⟨_, ‹_›⟩

/-- A step that passes the current token, or else fails because of it, answers. -/
lemma answers_ofStream {step : TokenStream → Except ParseError α × TokenStream}
    (accepts : ∀ stream, (stream.kind.isBroken = false ∧ ∃ a, step stream = (.ok a, stream.advance)) ∨
      ∃ expected, step stream = (.error (stream.unexpected expected), stream)) :
    AnswersFrom text start (ofStream step) where
  passes {s s' a} _ _ success := by
    obtain ⟨stream, moved, rfl⟩ := run_ofStream_ok.1 success
    rcases accepts s.stream with ⟨valid, b, same⟩ | ⟨expected, same⟩
    · rw [same] at moved
      cases moved
      exact passes_advance valid
    · rw [same] at moved
      cases moved
  refused {s error} reaches _ failure := by
    obtain ⟨stream, failed⟩ := run_ofStream_error failure
    rcases accepts s.stream with ⟨valid, b, same⟩ | ⟨expected, same⟩
    · rw [same] at failed
      cases failed
    · rw [same] at failed
      cases failed
      exact reaches.refusal_unexpected expected

/-- Accepting a symbol answers. -/
lemma answers_acceptSymbol (symbol : Symbol) : AnswersFrom text start (acceptSymbol symbol) := by
  refine answers_ofStream fun stream => ?_
  rw [accept]
  split
  · rename_i present
    rw [check_symbol] at present
    exact .inl ⟨by rw [present]; rfl, _, rfl⟩
  · exact .inr ⟨_, rfl⟩

/-- Accepting a keyword answers. -/
lemma answers_acceptKeyword (keyword : Keyword) : AnswersFrom text start (acceptKeyword keyword) := by
  refine answers_ofStream fun stream => ?_
  rw [TokenStream.acceptKeyword]
  split
  · rename_i present
    rw [checkKeyword_iff] at present
    exact .inl ⟨by rw [present]; rfl, _, rfl⟩
  · exact .inr ⟨_, rfl⟩

/-- Accepting a name answers. -/
lemma answers_acceptIdentifier : AnswersFrom text start acceptIdentifier := by
  refine answers_ofStream fun stream => ?_
  rw [TokenStream.acceptIdentifier]
  split
  · rename_i present
    exact .inl ⟨by rw [present]; rfl, _, rfl⟩
  · exact .inr ⟨_, rfl⟩

/-- Changing what was collected answers. -/
lemma answers_modifyContext (change : Context → Context) :
    AnswersFrom text start (modifyContext change) :=
  .of_leads (leads_record change).leadsFrom fun _ _ failure => nomatch failure

/-- Counting a placeholder answers. -/
lemma answers_placeholder (known : ∀ s, start s → s.stream.kind = .symbol .question) :
    AnswersFrom text start placeholder :=
  .of_leads (leads_placeholder known) fun _ _ failure => nomatch failure

/-- Passing a group answers: if it is not closed, the reading stops at the first token at which nothing
can be read. -/
lemma answers_skipGroup (brackets : Brackets) : AnswersFrom text start (skipGroup brackets) where
  passes {s s' result} _ _ success := by
    obtain ⟨group, rest, split, rfl⟩ := run_skipGroup_ok.1 success
    exact passes_group split _
  refused {s error} reaches _ failure := by
    rw [skipGroup, run_bind_error] at failure
    rcases failure with failure | ⟨count, s₁, -, failure⟩
    · obtain ⟨stream, failed⟩ := run_ofStream_error failure
      unfold TokenStream.skipGroup at failed
      split at failed
      · cases failed
      · cases failed
        exact (reaches.passes (passes_valid s)).refusal_unexpected _
    · cases failure

/-- Passing a parenthesised group, if there is one, answers. -/
lemma answers_skipParentheses : AnswersFrom text start skipParentheses := by
  have group : AnswersFrom text start (skipGroup .parentheses) := answers_skipGroup _
  constructor
  · intro s s' result reaches holds success
    rw [run_skipParentheses] at success
    split at success
    · exact group.passes reaches holds success
    · cases success
      exact Steady.refl s
  · intro s error reaches holds failure
    rw [run_skipParentheses] at failure
    split at failure
    · exact group.refused reaches holds failure
    · cases failure

/-- Repetition answers if what is repeated does. -/
lemma Answers.commaSeparated {item : Parser α} (h : Answers text item) :
    Answers text (commaSeparated item) := by
  have upTo (n : Nat) : Answers text (commaSeparatedUpTo item n) := by
    induction n with
    | zero => exact h.bind fun _ => .pure _
    | succ n ih =>
      refine h.bind fun first => .bind (answers_skipSymbol .comma) fun more => ?_
      exact .ite (fun _ => ih.bind fun _ => .pure _) fun _ => .pure _
  exact .look looks_remaining fun n => (upTo n).answersFrom

/-- A loop over a list answers if its steps do. -/
lemma Answers.foldlM {step : β → α → Parser β} (each : ∀ b a, Answers text (step b a)) (as : List α) :
    ∀ b, Answers text (as.foldlM step b) := by
  induction as with
  | nil => exact fun b => .pure b
  | cons a as ih =>
    intro b
    rw [List.foldlM_cons]
    exact (each b a).bind ih

end Parser

end SqlRouting
