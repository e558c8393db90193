import SqlRouting.Proofs.Faults

/-!
# Texts that differ in blanks and comments

Two texts with the same tokens differ in what stands between these. They are read side by side: the
tokens that are left have the same kinds and are written alike, and edits aside the same is collected.
Places, and the source text of longer stretches, may differ. The rules of this module follow the way
parsers are built, so that running in step is seen from the text of the parsers.

## Main definitions

* `SqlRouting.Lexer.readings` — the kinds of the tokens of a text with their source texts.
* `SqlRouting.ParseError.SameCause` — errors that are equal but for their places.
* `SqlRouting.Abreast` — two states with the same tokens left.
* `SqlRouting.Parser.InStep` — parsers with the same outcome in such states.

## Main results

* `SqlRouting.Parser.InStep.bind`, `InStep.commaSeparated`, `InStep.foldlM` — sequences, lists and
  repetitions of parsers that run in step.
* `SqlRouting.Parser.InStep.skipGroup` — groups are passed in step.
-/

set_option autoImplicit false

namespace SqlRouting

open TokenStream

/-! ## Tokens and errors -/

/-- The kind of a token of a text with its source text. -/
def Token.reading (text : String) (token : Token) : TokenKind × String :=
  (token.kind, token.span.text text)

/-- The kinds of the tokens of a text with their source texts. -/
def Lexer.readings (text : String) : List (TokenKind × String) :=
  (tokenize text).map (Token.reading text)

/-- The same error at another place. -/
def ParseError.placed (span : Span) : ParseError → ParseError
  | .unexpected expected found _ => .unexpected expected found span
  | .unsupported construct _ => .unsupported construct span
  | .invalidColumn found _ => .invalidColumn found span
  | .missingOrderItemName _ => .missingOrderItemName span
  | .lexical reason _ => .lexical reason span

/-- Two errors are equal but for their places. -/
def ParseError.SameCause (error error' : ParseError) : Prop :=
  error.placed error'.span = error'

/-! ## Groups of tokens -/

namespace TokenStream

variable {tokens tokens' : List Token}

/-- The placeholders of some tokens are told by their kinds. -/
lemma placeholders_eq_count (tokens : List Token) :
    placeholders tokens = (tokens.map Token.kind).count (.symbol .question) := by
  rw [placeholders, List.count, List.countP_map]
  rfl

/-- How many tokens stand in front of the first one without a property is told by their kinds. -/
lemma takeWhile_kinds (same : tokens.map Token.kind = tokens'.map Token.kind) (p : TokenKind → Bool) :
    (tokens.takeWhile (p ·.kind)).length = (tokens'.takeWhile (p ·.kind)).length := by
  have front (tokens : List Token) :
      (tokens.takeWhile (p ·.kind)).length = ((tokens.map Token.kind).takeWhile p).length := by
    rw [List.takeWhile_map, List.length_map]
    rfl
  rw [front, same, front]

/-- Which tokens are a balanced group is told by their kinds. -/
lemma splitGroup_kinds {brackets : Brackets} {depth : Nat}
    (same : tokens.map Token.kind = tokens'.map Token.kind) :
    (splitGroup? brackets depth tokens).map (·.1.map Token.kind) =
      (splitGroup? brackets depth tokens').map (·.1.map Token.kind) := by
  induction tokens generalizing tokens' depth with
  | nil =>
    obtain rfl : tokens' = [] := by simpa using same.symm
    rfl
  | cons token tokens ih =>
    cases tokens' with
    | nil => cases same
    | cons token' tokens' =>
      obtain ⟨own, others⟩ := List.cons.inj same
      simp only [splitGroup?, own]
      split
      · rfl
      · split
        · simp [own]
        · have inner := congrArg (Option.map (List.cons token'.kind)) (@ih tokens'
            (brackets.depthAfter depth token'.kind) others)
          simpa [Option.map_map, Function.comp_def, own] using inner

end TokenStream

/-! ## States abreast -/

/-- Two states of the parses of two texts: the tokens that are left have the same kinds and the same
source texts, and edits aside the same is collected. -/
structure Abreast (text text' : String) (s t : ParserState) : Prop where
  /-- The first state belongs to the first text. -/
  source : s.stream.source = text
  /-- The second state belongs to the second text. -/
  source' : t.stream.source = text'
  /-- The tokens that are left are written alike. -/
  ahead : s.stream.ahead.map (Token.reading text) = t.stream.ahead.map (Token.reading text')
  /-- Edits aside, the same is collected. -/
  context : s.context.EditsOnly t.context

namespace Abreast

variable {text text' : String} {s t : ParserState}

/-- The states at the start of texts with the same readings are abreast. -/
lemma start (same : Lexer.readings text = Lexer.readings text') :
    Abreast text text' ⟨.ofText text, {}⟩ ⟨.ofText text', {}⟩ := by
  refine ⟨rfl, rfl, ?_, ⟨rfl, rfl, rfl⟩⟩
  rw [Lexer.readings, Lexer.readings, Lexer.tokenize, Lexer.tokenize, List.map_append,
    List.map_append] at same
  exact (List.append_inj' same rfl).1

/-- The tokens that are left have the same kinds. -/
lemma kinds_eq (h : Abreast text text' s t) :
    s.stream.ahead.map Token.kind = t.stream.ahead.map Token.kind := by
  simpa [Token.reading, Function.comp_def] using congrArg (List.map Prod.fst) h.ahead

/-- As many tokens are left. -/
lemma remaining_eq (h : Abreast text text' s t) : s.stream.remaining = t.stream.remaining := by
  simpa [TokenStream.remaining] using congrArg List.length h.ahead

/-- The tokens looked ahead for have the same kind. -/
lemma peekNth_eq (h : Abreast text text' s t) (n : Nat) : s.stream.peekNth n = t.stream.peekNth n := by
  have kind (stream : TokenStream) :
      stream.peekNth n = ((stream.ahead.map Token.kind)[max n 1]?).getD .endOfInput := by
    rw [peekNth, List.getElem?_map]
    cases stream.ahead[max n 1]? <;> rfl
  rw [kind, kind, h.kinds_eq]

/-- The current tokens have the same kind. -/
lemma kind_eq (h : Abreast text text' s t) : s.stream.kind = t.stream.kind := by
  have kind (stream : TokenStream) :
      stream.kind = (stream.ahead.map Token.kind).headD .endOfInput := by
    rw [TokenStream.kind, TokenStream.current]
    cases stream.ahead <;> rfl
  rw [kind, kind, h.kinds_eq]

/-- The current tokens are both some symbol, or neither. -/
lemma check_eq (h : Abreast text text' s t) (kind : TokenKind) :
    s.stream.check kind = t.stream.check kind := by
  rw [check, check, h.kind_eq]

/-- The current tokens both join operands, or neither. -/
lemma isComposite_eq (h : Abreast text text' s t) :
    s.stream.kind.isComposite = t.stream.kind.isComposite := by
  rw [h.kind_eq]

/-- The current tokens are both some keyword, or neither. -/
lemma checkKeyword_eq (h : Abreast text text' s t) (keyword : Keyword) :
    s.stream.checkKeyword keyword = t.stream.checkKeyword keyword := by
  rw [TokenStream.checkKeyword, TokenStream.checkKeyword, h.kind_eq]

/-- Both states are in front of a query in parentheses, or neither. -/
lemma query_eq (h : Abreast text text' s t) :
    (s.stream.check (.symbol .leftParen) && s.stream.peek == .keyword .SELECT) =
      (t.stream.check (.symbol .leftParen) && t.stream.peek == .keyword .SELECT) := by
  rw [h.check_eq, TokenStream.peek, TokenStream.peek, h.peekNth_eq]

/-- The current tokens have the same source text, if the texts are not at their ends. -/
lemma written_eq (h : Abreast text text' s t) (notEnd : s.stream.kind ≠ .endOfInput) :
    s.stream.current.span.text text = t.stream.current.span.text text' := by
  have first : s.stream.ahead = s.stream.current :: s.advance.stream.ahead := ahead_of_kind rfl notEnd
  have notEnd' : t.stream.kind ≠ .endOfInput := by rwa [← h.kind_eq]
  have first' : t.stream.ahead = t.stream.current :: t.advance.stream.ahead := ahead_of_kind rfl notEnd'
  have ahead := h.ahead
  rw [first, first', List.map_cons, List.map_cons] at ahead
  exact congrArg Prod.snd (List.cons.inj ahead).1

/-- Meeting the current tokens where another one is required has the same cause. -/
lemma sameCause_unexpected (h : Abreast text text' s t) (expected : Expectation) :
    (s.stream.unexpected expected).SameCause (t.stream.unexpected expected) := by
  rw [TokenStream.unexpected, TokenStream.unexpected, h.kind_eq]
  cases t.stream.kind <;> rfl

/-- States stay abreast as both pass as many tokens. -/
lemma advanceBy (h : Abreast text text' s t) (n : Nat) :
    Abreast text text' { s with stream := s.stream.advanceBy n }
      { t with stream := t.stream.advanceBy n } where
  source := (source_advanceBy n _).trans h.source
  source' := (source_advanceBy n _).trans h.source'
  ahead := by
    rw [ahead_advanceBy, ahead_advanceBy, List.map_drop, List.map_drop, h.ahead]
  context := h.context

/-- States stay abreast as both pass the current token. -/
lemma advance (h : Abreast text text' s t) : Abreast text text' s.advance t.advance :=
  h.advanceBy 1

/-- States stay abreast as both record the same. -/
lemma record (h : Abreast text text' s t) {context context' : Context}
    (same : context.EditsOnly context') :
    Abreast text text' { s with context } { t with context := context' } :=
  ⟨h.source, h.source', h.ahead, same⟩

end Abreast

/-! ## Parsers in step -/

namespace Parser

variable {α β : Type} {text text' : String}

/-- Two outcomes are the same if both are successes with related values in states abreast, or both are
errors with the same cause. -/
inductive SameOutcome (text text' : String) (same : α → α → Prop) :
    Except ParseError (α × ParserState) → Except ParseError (α × ParserState) → Prop
  /-- Both succeed. -/
  | ok {a b : α} {s t : ParserState} (value : same a b) (abreast : Abreast text text' s t) :
      SameOutcome text text' same (.ok (a, s)) (.ok (b, t))
  /-- Both fail. -/
  | error {error error' : ParseError} (cause : error.SameCause error') :
      SameOutcome text text' same (.error error) (.error error')

/-- The outcome of sequences is the same if that of their first parts is, and they go on with the same
outcome where these succeed. -/
lemma SameOutcome.bind {same : α → α → Prop} {same' : β → β → Prop} {p q : Parser α} {f g : α → Parser β}
    {s t : ParserState} (first : SameOutcome text text' same (p.run s) (q.run t))
    (rest : ∀ a b s₁ t₁, p.run s = .ok (a, s₁) → q.run t = .ok (b, t₁) → same a b →
      Abreast text text' s₁ t₁ → SameOutcome text text' same' ((f a).run s₁) ((g b).run t₁)) :
    SameOutcome text text' same' ((p >>= f).run s) ((q >>= g).run t) := by
  rw [StateT.run_bind, StateT.run_bind]
  generalize p.run s = result at first rest
  generalize q.run t = result' at first rest
  cases first with
  | ok value stay => exact rest _ _ _ _ rfl rfl value stay
  | error cause => exact .error cause

/-- In states abreast, `p` and `q` have the same outcome. -/
def InStep (text text' : String) (same : α → α → Prop) (p q : Parser α) : Prop :=
  ∀ s t, Abreast text text' s t → SameOutcome text text' same (p.run s) (q.run t)

/-- Values that need not be related. -/
def Free (_ _ : α) : Prop :=
  True

namespace InStep

variable {same : α → α → Prop} {same' : β → β → Prop}

/-- Giving related values. -/
lemma pure {a b : α} (value : same a b) : InStep text text' same (pure a) (pure b) :=
  fun _ _ abreast => .ok value abreast

/-- Sequences run in step if their parts do. -/
lemma bind {p q : Parser α} {f g : α → Parser β} (first : InStep text text' same p q)
    (rest : ∀ a b, same a b → InStep text text' same' (f a) (g b)) :
    InStep text text' same' (p >>= f) (q >>= g) :=
  fun s t abreast => (first s t abreast).bind fun a b s t _ _ value stay => rest a b value s t stay

/-- Choices run in step if their sides do. -/
lemma ite {c : Prop} [Decidable c] {p p' q q' : Parser α} (hp : InStep text text' same p p')
    (hq : InStep text text' same q q') :
    InStep text text' same (if c then p else q) (if c then p' else q') := by
  split
  · exact hp
  · exact hq

/-- Looking at related things. -/
lemma look {p q : Parser α} {value value' : ParserState → α} (looks : Looks p value)
    (looks' : Looks q value') (related : ∀ s t, Abreast text text' s t → same (value s) (value' t)) :
    InStep text text' same p q := by
  intro s t abreast
  rw [looks s, looks' t]
  exact .ok (related s t abreast) abreast

/-- Looking at things that need not be related. -/
lemma looks {p q : Parser α} {value value' : ParserState → α} (looks : Looks p value)
    (looks' : Looks q value') : InStep text text' Free p q :=
  look looks looks' fun _ _ _ => trivial

/-- A sequence that starts with looking at the same. -/
lemma see {p : Parser α} {value : ParserState → α} {f g : α → Parser β} (looks : Looks p value)
    (related : ∀ s t, Abreast text text' s t → value s = value t)
    (rest : ∀ a, InStep text text' same' (f a) (g a)) : InStep text text' same' (p >>= f) (p >>= g) :=
  (look looks looks related).bind fun a _ seen => seen ▸ rest a

/-- Looking at the current tokens, which have the same kind; and the same source text, if the texts are not
at their ends. -/
lemma current : InStep text text' (fun token token' => token.kind = token'.kind ∧
    (token.kind ≠ .endOfInput → token.span.text text = token'.span.text text')) current current :=
  look looks_current looks_current fun _ _ abreast => ⟨abreast.kind_eq, abreast.written_eq⟩

/-- Looking at the streams, which have the same kinds of tokens in front. -/
lemma stream : InStep text text' (fun stream stream' => stream.kind = stream'.kind ∧
    ∀ n, stream.peekNth n = stream'.peekNth n) stream stream :=
  look looks_stream looks_stream fun _ _ abreast => ⟨abreast.kind_eq, abreast.peekNth_eq⟩

/-- Looking at the same source text. -/
lemma textOf {span span' : Span} (written : span.text text = span'.text text') :
    InStep text text' Eq (textOf span) (textOf span') :=
  look (looks_textOf span) (looks_textOf span') fun _ _ abreast => by
    rw [abreast.source, abreast.source', written]

/-- Results that need no state. -/
lemma lift {result result' : Except ParseError α}
    (related : (∃ a b, result = .ok a ∧ result' = .ok b ∧ same a b) ∨
      ∃ error error', result = .error error ∧ result' = .error error' ∧ error.SameCause error') :
    InStep text text' same (liftM result : Parser α) (liftM result') := by
  intro s t abreast
  rcases related with ⟨a, b, rfl, rfl, value⟩ | ⟨error, error', rfl, rfl, cause⟩
  · exact .ok value abreast
  · exact .error cause

/-- Failing because of the current token. -/
lemma unexpected (expected : Expectation) :
    InStep text text' same (Parser.unexpected expected) (Parser.unexpected expected) :=
  fun _ _ abreast => .error (abreast.sameCause_unexpected expected)

/-- Failing with the same cause. -/
lemma throw {error error' : ParseError} (cause : error.SameCause error') :
    InStep text text' same (MonadExcept.throw error) (MonadExcept.throw error') :=
  fun _ _ _ => .error cause

/-- Failing because of a construct. -/
lemma unsupported (construct : Construct) (span span' : Span) :
    InStep text text' same (Parser.unsupported construct span) (Parser.unsupported construct span') :=
  throw rfl

/-- Refusing keywords. -/
lemma refuseKeywords (keywords : List Keyword) :
    InStep text text' Eq (refuseKeywords keywords) (refuseKeywords keywords) := by
  have states : InStep text text' (Abreast text text') get get :=
    look (fun _ => rfl : Looks get id) (fun _ => rfl : Looks get id) fun _ _ abreast => abreast
  refine states.bind fun s t abreast => lift ?_
  unfold TokenStream.refuseKeywords
  rw [abreast.kind_eq]
  split
  · split
    · exact .inr ⟨_, _, rfl, rfl, rfl⟩
    · exact .inl ⟨_, _, rfl, rfl, rfl⟩
  · exact .inl ⟨_, _, rfl, rfl, rfl⟩

/-! ### Moving -/

/-- Passing the current token. -/
lemma advance : InStep text text' Free advance advance :=
  fun _ _ abreast => .ok trivial abreast.advance

/-- Steps of the stream that have the same outcome. -/
lemma ofStream {step : TokenStream → Except ParseError α × TokenStream}
    (related : ∀ s t : ParserState, Abreast text text' s t →
      (∃ a b n, step s.stream = (.ok a, s.stream.advanceBy n) ∧
        step t.stream = (.ok b, t.stream.advanceBy n) ∧ same a b) ∨
      ∃ error error' stream stream', step s.stream = (.error error, stream) ∧
        step t.stream = (.error error', stream') ∧ error.SameCause error') :
    InStep text text' same (ofStream step) (ofStream step) := by
  intro s t abreast
  simp only [StateT.run, Parser.ofStream]
  rcases related s t abreast with ⟨a, b, n, first, second, value⟩ |
    ⟨error, error', stream, stream', first, second, cause⟩
  · rw [first, second]
    exact .ok value (abreast.advanceBy n)
  · rw [first, second]
    exact .error cause

/-- Skipping a symbol. -/
lemma skipSymbol (symbol : Symbol) : InStep text text' Eq (skipSymbol symbol) (skipSymbol symbol) := by
  intro s t abreast
  rw [run_skipSymbol, run_skipSymbol, abreast.kind_eq]
  split
  · exact .ok rfl abreast.advance
  · exact .ok rfl abreast

/-- Skipping a keyword. -/
lemma skipKeyword (keywords : List Keyword) :
    InStep text text' Eq (skipKeyword keywords) (skipKeyword keywords) := by
  intro s t abreast
  rw [run_skipKeyword, run_skipKeyword, checkAnyKeyword, checkAnyKeyword, abreast.kind_eq]
  split
  · exact .ok rfl abreast.advance
  · exact .ok rfl abreast

/-- Skipping keywords one after the other. -/
lemma skipAllKeywords (keywords : List Keyword) :
    InStep text text' Eq (skipAllKeywords keywords) (skipAllKeywords keywords) := by
  refine ofStream fun s t abreast => .inl ⟨(), (), _, rfl, ?_, rfl⟩
  rw [TokenStream.skipAllKeywords, takeWhile_kinds abreast.kinds_eq (·.isKeywordIn keywords)]

/-- Accepting a symbol. -/
lemma acceptSymbol (symbol : Symbol) :
    InStep text text' Free (acceptSymbol symbol) (acceptSymbol symbol) := by
  refine ofStream fun s t abreast => ?_
  rw [accept, accept, check, check, abreast.kind_eq]
  split
  · exact .inl ⟨_, _, 1, rfl, rfl, trivial⟩
  · exact .inr ⟨_, _, _, _, rfl, rfl, abreast.sameCause_unexpected _⟩

/-- Accepting a keyword. -/
lemma acceptKeyword (keyword : Keyword) :
    InStep text text' Free (acceptKeyword keyword) (acceptKeyword keyword) := by
  refine ofStream fun s t abreast => ?_
  rw [TokenStream.acceptKeyword, TokenStream.acceptKeyword, TokenStream.checkKeyword,
    TokenStream.checkKeyword, abreast.kind_eq]
  split
  · exact .inl ⟨_, _, 1, rfl, rfl, trivial⟩
  · exact .inr ⟨_, _, _, _, rfl, rfl, abreast.sameCause_unexpected _⟩

/-- Accepting a name. -/
lemma acceptIdentifier :
    InStep text text' (fun read read' => read.1 = read'.1) acceptIdentifier acceptIdentifier := by
  refine ofStream fun s t abreast => ?_
  rw [TokenStream.acceptIdentifier, TokenStream.acceptIdentifier, abreast.kind_eq]
  split
  · exact .inl ⟨_, _, 1, rfl, rfl, rfl⟩
  · exact .inr ⟨_, _, _, _, rfl, rfl, abreast.sameCause_unexpected _⟩

/-- Changing what was collected in the same way. -/
lemma modifyContext {change change' : Context → Context}
    (keeps : ∀ context context' : Context, context.EditsOnly context' →
      (change context).EditsOnly (change' context')) :
    InStep text text' Eq (modifyContext change) (modifyContext change') :=
  fun _ _ abreast => .ok rfl (abreast.record (keeps _ _ abreast.context))

/-- Recording edits, which may differ. -/
lemma addEdit (edit edit' : Edit) : InStep text text' Eq (addEdit edit) (addEdit edit') :=
  modifyContext fun _ _ same => ⟨same.tables, same.conditions, same.parameters⟩

/-- Recording any number of edits, which may differ. -/
lemma addEdits (edits edits' : List Edit) :
    InStep text text' Eq (edits.forM Parser.addEdit) (edits'.forM Parser.addEdit) := by
  have records (edits : List Edit) : ∀ s : ParserState, ∃ context,
      (edits.forM Parser.addEdit).run s = .ok ((), { s with context }) ∧ s.context.EditsOnly context := by
    induction edits with
    | nil => exact fun s => ⟨s.context, rfl, rfl, rfl, rfl⟩
    | cons edit edits ih =>
      intro s
      obtain ⟨context, run, same⟩ := ih { s with context := s.context.addEdit edit }
      exact ⟨context, run, same.tables, same.conditions, same.parameters⟩
  intro s t abreast
  obtain ⟨context, run, same⟩ := records edits s
  obtain ⟨context', run', same'⟩ := records edits' t
  rw [run, run']
  refine .ok rfl (abreast.record ⟨?_, ?_, ?_⟩)
  · rw [same'.tables, abreast.context.tables, same.tables]
  · rw [same'.conditions, abreast.context.conditions, same.conditions]
  · rw [same'.parameters, abreast.context.parameters, same.parameters]

/-- Counting placeholders that were passed. -/
lemma passParameters (count : Nat) : InStep text text' Eq
    (Parser.modifyContext (·.passParameters count)) (Parser.modifyContext (·.passParameters count)) :=
  modifyContext fun _ _ same => ⟨same.tables, same.conditions, congrArg (· + count) same.parameters⟩

/-- Looking at what was collected. -/
lemma context : InStep text text' Context.EditsOnly context context :=
  look looks_context looks_context fun _ _ abreast => abreast.context

/-- Passing a placeholder. -/
lemma placeholder : InStep text text' Eq placeholder placeholder :=
  advance.bind fun _ _ _ => context.bind fun _ _ seen => (passParameters 1).bind fun _ _ _ =>
    pure seen.parameters.symm

/-- Passing a group. -/
lemma skipGroup (brackets : Brackets) :
    InStep text text' Eq (skipGroup brackets) (skipGroup brackets) := by
  have passes : InStep text text' Eq (Parser.ofStream (TokenStream.skipGroup brackets))
      (Parser.ofStream (TokenStream.skipGroup brackets)) := by
    refine ofStream fun s t abreast => ?_
    have kinds : (splitGroup? brackets 0 s.stream.ahead).map (·.1.map Token.kind) =
        (splitGroup? brackets 0 t.stream.ahead).map (·.1.map Token.kind) :=
      splitGroup_kinds abreast.kinds_eq
    unfold TokenStream.skipGroup
    cases split : splitGroup? brackets 0 s.stream.ahead with
    | none =>
      have split' : splitGroup? brackets 0 t.stream.ahead = none := by
        simpa [split] using kinds.symm
      have valid := takeWhile_kinds abreast.kinds_eq (!·.isBroken)
      rw [split']
      refine .inr ⟨_, _, _, _, rfl, rfl, ?_⟩
      rw [valid]
      exact (abreast.advanceBy _).sameCause_unexpected _
    | some parts =>
      obtain ⟨group, left⟩ := parts
      obtain ⟨⟨group', left'⟩, split', same⟩ := Option.map_eq_some_iff.1 (split ▸ kinds).symm
      have same : group'.map Token.kind = group.map Token.kind := same
      have length : group'.length = group.length := by simpa using congrArg List.length same
      rw [split']
      refine .inl ⟨_, _, group.length, rfl, by rw [← length], ?_⟩
      rw [placeholders_eq_count, placeholders_eq_count, same]
  exact passes.bind fun count _ same => same ▸ passParameters count

/-- Passing a parenthesised group, if there is one. -/
lemma skipParentheses : InStep text text' Eq skipParentheses skipParentheses := by
  intro s t abreast
  rw [run_skipParentheses, run_skipParentheses, abreast.kind_eq]
  split
  · exact skipGroup _ s t abreast
  · exact .ok rfl abreast

/-! ### Repetition -/

/-- Lists run in step if their items do. -/
lemma commaSeparated {p q : Parser α} (item : InStep text text' same p q) :
    InStep text text' (List.Forall₂ same) (commaSeparated p) (commaSeparated q) := by
  have upTo (n : Nat) : InStep text text' (List.Forall₂ same) (commaSeparatedUpTo p n)
      (commaSeparatedUpTo q n) := by
    induction n with
    | zero => exact item.bind fun _ _ value => pure (.cons value .nil)
    | succ n ih =>
      refine item.bind fun _ _ value => (skipSymbol .comma).bind fun more _ seen => seen ▸ ite ?_ ?_
      · exact ih.bind fun _ _ values => pure (.cons value values)
      · exact pure (.cons value .nil)
  exact see looks_remaining (fun _ _ abreast => abreast.remaining_eq) upTo

/-- Repetition over a list runs in step if each round does. -/
lemma foldlM {γ : Type} {f g : α → γ → Parser α} {list : List γ}
    (round : ∀ a b c, same a b → InStep text text' same (f a c) (g b c)) {a b : α} (value : same a b) :
    InStep text text' same (list.foldlM f a) (list.foldlM g b) := by
  induction list generalizing a b with
  | nil => exact pure value
  | cons c list ih =>
    rw [List.foldlM_cons, List.foldlM_cons]
    exact (round a b c value).bind fun _ _ value => ih value

end InStep

end Parser

end SqlRouting
