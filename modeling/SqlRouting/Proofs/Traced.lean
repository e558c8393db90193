import SqlRouting.Proofs.Steps

/-!
# Traced parsers

A parser gives a value or an error, but does not say how it came to it. A traced parser is a parser together
with the events of its runs, also of those that fail: each token that is passed, each call, each turn of a
repetition, each bound that is reached, and behind each expression and each clause that is read the count of
the placeholders. It is written with the same words as the parser, and without its events it is that parser.

The events tell all tokens that are passed: a run that succeeds ends behind as many tokens as its events
pass, and a part without events is one that leaves the tokens as they are.

## Main definitions

* `SqlRouting.Event` — what happens in a parse.
* `SqlRouting.Traced` — a parser with the events of its runs.
* `SqlRouting.Traced.call`, `SqlRouting.Traced.again` — a call, and the next turn of a repetition.
* `SqlRouting.Traced.counted` — a reader of an expression or of a clause.
* `SqlRouting.Traced.Stride` — a step of a stream with the number of tokens it passes.

## Main results

* `SqlRouting.Traced.parser_bind` — the parser of a sequence.
* `SqlRouting.Traced.parser_commaSeparated`, `parser_skipAllKeywords` — the parsers of repetitions.
-/

set_option autoImplicit false

namespace SqlRouting

open TokenStream (Brackets splitGroup? advanceBy_advanceBy)
open SqlRouting.Parser

/-! ## Events -/

/-- What happens in a parse. Places are told by the number of tokens that are left. -/
inductive Event
  /-- A token is passed. -/
  | pass (token : Token)
  /-- A call begins: where it and the calls around it began, from the inside out. -/
  | call (starts : List Nat)
  /-- A repetition goes on: where its last turn began, and where the next one begins. -/
  | turn (last next : Nat)
  /-- A bound on a repetition or on nested calls is reached. -/
  | bound (left : Nat)
  /-- An expression or a clause has been read: how many placeholders are counted in its context. -/
  | read (count : Nat)
deriving DecidableEq, Repr

namespace Event

/-- An event inside of a call that began where `left` tokens were left. -/
def within (left : Nat) : Event → Event
  | .call starts => .call (starts ++ [left])
  | event => event

/-- The token that is passed. -/
def token? : Event → Option Token
  | .pass token => some token
  | _ => none

/-- The tokens that are passed. -/
def passed (events : List Event) : List Token :=
  events.filterMap token?

/-- The tokens of two parts are those of the one and of the other. -/
@[simp] lemma passed_append (events more : List Event) :
    passed (events ++ more) = passed events ++ passed more :=
  List.filterMap_append

/-- An event that passes no token is no token passed. -/
lemma passed_cons_of_none {event : Event} (passesNone : event.token? = none) (events : List Event) :
    passed (event :: events) = passed events :=
  List.filterMap_cons_none passesNone

/-- Telling a count behind a part passes no token. -/
@[simp] lemma passed_append_read (events : List Event) (count : Nat) :
    passed (events ++ [.read count]) = passed events := by
  rw [passed_append, passed_cons_of_none rfl]
  exact List.append_nil _

/-- The tokens that are passed in a call are those passed inside of it. -/
@[simp] lemma passed_within (left : Nat) (events : List Event) :
    passed (events.map (within left)) = passed events := by
  rw [passed, passed, List.filterMap_map]
  congr 1
  funext event
  cases event <;> rfl

/-- The tokens of steps past tokens. -/
@[simp] lemma passed_pass (tokens : List Token) : passed (tokens.map pass) = tokens := by
  rw [passed, List.filterMap_map]
  exact List.filterMap_some

end Event

/-! ## Traced parsers -/

/-- A parser with the events of its runs. -/
structure Traced (α : Type) where
  /-- The parser. -/
  parser : Parser α
  /-- What happens from a state on, whether or not the parser succeeds. -/
  events : ParserState → List Event
  /-- A run that succeeds ends behind the tokens it passes. -/
  stands {s s' : ParserState} {a : α} : parser.run s = .ok (a, s') →
    s'.stream = s.stream.advanceBy (Event.passed (events s)).length

/-- A parser that leaves the tokens as they are. -/
class Parser.Rests {α : Type} (p : Parser α) : Prop where
  /-- A run that succeeds ends where it began. -/
  stream_eq {s s' : ParserState} {a : α} : p.run s = .ok (a, s') → s'.stream = s.stream

namespace Traced

variable {α β : Type}

/-- A sequence: if its first part succeeds, the second one happens behind it. -/
def andThen (t : Traced α) (f : α → Traced β) : Traced β where
  parser := t.parser >>= fun a => (f a).parser
  events s := t.events s ++
    match t.parser.run s with
    | .ok (a, s') => (f a).events s'
    | .error _ => []
  stands {s s' b} success := by
    obtain ⟨a, s₁, first, rest⟩ := run_bind_ok.1 success
    simp only [first, Event.passed_append, List.length_append]
    rw [← advanceBy_advanceBy, ← t.stands first]
    exact (f a).stands rest

/-- A parser that only looks, records or fails: nothing happens in it. -/
def still (p : Parser α) [rests : Rests p] : Traced α where
  parser := p
  events _ := []
  stands success := rests.stream_eq success

instance : Monad Traced where
  pure a := ⟨pure a, fun _ => [], fun success => by rw [(run_pure_ok.1 success).2]; rfl⟩
  bind := andThen

/-- A call, in which all of `t` happens. -/
def call (t : Traced α) : Traced α where
  parser := t.parser
  events s := .call [s.stream.remaining] :: (t.events s).map (Event.within s.stream.remaining)
  stands success := by rw [Event.passed_cons_of_none rfl, Event.passed_within, ← t.stands success]

/-- The next turn of a repetition, whose last turn began where `last` tokens were left. -/
def again (last : Nat) (t : Traced α) : Traced α where
  parser := t.parser
  events s := .turn last s.stream.remaining :: t.events s
  stands success := by rw [Event.passed_cons_of_none rfl, ← t.stands success]

/-- What a repetition or a call does where a bound ends it. -/
def bounded (t : Traced α) : Traced α where
  parser := t.parser
  events s := .bound s.stream.remaining :: t.events s
  stands success := by rw [Event.passed_cons_of_none rfl, ← t.stands success]

/-- A reader of an expression or of a clause: if it succeeds, the count behind it is told. -/
def counted (t : Traced α) : Traced α where
  parser := t.parser
  events s := t.events s ++
    match t.parser.run s with
    | .ok (_, s') => [.read s'.context.parameters]
    | .error _ => []
  stands {s s' a} success := by
    simp only [success, Event.passed_append_read]
    exact t.stands success

/-! ### The parsers of traced parsers -/

/-- Giving a value is the parser that does so. -/
@[simp] lemma parser_pure (a : α) : (pure a : Traced α).parser = pure a := rfl

/-- The parser of a sequence is the sequence of the parsers. -/
@[simp] lemma parser_bind (t : Traced α) (f : α → Traced β) :
    (t >>= f).parser = t.parser >>= fun a => (f a).parser := rfl

/-- If its first part succeeds, the events of a sequence are those of the first and of the second part. -/
lemma events_bind_ok {t : Traced α} {s s' : ParserState} {a : α} (f : α → Traced β)
    (first : t.parser.run s = .ok (a, s')) : (t >>= f).events s = t.events s ++ (f a).events s' := by
  change (andThen t f).events s = _
  simp only [andThen, first]

/-- If its first part fails, the events of a sequence are those of the first part. -/
lemma events_bind_error {t : Traced α} {s : ParserState} {error : ParseError} (f : α → Traced β)
    (first : t.parser.run s = .error error) : (t >>= f).events s = t.events s := by
  change (andThen t f).events s = _
  simp only [andThen, first, List.append_nil]

/-- The parser of a choice is the choice of the parsers. -/
@[simp] lemma parser_ite {c : Prop} [Decidable c] (t u : Traced α) :
    (if c then t else u).parser = if c then t.parser else u.parser :=
  apply_ite Traced.parser c t u

/-- A parser that is still is that parser. -/
@[simp] lemma parser_still (p : Parser α) [Rests p] : (still p).parser = p := rfl

/-- A call does what it calls. -/
@[simp] lemma parser_call (t : Traced α) : (call t).parser = t.parser := rfl

/-- The next turn does what the repetition does. -/
@[simp] lemma parser_again (last : Nat) (t : Traced α) : (again last t).parser = t.parser := rfl

/-- A bound does what is done where it ends a repetition. -/
@[simp] lemma parser_bounded (t : Traced α) : (bounded t).parser = t.parser := rfl

/-- A reader reads what is read. -/
@[simp] lemma parser_counted (t : Traced α) : (counted t).parser = t.parser := rfl

/-- If a reader succeeds, the count behind it is the last of its events. -/
lemma events_counted_ok {t : Traced α} {s s' : ParserState} {a : α} (success : t.parser.run s = .ok (a, s')) :
    (counted t).events s = t.events s ++ [.read s'.context.parameters] := by
  simp only [counted, success]

/-- If a reader fails, no count is told behind it. -/
lemma events_counted_error {t : Traced α} {s : ParserState} {error : ParseError}
    (failure : t.parser.run s = .error error) : (counted t).events s = t.events s := by
  simp only [counted, failure, List.append_nil]

/-- The parser of a loop is the loop of the parsers. -/
@[simp] lemma parser_foldlM (step : β → α → Traced β) (as : List α) (b : β) :
    (as.foldlM step b).parser = as.foldlM (fun b a => (step b a).parser) b := by
  induction as generalizing b with
  | nil => rfl
  | cons a as ih => simp [ih]

/-- What is only looked at may be left out. -/
lemma look_bind {p : Parser α} {value : ParserState → α} (looks : Looks p value) (q : Parser β) :
    (p >>= fun _ => q) = q :=
  funext fun s => looks.run_bind (s := s) fun _ => q

/-! ### Parsers that leave the tokens as they are -/

section Rests

variable {p : Parser α}

/-- Looking leaves the tokens as they are. -/
lemma rests_of_looks {value : ParserState → α} (looks : Looks p value) : Rests p where
  stream_eq {s s' a} success := by
    rw [looks s] at success
    cases success
    rfl

instance : Rests kind := rests_of_looks looks_kind

instance : Rests peek := rests_of_looks looks_peek

instance : Rests stream := rests_of_looks looks_stream

instance : Rests current := rests_of_looks looks_current

instance : Rests offset := rests_of_looks looks_offset

instance : Rests previousEnd := rests_of_looks looks_previousEnd

instance : Rests remaining := rests_of_looks looks_remaining

instance : Rests context := rests_of_looks looks_context

instance (symbol : Symbol) : Rests (checkSymbol symbol) := rests_of_looks (looks_checkSymbol symbol)

instance (keyword : Keyword) : Rests (checkKeyword keyword) := rests_of_looks (looks_checkKeyword keyword)

instance : Rests checkComposite := rests_of_looks looks_checkComposite

instance : Rests checkQueryInParentheses := rests_of_looks looks_checkQueryInParentheses

instance (span : Span) : Rests (textOf span) := rests_of_looks (looks_textOf span)

instance (start : Nat) : Rests (textFrom start) := rests_of_looks (looks_textFrom start)

instance (expected : Expectation) : Rests (unexpected expected : Parser α) where
  stream_eq success := absurd success run_unexpected_ne

instance (construct : Construct) (span : Span) : Rests (unsupported construct span : Parser α) where
  stream_eq success := absurd success run_unsupported_ne

instance (error : ParseError) : Rests (throw error : Parser α) where
  stream_eq success := by cases success

instance (keywords : List Keyword) : Rests (refuseKeywords keywords) where
  stream_eq success := by rw [run_refuseKeywords_ok success]

instance (change : Context → Context) : Rests (modifyContext change) where
  stream_eq success := by
    cases success
    rfl

instance (edit : Edit) : Rests (addEdit edit) := inferInstanceAs (Rests (modifyContext _))

instance (result : Except ParseError α) : Rests (liftM result : Parser α) where
  stream_eq success := by rw [(run_lift_ok.1 success).2]

instance (a : α) : Rests (pure a : Parser α) where
  stream_eq success := by rw [(run_pure_ok.1 success).2]

/-- A sequence of parsers that leave the tokens as they are does so, too. -/
instance {f : α → Parser β} [first : Rests p] [rest : ∀ a, Rests (f a)] : Rests (p >>= f) where
  stream_eq success := by
    obtain ⟨a, s₁, read, last⟩ := run_bind_ok.1 success
    rw [(rest a).stream_eq last, first.stream_eq read]

end Rests

/-! ## Steps -/

/-- A step of a stream with the number of tokens it passes, whether or not it succeeds. -/
structure Stride (α : Type) where
  /-- The step. -/
  step : TokenStream → Except ParseError α × TokenStream
  /-- The number of tokens it passes. -/
  length : TokenStream → Nat
  /-- It leaves the stream behind these tokens. -/
  moves : ∀ stream, (step stream).2 = stream.advanceBy (length stream)

/-- The next `n` tokens of a stream, among which is the end of the input where no others are left. -/
def next : Nat → TokenStream → List Token
  | 0, _ => []
  | n + 1, stream => stream.current :: next n stream.advance

/-- The next `n` tokens are `n` tokens. -/
@[simp] lemma length_next (n : Nat) (stream : TokenStream) : (next n stream).length = n := by
  induction n generalizing stream with
  | zero => rfl
  | succ n ih => rw [next, List.length_cons, ih]

/-- The next tokens are those that are left, as far as there are so many. -/
lemma next_eq {n : Nat} {stream : TokenStream} (enough : n ≤ stream.remaining) :
    stream.ahead = next n stream ++ (stream.advanceBy n).ahead := by
  induction n generalizing stream with
  | zero => rfl
  | succ n ih =>
    obtain ⟨token, rest, ahead⟩ := List.exists_cons_of_length_pos (Nat.zero_lt_of_lt enough)
    have behind : stream.advance.ahead = rest := by rw [TokenStream.advance, ahead, List.tail_cons]
    have fewer : n ≤ stream.advance.remaining := by
      rw [TokenStream.remaining, ahead, List.length_cons] at enough
      rw [TokenStream.remaining, behind]
      omega
    have first : stream.current = token := by rw [TokenStream.current, ahead, List.headD_cons]
    rw [next, TokenStream.advanceBy, List.cons_append, ← ih fewer, first, behind, ahead]

/-- A step past tokens. -/
def ofStride (stride : Stride α) : Traced α where
  parser := ofStream stride.step
  events s := (next (stride.length s.stream) s.stream).map .pass
  stands {s s' a} success := by
    obtain ⟨stream, stepped, rfl⟩ := run_ofStream_ok.1 success
    have moved := stride.moves s.stream
    rw [Event.passed_pass, length_next, ← moved, stepped]

/-- The step past the current token. -/
def Stride.advance : Stride Token :=
  ⟨fun stream => (.ok stream.current, stream.advance), fun _ => 1, fun _ => rfl⟩

/-- The step past the current token if `wanted` holds of its kind. -/
def Stride.skip (wanted : TokenKind → Bool) : Stride Bool where
  step stream := if wanted stream.kind then (.ok true, stream.advance) else (.ok false, stream)
  length stream := if wanted stream.kind then 1 else 0
  moves stream := by split <;> rfl

/-- The step past the current token, of which `value?` has to give something. -/
def Stride.accept (value? : Token → Option α) (expected : Expectation) : Stride α where
  step stream :=
    match value? stream.current with
    | some value => (.ok value, stream.advance)
    | none => (.error (stream.unexpected expected), stream)
  length stream := if (value? stream.current).isSome then 1 else 0
  moves stream := by cases value? stream.current <;> rfl

/-- The step past the group at the current token, or to the first token that cannot be read. -/
def Stride.group (brackets : Brackets) : Stride Nat where
  step := TokenStream.skipGroup brackets
  length stream :=
    match splitGroup? brackets 0 stream.ahead with
    | some (group, _) => group.length
    | none => (stream.ahead.takeWhile (!·.kind.isBroken)).length
  moves stream := by
    rw [TokenStream.skipGroup]
    cases splitGroup? brackets 0 stream.ahead <;> rfl

/-! ### The steps of parsers -/

/-- Steps past the current token and gives it. -/
def advance : Traced Token :=
  ofStride .advance

/-- Steps past the current token if it is `symbol`. -/
def skipSymbol (symbol : Symbol) : Traced Bool :=
  ofStride (.skip (·.sameClass (.symbol symbol)))

/-- Steps past the current token if it is a keyword out of `keywords`. -/
def skipKeyword (keywords : List Keyword) : Traced Bool :=
  ofStride (.skip (·.isKeywordIn keywords))

/-- Steps past the current token, which has to be `symbol`, and gives it. -/
def acceptSymbol (symbol : Symbol) : Traced Token :=
  ofStride (.accept (fun token => if token.kind.sameClass (.symbol symbol) then some token else none)
    (.kind (.symbol symbol)))

/-- Steps past the current token, which has to be `keyword`, and gives it. -/
def acceptKeyword (keyword : Keyword) : Traced Token :=
  ofStride (.accept (fun token => if token.kind == .keyword keyword then some token else none)
    (.keyword keyword))

/-- The name that a token is, with its span. -/
def nameAt? (token : Token) : Option (String × Span) :=
  match token.kind with
  | .identifier name => some (name, token.span)
  | _ => none

/-- Steps past the current token, which has to be a name, and gives the name with its span. -/
def acceptIdentifier : Traced (String × Span) :=
  ofStride (.accept nameAt? .identifier)

/-- Steps past the current token, a placeholder, and gives its index. -/
def placeholder : Traced Nat := do
  let _ ← advance
  let index := (← still context).parameters
  still (modifyContext (·.passParameters 1))
  return index

/-- Steps past a balanced group and counts the placeholders in it. -/
def skipGroup (brackets : Brackets) : Traced Unit := do
  let count ← ofStride (.group brackets)
  still (modifyContext (·.passParameters count))

/-- Steps past a parenthesised group, if there is one, and counts the placeholders in it. -/
def skipParentheses : Traced Unit := do
  if ← still (checkSymbol .leftParen) then skipGroup .parentheses
  else still (modifyContext (·.passParameters 0))

/-- Steps past at most `n` keywords out of `keywords`. -/
def skipKeywordsUpTo (keywords : List Keyword) : Nat → Traced Unit
  | 0 => bounded (return ())
  | n + 1 => do
    let left ← still remaining
    if ← skipKeyword keywords then again left (skipKeywordsUpTo keywords n)
    else return ()

/-- Steps past every keyword out of `keywords` until another token comes. -/
def skipAllKeywords (keywords : List Keyword) : Traced Unit := do
  skipKeywordsUpTo keywords (← still remaining)

/-- One or more of `item` with commas between, and at most `n` commas. -/
def commaSeparatedUpTo (item : Traced α) : Nat → Traced (List α)
  | 0 => bounded do return [← item]
  | n + 1 => do
    let left ← still remaining
    let first ← item
    if ← skipSymbol .comma then return first :: (← again left (commaSeparatedUpTo item n))
    else return [first]

/-- One or more of `item` with commas between. -/
def commaSeparated (item : Traced α) : Traced (List α) := do
  commaSeparatedUpTo item (← still remaining)

/-- The step past the current token. -/
@[simp] lemma parser_advance : advance.parser = Parser.advance := rfl

/-- The step past a symbol. -/
@[simp] lemma parser_skipSymbol (symbol : Symbol) :
    (skipSymbol symbol).parser = Parser.skipSymbol symbol := by
  unfold Parser.skipSymbol ofTest
  refine congrArg ofStream (funext fun stream => ?_)
  by_cases isSymbol : stream.kind.sameClass (.symbol symbol) = true
  · simp [Stride.skip, TokenStream.skipIf, TokenStream.check, isSymbol]
  · simp [Stride.skip, TokenStream.skipIf, TokenStream.check, isSymbol]

/-- The step past a keyword. -/
@[simp] lemma parser_skipKeyword (keywords : List Keyword) :
    (skipKeyword keywords).parser = Parser.skipKeyword keywords := by
  unfold Parser.skipKeyword ofTest
  refine congrArg ofStream (funext fun stream => ?_)
  by_cases isKeyword : stream.kind.isKeywordIn keywords = true
  · simp [Stride.skip, TokenStream.skipIfKeyword, TokenStream.checkAnyKeyword, isKeyword]
  · simp [Stride.skip, TokenStream.skipIfKeyword, TokenStream.checkAnyKeyword, isKeyword]

/-- The step past a required symbol. -/
@[simp] lemma parser_acceptSymbol (symbol : Symbol) :
    (acceptSymbol symbol).parser = Parser.acceptSymbol symbol := by
  refine congrArg ofStream (funext fun stream => ?_)
  by_cases isSymbol : stream.current.kind.sameClass (.symbol symbol) = true
  · simp [Stride.accept, TokenStream.accept, TokenStream.check, TokenStream.kind, isSymbol]
  · simp [Stride.accept, TokenStream.accept, TokenStream.check, TokenStream.kind, isSymbol]

/-- The step past a required keyword. -/
@[simp] lemma parser_acceptKeyword (keyword : Keyword) :
    (acceptKeyword keyword).parser = Parser.acceptKeyword keyword := by
  refine congrArg ofStream (funext fun stream => ?_)
  by_cases isKeyword : stream.current.kind = .keyword keyword
  · simp [Stride.accept, TokenStream.acceptKeyword, TokenStream.checkKeyword, TokenStream.kind, isKeyword]
  · simp [Stride.accept, TokenStream.acceptKeyword, TokenStream.checkKeyword, TokenStream.kind, isKeyword]

/-- The step past a required name. -/
@[simp] lemma parser_acceptIdentifier : acceptIdentifier.parser = Parser.acceptIdentifier := by
  refine congrArg ofStream (funext fun stream => ?_)
  simp only [Stride.accept, nameAt?, TokenStream.acceptIdentifier, TokenStream.kind]
  cases stream.current.kind <;> rfl

/-- The step past a placeholder. -/
@[simp] lemma parser_placeholder : placeholder.parser = Parser.placeholder := rfl

/-- The step past a group. -/
@[simp] lemma parser_skipGroup (brackets : Brackets) :
    (skipGroup brackets).parser = Parser.skipGroup brackets := rfl

/-- The step past parentheses. -/
@[simp] lemma parser_skipParentheses : skipParentheses.parser = Parser.skipParentheses := by
  funext s
  show (checkSymbol .leftParen >>= fun present => (if present = true then skipGroup .parentheses else
    still (modifyContext (·.passParameters 0))).parser).run s = Parser.skipParentheses.run s
  rw [(looks_checkSymbol _).run_bind, run_skipParentheses, parser_ite]
  by_cases present : s.stream.kind = .symbol .leftParen
  · rw [if_pos present, if_pos (TokenStream.check_symbol.2 present), parser_skipGroup]
  · rw [if_neg present, if_neg (present ∘ TokenStream.check_symbol.1)]
    rfl

/-- At most `n` commas. -/
lemma parser_commaSeparatedUpTo (item : Traced α) (n : Nat) :
    (commaSeparatedUpTo item n).parser = Parser.commaSeparatedUpTo item.parser n := by
  induction n with
  | zero => rfl
  | succ n ih => simp [commaSeparatedUpTo, Parser.commaSeparatedUpTo, look_bind looks_remaining, ih]

/-- One or more, with commas between. -/
@[simp] lemma parser_commaSeparated (item : Traced α) :
    (commaSeparated item).parser = Parser.commaSeparated item.parser := by
  simp [commaSeparated, Parser.commaSeparated, parser_commaSeparatedUpTo]

/-- To step past a keyword and then past all that follow is to step past all. -/
lemma run_skipAllKeywords_advance {keywords : List Keyword} {s : ParserState}
    (isKeyword : s.stream.checkAnyKeyword keywords = true) :
    (Parser.skipAllKeywords keywords).run s.advance = (Parser.skipAllKeywords keywords).run s := by
  have notEnd : s.stream.kind ≠ .endOfInput := by
    intro isEnd
    rw [TokenStream.checkAnyKeyword, isEnd] at isKeyword
    cases isKeyword
  have ahead := TokenStream.ahead_of_kind rfl notEnd
  have longer : (s.stream.ahead.takeWhile (·.kind.isKeywordIn keywords)).length =
      (s.stream.advance.ahead.takeWhile (·.kind.isKeywordIn keywords)).length + 1 := by
    have first : s.stream.kind.isKeywordIn keywords = true := isKeyword
    rw [ahead, List.takeWhile_cons_of_pos (by exact first), List.length_cons]
  have same : s.advance.stream.skipAllKeywords keywords = s.stream.skipAllKeywords keywords := by
    rw [TokenStream.skipAllKeywords, TokenStream.skipAllKeywords, longer, TokenStream.advanceBy]
    rfl
  simp only [Parser.skipAllKeywords, ofStream, StateT.run, same]
  rfl

/-- Where another token comes, no keyword is stepped past. -/
lemma run_skipAllKeywords_of_not {keywords : List Keyword} {s : ParserState}
    (other : s.stream.checkAnyKeyword keywords = false) :
    (Parser.skipAllKeywords keywords).run s = .ok ((), s) := by
  have noWords : s.stream.ahead.takeWhile (·.kind.isKeywordIn keywords) = [] := by
    cases ahead : s.stream.ahead with
    | nil => rfl
    | cons token rest =>
      rw [TokenStream.checkAnyKeyword, TokenStream.kind_of_ahead_cons ahead] at other
      exact List.takeWhile_cons_of_neg (by simp [other])
  have same : s.stream.skipAllKeywords keywords = s.stream := by
    rw [TokenStream.skipAllKeywords, noWords]
    rfl
  simp only [Parser.skipAllKeywords, ofStream, StateT.run, same]

/-- A bound that the tokens that are left fit in has no influence on the keywords that are passed. -/
lemma run_skipKeywordsUpTo (keywords : List Keyword) {n : Nat} {s : ParserState}
    (enough : s.stream.remaining ≤ n) :
    (skipKeywordsUpTo keywords n).parser.run s = (Parser.skipAllKeywords keywords).run s := by
  induction n generalizing s with
  | zero =>
    have atEnd : s.stream.kind = .endOfInput :=
      TokenStream.kind_of_ahead_nil (List.length_eq_zero_iff.1 (Nat.le_zero.1 enough))
    rw [run_skipAllKeywords_of_not (by rw [TokenStream.checkAnyKeyword, atEnd]; rfl)]
    rfl
  | succ n ih =>
    simp only [skipKeywordsUpTo, parser_bind, parser_still, parser_skipKeyword]
    rw [looks_remaining.run_bind, run_skipKeyword_bind]
    by_cases isKeyword : s.stream.checkAnyKeyword keywords = true
    · have fewer : s.advance.stream.remaining ≤ n := by
        have tail : s.advance.stream.remaining = s.stream.remaining - 1 := List.length_tail
        omega
      rw [if_pos isKeyword, if_pos rfl, parser_again, ih fewer, run_skipAllKeywords_advance isKeyword]
    · rw [if_neg isKeyword, if_neg Bool.false_ne_true, run_skipAllKeywords_of_not (by simpa using isKeyword)]
      rfl

/-- Steps past keywords. -/
@[simp] lemma parser_skipAllKeywords (keywords : List Keyword) :
    (skipAllKeywords keywords).parser = Parser.skipAllKeywords keywords := by
  funext s
  show (remaining >>= fun n => (skipKeywordsUpTo keywords n).parser).run s = _
  rw [looks_remaining.run_bind]
  exact run_skipKeywordsUpTo keywords (Nat.le_refl _)

end Traced

end SqlRouting
