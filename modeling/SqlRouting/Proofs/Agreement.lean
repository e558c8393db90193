import SqlRouting.Proofs.Indexing
import SqlRouting.Proofs.OnDemand

/-!
# Streams as indices

All that a token stream does can be told from an index into the list of all tokens of its text: what an
operation answers, and where it leaves the stream. The same is true of a reader, which reads its tokens on
demand. So it makes no difference when the tokens are read, neither past the end of the input nor at what
cannot be read.

## Main definitions

* `SqlRouting.TokenStream.machine`, `SqlRouting.TokenReader.machine` — the operations of streams and
  readers.
* `SqlRouting.TokenStream.StandsAt`, `SqlRouting.TokenReader.StandsAt` — a stream or a reader at an index.

## Main results

* `SqlRouting.TokenStream.along_index` — a stream walks along with its index.
* `SqlRouting.TokenReader.along_index` — a reader walks along with its index.
* `SqlRouting.Operation.traces_agree` — streams and readers agree with an index in a whole run.
-/

set_option autoImplicit false

namespace SqlRouting

open Lexer

/-! ## Machines -/

/-- A token stream as a machine. -/
def TokenStream.machine : Machine TokenStream where
  view stream := ⟨stream.current, stream.offset, stream.previousEnd, stream.atEnd⟩
  step
    | .advance, stream => (.token stream.current, stream.advance)
    | .peek, stream => (.kind stream.peek, stream)
    | .peekNth n, stream => (.kind (stream.peekNth n), stream)
    | .check kind, stream => (.told (stream.check kind), stream)
    | .checkKeyword keyword, stream => (.told (stream.checkKeyword keyword), stream)
    | .checkAnyKeyword keywords, stream => (.told (stream.checkAnyKeyword keywords), stream)
    | .skipIf kind, stream => (stream.skipIf kind).map .told id
    | .skipIfKeyword keywords, stream => (stream.skipIfKeyword keywords).map .told id
    | .skipAllKeywords keywords, stream => (.done, stream.skipAllKeywords keywords)
    | .accept kind, stream => (stream.accept kind).map (.ofExcept .token) id
    | .acceptKeyword keyword, stream => (stream.acceptKeyword keyword).map (.ofExcept .token) id
    | .acceptIdentifier, stream =>
      stream.acceptIdentifier.map (.ofExcept fun named => .name named.1 named.2) id
    | .refuseKeywords keywords, stream =>
      (.ofExcept (fun _ => .done) (stream.refuseKeywords keywords), stream)
    | .skipParentheses, stream => stream.skipParentheses.map (.ofExcept .count) id

/-- A reader as a machine. -/
def TokenReader.machine : Machine TokenReader where
  view reader := ⟨reader.current, reader.current.span.start, reader.previous.span.stop,
    reader.current.kind == .endOfInput⟩
  step
    | .advance, reader => (.token reader.current, reader.advance)
    | .peek, reader => (.kind reader.peek, reader)
    | .peekNth n, reader => (.kind (reader.peekNth n), reader)
    | .check kind, reader => (.told (reader.check kind), reader)
    | .checkKeyword keyword, reader => (.told (reader.checkKeyword keyword), reader)
    | .checkAnyKeyword keywords, reader => (.told (reader.checkAnyKeyword keywords), reader)
    | .skipIf kind, reader => (reader.skipIf kind).map .told id
    | .skipIfKeyword keywords, reader => (reader.skipIfKeyword keywords).map .told id
    | .skipAllKeywords keywords, reader => (.done, reader.skipAllKeywords keywords)
    | .accept kind, reader => (reader.accept kind).map (.ofExcept .token) id
    | .acceptKeyword keyword, reader => (reader.acceptKeyword keyword).map (.ofExcept .token) id
    | .acceptIdentifier, reader =>
      reader.acceptIdentifier.map (.ofExcept fun named => .name named.1 named.2) id
    | .refuseKeywords keywords, reader =>
      (.ofExcept (fun _ => .done) (reader.refuseKeywords keywords), reader)
    | .skipParentheses, reader => reader.skipParentheses.map (.ofExcept .count) id

/-! ## Streams -/

open Indexed

namespace TokenStream

/-- A stream stands at an index: the tokens from there on are left. -/
structure StandsAt (text : String) (i : Nat) (stream : TokenStream) : Prop where
  /-- The text ends where the stream does. -/
  length : stream.length = Text.byteLength text.toList
  /-- The tokens from the index on are left. -/
  ahead : stream.ahead = (tokens text).drop i
  /-- The token in front of the index was read last. -/
  previous : stream.previous = tokenBefore text i

variable {text : String} {i : Nat} {stream : TokenStream}

/-- A stream of a text stands at its first token. -/
lemma standsAt_ofText (text : String) : StandsAt text 0 (ofText text) :=
  ⟨rfl, rfl, rfl⟩

namespace StandsAt

/-- The end of the input is where the text ends. -/
lemma ending_eq (h : StandsAt text i stream) : stream.ending = Lexer.ending text := by
  rw [ending, h.length]
  rfl

/-- The current token is that with the index. -/
lemma current (h : StandsAt text i stream) : stream.current = tokenAt text i := by
  rw [TokenStream.current, h.ahead, h.ending_eq, headD_drop]

/-- The kind of the current token is that of the token with the index. -/
lemma kind (h : StandsAt text i stream) : stream.kind = (tokenAt text i).kind := by
  rw [TokenStream.kind, h.current]

/-- Looking ahead finds the tokens behind the index. -/
lemma peekNth (h : StandsAt text i stream) (n : Nat) :
    stream.peekNth n = (tokenAt text (i + max n 1)).kind := by
  rw [TokenStream.peekNth, h.ahead, h.ending_eq, getElem_drop]

/-- Moving on counts the index up. -/
lemma advance (h : StandsAt text i stream) : StandsAt text (i + 1) stream.advance :=
  ⟨h.length, by rw [TokenStream.advance, h.ahead, List.tail_drop], h.current⟩

/-- Moving on by some tokens counts the index up by their number. -/
lemma advanceBy (h : StandsAt text i stream) (n : Nat) :
    StandsAt text (i + n) (stream.advanceBy n) := by
  induction n generalizing i stream with
  | zero => exact h
  | succ n ih =>
    rw [TokenStream.advanceBy, Nat.add_comm n 1, ← Nat.add_assoc]
    exact ih h.advance

/-- An unwanted token is the one with the index. -/
lemma unexpected (h : StandsAt text i stream) (expected : Expectation) :
    stream.unexpected expected = Indexed.unexpected text expected i := by
  rw [TokenStream.unexpected, h.kind, h.current, Indexed.unexpected]

end StandsAt

/-- A stream that walks along its tokens. -/
def walk : Walk TokenStream where
  current := current
  previous := previous
  peekNth n stream := stream.peekNth n
  advance := TokenStream.advance
  skipAllKeywords := TokenStream.skipAllKeywords
  skipGroup stream := stream.skipGroup .parentheses

/-- The operations of a stream are those of its walk. -/
lemma machine_eq : machine = walk.machine := by
  refine congrArg (Machine.mk _) (funext fun operation => funext fun stream => ?_)
  cases operation with
  | skipIf | skipIfKeyword => exact apply_ite (Prod.map Answer.told id) _ _ _
  | accept | acceptKeyword => exact apply_ite (Prod.map (Answer.ofExcept .token) id) _ _ _
  | skipParentheses => exact apply_ite (Prod.map (Answer.ofExcept .count) id) _ _ _
  | acceptIdentifier =>
    simp only [acceptIdentifier, walk, kind, unexpected, Walk.unexpected]
    cases stream.current.kind <;> rfl
  | refuseKeywords keywords =>
    simp only [refuseKeywords, walk, kind]
    cases stream.current.kind with
    | keyword k =>
      dsimp only
      split <;> rfl
    | _ => rfl
  | _ => rfl

/-- A stream walks along with its index.

**Proof sketch.** Keywords and groups are found among the tokens that are left, which are those from the
index on. Where a group has no end, the stream moves on to the first token that cannot be read. -/
lemma along_index (text : String) :
    walk.Along (Indexed.walk text) fun stream i => StandsAt text i stream where
  current h := h.current
  previous h := h.previous
  peekNth h n := h.peekNth n
  advance h := h.advance
  skipAllKeywords {stream i} h keywords := by
    simp only [walk, Indexed.walk, skipAllKeywords]
    rw [takeWhile_drop text rfl, h.ahead]
    exact h.advanceBy _
  skipGroup {stream i} h opens := by
    simp only [walk, Indexed.walk]
    rw [group_eq opens, groupFrom, skipGroup, h.ahead]
    cases splitGroup? .parentheses 0 ((tokens text).drop i) with
    | some split => exact ⟨congrArg Except.ok (Nat.zero_add _).symm, h.advanceBy _⟩
    | none =>
      have stopped := h.advanceBy (((tokens text).drop i).takeWhile (!·.kind.isBroken)).length
      exact ⟨congrArg Except.error (stopped.unexpected _), stopped⟩

end TokenStream

/-! ## Readers -/

namespace TokenReader

/-- A reader stands at an index: the tokens behind it are left to its cursor. -/
structure StandsAt (text : String) (i : Nat) (reader : TokenReader) : Prop where
  /-- The cursor reads the text. -/
  source : reader.cursor.source = text
  /-- The tokens behind the index are left to it. -/
  behind : reader.cursor.tokens = (tokens text).drop (i + 1)
  /-- The current token is that with the index. -/
  current : reader.current = tokenAt text i
  /-- The token in front of the index was read last. -/
  previous : reader.previous = tokenBefore text i

variable {text : String} {i : Nat} {reader : TokenReader}

/-- A reader of a text stands at its first token. -/
lemma standsAt_ofText (text : String) : StandsAt text 0 (ofText text) where
  source := (Cursor.ofText text).source_next
  behind := by
    rw [ofText, (Cursor.ofText text).next_eq.2, ← List.tail_drop]
    rfl
  current := by
    rw [ofText, (Cursor.ofText text).next_eq.1, ← headD_drop]
    rfl
  previous := rfl

namespace StandsAt

/-- Looking ahead finds the tokens behind the index. -/
lemma peekNth (h : StandsAt text i reader) (n : Nat) :
    reader.peekNth n = (tokenAt text (i + max n 1)).kind := by
  have same : i + 1 + (n - 1) = i + max n 1 := by omega
  rw [TokenReader.peekNth, Cursor.nth_eq, h.behind, h.source, getElem_drop, same]

/-- Moving on counts the index up. -/
lemma advance (h : StandsAt text i reader) : StandsAt text (i + 1) reader.advance where
  source := (Cursor.source_next _).trans h.source
  behind := by rw [TokenReader.advance, (Cursor.next_eq _).2, h.behind, List.tail_drop]
  current := by rw [TokenReader.advance, (Cursor.next_eq _).1, h.behind, h.source, headD_drop]
  previous := h.current

/-- An unwanted token is the one with the index. -/
lemma unexpected (h : StandsAt text i reader) (expected : Expectation) :
    reader.unexpected expected = Indexed.unexpected text expected i := by
  rw [TokenReader.unexpected, h.current, Indexed.unexpected]

end StandsAt

/-- Steps past keywords end behind the last of them.

**Proof sketch.** Induction on the tokens that are left: the first of them is passed if it is one of the
keywords, and nothing is passed at the end of the input. -/
lemma StandsAt.skipAllKeywords (h : StandsAt text i reader) (keywords : List Keyword) :
    StandsAt text (i + (((tokens text).drop i).takeWhile (·.kind.isKeywordIn keywords)).length)
      (reader.skipAllKeywords keywords) := by
  induction whole : (tokens text).drop i generalizing i reader with
  | nil =>
    have absent : ¬ reader.checkAnyKeyword keywords = true := by
      rw [checkAnyKeyword_eq, h.current, tokenAt_of_nil whole]
      exact Bool.false_ne_true
    rw [TokenReader.skipAllKeywords, dif_neg absent]
    exact h
  | cons token rest ih =>
    obtain ⟨first, behind⟩ := tokenAt_of_drop whole
    rw [TokenReader.skipAllKeywords]
    by_cases found : token.kind.isKeywordIn keywords = true
    · have passed := ih h.advance behind
      rw [dif_pos (by rw [checkAnyKeyword_eq, h.current, first, found]), List.takeWhile_cons,
        if_pos found, List.length_cons, Nat.add_comm _ 1, ← Nat.add_assoc]
      exact passed
    · rw [dif_neg (by rw [checkAnyKeyword_eq, h.current, first]; exact found),
        List.takeWhile_cons, if_neg found]
      exact h

/-- Steps past a group find its end by counting.

**Proof sketch.** Induction on the tokens that are left: at the end of the input and at what cannot be
read the reader stops, and behind any other token the group has ended or goes on. -/
lemma StandsAt.skipGroup (h : StandsAt text i reader) (depth found : Nat) :
    (reader.skipGroup depth found).1 = (groupFrom text depth found i).1 ∧
      StandsAt text (groupFrom text depth found i).2 (reader.skipGroup depth found).2 := by
  have stops {i : Nat} {reader : TokenReader} (h : StandsAt text i reader) (depth found : Nat)
      (broken : (tokenAt text i).kind.isBroken = true) :
      (reader.skipGroup depth found).1 = (groupFrom text depth found i).1 ∧
        StandsAt text (groupFrom text depth found i).2 (reader.skipGroup depth found).2 := by
    rw [groupFrom_of_isBroken broken, TokenReader.skipGroup, dif_pos (by rwa [h.current])]
    exact ⟨congrArg _ (h.unexpected _), h⟩
  induction whole : (tokens text).drop i generalizing i reader depth found with
  | nil =>
    refine stops h depth found ?_
    rw [tokenAt_of_nil whole]
    rfl
  | cons token rest ih =>
    obtain ⟨first, behind⟩ := tokenAt_of_drop whole
    by_cases broken : token.kind.isBroken = true
    · exact stops h depth found (by rwa [first])
    rw [TokenReader.skipGroup, dif_neg (by rwa [h.current, first]), h.current, first, counted_eq]
    by_cases closed : TokenStream.Brackets.parentheses.depthAfter depth token.kind = 0
    · rw [groupFrom_of_closed whole broken closed, closed]
      exact ⟨rfl, h.advance⟩
    · rw [groupFrom_of_open whole broken closed]
      dsimp only
      rw [if_neg (by simpa using closed)]
      exact ih h.advance _ _ behind

/-- A reader that walks along the tokens of its text. -/
def walk : Walk TokenReader where
  current := current
  previous := previous
  peekNth n reader := reader.peekNth n
  advance := TokenReader.advance
  skipAllKeywords := TokenReader.skipAllKeywords
  skipGroup := TokenReader.skipGroup 0 0

/-- The operations of a reader are those of its walk. -/
lemma machine_eq : machine = walk.machine := by
  refine congrArg (Machine.mk _) (funext fun operation => funext fun reader => ?_)
  cases operation with
  | checkAnyKeyword keywords =>
    exact congrArg (fun found => (Answer.told found, reader)) (checkAnyKeyword_eq reader keywords)
  | skipIfKeyword keywords =>
    simp only [skipIfKeyword, checkAnyKeyword_eq]
    exact apply_ite (Prod.map Answer.told id) _ _ _
  | skipIf => exact apply_ite (Prod.map Answer.told id) _ _ _
  | accept | acceptKeyword => exact apply_ite (Prod.map (Answer.ofExcept .token) id) _ _ _
  | skipParentheses => exact apply_ite (Prod.map (Answer.ofExcept .count) id) _ _ _
  | acceptIdentifier =>
    simp only [acceptIdentifier, walk, unexpected, Walk.unexpected]
    cases reader.current.kind <;> rfl
  | refuseKeywords keywords =>
    simp only [refuseKeywords, walk]
    cases reader.current.kind with
    | keyword k =>
      dsimp only
      split <;> rfl
    | _ => rfl
  | _ => rfl

/-- A reader walks along with its index. -/
lemma along_index (text : String) :
    walk.Along (Indexed.walk text) fun reader i => StandsAt text i reader where
  current h := h.current
  previous h := h.previous
  peekNth h n := h.peekNth n
  advance h := h.advance
  skipAllKeywords {reader i} h keywords := by
    simp only [walk, Indexed.walk]
    rw [takeWhile_drop text rfl]
    exact h.skipAllKeywords keywords
  skipGroup {reader i} h opens := by
    simp only [walk, Indexed.walk]
    rw [group_eq opens]
    exact h.skipGroup 0 0

end TokenReader

/-! ## Agreement -/

/-- A token stream does what an index into the list of all tokens does, which the end of the input follows
any number of times: whatever is asked of it, one operation after the other, the answers are the same, and
so is what can be seen after each operation. The same is true of a reader, which reads its tokens on
demand. Looking ahead leaves either of them as it is, and so does an operation that fails because of the
current token.

**Proof sketch.** Streams and readers walk along with their indices, so they agree in each step, and by
induction on the operations in a whole run. -/
theorem Operation.traces_agree (text : String) (operations : List Operation) :
    (TokenStream.machine.view (.ofText text) = (Indexed.walk text).machine.view 0 ∧
      TokenStream.machine.trace operations (.ofText text) =
        (Indexed.walk text).machine.trace operations 0) ∧
    (TokenReader.machine.view (.ofText text) = (Indexed.walk text).machine.view 0 ∧
      TokenReader.machine.trace operations (.ofText text) =
        (Indexed.walk text).machine.trace operations 0) ∧
    (∀ (operation : Operation) (stream : TokenStream),
      operation.looks = true ∨ operation.requires = true ∧
        (TokenStream.machine.step operation stream).1.isFailure = true →
      (TokenStream.machine.step operation stream).2 = stream) ∧
    ∀ (operation : Operation) (reader : TokenReader),
      operation.looks = true ∨ operation.requires = true ∧
        (TokenReader.machine.step operation reader).1.isFailure = true →
      (TokenReader.machine.step operation reader).2 = reader := by
  have streams := (TokenStream.along_index text).simulates
  have readers := (TokenReader.along_index text).simulates
  rw [← TokenStream.machine_eq] at streams
  rw [← TokenReader.machine_eq] at readers
  have first := TokenStream.standsAt_ofText text
  have first' := TokenReader.standsAt_ofText text
  refine ⟨⟨streams.view first, streams.trace_eq first operations⟩,
    ⟨readers.view first', readers.trace_eq first' operations⟩, ?_, ?_⟩
  · rw [TokenStream.machine_eq]
    exact fun _ _ => TokenStream.walk.step_stays
  · rw [TokenReader.machine_eq]
    exact fun _ _ => TokenReader.walk.step_stays

/-- A name is required where a group starts that has no end. -/
theorem Operation.traces_agree_unclosed :
    (acceptIdentifier.looks = true ∨ acceptIdentifier.requires = true ∧
      (TokenStream.machine.step .acceptIdentifier (.ofText "(?")).1.isFailure = true) ∧
    (TokenStream.machine.step .acceptIdentifier (.ofText "(?")).2 = .ofText "(?" ∧
    TokenReader.machine.trace [.acceptIdentifier, .skipParentheses, .advance] (.ofText "(?") =
      (Indexed.walk "(?").machine.trace [.acceptIdentifier, .skipParentheses, .advance] 0 := by
  have fails : (TokenStream.machine.step .acceptIdentifier (.ofText "(?")).1.isFailure = true := by
    decide +kernel
  obtain ⟨-, ⟨-, agree⟩, stays, -⟩ :=
    traces_agree "(?" [.acceptIdentifier, .skipParentheses, .advance]
  exact ⟨.inr ⟨rfl, fails⟩, stays acceptIdentifier (.ofText "(?") (.inr ⟨rfl, fails⟩), agree⟩

end SqlRouting
