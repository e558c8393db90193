import Mathlib.Tactic.Lemma
import SqlRouting.Parser

/-!
# Moves of a parse

A parse is a sequence of small moves. A move passes a token, passes a placeholder and counts it,
passes a balanced group and counts the placeholders in it, or records something in the context.
Whatever the grammar does, it does by such moves, so what a move preserves holds throughout a parse.

## Main definitions

* `SqlRouting.Move` — one move, with the tokens it passes; a parameter says what may be recorded.
* `SqlRouting.Run` — a sequence of moves, with the tokens passed in all of them.
* `SqlRouting.ParserState.pass` — the state behind some tokens.
* `SqlRouting.Context.SameCount` — recording that leaves the number of placeholders as it is.
* `SqlRouting.Context.EditsOnly` — recording of edits alone.
* `SqlRouting.KeepsCount` — a state that has counted the placeholders passed so far.

## Main results

* `SqlRouting.Run.ahead_eq` — a run passes exactly the tokens in front.
* `SqlRouting.Run.parameters_eq` — a run counts exactly the placeholders it passes.
* `SqlRouting.KeepsCount.run` — a run keeps count.
-/

set_option autoImplicit false

namespace SqlRouting

/-! ## Streams -/

namespace TokenStream

/-- No tokens contain no placeholder. -/
@[simp] lemma placeholders_nil : placeholders [] = 0 := rfl

/-- The placeholders of two runs of tokens are those of the one and of the other. -/
@[simp] lemma placeholders_append (before after : List Token) :
    placeholders (before ++ after) = placeholders before + placeholders after :=
  List.countP_append

/-- A token in front that is no placeholder does not count. -/
lemma placeholders_cons_of_ne {token : Token} {tokens : List Token}
    (plain : token.kind ≠ .symbol .question) :
    placeholders (token :: tokens) = placeholders tokens := by
  simp [placeholders, plain]

/-- A placeholder in front counts as one. -/
lemma placeholders_cons_of_eq {token : Token} {tokens : List Token}
    (placeholder : token.kind = .symbol .question) :
    placeholders (token :: tokens) = placeholders tokens + 1 := by
  simp [placeholders, placeholder]

/-- After `n` tokens, the tokens left are those after the first `n`. -/
lemma ahead_advanceBy (n : Nat) (stream : TokenStream) :
    (stream.advanceBy n).ahead = stream.ahead.drop n := by
  induction n generalizing stream with
  | zero => rfl
  | succ n ih => rw [advanceBy, ih, advance, List.drop_tail]

/-- Moving on never changes the text. -/
lemma source_advanceBy (n : Nat) (stream : TokenStream) :
    (stream.advanceBy n).source = stream.source := by
  induction n generalizing stream with
  | zero => rfl
  | succ n ih => rw [advanceBy, ih, advance]

/-- Moving on never changes where the text ends. -/
lemma length_advanceBy (n : Nat) (stream : TokenStream) :
    (stream.advanceBy n).length = stream.length := by
  induction n generalizing stream with
  | zero => rfl
  | succ n ih => rw [advanceBy, ih, advance]

/-- After some tokens, the token read last is the last of them. -/
lemma previous_advanceBy {stream : TokenStream} {front rest : List Token} {last : Token}
    (ahead : stream.ahead = front ++ last :: rest) :
    (stream.advanceBy (front ++ [last]).length).previous = last := by
  induction front generalizing stream with
  | nil => simp [advanceBy, advance, current, ahead]
  | cons token front ih =>
    have next : stream.advance.ahead = front ++ last :: rest := by simp [advance, ahead]
    exact ih next

/-- Moving on by `m` and by `n` tokens is moving on by `m + n` tokens. -/
lemma advanceBy_advanceBy (m n : Nat) (stream : TokenStream) :
    (stream.advanceBy m).advanceBy n = stream.advanceBy (m + n) := by
  induction m generalizing stream with
  | zero => rw [Nat.zero_add, advanceBy]
  | succ m ih => rw [Nat.succ_add, advanceBy, advanceBy, ih]

/-- A group that is split off is the front of the tokens, and has at least one of them. -/
lemma eq_append_of_splitGroup {brackets : Brackets} {depth : Nat} {tokens group rest : List Token}
    (split : splitGroup? brackets depth tokens = some (group, rest)) :
    tokens = group ++ rest ∧ group ≠ [] := by
  induction tokens generalizing depth group with
  | nil => simp [splitGroup?] at split
  | cons token tokens ih =>
    simp only [splitGroup?] at split
    split at split
    · simp at split
    · split at split
      · simp only [Option.some.injEq, Prod.mk.injEq] at split
        obtain ⟨rfl, rfl⟩ := split
        simp
      · obtain ⟨⟨_, _⟩, inner, same⟩ := Option.map_eq_some_iff.1 split
        simp only [Prod.mk.injEq] at same
        obtain ⟨rfl, rfl⟩ := same
        simp [(ih inner).1]

end TokenStream

open TokenStream

/-! ## Recording -/

/-- The state after the current token. -/
def ParserState.advance (s : ParserState) : ParserState :=
  { s with stream := s.stream.advance }

/-- The state behind some tokens, whose placeholders are counted. -/
def ParserState.pass (s : ParserState) (tokens : List Token) : ParserState :=
  ⟨s.stream.advanceBy tokens.length, s.context.passParameters (placeholders tokens)⟩

/-- The state with more edits. -/
def ParserState.withEdits (s : ParserState) (edits : List Edit) : ParserState :=
  { s with context := { s.context with edits := s.context.edits ++ edits } }

namespace ParserState

variable {s : ParserState} {token : Token} {rest : List Token}

/-- Passing more tokens is passing all of them. -/
lemma pass_pass (s : ParserState) (tokens more : List Token) :
    (s.pass tokens).pass more = s.pass (tokens ++ more) := by
  simp only [pass, advanceBy_advanceBy, List.length_append, Context.passParameters,
    placeholders_append, Nat.add_assoc]

/-- Advancing over a token that is no placeholder passes it. -/
lemma advance_eq_pass (token : Token) (plain : token.kind ≠ .symbol .question) :
    s.advance = s.pass [token] := by
  rw [pass, placeholders_cons_of_ne plain]
  rfl

/-- Behind some tokens are those that follow them. -/
lemma ahead_pass (tokens : List Token) (ahead : s.stream.ahead = tokens ++ rest) :
    (s.pass tokens).stream.ahead = rest := by
  rw [pass, ahead_advanceBy, ahead, List.drop_left]

/-- The token in front is the current one. -/
lemma current_of_ahead (ahead : s.stream.ahead = token :: rest) : s.stream.current = token := by
  simp [TokenStream.current, ahead]

end ParserState

namespace Context

/-- Nothing is recorded that changes the number of placeholders. -/
def SameCount (before after : Context) : Prop :=
  after.parameters = before.parameters

/-- Nothing but edits is recorded. -/
structure EditsOnly (before after : Context) : Prop where
  /-- The tables stay. -/
  tables : after.tables = before.tables
  /-- The conditions stay. -/
  conditions : after.conditions = before.conditions
  /-- The number of placeholders stays. -/
  parameters : after.parameters = before.parameters

/-- Nothing but edits and conditions is recorded. -/
structure ConditionsOnly (before after : Context) : Prop where
  /-- The tables stay. -/
  tables : after.tables = before.tables
  /-- The number of placeholders stays. -/
  parameters : after.parameters = before.parameters

/-- Nothing but edits and tables is recorded. -/
structure TablesOnly (before after : Context) : Prop where
  /-- The conditions stay. -/
  conditions : after.conditions = before.conditions
  /-- The number of placeholders stays. -/
  parameters : after.parameters = before.parameters

end Context

/-- Recording edits alone is recording edits and tables alone. -/
lemma tablesOnly_of_editsOnly (c c' : Context) (h : c.EditsOnly c') : c.TablesOnly c' :=
  ⟨h.conditions, h.parameters⟩

/-- Recording edits alone is recording edits and conditions alone. -/
lemma conditionsOnly_of_editsOnly (c c' : Context) (h : c.EditsOnly c') : c.ConditionsOnly c' :=
  ⟨h.tables, h.parameters⟩

/-- Recording edits alone leaves the count. -/
lemma sameCount_of_editsOnly (c c' : Context) (h : c.EditsOnly c') : c.SameCount c' :=
  h.parameters

/-- Recording edits and tables alone leaves the count. -/
lemma sameCount_of_tablesOnly (c c' : Context) (h : c.TablesOnly c') : c.SameCount c' :=
  h.parameters

/-- Recording edits and conditions alone leaves the count. -/
lemma sameCount_of_conditionsOnly (c c' : Context) (h : c.ConditionsOnly c') : c.SameCount c' :=
  h.parameters

/-! ## Moves and runs -/

/-- A move of a parse, which records nothing but what `records` allows, with the tokens it passes. -/
inductive Move (records : Context → Context → Prop) : ParserState → List Token → ParserState → Prop
  /-- Passes a token that is no placeholder. -/
  | token {s : ParserState} {token : Token} {rest : List Token}
      (ahead : s.stream.ahead = token :: rest) (plain : token.kind ≠ .symbol .question) :
      Move records s [token] s.advance
  /-- Passes a placeholder and counts it. -/
  | placeholder {s : ParserState} {token : Token} {rest : List Token}
      (ahead : s.stream.ahead = token :: rest) (isPlaceholder : token.kind = .symbol .question) :
      Move records s [token] ⟨s.stream.advance, s.context.passParameters 1⟩
  /-- Passes a balanced group and counts the placeholders in it. -/
  | group {s : ParserState} {brackets : Brackets} {group rest : List Token}
      (split : splitGroup? brackets 0 s.stream.ahead = some (group, rest)) :
      Move records s group
        ⟨s.stream.advanceBy group.length, s.context.passParameters (placeholders group)⟩
  /-- Records something. -/
  | record {s : ParserState} {context : Context} (recorded : records s.context context) :
      Move records s [] { s with context }

/-- A sequence of moves, with the tokens passed in all of them. -/
inductive Run (records : Context → Context → Prop) : ParserState → List Token → ParserState → Prop
  /-- No move. -/
  | refl (s : ParserState) : Run records s [] s
  /-- A move in front of a run. -/
  | move {s s₁ s₂ : ParserState} {tokens more : List Token} (first : Move records s tokens s₁)
      (rest : Run records s₁ more s₂) : Run records s (tokens ++ more) s₂

variable {records : Context → Context → Prop} {s s₁ s₂ : ParserState} {tokens more : List Token}

namespace Move

/-- A move passes the tokens in front. -/
lemma ahead_eq (h : Move records s tokens s₁) : s.stream.ahead = tokens ++ s₁.stream.ahead := by
  cases h with
  | token ahead plain => simp [ParserState.advance, advance, ahead]
  | placeholder ahead isPlaceholder => simp [advance, ahead]
  | group split =>
    have same := (eq_append_of_splitGroup split).1
    rw [ahead_advanceBy, same, List.drop_left]
  | record recorded => simp

/-- A move takes the stream past the tokens it passes. -/
lemma stream_eq (h : Move records s tokens s₁) : s₁.stream = s.stream.advanceBy tokens.length := by
  cases h with
  | token ahead plain => rfl
  | placeholder ahead isPlaceholder => rfl
  | group split => rfl
  | record recorded => rfl

/-- A move counts the placeholders it passes. -/
lemma parameters_eq (same : ∀ c c', records c c' → c.SameCount c') (h : Move records s tokens s₁) :
    s₁.context.parameters = s.context.parameters + placeholders tokens := by
  cases h with
  | token ahead plain => simp [ParserState.advance, placeholders_cons_of_ne plain]
  | placeholder ahead isPlaceholder =>
    simp [Context.passParameters, placeholders_cons_of_eq isPlaceholder]
  | group split => simp [Context.passParameters]
  | record recorded => simpa [Context.SameCount] using same _ _ recorded

/-- A move that may record less is one that may record more. -/
lemma mono {allowed : Context → Context → Prop} (weaker : ∀ c c', records c c' → allowed c c')
    (h : Move records s tokens s₁) : Move allowed s tokens s₁ := by
  cases h with
  | token ahead plain => exact .token ahead plain
  | placeholder ahead isPlaceholder => exact .placeholder ahead isPlaceholder
  | group split => exact .group split
  | record recorded => exact .record (weaker _ _ recorded)

/-- What recording and counting preserve of the context, a move preserves. -/
lemma context_eq {γ : Type} (part : Context → γ) (recorded : ∀ c c', records c c' → part c' = part c)
    (counted : ∀ (c : Context) n, part (c.passParameters n) = part c)
    (h : Move records s tokens s₁) : part s₁.context = part s.context := by
  cases h with
  | token ahead plain => rfl
  | placeholder ahead isPlaceholder => exact counted _ _
  | group split => exact counted _ _
  | record allowed => exact recorded _ _ allowed

end Move

namespace Run

/-- One move is a run. -/
lemma single (h : Move records s tokens s₁) : Run records s tokens s₁ := by
  simpa using Run.move h (.refl s₁)

/-- A run after a run is a run. -/
lemma trans (h : Run records s tokens s₁) (h' : Run records s₁ more s₂) :
    Run records s (tokens ++ more) s₂ := by
  induction h with
  | refl s => exact h'
  | move first rest ih =>
    rw [List.append_assoc]
    exact .move first (ih h')

/-- Tokens in front can be passed. -/
lemma pass (tokens : List Token) {rest : List Token} (ahead : s.stream.ahead = tokens ++ rest) :
    Run records s tokens (s.pass tokens) := by
  induction tokens generalizing s with
  | nil => exact .refl s
  | cons token tokens ih =>
    have first : Run records s [token] (s.pass [token]) := by
      by_cases isPlaceholder : token.kind = .symbol .question
      · rw [ParserState.pass, placeholders_cons_of_eq isPlaceholder]
        exact .single (.placeholder ahead isPlaceholder)
      · rw [← ParserState.advance_eq_pass token isPlaceholder]
        exact .single (.token ahead isPlaceholder)
    have whole := first.trans (ih (ParserState.ahead_pass [token] ahead))
    rwa [ParserState.pass_pass] at whole

/-- A run with something recorded at its end is a run. -/
lemma record {context : Context} (h : Run records s tokens s₁)
    (recorded : records s₁.context context) : Run records s tokens { s₁ with context } := by
  have last : Run records s₁ [] { s₁ with context } := .single (.record recorded)
  have whole := h.trans last
  rwa [List.append_nil] at whole

/-- A run that may record less is one that may record more. -/
lemma mono {allowed : Context → Context → Prop} (weaker : ∀ c c', records c c' → allowed c c')
    (h : Run records s tokens s₁) : Run allowed s tokens s₁ := by
  induction h with
  | refl s => exact .refl s
  | move first rest ih => exact .move (first.mono weaker) ih

/-- A run passes the tokens in front. -/
lemma ahead_eq (h : Run records s tokens s₁) : s.stream.ahead = tokens ++ s₁.stream.ahead := by
  induction h with
  | refl s => rfl
  | move first rest ih => rw [first.ahead_eq, ih, List.append_assoc]

/-- A run that passes the tokens in front of others leaves these. -/
lemma ahead_of_append {rest : List Token} (h : Run records s tokens s₁)
    (ahead : s.stream.ahead = tokens ++ rest) : s₁.stream.ahead = rest :=
  List.append_cancel_left (h.ahead_eq.symm.trans ahead)

/-- A run takes the stream past the tokens it passes. -/
lemma stream_eq (h : Run records s tokens s₁) : s₁.stream = s.stream.advanceBy tokens.length := by
  induction h with
  | refl s => rfl
  | move first rest ih =>
    rw [ih, first.stream_eq, advanceBy_advanceBy, List.length_append]

/-- A run stays in its text. -/
lemma source_eq (h : Run records s tokens s₁) : s₁.stream.source = s.stream.source := by
  rw [h.stream_eq, source_advanceBy]

/-- A run keeps the end of its text. -/
lemma length_eq (h : Run records s tokens s₁) : s₁.stream.length = s.stream.length := by
  rw [h.stream_eq, length_advanceBy]

/-- A run leaves fewer tokens, by as many as it passes. -/
lemma remaining_eq (h : Run records s tokens s₁) :
    s.stream.remaining = tokens.length + s₁.stream.remaining := by
  rw [remaining, remaining, h.ahead_eq, List.length_append]

/-- After a run that passes tokens, the token read last is the last of them. -/
lemma previous_eq {front : List Token} {last : Token} (h : Run records s (front ++ [last]) s₁) :
    s₁.stream.previous = last := by
  rw [h.stream_eq]
  exact previous_advanceBy (by rw [h.ahead_eq, List.append_assoc, List.singleton_append])

/-- A run counts the placeholders it passes.

**Proof sketch.** Induction on the run: each move counts those it passes, and what it records
leaves the count as it is. -/
lemma parameters_eq (same : ∀ c c', records c c' → c.SameCount c') (h : Run records s tokens s₁) :
    s₁.context.parameters = s.context.parameters + placeholders tokens := by
  induction h with
  | refl s => simp
  | move first rest ih =>
    rw [ih, first.parameters_eq same, placeholders_append, Nat.add_assoc]

/-- What recording and counting preserve of the context, a run preserves. -/
lemma context_eq {γ : Type} (part : Context → γ) (recorded : ∀ c c', records c c' → part c' = part c)
    (counted : ∀ (c : Context) n, part (c.passParameters n) = part c)
    (h : Run records s tokens s₁) : part s₁.context = part s.context := by
  induction h with
  | refl s => rfl
  | move first rest ih => rw [ih, first.context_eq part recorded counted]

/-- A run that records edits alone counts the placeholders it passes. -/
lemma counts (h : Run Context.EditsOnly s tokens s₁) :
    s₁.context.parameters = s.context.parameters + placeholders tokens :=
  h.parameters_eq sameCount_of_editsOnly

/-- A run that records edits alone keeps the tables. -/
lemma tables_eq (h : Run Context.EditsOnly s tokens s₁) : s₁.context.tables = s.context.tables :=
  h.context_eq Context.tables (fun _ _ allowed => allowed.tables) fun _ _ => rfl

/-- A run that records edits and tables alone keeps the conditions. -/
lemma conditions_eq (h : Run Context.TablesOnly s tokens s₁) :
    s₁.context.conditions = s.context.conditions :=
  h.context_eq Context.conditions (fun _ _ allowed => allowed.conditions) fun _ _ => rfl

/-- A run that records edits alone keeps the conditions. -/
lemma conditions_eq_of_editsOnly (h : Run Context.EditsOnly s tokens s₁) :
    s₁.context.conditions = s.context.conditions :=
  (h.mono tablesOnly_of_editsOnly).conditions_eq

/-- A run that records edits and conditions alone counts the placeholders it passes. -/
lemma parameters_eq_of_conditionsOnly (h : Run Context.ConditionsOnly s tokens s₁) :
    s₁.context.parameters = s.context.parameters + placeholders tokens :=
  h.parameters_eq sameCount_of_conditionsOnly

/-- A run that records edits and conditions alone keeps the tables. -/
lemma tables_eq_of_conditionsOnly (h : Run Context.ConditionsOnly s tokens s₁) :
    s₁.context.tables = s.context.tables :=
  h.context_eq Context.tables (fun _ _ allowed => allowed.tables) fun _ _ => rfl

end Run

/-! ## Keeping count -/

/-- The state is one of a parse of `text`, and has counted exactly the placeholders among the tokens
passed so far. -/
structure KeepsCount (text : String) (s : ParserState) : Prop where
  /-- The state is one of the text. -/
  source : s.stream.source = text
  /-- The tokens passed so far have as many placeholders as are counted. -/
  passed : ∃ passed, Lexer.tokens text = passed ++ s.stream.ahead ∧
    s.context.parameters = placeholders passed

namespace KeepsCount

variable {text : String}

/-- At the start nothing is passed and nothing is counted. -/
lemma start (text : String) : KeepsCount text ⟨.ofText text, {}⟩ :=
  ⟨rfl, [], rfl, rfl⟩

/-- A run that records nothing else of the count keeps count. -/
lemma run (h : KeepsCount text s) (same : ∀ c c', records c c' → c.SameCount c')
    (run : Run records s tokens s₁) : KeepsCount text s₁ := by
  obtain ⟨source, passed, ahead, counted⟩ := h
  refine ⟨run.source_eq.trans source, passed ++ tokens, ?_, ?_⟩
  · rw [ahead, run.ahead_eq, List.append_assoc]
  · rw [run.parameters_eq same, counted, placeholders_append]

/-- A run that records nothing of the count keeps count. -/
lemma sameCount (h : KeepsCount text s) (run : Run Context.SameCount s tokens s₁) :
    KeepsCount text s₁ :=
  h.run (fun _ _ same => same) run

/-- A run that records edits alone keeps count. -/
lemma editsOnly (h : KeepsCount text s) (run : Run Context.EditsOnly s tokens s₁) :
    KeepsCount text s₁ :=
  h.run sameCount_of_editsOnly run

/-- A run that records edits and tables alone keeps count. -/
lemma tablesOnly (h : KeepsCount text s) (run : Run Context.TablesOnly s tokens s₁) :
    KeepsCount text s₁ :=
  h.run sameCount_of_tablesOnly run

/-- A run that records edits and conditions alone keeps count. -/
lemma conditionsOnly (h : KeepsCount text s) (run : Run Context.ConditionsOnly s tokens s₁) :
    KeepsCount text s₁ :=
  h.run sameCount_of_conditionsOnly run

/-- The tokens of a run stand in the text after as many placeholders as are counted. -/
lemma located (h : KeepsCount text s) (run : Run records s tokens s₁) :
    ∃ before after, Lexer.tokens text = before ++ tokens ++ after ∧
      s.context.parameters = placeholders before := by
  obtain ⟨source, passed, ahead, counted⟩ := h
  exact ⟨passed, s₁.stream.ahead, by rw [ahead, run.ahead_eq, List.append_assoc], counted⟩

end KeepsCount

end SqlRouting
