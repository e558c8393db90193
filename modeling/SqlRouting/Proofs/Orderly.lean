import SqlRouting.Proofs.Traced

/-!
# Orderly parsers

The events of a traced parser are in order if it passes the tokens that are left one after the other and
never the end of the input, if every call begins at a later token than the call around it, if every
repetition goes on behind the token where it went on last, and if no bound is reached before the tokens are.

All of it is told from where a parser begins: between how many tokens are left at least and at most, and
how many are left where the call began that it is a part of. Each step past a token takes one off, and a
call inside of another is in order if one is taken off before it.

## Main definitions

* `SqlRouting.Event.InOrder` — an event is in order inside of a call.
* `SqlRouting.Traced.Orderly` — a traced parser whose events are in order.

## Main results

* `SqlRouting.Traced.Orderly.bind`, `Orderly.see` — a sequence is orderly if its parts are.
* `SqlRouting.Traced.Orderly.pass`, `Orderly.skip`, `Orderly.accept` — a step past a token takes one off.
* `SqlRouting.Traced.Orderly.call` — a call is orderly if what is called is, with only later calls in it.
* `SqlRouting.Traced.Orderly.commaSeparated` — a repetition is orderly if what it repeats is.
-/

set_option autoImplicit false

namespace SqlRouting

open TokenStream (Brackets splitGroup?)
open SqlRouting.Parser

/-- An event is in order inside of a call that began where `top` tokens were left. -/
def Event.InOrder (top : Nat) : Event → Prop
  | .pass _ => True
  | .call starts => starts.Pairwise (· < ·) ∧ ∀ left ∈ starts, left < top
  | .turn last next => next < last
  | .bound left => left = 0
  | .read _ => True

/-- What is in order inside of a call is so inside of the call around it, which began before. -/
lemma Event.InOrder.within {event : Event} {left top : Nat} (inOrder : event.InOrder left)
    (later : left < top) : (event.within left).InOrder top := by
  cases event with
  | call starts =>
    obtain ⟨increasing, inside⟩ := inOrder
    constructor
    · refine List.pairwise_append.2 ⟨increasing, List.pairwise_singleton _ _, fun n isInside m isStart => ?_⟩
      rw [List.mem_singleton.1 isStart]
      exact inside n isInside
    · intro n isStart
      rcases List.mem_append.1 isStart with isInside | isStart
      · exact Nat.lt_trans (inside n isInside) later
      · rwa [List.mem_singleton.1 isStart]
  | pass token => exact inOrder
  | turn last next => exact inOrder
  | bound left => exact inOrder
  | read count => exact inOrder

namespace Traced

variable {α β : Type} {top low high : Nat} {t : Traced α} {f : α → Traced β} {s s' : ParserState}

/-- The events of a traced parser from a state on are in order, inside of a call that began where `top`
tokens were left. -/
structure OrderlyAt (top : Nat) (t : Traced α) (s : ParserState) : Prop where
  /-- The tokens that are passed are the next ones. -/
  passed : Event.passed (t.events s) <+: s.stream.ahead
  /-- Every event is in order. -/
  inOrder : ∀ event ∈ t.events s, event.InOrder top

/-- The events of a traced parser are in order wherever at least `low` and at most `high` tokens are left,
inside of a call that began where `top` tokens were left. -/
def Orderly (top low high : Nat) (t : Traced α) : Prop :=
  ∀ s : ParserState, low ≤ s.stream.remaining → s.stream.remaining ≤ high → OrderlyAt top t s

/-- An orderly run that succeeds leaves the tokens that it does not pass. -/
lemma OrderlyAt.ahead_eq (orderly : OrderlyAt top t s) {a : α} (success : t.parser.run s = .ok (a, s')) :
    s.stream.ahead = Event.passed (t.events s) ++ s'.stream.ahead := by
  obtain ⟨rest, ahead⟩ := orderly.passed
  rw [t.stands success, TokenStream.ahead_advanceBy, ← ahead, List.drop_left]

/-- An orderly run that succeeds leaves no more tokens. -/
lemma OrderlyAt.remaining_le (orderly : OrderlyAt top t s) {a : α}
    (success : t.parser.run s = .ok (a, s')) : s'.stream.remaining ≤ s.stream.remaining := by
  rw [TokenStream.remaining, TokenStream.remaining, orderly.ahead_eq success, List.length_append]
  omega

namespace Orderly

/-! ## Sequences -/

/-- What is orderly in some places is so in fewer. -/
lemma mono {low' high' : Nat} (orderly : Orderly top low high t) (more : low ≤ low')
    (fewer : high' ≤ high) : Orderly top low' high' t :=
  fun s least most => orderly s (Nat.le_trans more least) (Nat.le_trans most fewer)

/-- A parser that leaves the tokens as they are is orderly. -/
lemma still (p : Parser α) [Rests p] : Orderly top low high (still p) :=
  fun _ _ _ => ⟨List.nil_prefix, fun _ no => absurd no List.not_mem_nil⟩

/-- Giving a value is orderly. -/
lemma pure (a : α) : Orderly top low high (pure a : Traced α) :=
  fun _ _ _ => ⟨List.nil_prefix, fun _ no => absurd no List.not_mem_nil⟩

/-- The events of a sequence are in order if those of its parts are. -/
lemma bind_at (first : OrderlyAt top t s)
    (rest : ∀ a s', t.parser.run s = .ok (a, s') → OrderlyAt top (f a) s') :
    OrderlyAt top (t >>= f) s := by
  cases read : t.parser.run s with
  | error error =>
    have parts := events_bind_error f read
    exact ⟨parts ▸ first.passed, parts ▸ first.inOrder⟩
  | ok result =>
    obtain ⟨a, s'⟩ := result
    have parts := events_bind_ok f read
    have second := rest a s' read
    constructor
    · rw [parts, Event.passed_append, first.ahead_eq read]
      exact (List.prefix_append_right_inj _).2 second.passed
    · rw [parts]
      exact List.forall_mem_append.2 ⟨first.inOrder, second.inOrder⟩

/-- A sequence is orderly if its first part is, and the second one wherever the first one ends. -/
lemma bind_of (first : Orderly top low high t)
    (rest : ∀ {s a s'}, low ≤ s.stream.remaining → s.stream.remaining ≤ high →
      t.parser.run s = .ok (a, s') → s'.stream.remaining ≤ s.stream.remaining →
      Orderly top s'.stream.remaining s'.stream.remaining (f a)) :
    Orderly top low high (t >>= f) := by
  intro s least most
  have begins := first s least most
  exact bind_at begins fun a s' success =>
    rest least most success (begins.remaining_le success) s' (Nat.le_refl _) (Nat.le_refl _)

/-- A sequence is orderly if its parts are. -/
lemma bind (first : Orderly top low high t) (rest : ∀ a, Orderly top 0 high (f a)) :
    Orderly top low high (t >>= f) :=
  bind_of first fun _ most _ fewer => (rest _).mono (Nat.zero_le _) (Nat.le_trans fewer most)

/-- A choice is orderly if its sides are. -/
lemma ite {c : Prop} [Decidable c] {u : Traced α} (yes : c → Orderly top low high t)
    (no : ¬c → Orderly top low high u) : Orderly top low high (if c then t else u) := by
  by_cases holds : c
  · rw [if_pos holds]
    exact yes holds
  · rw [if_neg holds]
    exact no holds

/-- A loop is orderly if its steps are. -/
lemma foldlM {γ : Type} {step : γ → α → Traced γ} (orderly : ∀ b a, Orderly top 0 high (step b a))
    (as : List α) (b : γ) : Orderly top 0 high (as.foldlM step b) := by
  induction as generalizing b with
  | nil => exact pure b
  | cons a as ih =>
    rw [List.foldlM_cons]
    exact (orderly b a).bind ih

/-! ## Looking -/

/-- A sequence that starts with looking is orderly if the rest is, where it is known how what is seen and
the number of tokens that are left belong together. -/
lemma see {p : Parser α} [rests : Rests p] {S : α → Nat → Prop}
    (sees : ∀ {s a s'}, p.run s = .ok (a, s') → S a s.stream.remaining)
    (rest : ∀ a left, low ≤ left → left ≤ high → S a left → Orderly top left left (f a)) :
    Orderly top low high (Traced.still p >>= f) := by
  intro s least most
  refine bind_at (still p s (Nat.le_refl _) (Nat.le_refl _)) fun a s' success => ?_
  have same := rests.stream_eq success
  exact rest a _ least most (sees success) s' (same ▸ Nat.le_refl _) (same ▸ Nat.le_refl _)

/-- A sequence that starts with looking is orderly if the rest is for all that may be seen. -/
lemma look {p : Parser α} [Rests p] (rest : ∀ a, Orderly top low high (f a)) :
    Orderly top low high (Traced.still p >>= f) :=
  see (S := fun _ _ => True) (fun _ => trivial) fun a _ least most _ => (rest a).mono least most

/-- What is seen of the kind of the current token is that a token is left if it is not the end. -/
lemma see_kind {f : TokenKind → Traced β} (rest : ∀ kind left, low ≤ left → left ≤ high →
      (kind ≠ .endOfInput → 1 ≤ left) → Orderly top left left (f kind)) :
    Orderly top low high (Traced.still kind >>= f) := by
  refine see (fun {s kind s'} success => ?_) rest
  cases success
  exact TokenStream.remaining_pos rfl

/-- Of the current token the same is seen. -/
lemma see_current {f : Token → Traced β} (rest : ∀ token left, low ≤ left → left ≤ high →
      (token.kind ≠ .endOfInput → 1 ≤ left) → Orderly top left left (f token)) :
    Orderly top low high (Traced.still current >>= f) := by
  refine see (fun {s token s'} success => ?_) rest
  cases success
  exact TokenStream.remaining_pos rfl

/-- What is seen of the kind after the current token is that two are left if it is not the end. -/
lemma see_peek {f : TokenKind → Traced β} (rest : ∀ kind left, low ≤ left → left ≤ high →
      (kind ≠ .endOfInput → 2 ≤ left) → Orderly top left left (f kind)) :
    Orderly top low high (Traced.still peek >>= f) := by
  refine see (fun {s kind s'} success notEnd => ?_) rest
  cases success
  have second : 0 < s.stream.advance.remaining := TokenStream.remaining_pos TokenStream.kind_advance notEnd
  have tail : s.stream.advance.remaining = s.stream.remaining - 1 := List.length_tail
  omega

/-- Where an operator is seen, a token is left. -/
lemma see_composite {f : Bool → Traced β} (rest : ∀ isComposite left, low ≤ left → left ≤ high →
      (isComposite = true → 1 ≤ left) → Orderly top left left (f isComposite)) :
    Orderly top low high (Traced.still checkComposite >>= f) := by
  refine see (fun {s isComposite s'} success isTrue => ?_) rest
  cases success
  refine TokenStream.remaining_pos rfl fun isEnd => ?_
  rw [isEnd] at isTrue
  cases isTrue

/-- Where a symbol is seen, a token is left. -/
lemma see_symbol {symbol : Symbol} {f : Bool → Traced β} (rest : ∀ present left, low ≤ left →
      left ≤ high → (present = true → 1 ≤ left) → Orderly top left left (f present)) :
    Orderly top low high (Traced.still (checkSymbol symbol) >>= f) := by
  refine see (fun {s present s'} success isTrue => ?_) rest
  cases success
  exact TokenStream.remaining_pos (TokenStream.check_symbol.1 isTrue) (by simp)

/-- Where a query in parentheses is seen, a token is left. -/
lemma see_queryInParentheses {f : Bool → Traced β} (rest : ∀ present left, low ≤ left →
      left ≤ high → (present = true → 1 ≤ left) → Orderly top left left (f present)) :
    Orderly top low high (Traced.still checkQueryInParentheses >>= f) := by
  refine see (fun {s present s'} success isTrue => ?_) rest
  cases success
  have opened := (Bool.and_eq_true_iff.1 isTrue).1
  exact TokenStream.remaining_pos (TokenStream.check_symbol.1 opened) (by simp)

/-- The number of tokens that are left may be looked at. -/
lemma see_remaining {f : Nat → Traced β}
    (rest : ∀ left, low ≤ left → left ≤ high → Orderly top left left (f left)) :
    Orderly top low high (Traced.still remaining >>= f) := by
  refine see (S := fun n left => n = left) (fun {s n s'} success => ?_) fun n left least most same => ?_
  · cases success
    rfl
  · exact same ▸ rest left least most

/-! ## Events -/

/-- An event in front that passes no token is in order with those behind it. -/
lemma cons_at {u : Traced α} {event : Event} (events : u.events s = event :: t.events s)
    (passesNone : event.token? = none) (inOrder : event.InOrder top) (orderly : OrderlyAt top t s) :
    OrderlyAt top u s := by
  constructor
  · rw [events, Event.passed_cons_of_none passesNone]
    exact orderly.passed
  · rw [events]
    exact List.forall_mem_cons.2 ⟨inOrder, orderly.inOrder⟩

/-- A call is orderly if what is called is, in the call itself, and if the call around it began before. -/
lemma call (later : high < top) (inside : ∀ left ≤ high, Orderly left left left t) :
    Orderly top low high (call t) := by
  intro s least most
  have before := Nat.lt_of_le_of_lt most later
  have orderly := inside _ most s (Nat.le_refl _) (Nat.le_refl _)
  have events : (Traced.call t).events s =
      .call [s.stream.remaining] :: (t.events s).map (Event.within s.stream.remaining) := rfl
  constructor
  · rw [events, Event.passed_cons_of_none rfl, Event.passed_within]
    exact orderly.passed
  · rw [events]
    refine List.forall_mem_cons.2 ⟨⟨List.pairwise_singleton _ _, ?_⟩, ?_⟩
    · exact fun left isStart => List.mem_singleton.1 isStart ▸ before
    · intro event isEvent
      obtain ⟨event, isInside, rfl⟩ := List.mem_map.1 isEvent
      exact (orderly.inOrder event isInside).within before

/-- The next turn of a repetition is orderly if it is behind the last one. -/
lemma again {last : Nat} (behind : high < last) (orderly : Orderly top low high t) :
    Orderly top low high (again last t) :=
  fun s least most => cons_at rfl rfl (Nat.lt_of_le_of_lt most behind) (orderly s least most)

/-- A bound is reached in order if no tokens are left. -/
lemma bounded (spent : high = 0) (orderly : Orderly top low high t) :
    Orderly top low high (bounded t) :=
  fun s least most => cons_at rfl rfl (Nat.le_zero.1 (spent ▸ most)) (orderly s least most)

/-- A reader is orderly if what it reads is. -/
lemma counted (orderly : Orderly top low high t) : Orderly top low high (counted t) := by
  intro s least most
  have inside := orderly s least most
  cases read : t.parser.run s with
  | error error =>
    have events := events_counted_error read
    exact ⟨events ▸ inside.passed, events ▸ inside.inOrder⟩
  | ok result =>
    have events := events_counted_ok read
    constructor
    · rw [events, Event.passed_append_read]
      exact inside.passed
    · rw [events]
      exact List.forall_mem_append.2 ⟨inside.inOrder, List.forall_mem_singleton.2 trivial⟩

/-! ## Steps -/

/-- A step past no more tokens than are left is orderly. -/
lemma ofStride {stride : Stride α}
    (enough : ∀ s : ParserState, low ≤ s.stream.remaining → stride.length s.stream ≤ s.stream.remaining) :
    Orderly top low high (ofStride stride) := by
  intro s least most
  have events : (Traced.ofStride stride).events s = (next (stride.length s.stream) s.stream).map .pass := rfl
  constructor
  · rw [events, Event.passed_pass, next_eq (enough s least)]
    exact List.prefix_append _ _
  · intro event isEvent
    obtain ⟨token, -, rfl⟩ := List.mem_map.1 (events ▸ isEvent)
    trivial

/-- Behind the current token there is one token less. -/
lemma behind (orderly : Orderly top (low - 1) (high - 1) t) (least : low ≤ s.stream.remaining)
    (most : s.stream.remaining ≤ high) :
    Orderly top s.stream.advance.remaining s.stream.advance.remaining t := by
  have tail : s.stream.advance.remaining = s.stream.remaining - 1 := List.length_tail
  exact orderly.mono (by omega) (by omega)

/-- A sequence that starts with a step past a token goes on with one token less. -/
lemma pass {f : Token → Traced β} (remains : 1 ≤ low)
    (rest : ∀ token, Orderly top (low - 1) (high - 1) (f token)) :
    Orderly top low high (Traced.advance >>= f) := by
  have step : Orderly top low high Traced.advance := ofStride fun s least => Nat.le_trans remains least
  refine bind_of step fun {s token s'} least most success _ => ?_
  cases success
  exact (rest _).behind least most

/-- A step past a token if its kind is wanted is orderly, unless the end of the input is wanted. -/
lemma ofStride_skip {wanted : TokenKind → Bool} (notEnd : wanted .endOfInput = false) :
    Orderly top low high (Traced.ofStride (.skip wanted)) := by
  refine ofStride fun s _ => ?_
  simp only [Stride.skip]
  split
  · rename_i isWanted
    exact TokenStream.remaining_pos rfl fun isEnd => by rw [isEnd, notEnd] at isWanted; cases isWanted
  · exact Nat.zero_le _

/-- A sequence that starts with a step past a token if its kind is wanted goes on with one token less, or
with the other answer. -/
lemma skip {wanted : TokenKind → Bool} {f : Bool → Traced β} (notEnd : wanted .endOfInput = false)
    (found : 1 ≤ high → Orderly top (low - 1) (high - 1) (f true))
    (other : Orderly top low high (f false)) :
    Orderly top low high (Traced.ofStride (.skip wanted) >>= f) := by
  refine bind_of (ofStride_skip notEnd) fun {s answer s'} least most success _ => ?_
  obtain ⟨stream, stepped, rfl⟩ := run_ofStream_ok.1 success
  simp only [Stride.skip] at stepped
  split at stepped
  · rename_i isWanted
    cases stepped
    have positive : 0 < s.stream.remaining :=
      TokenStream.remaining_pos rfl fun isEnd => by rw [isEnd, notEnd] at isWanted; cases isWanted
    exact (found (Nat.le_trans positive most)).behind least most
  · cases stepped
    exact other.mono least most

/-- A sequence that starts with a step past a required token goes on with one token less. -/
lemma accept {value? : Token → Option α} {expected : Expectation} {f : α → Traced β}
    (notEnd : ∀ {token value}, value? token = some value → token.kind ≠ .endOfInput)
    (rest : ∀ a, 1 ≤ high → Orderly top (low - 1) (high - 1) (f a)) :
    Orderly top low high (Traced.ofStride (.accept value? expected) >>= f) := by
  have some_left (s : ParserState) {a : α} (isValue : value? s.stream.current = some a) :
      0 < s.stream.remaining := TokenStream.remaining_pos rfl (notEnd isValue)
  have step : Orderly top low high (Traced.ofStride (.accept value? expected)) := by
    refine ofStride fun s _ => ?_
    simp only [Stride.accept]
    cases found : value? s.stream.current with
    | none => exact Nat.zero_le _
    | some a => exact some_left s found
  refine bind_of step fun {s a s'} least most success _ => ?_
  obtain ⟨stream, stepped, rfl⟩ := run_ofStream_ok.1 success
  simp only [Stride.accept] at stepped
  split at stepped
  · rename_i found
    cases stepped
    exact (rest a (Nat.le_trans (some_left s found) most)).behind least most
  · cases stepped

/-! ### The steps of parsers -/

/-- A sequence that starts with skipping a symbol. -/
lemma skipSymbol {symbol : Symbol} {f : Bool → Traced β}
    (found : 1 ≤ high → Orderly top (low - 1) (high - 1) (f true))
    (other : Orderly top low high (f false)) : Orderly top low high (Traced.skipSymbol symbol >>= f) :=
  skip rfl found other

/-- A sequence that starts with skipping a keyword. -/
lemma skipKeyword {keywords : List Keyword} {f : Bool → Traced β}
    (found : 1 ≤ high → Orderly top (low - 1) (high - 1) (f true))
    (other : Orderly top low high (f false)) :
    Orderly top low high (Traced.skipKeyword keywords >>= f) :=
  skip rfl found other

/-- A step past a symbol, if it is there. -/
lemma symbol (symbol : Symbol) : Orderly top low high (Traced.skipSymbol symbol) :=
  ofStride_skip rfl

/-- A step past a keyword, if it is there. -/
lemma keyword (keywords : List Keyword) : Orderly top low high (Traced.skipKeyword keywords) :=
  ofStride_skip rfl

/-- A sequence that starts with a required symbol. -/
lemma acceptSymbol {symbol : Symbol} {f : Token → Traced β}
    (rest : ∀ token, 1 ≤ high → Orderly top (low - 1) (high - 1) (f token)) :
    Orderly top low high (Traced.acceptSymbol symbol >>= f) := by
  refine accept (fun {token value} isSymbol => ?_) rest
  obtain ⟨same, -⟩ := Option.ite_none_right_eq_some.1 isSymbol
  rw [TokenKind.sameClass_symbol.1 same]
  simp

/-- A sequence that starts with a required keyword. -/
lemma acceptKeyword {keyword : Keyword} {f : Token → Traced β}
    (rest : ∀ token, 1 ≤ high → Orderly top (low - 1) (high - 1) (f token)) :
    Orderly top low high (Traced.acceptKeyword keyword >>= f) := by
  refine accept (fun {token value} isKeyword => ?_) rest
  obtain ⟨same, -⟩ := Option.ite_none_right_eq_some.1 isKeyword
  rw [beq_iff_eq.1 same]
  simp

/-- A sequence that starts with a required name. -/
lemma acceptIdentifier {f : String × Span → Traced β}
    (rest : ∀ name, 1 ≤ high → Orderly top (low - 1) (high - 1) (f name)) :
    Orderly top low high (Traced.acceptIdentifier >>= f) := by
  refine accept (fun {token value} isName isEnd => ?_) rest
  rw [nameAt?, isEnd] at isName
  cases isName

/-- A step past a placeholder is orderly where a token is left. -/
lemma placeholder (remains : 1 ≤ low) : Orderly top low high Traced.placeholder :=
  pass remains fun _ => look fun _ => (still _).bind fun _ => pure _

/-- A step past a group is orderly. -/
lemma skipGroup (brackets : Brackets) : Orderly top low high (Traced.skipGroup brackets) := by
  have step : Orderly top low high (Traced.ofStride (.group brackets)) := by
    refine ofStride fun s _ => ?_
    simp only [Stride.group]
    cases split : splitGroup? brackets 0 s.stream.ahead with
    | none => exact (List.takeWhile_prefix _).length_le
    | some parts =>
      obtain ⟨group, rest⟩ := parts
      rw [TokenStream.remaining, (TokenStream.eq_append_of_splitGroup split).1, List.length_append]
      exact Nat.le_add_right _ _
  exact step.bind fun _ => still _

/-- A step past parentheses is orderly. -/
lemma skipParentheses : Orderly top low high Traced.skipParentheses :=
  look fun _ => ite (fun _ => skipGroup _) fun _ => still _

/-- Steps past keywords are orderly. -/
lemma skipAllKeywords (keywords : List Keyword) :
    Orderly top low high (Traced.skipAllKeywords keywords) := by
  have upTo (n : Nat) : ∀ {low high}, high ≤ n → Orderly top low high (skipKeywordsUpTo keywords n) := by
    induction n with
    | zero => exact fun enough => bounded (Nat.le_zero.1 enough) (pure _)
    | succ n ih =>
      intro low high enough
      refine see_remaining fun left least most => skipKeyword (fun remains => ?_) (pure _)
      exact again (by omega) (ih (by omega))
  exact see_remaining fun left least most => upTo left (Nat.le_refl _)

/-- One or more of something with commas between are orderly if it is. -/
lemma commaSeparated {item : Traced α} (orderly : Orderly top 0 high item) :
    Orderly top low high (Traced.commaSeparated item) := by
  have upTo (n : Nat) : ∀ {low' high'}, high' ≤ high → high' ≤ n →
      Orderly top low' high' (commaSeparatedUpTo item n) := by
    induction n with
    | zero =>
      intro low' high' fewer enough
      exact bounded (Nat.le_zero.1 enough) ((orderly.mono (Nat.zero_le _) fewer).bind fun _ => pure _)
    | succ n ih =>
      intro low' high' fewer enough
      refine see_remaining fun left least most => ?_
      refine (orderly.mono (Nat.zero_le _) (by omega)).bind fun first => ?_
      refine skipSymbol (fun remains => ?_) (pure _)
      exact (again (by omega) (ih (by omega) (by omega))).bind fun _ => pure _
  exact see_remaining fun left least most => upTo left most (Nat.le_refl _)

end Orderly

end Traced

end SqlRouting
