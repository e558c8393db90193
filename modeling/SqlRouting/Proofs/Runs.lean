import SqlRouting.Proofs.Steps

/-!
# Parsers that run

A parser runs if each of its successes is a run of moves from the state it starts in. The rules
of this module follow the way parsers are built, so that a parser is seen to run by its text.

## Main definitions

* `SqlRouting.Parser.RunsFrom` — a parser whose successes from certain states are runs.
* `SqlRouting.Parser.Runs` — a parser whose successes are runs.
* `SqlRouting.Parser.Repeats` — the items of a repetition, as they are read.

## Main results

* `SqlRouting.Parser.RunsFrom.bind`, `RunsFrom.look` — sequences of parsers that run.
* `SqlRouting.Parser.Runs.commaSeparated` — repetition of a parser that runs.
* `SqlRouting.Parser.repeats_of_commaSeparated`, `SqlRouting.Parser.commaSeparated_of_repeats` — repetition
  reads one item after the other.
-/

set_option autoImplicit false

namespace SqlRouting

open TokenStream

namespace Parser

variable {α β : Type} {records : Context → Context → Prop} {start : ParserState → Prop}

/-- From the states where `start` holds, each success of `p` is a run. -/
def RunsFrom (records : Context → Context → Prop) (start : ParserState → Prop) (p : Parser α) :
    Prop :=
  ∀ s a s', start s → p.run s = .ok (a, s') → ∃ tokens, Run records s tokens s'

/-- Each success of `p` is a run. -/
def Runs (records : Context → Context → Prop) (p : Parser α) : Prop :=
  RunsFrom records (fun _ => True) p

/-- Passing the current token is a run, unless it is a placeholder or the end of the input. -/
lemma run_token {s : ParserState} {kind : TokenKind} (same : s.stream.kind = kind)
    (plain : kind ≠ .symbol .question := by simp) (notEnd : kind ≠ .endOfInput := by simp) :
    Run records s [⟨kind, s.stream.current.span⟩] s.advance :=
  .single (.token (ahead_of_kind same notEnd) plain)

/-! ## Rules -/

/-- A parser that runs does so from any states. -/
lemma Runs.runsFrom {p : Parser α} (h : Runs records p) : RunsFrom records start p :=
  fun s a s' _ => h s a s' trivial

/-- The run of a success. -/
lemma Runs.exists_run {p : Parser α} (h : Runs records p) {s s' : ParserState} {a : α}
    (success : p.run s = .ok (a, s')) : ∃ tokens, Run records s tokens s' :=
  h s a s' trivial success

/-- A parser that may record less is one that may record more. -/
lemma Runs.mono {allowed : Context → Context → Prop} {p : Parser α}
    (weaker : ∀ c c', records c c' → allowed c c') (h : Runs records p) : Runs allowed p := by
  intro s a s' _ success
  obtain ⟨tokens, run⟩ := h.exists_run success
  exact ⟨tokens, run.mono weaker⟩

namespace RunsFrom

/-- Giving a value is no move. -/
lemma pure (a : α) : RunsFrom records start (pure a : Parser α) := by
  intro s b s' _ success
  obtain ⟨-, rfl⟩ := run_pure_ok.1 success
  exact ⟨[], .refl s⟩

/-- A sequence runs if its parts do. -/
lemma bind {p : Parser α} {f : α → Parser β} (hp : RunsFrom records start p)
    (hf : ∀ a, Runs records (f a)) : RunsFrom records start (p >>= f) := by
  intro s b s' holds success
  obtain ⟨a, s₁, first, second⟩ := run_bind_ok.1 success
  obtain ⟨tokens, run⟩ := hp s a s₁ holds first
  obtain ⟨more, rest⟩ := (hf a).exists_run second
  exact ⟨tokens ++ more, run.trans rest⟩

/-- What is seen by looking is known of the state from which a sequence goes on. -/
lemma look {p : Parser α} {value : ParserState → α} {f : α → Parser β} (looks : Looks p value)
    (hf : ∀ a, RunsFrom records (fun s => start s ∧ value s = a) (f a)) :
    RunsFrom records start (p >>= f) := by
  intro s b s' holds success
  rw [looks.run_bind] at success
  exact hf (value s) s b s' ⟨holds, rfl⟩ success

/-- A choice runs if both of its sides do. -/
lemma ite {c : Prop} [Decidable c] {p q : Parser α} (hp : c → RunsFrom records start p)
    (hq : ¬ c → RunsFrom records start q) : RunsFrom records start (if c then p else q) := by
  by_cases holds : c
  · rw [if_pos holds]
    exact hp holds
  · rw [if_neg holds]
    exact hq holds

/-- Passing a token that is neither a placeholder nor the end of the input is a move. -/
lemma advance {kind : TokenKind} (known : ∀ s, start s → s.stream.kind = kind)
    (plain : kind ≠ .symbol .question) (notEnd : kind ≠ .endOfInput) :
    RunsFrom records start advance := by
  intro s token s' holds success
  cases success
  exact ⟨_, run_token (known s holds) plain notEnd⟩

end RunsFrom

/-! ## Steps -/

/-- A failing parser runs, for want of successes. -/
lemma runs_unexpected (expected : Expectation) : RunsFrom records start (@unexpected α expected) :=
  fun _ _ _ _ success => absurd success run_unexpected_ne

/-- A failing parser runs, for want of successes. -/
lemma runs_unsupported (construct : Construct) (span : Span) :
    RunsFrom records start (@unsupported α construct span) :=
  fun _ _ _ _ success => absurd success run_unsupported_ne

/-- A result that needs no state is no move. -/
lemma runs_lift (result : Except ParseError α) :
    RunsFrom records start (liftM result : Parser α) := by
  intro s a s' _ success
  obtain ⟨-, rfl⟩ := run_lift_ok.1 success
  exact ⟨[], .refl s⟩

/-- Refusing keywords is no move. -/
lemma runs_refuseKeywords (keywords : List Keyword) : Runs records (refuseKeywords keywords) := by
  intro s a s' _ success
  rw [run_refuseKeywords_ok success]
  exact ⟨[], .refl s⟩

/-- Skipping a symbol other than the placeholder is a run. -/
lemma runs_skipSymbol {symbol : Symbol} (plain : symbol ≠ .question) :
    Runs records (skipSymbol symbol) := by
  intro s a s' _ success
  rw [run_skipSymbol] at success
  split at success
  · rename_i present
    cases success
    exact ⟨_, run_token present (by simpa using plain) (by simp)⟩
  · cases success
    exact ⟨[], .refl s⟩

/-- Skipping a keyword is a run. -/
lemma runs_skipKeyword (keywords : List Keyword) : Runs records (skipKeyword keywords) := by
  intro s a s' _ success
  rw [run_skipKeyword] at success
  split at success
  · rename_i present
    obtain ⟨keyword, -, kind⟩ := checkAnyKeyword_iff.1 present
    cases success
    exact ⟨_, run_token kind⟩
  · cases success
    exact ⟨[], .refl s⟩

/-- Accepting a symbol other than the placeholder is a run. -/
lemma runs_acceptSymbol {symbol : Symbol} (plain : symbol ≠ .question) :
    Runs records (acceptSymbol symbol) := by
  intro s token s' _ success
  obtain ⟨present, rfl, rfl⟩ := run_acceptSymbol_ok.1 success
  exact ⟨_, run_token present (by simpa using plain) (by simp)⟩

/-- Accepting a keyword is a run. -/
lemma runs_acceptKeyword (keyword : Keyword) : Runs records (acceptKeyword keyword) := by
  intro s token s' _ success
  obtain ⟨present, rfl, rfl⟩ := run_acceptKeyword_ok.1 success
  exact ⟨_, run_token present⟩

/-- Passing a parenthesised group, if there is one, is a run. -/
lemma runs_skipParentheses : Runs records skipParentheses := by
  intro s a s' _ success
  by_cases present : s.stream.kind = .symbol .leftParen
  · obtain ⟨group, rest, split, rfl⟩ := run_skipParentheses_of_eq present success
    exact ⟨group, .single (.group split)⟩
  · rw [run_skipParentheses_of_ne present success]
    exact ⟨[], .refl s⟩

/-- An allowed change of the context is a run. -/
lemma runs_modifyContext {change : Context → Context}
    (allowed : ∀ context, records context (change context)) :
    RunsFrom records start (modifyContext change) := by
  intro s a s' _ success
  cases success
  exact ⟨[], .single (.record (allowed s.context))⟩

/-- Passing the longest front of tokens of some class without placeholders is a run. -/
lemma run_takeWhile {wanted : Token → Bool}
    (plain : ∀ token, wanted token → token.kind ≠ .symbol .question) (ahead : List Token) :
    ∀ s : ParserState, s.stream.ahead = ahead → Run records s (ahead.takeWhile wanted)
      { s with stream := s.stream.advanceBy (ahead.takeWhile wanted).length } := by
  induction ahead with
  | nil => exact fun s _ => .refl s
  | cons token ahead ih =>
    intro s same
    rw [List.takeWhile_cons]
    split
    · rename_i isWanted
      have rest : s.advance.stream.ahead = ahead := by
        simp [ParserState.advance, TokenStream.advance, same]
      exact .move (.token same (plain token isWanted)) (ih s.advance rest)
    · exact .refl s

/-- Passing keywords one after the other is a run. -/
lemma runs_skipAllKeywords (keywords : List Keyword) :
    Runs records (skipAllKeywords keywords) := by
  intro s a s' _ success
  obtain ⟨stream, same, rfl⟩ := run_ofStream_ok.1 success
  cases same
  refine ⟨_, run_takeWhile (fun token wanted plain => ?_) s.stream.ahead s rfl⟩
  simp [plain, TokenKind.isKeywordIn] at wanted

/-! ## Repetition -/

/-- Repetition runs if what is repeated does. -/
lemma Runs.commaSeparated {item : Parser α} (h : Runs records item) :
    Runs records (commaSeparated item) := by
  have upTo (n : Nat) : Runs records (commaSeparatedUpTo item n) := by
    induction n with
    | zero => exact h.bind fun _ => .pure _
    | succ n ih =>
      refine h.bind fun first => .bind (runs_skipSymbol (by decide)) fun more => ?_
      exact .ite (fun _ => ih.bind fun _ => .pure _) fun _ => .pure _
  exact .look looks_remaining fun n => (upTo n).runsFrom

/-- A loop over a list runs if its steps do. -/
lemma Runs.foldlM {step : β → α → Parser β} (each : ∀ b a, Runs records (step b a)) (as : List α) :
    ∀ b, Runs records (as.foldlM step b) := by
  induction as with
  | nil => exact fun b => .pure b
  | cons a as ih =>
    intro b
    rw [List.foldlM_cons]
    exact (each b a).bind ih

/-- One or more of `item`, as they are read one after the other with commas between, up to a token
that is no comma. -/
inductive Repeats (item : Parser α) : ParserState → List α → ParserState → Prop
  /-- The last one. -/
  | one {s s' : ParserState} {a : α} (last : item.run s = .ok (a, s'))
      (noComma : s'.stream.kind ≠ .symbol .comma) : Repeats item s [a] s'
  /-- One with a comma after it. -/
  | cons {s s₁ s' : ParserState} {a : α} {others : List α} (first : item.run s = .ok (a, s₁))
      (comma : s₁.stream.kind = .symbol .comma) (rest : Repeats item s₁.advance others s') :
      Repeats item s (a :: others) s'

/-- No comma follows the items. -/
lemma Repeats.noComma {item : Parser α} {s s' : ParserState} {items : List α}
    (h : Repeats item s items s') : s'.stream.kind ≠ .symbol .comma := by
  induction h with
  | one last noComma => exact noComma
  | cons first comma rest ih => exact ih

/-- Repetition reads one item after the other, and stops only where no comma is.

**Proof sketch.** Induction on the bound on the commas, which is the number of tokens left. Each
comma is one of them, so the bound is reached only where none is left. -/
lemma repeats_of_commaSeparated {item : Parser α} (h : Runs records item) {s s' : ParserState}
    {items : List α} (success : (commaSeparated item).run s = .ok (items, s')) :
    Repeats item s items s' := by
  have upTo (n : Nat) : ∀ s items, s.stream.remaining ≤ n →
      (commaSeparatedUpTo item n).run s = .ok (items, s') → Repeats item s items s' := by
    induction n with
    | zero =>
      intro s items enough success
      obtain ⟨a, s₁, first, done⟩ := run_bind_ok.1 success
      obtain ⟨rfl, rfl⟩ := run_pure_ok.1 done
      obtain ⟨tokens, run⟩ := h.exists_run first
      have passed := run.remaining_eq
      refine .one first fun comma => ?_
      have left := remaining_pos comma (by simp)
      omega
    | succ n ih =>
      intro s items enough success
      obtain ⟨a, s₁, first, rest⟩ := run_bind_ok.1 success
      obtain ⟨tokens, run⟩ := h.exists_run first
      have passed := run.remaining_eq
      rw [run_skipSymbol_bind] at rest
      split at rest
      · rename_i comma
        obtain ⟨others, s₂, later, done⟩ := run_bind_ok.1 rest
        obtain ⟨rfl, rfl⟩ := run_pure_ok.1 done
        have commaPassed : Run records s₁ _ s₁.advance := run_token comma
        have fewer := commaPassed.remaining_eq
        refine .cons first comma (ih s₁.advance others ?_ later)
        simp only [List.length_cons, List.length_nil] at fewer
        omega
      · rename_i noComma
        obtain ⟨rfl, rfl⟩ := run_pure_ok.1 rest
        exact .one first noComma
  rw [commaSeparated, looks_remaining.run_bind] at success
  exact upTo _ s items (Nat.le_refl _) success

/-- Items that are read one after the other up to a token that is no comma are read by repetition.

**Proof sketch.** Induction on the items. Behind each comma there is one token less, so the bound on the
commas is not reached before the last item. -/
lemma commaSeparated_of_repeats {item : Parser α} (h : Runs records item) {s s' : ParserState}
    {items : List α} (repeats : Repeats item s items s') :
    (commaSeparated item).run s = .ok (items, s') := by
  have upTo : ∀ n, s.stream.remaining ≤ n →
      (commaSeparatedUpTo item n).run s = .ok (items, s') := by
    induction repeats with
    | @one s s' a last noComma =>
      intro n enough
      cases n with
      | zero => exact run_bind_ok.2 ⟨a, s', last, rfl⟩
      | succ n =>
        refine run_bind_ok.2 ⟨a, s', last, ?_⟩
        rw [run_skipSymbol_bind, if_neg noComma]
        rfl
    | @cons s s₁ s' a others first comma rest ih =>
      intro n enough
      obtain ⟨tokens, run⟩ := h.exists_run first
      have passed := run.remaining_eq
      have commaPassed : Run records s₁ _ s₁.advance := run_token comma
      have fewer := commaPassed.remaining_eq
      simp only [List.length_cons, List.length_nil] at fewer
      obtain ⟨m, rfl⟩ : ∃ m, n = m + 1 := Nat.exists_eq_add_one.2 (by omega)
      refine run_bind_ok.2 ⟨a, s₁, first, ?_⟩
      rw [run_skipSymbol_bind, if_pos comma]
      exact run_bind_ok.2 ⟨others, s', ih m (by omega), rfl⟩
  rw [commaSeparated, looks_remaining.run_bind]
  exact upTo _ (Nat.le_refl _)

end Parser

end SqlRouting
