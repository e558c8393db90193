import SqlRouting.Proofs.Runs
import SqlRouting.Proofs.Traced

/-!
# Parsers that count

A traced parser counts if it counts the placeholders it passes, and if every count that is told in it is the
number of placeholders passed before. Whether it does is told from where it begins, because a placeholder may
only be passed by the step that counts it: every other step past a token has to know what token it is.

The rules of this module follow the way parsers are built, as those for runs do.

## Main definitions

* `SqlRouting.Event.Counted` — each count that is told is that of the placeholders passed before it.
* `SqlRouting.Traced.CountsFrom` — a traced parser that counts from certain states on.
* `SqlRouting.Traced.Counts` — a traced parser that counts.

## Main results

* `SqlRouting.Event.Counted.append` — the counts of two parts are right behind each other.
* `SqlRouting.Traced.CountsFrom.bind`, `CountsFrom.look` — a sequence counts if its parts do.
* `SqlRouting.Traced.CountsFrom.counted` — the count behind a reader that counts is right.
* `SqlRouting.Traced.Counts.commaSeparated` — a repetition counts if what it repeats does.
-/

set_option autoImplicit false

namespace SqlRouting

open TokenStream (Brackets placeholders placeholders_append placeholders_nil placeholders_cons_of_ne
  placeholders_cons_of_eq splitGroup?)
open SqlRouting.Parser

/-! ## Counts among events -/

namespace Event

variable {n count left : Nat} {events more : List Event}

/-- Each count that is told is that of the placeholders passed before it, where `n` of them are counted
at first. -/
def Counted (n : Nat) (events : List Event) : Prop :=
  ∀ before count after, events = before ++ .read count :: after → count = n + placeholders (passed before)

/-- Where no count is told, none is wrong. -/
lemma counted_of_forall_ne (silent : ∀ count, .read count ∉ events) : Counted n events :=
  fun _ count _ split => absurd (split ▸ List.mem_append_right _ List.mem_cons_self) (silent count)

/-- A count that is told alone is that of the placeholders counted at first. -/
lemma counted_singleton : Counted n [.read n] := by
  intro before count after split
  cases before with
  | nil =>
    cases split
    rfl
  | cons event before => simp at split

/-- The counts of two parts are right if those of the first one are, and those of the second one behind what
the first one passes. -/
lemma Counted.append (first : Counted n events) (second : Counted (n + placeholders (passed events)) more) :
    Counted n (events ++ more) := by
  intro before count after split
  rcases List.append_eq_append_iff.1 split with ⟨middle, rfl, isMore⟩ | ⟨middle, rfl, isTold⟩
  · rw [second middle count after isMore, passed_append, placeholders_append, Nat.add_assoc]
  · cases middle with
    | nil =>
      have told := second [] count after isTold.symm
      simpa [passed] using told
    | cons event middle =>
      cases isTold
      exact first before _ middle rfl

/-- An event in front that neither passes a token nor tells a count changes no count. -/
lemma Counted.cons {event : Event} (counted : Counted n events) (passesNone : event.token? = none)
    (silent : ∀ count, event ≠ .read count) : Counted n (event :: events) := by
  have lone : Counted n [event] :=
    counted_of_forall_ne fun count isTold => silent count (List.mem_singleton.1 isTold).symm
  refine lone.append ?_
  rw [passed_cons_of_none passesNone]
  exact counted

/-- What is counted inside of a call is what is counted. -/
lemma Counted.within (counted : Counted n events) : Counted n (events.map (within left)) := by
  intro before count after split
  obtain ⟨front, rest, rfl, rfl, told⟩ := List.map_eq_append_iff.1 split
  obtain ⟨event, behind, rfl, same, -⟩ := List.map_eq_cons_iff.1 told
  have isRead : event = .read count := by
    cases event with
    | read number => exact same
    | _ => cases same
  rw [passed_within]
  exact counted front count behind (isRead ▸ rfl)

end Event

namespace Traced

variable {α β : Type} {start : ParserState → Prop} {t : Traced α} {f : α → Traced β} {s s' : ParserState}

/-! ## Parsers that count -/

/-- From the state `s` on, a traced parser counts the placeholders it passes, and each count that is told in
it is right. -/
structure CountsAt (t : Traced α) (s : ParserState) : Prop where
  /-- Each count that is told is that of the placeholders passed before. -/
  counted : Event.Counted s.context.parameters (t.events s)
  /-- A run that succeeds has counted the placeholders it passes. -/
  parameters_eq {a : α} {s' : ParserState} : t.parser.run s = .ok (a, s') →
    s'.context.parameters = s.context.parameters + placeholders (Event.passed (t.events s))

/-- A traced parser counts from the states on where `start` holds. -/
def CountsFrom (start : ParserState → Prop) (t : Traced α) : Prop :=
  ∀ s, start s → CountsAt t s

/-- A traced parser counts. -/
def Counts (t : Traced α) : Prop :=
  CountsFrom (fun _ => True) t

/-- A parser that counts does so from any states on. -/
lemma Counts.countsFrom (counts : Counts t) : CountsFrom start t :=
  fun s _ => counts s trivial

/-- The counts of a sequence are right if those of its parts are. -/
lemma CountsAt.bind (first : CountsAt t s)
    (rest : ∀ a s', t.parser.run s = .ok (a, s') → CountsAt (f a) s') : CountsAt (t >>= f) s := by
  cases read : t.parser.run s with
  | error error =>
    have parts := events_bind_error f read
    refine ⟨parts ▸ first.counted, fun {b s'} success => ?_⟩
    obtain ⟨a, s₁, isRead, -⟩ := run_bind_ok.1 success
    rw [read] at isRead
    cases isRead
  | ok result =>
    obtain ⟨a, s₁⟩ := result
    have parts := events_bind_ok f read
    have second := rest a s₁ read
    have middle := first.parameters_eq read
    constructor
    · rw [parts]
      exact first.counted.append (middle ▸ second.counted)
    · intro b s' success
      obtain ⟨a', s₁', isRead, last⟩ := run_bind_ok.1 success
      rw [read] at isRead
      cases isRead
      rw [parts, Event.passed_append, placeholders_append, second.parameters_eq last, middle, Nat.add_assoc]

/-- A parser counts if its events tell no count and it counts the placeholders it passes. -/
lemma CountsAt.of_silent (silent : ∀ count, .read count ∉ t.events s)
    (parameters_eq : ∀ {a s'}, t.parser.run s = .ok (a, s') →
      s'.context.parameters = s.context.parameters + placeholders (Event.passed (t.events s))) :
    CountsAt t s :=
  ⟨Event.counted_of_forall_ne silent, parameters_eq⟩

/-- An event in front that neither passes a token nor tells a count changes no count. -/
lemma CountsAt.cons {u : Traced α} {event : Event} (counts : CountsAt t s) (parser : u.parser = t.parser)
    (events : u.events s = event :: t.events s) (passesNone : event.token? = none)
    (silent : ∀ count, event ≠ .read count) : CountsAt u s := by
  constructor
  · rw [events]
    exact counts.counted.cons passesNone silent
  · intro a s' success
    rw [events, Event.passed_cons_of_none passesNone]
    exact counts.parameters_eq (parser ▸ success)

namespace CountsFrom

/-! ### Sequences -/

/-- A parser that leaves the tokens and the count as they are counts. -/
lemma still {p : Parser α} [rests : Rests p] (runs : RunsFrom Context.SameCount start p) :
    CountsFrom start (still p) := by
  refine fun s holds => .of_silent (fun _ => List.not_mem_nil) fun {a s'} success => ?_
  obtain ⟨tokens, run⟩ := runs s a s' holds success
  have left := run.remaining_eq
  rw [rests.stream_eq success] at left
  have empty : tokens = [] := List.length_eq_zero_iff.1 (by omega)
  have counted := run.parameters_eq fun _ _ same => same
  rwa [empty] at counted

/-- Giving a value counts. -/
lemma pure (a : α) : CountsFrom start (pure a : Traced α) := by
  refine fun s _ => .of_silent (fun _ => List.not_mem_nil) fun {b s'} success => ?_
  rw [← (run_pure_ok.1 success).2]
  rfl

/-- A sequence counts if its parts do. -/
lemma bind (first : CountsFrom start t) (rest : ∀ a, Counts (f a)) : CountsFrom start (t >>= f) :=
  fun s holds => (first s holds).bind fun a s' _ => rest a s' trivial

/-- What is known of a state is kept by a parser that leaves it, and so is what the parser sees of it. -/
lemma see {p : Parser α} [Rests p] {seen : α → ParserState → Prop}
    (sees : ∀ {s a s'}, p.run s = .ok (a, s') → s' = s ∧ seen a s)
    (rest : ∀ a, CountsFrom (fun s => start s ∧ seen a s) (f a)) :
    CountsFrom start (Traced.still p >>= f) := by
  refine fun s holds => CountsAt.bind (.of_silent (fun _ => List.not_mem_nil) ?_) fun a s' success => ?_
  · intro a s' success
    rw [(sees success).1]
    rfl
  · obtain ⟨rfl, isSeen⟩ := sees success
    exact rest a s' ⟨holds, isSeen⟩

/-- What is seen by looking is known of the state from which a sequence goes on. -/
lemma look {p : Parser α} [Rests p] {value : ParserState → α} (looks : Looks p value)
    (rest : ∀ a, CountsFrom (fun s => start s ∧ value s = a) (f a)) :
    CountsFrom start (Traced.still p >>= f) := by
  refine see (fun {s a s'} success => ?_) rest
  cases (looks s).symm.trans success
  exact ⟨rfl, rfl⟩

/-- A choice counts if its sides do. -/
lemma ite {c : Prop} [Decidable c] {u : Traced α} (yes : c → CountsFrom start t)
    (no : ¬c → CountsFrom start u) : CountsFrom start (if c then t else u) := by
  by_cases holds : c
  · rw [if_pos holds]
    exact yes holds
  · rw [if_neg holds]
    exact no holds

/-! ### Calls, turns and bounds -/

/-- A call counts if what is called does. -/
lemma call (counts : CountsFrom start t) : CountsFrom start (call t) := by
  intro s holds
  have inside := counts s holds
  constructor
  · exact inside.counted.within.cons rfl fun _ same => by cases same
  · intro a s' success
    have events : (Traced.call t).events s =
        .call [s.stream.remaining] :: (t.events s).map (Event.within s.stream.remaining) := rfl
    rw [events, Event.passed_cons_of_none rfl, Event.passed_within]
    exact inside.parameters_eq success

/-- The next turn of a repetition counts if the repetition does. -/
lemma again {last : Nat} (counts : CountsFrom start t) : CountsFrom start (again last t) :=
  fun s holds => (counts s holds).cons rfl rfl rfl fun _ same => by cases same

/-- What is done at a bound counts if it does so elsewhere. -/
lemma bounded (counts : CountsFrom start t) : CountsFrom start (bounded t) :=
  fun s holds => (counts s holds).cons rfl rfl rfl fun _ same => by cases same

/-- A reader counts if what it reads does: the count behind it is then that of all placeholders passed. -/
lemma counted (counts : CountsFrom start t) : CountsFrom start (counted t) := by
  intro s holds
  have inside := counts s holds
  cases read : t.parser.run s with
  | error error =>
    have events := events_counted_error read
    exact ⟨events ▸ inside.counted, fun success => by cases read.symm.trans success⟩
  | ok result =>
    have events := events_counted_ok read
    constructor
    · rw [events, inside.parameters_eq read]
      exact inside.counted.append Event.counted_singleton
    · intro a s' success
      rw [events, Event.passed_append_read]
      exact inside.parameters_eq success

/-! ### Steps -/

/-- A step past tokens counts if none of them is a placeholder. -/
lemma ofStride {stride : Stride α}
    (plain : ∀ s, start s → placeholders (next (stride.length s.stream) s.stream) = 0) :
    CountsFrom start (ofStride stride) := by
  refine fun s holds => .of_silent (fun count isTold => ?_) fun {a s'} success => ?_
  · obtain ⟨token, -, same⟩ := List.mem_map.1 isTold
    cases same
  · obtain ⟨stream, -, rfl⟩ := run_ofStream_ok.1 success
    have events : (Traced.ofStride stride).events s =
        (next (stride.length s.stream) s.stream).map .pass := rfl
    rw [events, Event.passed_pass, plain s holds]
    rfl

/-- A step past a token counts where the token is known not to be a placeholder. -/
lemma advance (plain : ∀ s, start s → s.stream.kind ≠ .symbol .question) : CountsFrom start advance := by
  refine ofStride fun s holds => ?_
  have one : next (Stride.advance.length s.stream) s.stream = [s.stream.current] := rfl
  rw [one, placeholders_cons_of_ne (plain s holds), placeholders_nil]

/-- A sequence that starts with a step past a token goes on behind it. -/
lemma pass {f : Token → Traced β} (plain : ∀ s, start s → s.stream.kind ≠ .symbol .question)
    (rest : ∀ token, CountsFrom (fun s' => ∃ s, start s ∧ s' = s.advance) (f token)) :
    CountsFrom start (Traced.advance >>= f) := by
  refine fun s holds => (advance plain s holds).bind fun token s' success => ?_
  cases success
  exact rest _ _ ⟨s, holds, rfl⟩

/-- A step past a placeholder counts it. -/
lemma placeholder (isPlaceholder : ∀ s, start s → s.stream.kind = .symbol .question) :
    CountsFrom start placeholder := by
  refine fun s holds => .of_silent (fun count isTold => ?_) fun {a s'} success => ?_
  · have events : Traced.placeholder.events s = [.pass s.stream.current] := rfl
    rw [events] at isTold
    cases List.mem_singleton.1 isTold
  · cases success
    have passed : Event.passed (Traced.placeholder.events s) = [s.stream.current] := rfl
    rw [passed, placeholders_cons_of_eq (isPlaceholder s holds)]
    rfl

end CountsFrom

/-! ## Steps that know their tokens -/

section Steps

/-- A step past a token if its kind is wanted counts, unless placeholders are wanted. -/
lemma counts_skip {wanted : TokenKind → Bool} (plain : wanted (.symbol .question) = false) :
    Counts (ofStride (.skip wanted)) := by
  refine CountsFrom.ofStride fun s _ => ?_
  simp only [Stride.skip]
  split
  · rename_i isWanted
    have other : s.stream.kind ≠ .symbol .question := fun isPlaceholder => by
      rw [isPlaceholder, plain] at isWanted
      cases isWanted
    rw [next, placeholders_cons_of_ne other]
    rfl
  · rfl

/-- A step past a required token counts, unless placeholders are required. -/
lemma counts_accept {value? : Token → Option α} {expected : Expectation}
    (plain : ∀ {token value}, value? token = some value → token.kind ≠ .symbol .question) :
    Counts (ofStride (.accept value? expected)) := by
  refine CountsFrom.ofStride fun s _ => ?_
  simp only [Stride.accept]
  split
  · rename_i isSome
    obtain ⟨value, isValue⟩ := Option.isSome_iff_exists.1 isSome
    rw [next, placeholders_cons_of_ne (plain isValue)]
    rfl
  · rfl

/-- A step past a symbol, if it is there, counts. -/
lemma counts_skipSymbol {symbol : Symbol} (plain : symbol ≠ .question) : Counts (skipSymbol symbol) := by
  refine counts_skip (Bool.eq_false_iff.2 fun same => ?_)
  exact plain (TokenKind.symbol.inj (TokenKind.sameClass_symbol.1 same)).symm

/-- A step past a keyword, if it is there, counts. -/
lemma counts_skipKeyword (keywords : List Keyword) : Counts (skipKeyword keywords) :=
  counts_skip rfl

/-- A step past a required symbol counts. -/
lemma counts_acceptSymbol {symbol : Symbol} (plain : symbol ≠ .question) : Counts (acceptSymbol symbol) := by
  refine counts_accept fun {token value} isSymbol => ?_
  obtain ⟨same, -⟩ := Option.ite_none_right_eq_some.1 isSymbol
  rw [TokenKind.sameClass_symbol.1 same]
  simpa using plain

/-- A step past a required keyword counts. -/
lemma counts_acceptKeyword (keyword : Keyword) : Counts (acceptKeyword keyword) := by
  refine counts_accept fun {token value} isKeyword => ?_
  obtain ⟨same, -⟩ := Option.ite_none_right_eq_some.1 isKeyword
  rw [beq_iff_eq.1 same]
  simp

/-- A step past a required name counts. -/
lemma counts_acceptIdentifier : Counts acceptIdentifier := by
  refine counts_accept fun {token value} isName isPlaceholder => ?_
  rw [nameAt?, isPlaceholder] at isName
  cases isName

/-- A step past a group counts the placeholders in it. -/
lemma counts_skipGroup (brackets : Brackets) : Counts (skipGroup brackets) := by
  have parts (s : ParserState) : (skipGroup brackets).events s =
      (next ((Stride.group brackets).length s.stream) s.stream).map .pass := by
    change (ofStride (.group brackets)).events s ++ _ = _
    cases (ofStride (.group brackets)).parser.run s <;> exact List.append_nil _
  refine fun s _ => .of_silent (fun count isTold => ?_) fun {a s'} success => ?_
  · obtain ⟨token, -, same⟩ := List.mem_map.1 (parts s ▸ isTold)
    cases same
  · obtain ⟨group, rest, split, rfl⟩ := run_skipGroup_ok.1 success
    have ahead := (TokenStream.eq_append_of_splitGroup split).1
    have length : (Stride.group brackets).length s.stream = group.length := by
      simp only [Stride.group, split]
    have isGroup : next group.length s.stream = group := by
      have enough : group.length ≤ s.stream.remaining := by
        rw [TokenStream.remaining, ahead, List.length_append]
        omega
      have front := next_eq enough
      rw [ahead] at front
      exact (List.append_inj_left front (length_next _ _).symm).symm
    rw [parts, Event.passed_pass, length, isGroup]
    rfl

/-- A step past parentheses, if they are there, counts the placeholders in them. -/
lemma counts_skipParentheses : Counts skipParentheses := by
  refine .look (looks_checkSymbol _) fun opened => .ite (fun _ => (counts_skipGroup _).countsFrom) fun _ => ?_
  exact .still (runs_modifyContext fun _ => rfl)

end Steps

/-! ## Repetition -/

/-- A loop counts if its steps do. -/
lemma Counts.foldlM {step : β → α → Traced β} (each : ∀ b a, Counts (step b a)) (as : List α) :
    ∀ b, Counts (as.foldlM step b) := by
  induction as with
  | nil => exact fun b => .pure b
  | cons a as ih =>
    intro b
    rw [List.foldlM_cons]
    exact (each b a).bind ih

/-- Steps past keywords count. -/
lemma counts_skipAllKeywords (keywords : List Keyword) : Counts (skipAllKeywords keywords) := by
  have upTo (n : Nat) : Counts (skipKeywordsUpTo keywords n) := by
    induction n with
    | zero => exact .bounded (.pure _)
    | succ n ih =>
      refine .look looks_remaining fun left => .bind (counts_skipKeyword _).countsFrom fun found => ?_
      exact .ite (fun _ => .again ih) fun _ => .pure _
  exact .look looks_remaining fun n => (upTo n).countsFrom

/-- One or more of something with commas between count if it does. -/
lemma Counts.commaSeparated {item : Traced α} (counts : Counts item) : Counts (commaSeparated item) := by
  have upTo (n : Nat) : Counts (commaSeparatedUpTo item n) := by
    induction n with
    | zero => exact .bounded (counts.bind fun _ => .pure _)
    | succ n ih =>
      refine .look looks_remaining fun left => counts.countsFrom.bind fun first => ?_
      refine .bind (counts_skipSymbol (by decide)) fun more => .ite (fun _ => ?_) fun _ => .pure _
      exact .bind (.again ih) fun _ => .pure _
  exact .look looks_remaining fun n => (upTo n).countsFrom

end Traced

end SqlRouting
