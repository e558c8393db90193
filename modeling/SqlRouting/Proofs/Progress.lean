import Mathlib.Data.List.Perm.Subperm
import SqlRouting.Proofs.Unbounded

/-!
# Progress

Reading a statement comes to its end. The text has only so many tokens; each expression and each level of a
query begins at a later token than the one around it, each repetition goes on behind the token where it
went on last, and the end of the input is never passed. The bounds of the repetitions and of the nested
calls are reached only where no token is left, and the parsers are those that call themselves without bounds.

## Main definitions

* `SqlRouting.Statement.trace` — what happens while the statement in a text is read.

## Main results

* `SqlRouting.Statement.reading_progresses` — calls, repetitions and the tokens that are passed are in order,
  whether or not the text is accepted.
-/

set_option autoImplicit false

namespace SqlRouting

open SqlRouting.Parser

/-- Increasing numbers below `n` are no more than `n`. -/
lemma length_le_of_increasing {starts : List Nat} {n : Nat} (increasing : starts.Pairwise (· < ·))
    (below : ∀ left ∈ starts, left < n) : starts.length ≤ n := by
  have distinct : starts.Nodup := increasing.imp Nat.ne_of_lt
  have inRange : starts ⊆ List.range n := fun left isStart => List.mem_range.2 (below left isStart)
  have fewer := (List.subperm_of_subset distinct inRange).length_le
  rwa [List.length_range] at fewer

namespace Statement

/-- What happens while the statement in a text is read, up to its end or to the error. -/
def trace (env : Environment) (text : String) : List Event :=
  (Traced.statement env).events ⟨.ofText text, {}⟩

/-- What happens while a statement is read is in order. -/
lemma orderlyAt_trace (env : Environment) (text : String) :
    Traced.OrderlyAt ((Lexer.tokens text).length + 1) (Traced.statement env) ⟨.ofText text, {}⟩ :=
  Traced.orderly_statement (Nat.lt_succ_self _) _ (Nat.zero_le _) (Nat.le_refl _)

/-- A statement is read up to the end of the input. -/
lemma atEnd_of_run {env : Environment} {statement : Statement} {s s' : ParserState}
    (success : (Grammar.statement env).run s = .ok (statement, s')) : s'.stream.atEnd = true := by
  have finished {t : ParserState} {found : Statement}
      (rest : (Grammar.finish >>= fun _ => pure found).run t = .ok (statement, s')) :
      s'.stream.atEnd = true := by
    obtain ⟨_, s₁, ended, done⟩ := run_bind_ok.1 rest
    obtain ⟨-, rfl⟩ := run_pure_ok.1 done
    obtain ⟨skipped, s₂, -, ended⟩ := run_bind_ok.1 ended
    rw [looks_stream.run_bind] at ended
    split at ended
    · rename_i atEnd
      rwa [← (run_pure_ok.1 ended).2]
    · exact absurd ended run_unexpected_ne
  rw [Grammar.statement, (looks_checkKeyword _).run_bind, (looks_checkKeyword _).run_bind] at success
  dsimp only at success
  split at success
  · obtain ⟨query, s₁, -, rest⟩ := run_bind_ok.1 success
    exact finished rest
  · split at success
    · obtain ⟨insertion, s₁, -, rest⟩ := run_bind_ok.1 success
      exact finished rest
    · obtain ⟨_, s₁, -, rest⟩ := run_bind_ok.1 success
      exact finished rest

/-- All tokens of an accepted text are passed. -/
lemma passed_trace {env : Environment} {text : String} {statement : Statement}
    (accepted : Statement.ofText env text = .ok statement) :
    Event.passed (trace env text) = Lexer.tokens text := by
  obtain ⟨s', read⟩ := Grammar.ofText_iff.1 accepted
  have split : Lexer.tokens text = Event.passed (trace env text) ++ s'.stream.ahead :=
    (orderlyAt_trace env text).ahead_eq (Traced.parser_statement ▸ read)
  have ended : s'.stream.ahead = [] := by
    cases left : s'.stream.ahead with
    | nil => rfl
    | cons token rest =>
      have isEnd : token.kind = .endOfInput :=
        (TokenStream.kind_of_ahead_cons left).symm.trans (beq_iff_eq.1 (atEnd_of_run read))
      have isToken : token ∈ Lexer.tokens text := by
        rw [split, left]
        exact List.mem_append_right _ List.mem_cons_self
      exact absurd isEnd (Lexer.kind_ne_endOfInput isToken)
  rw [split, ended, List.append_nil]

/-- **Reading a statement progresses.** What is told by the trace of a text are the runs of the parser of
statements, whatever the dialect, the rules, the known columns and the text are, and whether or not the text
is accepted:

* each expression and each level of a query begins at a later token than those around it, and there are at
  most as many of them inside of each other as the text has tokens, and one more at the end of the input;
* each repetition goes on only behind a token that it has passed since its last turn began;
* the repetitions and the nested calls are those of parsers that call themselves without bounds, and their
  bounds are reached only where no token is left;
* the tokens that are passed are those of the text, one after the other, none of them the end of the input,
  so that they are no more than the text has; and all are passed if the text is accepted.

**Proof sketch.** The traced parser of statements is orderly wherever it begins. At the start of the text
all tokens are left, and a call around the whole statement would begin with one more. A parser that steps
past a token before it calls itself is the same with every bound that the tokens that are left fit in. -/
theorem reading_progresses (env : Environment) (text : String) :
    (Traced.statement env).parser = Grammar.statement env ∧
      (∀ starts, .call starts ∈ trace env text →
        starts.Pairwise (· < ·) ∧ starts.length ≤ (Lexer.tokens text).length + 1) ∧
      (∀ last next, .turn last next ∈ trace env text → next < last) ∧
      Grammar.Unbounded env ∧ (∀ left, .bound left ∈ trace env text → left = 0) ∧
      Event.passed (trace env text) <+: Lexer.tokens text ∧
      (∀ token ∈ Event.passed (trace env text), token.kind ≠ .endOfInput) ∧
      (Event.passed (trace env text)).length ≤ (Lexer.tokens text).length ∧
      ∀ statement, Statement.ofText env text = .ok statement →
        Event.passed (trace env text) = Lexer.tokens text := by
  obtain ⟨passed, inOrder⟩ := orderlyAt_trace env text
  refine ⟨Traced.parser_statement, fun starts isCall => ?_, fun last next => inOrder _,
    Grammar.unbounded env, fun left => inOrder _, passed, fun token isPassed => ?_, passed.length_le,
    fun _ => passed_trace⟩
  · obtain ⟨increasing, below⟩ := inOrder _ isCall
    exact ⟨increasing, length_le_of_increasing increasing below⟩
  · exact Lexer.kind_ne_endOfInput (passed.subset isPassed)

/-- After the only word of this text an expression is begun at the end of the input: there are two calls
inside of each other, one more than tokens. -/
example : trace {} "SELECT" =
    [.call [1], .pass ⟨.keyword .SELECT, ⟨0, 6⟩⟩, .bound 0, .call [0, 1], .bound 0] := by
  decide +kernel

end Statement

end SqlRouting
