import SqlRouting.Proofs.Count
import SqlRouting.Proofs.Inserted

/-!
# Tokens and bound parameters of rewritten statements

A rewritten statement has the tokens of the original one with those of the inserted texts between them,
if no inserted text leaves a comment or a quotation open and nothing is inserted into an open comment at
the end of the original. So it takes the bound parameters of the original and those of the inserted
texts. Some of these texts are copies of expressions, so they may have placeholders: the rewritten
statement takes the same parameters only where they have none.

## Main results

* `SqlRouting.Statement.tokenize_rewritten` — the tokens of a rewritten statement.
* `SqlRouting.Statement.tokens_swallowed` — the last comment takes what is inserted behind it, and a
  copy without its quotation marks takes what follows it.
* `SqlRouting.Statement.placeholders_rewritten` — the placeholders of a rewritten statement.
* `SqlRouting.Statement.placeholders_of_copies` — the placeholders of copied expressions come on top.
-/

set_option autoImplicit false

namespace SqlRouting.Statement

open Grammar TokenStream

variable {env : Environment} {text : String} {statement : Statement}

/-- The insertions of an accepted statement fit, if their texts leave nothing open, and neither does the
original where something is inserted behind it. -/
lemma fits_of_ofText (once : env.dialect.clauses.count .tables ≤ 1)
    (success : ofText env text = .ok statement)
    (clear : Lexer.Whole text ∨ ∀ insertion ∈ Edit.insertions statement.context.edits,
      insertion.1 < Text.byteLength text.toList)
    (closed : ∀ insertion ∈ Edit.insertions statement.context.edits,
      Lexer.Closed insertion.2.toList) :
    (∀ token ∈ Lexer.tokens text, token.kind.isBroken = false) ∧
      ∀ insertion ∈ Edit.insertions statement.context.edits, Edit.Fits text insertion := by
  obtain ⟨valid, placed⟩ := placed_of_ofText once success
  refine ⟨valid, fun insertion mem => ?_⟩
  exact (placed insertion mem).fits (clear.imp id fun before => before insertion mem)
    (closed insertion mem)

/-! ## Tokens -/

/-- The tokens of a rewritten statement are those of the original, each inserted text in front of the
tokens that do not start before its place with the tokens it has alone, if no inserted text leaves a
comment or a quotation open, and neither does the original where something is inserted behind it.

**Proof sketch.** Each insertion stands where the reading of the text can be stopped, starts with a
separator and has one behind it. So what is before it is read as if nothing followed, it is read as if
it were alone, and the reading goes on where it was stopped. -/
theorem tokenize_rewritten (once : env.dialect.clauses.count .tables ≤ 1)
    (success : ofText env text = .ok statement)
    (clear : Lexer.Whole text ∨ ∀ insertion ∈ Edit.insertions statement.context.edits,
      insertion.1 < Text.byteLength text.toList)
    (closed : ∀ insertion ∈ Edit.insertions statement.context.edits,
      Lexer.Closed insertion.2.toList) :
    (Lexer.tokenize (Edit.applyInsertions text statement.context.edits)).map Token.kind =
      Edit.weave (Lexer.tokenize text) (Edit.inOrder statement.context.edits) := by
  obtain ⟨valid, fits⟩ := fits_of_ofText once success clear closed
  exact Edit.tokenize_applyInsertions valid fits

/-- The columns for an average come between the comment behind it and the next word; the comment at the
end is left as it is. -/
theorem tokenize_rewritten_average : ∃ (text inserted : String) (query : SelectStatement),
    text = "SELECT AVG(a) /* a */ FROM t -- t" ∧
      inserted = ", COUNT(a) AS AVG_COUNT_0 , SUM(a) AS AVG_SUM_0 " ∧
      ofText {} text = .ok (.select query) ∧
      Edit.insertions query.context.edits = [(22, inserted)] ∧
      (Lexer.tokenize (Edit.applyInsertions text query.context.edits)).map Token.kind =
        ((Lexer.tokenize text).take 5).map Token.kind ++ Lexer.kindsOf inserted.toList ++
          ((Lexer.tokenize text).drop 5).map Token.kind := by
  let text := "SELECT AVG(a) /* a */ FROM t -- t"
  let inserted := ", COUNT(a) AS AVG_COUNT_0 , SUM(a) AS AVG_SUM_0 "
  have seen : (query? {} text).map (fun query => Edit.insertions query.context.edits) =
      some [(22, inserted)] := by decide +kernel
  obtain ⟨query, success, insertions⟩ := exists_of_query seen
  have ordered : Edit.inOrder query.context.edits = [(22, inserted)] := by
    rw [Edit.inOrder, insertions, List.mergeSort_singleton]
  have rewritten := tokenize_rewritten (by decide) success
    (.inr (by
      show ∀ insertion ∈ Edit.insertions query.context.edits, _
      rw [insertions]
      decide +kernel))
    (by
      show ∀ insertion ∈ Edit.insertions query.context.edits, _
      rw [insertions]
      intro insertion mem
      exact Lexer.Whole.closed (by
        rw [List.mem_singleton.1 mem]
        decide +kernel))
  refine ⟨text, inserted, query, rfl, rfl, success, insertions, rewritten.trans ?_⟩
  show Edit.weave _ (Edit.inOrder query.context.edits) = _
  rw [ordered]
  decide +kernel

/-- What is inserted behind an average at the end of a statement is taken by the comment there, and the
copy of a string without its quotation marks takes the rest of the statement as a comment. -/
theorem tokens_swallowed :
    (∃ query, ofText {} "SELECT AVG(a) -- c" = .ok (.select query) ∧
      (Lexer.tokenize (Edit.applyInsertions "SELECT AVG(a) -- c" query.context.edits)).map Token.kind ≠
        Edit.weave (Lexer.tokenize "SELECT AVG(a) -- c") (Edit.inOrder query.context.edits)) ∧
    ∃ query, ofText {} "SELECT a FROM t ORDER BY f('--')" = .ok (.select query) ∧
      (Lexer.tokenize (Edit.applyInsertions "SELECT a FROM t ORDER BY f('--')"
          query.context.edits)).map Token.kind ≠
        Edit.weave (Lexer.tokenize "SELECT a FROM t ORDER BY f('--')")
          (Edit.inOrder query.context.edits) := by
  have seen (text : String)
      (found : (query? {} text).map (fun query => decide
        ((Lexer.tokenize (Edit.applyInsertions text query.context.edits)).map Token.kind ≠
          Edit.weave (Lexer.tokenize text) (Edit.inOrder query.context.edits))) = some true) :
      ∃ query, ofText {} text = .ok (.select query) ∧
        (Lexer.tokenize (Edit.applyInsertions text query.context.edits)).map Token.kind ≠
          Edit.weave (Lexer.tokenize text) (Edit.inOrder query.context.edits) := by
    obtain ⟨query, success, differs⟩ := exists_of_query found
    exact ⟨query, success, of_decide_eq_true differs⟩
  exact ⟨seen _ (by decide +kernel), seen _ (by decide +kernel)⟩

/-! ## Bound parameters -/

/-- The parameters of an accepted statement are counted as the placeholders of its text. -/
lemma parameters_eq (success : ofText env text = .ok statement) :
    statement.context.parameters = placeholders (Lexer.tokens text) := by
  cases statement with
  | select query =>
    obtain ⟨outer, below, -, -, -, -, parameters⟩ := query_read success
    exact parameters
  | insert insertion => exact (insertion_read success).1

/-- The placeholders of a rewritten statement are those that the statement counts and those of the texts
that are inserted, if these are read to their ends, and the original text as well where something is
inserted behind it. So it takes the parameters of the original exactly if no inserted text has a
placeholder.

**Proof sketch.** Each insertion stands where the reading of the text can be stopped, starts with a
separator and has one behind it, so the tokens of the rewritten text are those of the original with those
of the insertions between them. -/
theorem placeholders_rewritten {env : Environment} {text : String} {statement : Statement}
    (once : env.dialect.clauses.count .tables ≤ 1) (success : ofText env text = .ok statement)
    (clear : Lexer.Whole text ∨ ∀ insertion ∈ Edit.insertions statement.context.edits,
      insertion.1 < Text.byteLength text.toList)
    (whole : ∀ insertion ∈ Edit.insertions statement.context.edits, Lexer.Whole insertion.2) :
    placeholders (Lexer.tokenize (Edit.applyInsertions text statement.context.edits)) =
        statement.context.parameters + ((Edit.insertions statement.context.edits).map fun insertion =>
          placeholders (Lexer.tokenize insertion.2)).sum ∧
      (placeholders (Lexer.tokenize (Edit.applyInsertions text statement.context.edits)) =
          statement.context.parameters ↔
        ∀ insertion ∈ Edit.insertions statement.context.edits,
          placeholders (Lexer.tokenize insertion.2) = 0) := by
  obtain ⟨valid, fits⟩ := fits_of_ofText once success clear fun insertion mem =>
    (whole insertion mem).closed
  have counted := Edit.placeholders_applyInsertions valid fits
  simp only [Lexer.placeholders_tokenize, parameters_eq success]
  refine ⟨counted, ?_⟩
  rw [counted, Nat.add_eq_left, List.sum_eq_zero_iff_forall_eq_nat, List.forall_mem_map]

/-- A grouping with a placeholder in its condition: the columns and the ordering that are inserted have
none, so one parameter is taken. -/
theorem placeholders_rewritten_grouping : ∃ (text : String) (query : SelectStatement),
    ofText {} text = .ok (.select query) ∧ query.context.parameters = 1 ∧
      (Edit.insertions query.context.edits).length = 2 ∧
      placeholders (Lexer.tokenize (Edit.applyInsertions text query.context.edits)) = 1 := by
  let text := "SELECT AVG(a) FROM t WHERE a = ? GROUP BY f(b)"
  have seen : (query? {} text).map (fun query =>
      (query.context.parameters, Edit.insertions query.context.edits)) =
      some (1, [(14, ", COUNT(a) AS AVG_COUNT_0 , SUM(a) AS AVG_SUM_0 , f(b) AS GROUP_BY_DERIVED_0 "),
        (46, " ORDER BY f(b) ASC ")]) := by decide +kernel
  obtain ⟨query, success, same⟩ := exists_of_query seen
  obtain ⟨parameters, insertions⟩ := Prod.mk.inj same
  have rewritten := placeholders_rewritten (by decide) success
    (.inl (by decide +kernel)) (by
      show ∀ insertion ∈ Edit.insertions query.context.edits, Lexer.Whole insertion.2
      rw [insertions]
      decide +kernel)
  refine ⟨text, query, success, parameters, by rw [insertions]; rfl, ?_⟩
  refine (rewritten.2.2 ?_).trans parameters
  show ∀ insertion ∈ Edit.insertions query.context.edits, _
  rw [insertions]
  decide +kernel

/-- The placeholder of an average is copied twice, and a question mark in a string is copied without the
quotation marks, as a placeholder: neither rewritten statement takes the parameters of its original. -/
theorem placeholders_of_copies :
    (∃ query, ofText {} "SELECT AVG(?) FROM t WHERE a = ?" = .ok (.select query) ∧
      query.context.parameters = 2 ∧
      placeholders (Lexer.tokenize
        (Edit.applyInsertions "SELECT AVG(?) FROM t WHERE a = ?" query.context.edits)) = 4) ∧
    ∃ query, ofText {} "SELECT a FROM t ORDER BY f('?')" = .ok (.select query) ∧
      query.context.parameters = 0 ∧
      placeholders (Lexer.tokenize
        (Edit.applyInsertions "SELECT a FROM t ORDER BY f('?')" query.context.edits)) = 1 := by
  have seen (text : String) (counts : Nat × Nat)
      (found : (query? {} text).map (fun query => (query.context.parameters,
        placeholders (Lexer.tokenize (Edit.applyInsertions text query.context.edits)))) = some counts) :
      ∃ query, ofText {} text = .ok (.select query) ∧ query.context.parameters = counts.1 ∧
        placeholders (Lexer.tokenize (Edit.applyInsertions text query.context.edits)) = counts.2 := by
    obtain ⟨query, success, same⟩ := exists_of_query found
    obtain ⟨parameters, rewritten⟩ := Prod.mk.inj same
    exact ⟨query, success, parameters, rewritten⟩
  exact ⟨seen _ (2, 4) (by decide +kernel), seen _ (0, 1) (by decide +kernel)⟩

end SqlRouting.Statement
