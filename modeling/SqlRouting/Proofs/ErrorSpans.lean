import SqlRouting.Proofs.Faults

/-!
# Where errors point

A statement is refused at tokens of its text, so the span of an error starts at one of them and ends at
the same one or at a later one. Such a span stands within the text, between two characters. No error is
about an item to order or group by that has no name: every item that is read has a name or a position,
and merging levels and deriving columns keep them.

## Main results

* `SqlRouting.Lexer.Stretch.within` — a span from one token to another stands within the text.
* `SqlRouting.Statement.error_points` — where the error of a text points.
-/

set_option autoImplicit false

namespace SqlRouting

/-- A span from the start of a token to the end of it or of a later one starts in front of its end, and
both stand within the text, between two characters. -/
lemma Lexer.Stretch.within {text : String} {span : Span} (h : Stretch text span) :
    span.start ≤ span.stop ∧ span.stop ≤ Text.byteLength text.toList ∧
      Text.Between text span.start ∧ Text.Between text span.stop := by
  obtain ⟨before, part, after, first, last, split, isFirst, isLast, rfl⟩ := h
  obtain ⟨middle, rfl⟩ : ∃ middle, part = first :: middle := List.head?_eq_some_iff.1 isFirst
  have between := (covered_tokenize text).between (List.nil_append _).symm rfl
  have starts := (between first (by rw [split]; simp)).1
  have mem : last ∈ tokenize text := by
    rw [split]
    exact List.mem_append_left _ (List.mem_append_right _ (List.mem_of_getLast? isLast))
  have stops := (between last mem).2
  have proper := (ordered_tokenize text).2 first (by rw [split]; simp)
  rw [List.append_assoc] at split
  exact ⟨Nat.le_trans proper (stop_le_stop split isLast), stops.le_byteLength, starts, stops⟩

/-- A refusal is not about an item without a name. -/
lemma Refusal.named {text : String} {error : ParseError} (h : Refusal text error) (span : Span) :
    error ≠ .missingOrderItemName span := by
  cases h with
  | unexpected | unsupported | invalidColumn | lexical => exact nofun

namespace Statement

/-- The error of a text points at tokens of it: its span starts where a token does, ends where the same
token or a later one does, and stands within the text, between two characters. It is never about an item
to order or group by that has no name.

**Proof sketch.** A failure of a reader is passed on as it is, and each reader fails at the token in front
of it or with the span of an expression that it has read. Both start and end with tokens of the text, and
tokens stand between characters. An item that is read has a name or a number, so no derivation fails. -/
theorem error_points {env : Environment} {text : String} {error : ParseError}
    (failure : ofText env text = .error error) :
    Lexer.Stretch text error.span ∧
    (error.span.start ≤ error.span.stop ∧ error.span.stop ≤ Text.byteLength text.toList ∧
      Text.Between text error.span.start ∧ Text.Between text error.span.stop) ∧
    ∀ span, error ≠ .missingOrderItemName span := by
  have refusal := refusal_of_ofText failure
  exact ⟨refusal.stretch, refusal.stretch.within, refusal.named⟩

/-- An assignment to a sharding column is refused at the three tokens that name the column, behind a
character of two bytes. -/
theorem error_points_update :
    ∃ env text error, ofText env text = .error error ∧
      text = "INSERT INTO é VALUES (1) ON DUPLICATE KEY UPDATE é . a = 2" ∧ error.span = ⟨50, 56⟩ ∧
      Lexer.Stretch text error.span ∧ error.span.stop ≤ Text.byteLength text.toList ∧
      Text.Between text error.span.start := by
  let env : Environment := { rules := ⟨[⟨"é", ["a"], none, none⟩]⟩ }
  have failure : ofText env "INSERT INTO é VALUES (1) ON DUPLICATE KEY UPDATE é . a = 2" =
      .error (.unsupported (.updateOfShardingColumn "a") ⟨50, 56⟩) := by
    decide +kernel
  obtain ⟨stretch, ⟨-, within, between, -⟩, -⟩ := error_points failure
  exact ⟨env, _, _, failure, rfl, rfl, stretch, within, between⟩

end Statement

end SqlRouting
