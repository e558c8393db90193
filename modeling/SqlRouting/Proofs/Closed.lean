import SqlRouting.Proofs.Position

/-!
# Texts that leave nothing open

A text may be put in front of another without a change to the tokens of either, if it leaves no comment
and no quotation open and a separator stands between them. It need not be free of invalid tokens: a
character that belongs to no token is read alone.

## Main definitions

* `SqlRouting.Lexer.Piece` — a blank, a closed comment or a closed token at the front of a text.
* `SqlRouting.Lexer.Closed` — a text that leaves nothing open.
* `SqlRouting.Lexer.Parted` — a separator stands between two texts.

## Main results

* `SqlRouting.Lexer.Closed.kindsOf_append` — the tokens of a closed text in front of another.
* `SqlRouting.Lexer.Whole.closed` — a text that is read to its end leaves nothing open.
-/

set_option autoImplicit false

namespace SqlRouting.Lexer

open Text

/-! ## Pieces -/

/-- A blank, a closed comment or a closed token at the front of a text, with its kind if it is a token
and the rest of the text. -/
inductive Piece : List Char → List TokenKind → List Char → Prop
  /-- A blank or a comment. -/
  | trivia {cs rest : List Char} (cut : Cut cs [] rest) : Piece cs [] rest
  /-- A token, which may be invalid but does not take the rest of the text for that. -/
  | token {c : Char} {cs rest : List Char} {kind : TokenKind} (starts : startsTrivia c cs = false)
      (read : scan c cs = (kind, rest)) (closed : isOpen kind = false) : Piece (c :: cs) [kind] rest

/-- A separator stands between two texts: at the end of the first, which may be empty, or in front of
the second. -/
def Parted (cs other : List Char) : Prop :=
  cs = [] ∨ (∃ front d, cs = front ++ [d] ∧ isSeparator d = true) ∨ Apart other

namespace Piece

variable {cs rest : List Char} {kinds : List TokenKind}

/-- Cutting off a closed token, of which the first character is already taken, ignores what follows. -/
lemma local_scanClosed (c : Char) :
    Local fun cs kind rest => scan c cs = (kind, rest) ∧ isOpen kind = false :=
  local_scanTaken c fun _ closed => closed

/-- A cut is a piece. -/
lemma of_cut (cut : Cut cs kinds rest) : Piece cs kinds rest := by
  cases cut with
  | token starts read valid => exact .token starts read (isOpen_of_valid valid)
  | blank isBlank => exact .trivia (.blank isBlank)
  | hash closed => exact .trivia (.hash closed)
  | hyphens closed => exact .trivia (.hyphens closed)
  | block closed => exact .trivia (.block closed)

/-- A piece takes something off the front of a text. -/
lemma exists_front (piece : Piece cs kinds rest) : ∃ c taken, cs = c :: taken ++ rest := by
  cases piece with
  | trivia cut => exact cut.exists_front
  | @token c _ _ _ starts read closed =>
    obtain ⟨taken, rfl⟩ := (local_scanClosed c).suffix ⟨read, closed⟩
    exact ⟨c, taken, rfl⟩

/-- A piece ignores what follows. -/
lemma replace {front more rest other : List Char}
    (piece : Piece (front ++ (more ++ rest)) kinds (more ++ rest)) (apart : Apart other) :
    Piece (front ++ (more ++ other)) kinds (more ++ other) := by
  generalize whole : front ++ (more ++ rest) = cs at piece
  generalize left : more ++ rest = following at piece
  cases piece with
  | trivia cut =>
    subst whole left
    exact .trivia (cut.replace apart.detached)
  | @token c _ _ _ starts read closed =>
    subst left
    obtain ⟨taken, rfl⟩ := (local_scanClosed c).suffix ⟨read, closed⟩
    obtain rfl : front = c :: taken := List.append_cancel_right whole
    obtain ⟨read', -⟩ := (local_scanClosed c).replace ⟨read, closed⟩ apart.detached
    rw [← List.append_assoc] at starts
    have starts' := startsTrivia_replace starts apart.detached
    rw [List.append_assoc] at starts'
    exact .token starts' read' closed

/-- A separator at the end of a text is a piece alone, and anything may follow it. -/
lemma of_separator {front : List Char} {d : Char} (isEnd : isSeparator d = true)
    (piece : Piece (front ++ [d]) kinds []) (other : List Char) :
    Piece (front ++ d :: other) kinds other := by
  have alone : front = [] ∧ Cut [d] kinds [] := by
    generalize whole : front ++ [d] = cs at piece
    cases piece with
    | trivia cut =>
      subst whole
      obtain rfl := cut.end_alone isEnd
      exact ⟨rfl, cut⟩
    | @token c cs _ kind starts read closed =>
      rcases eq_nil_or_end [c] whole.symm with rfl | ⟨more, rfl⟩
      · obtain ⟨rfl, same⟩ := List.append_inj' (show front ++ [d] = [] ++ [c] from whole) rfl
        cases same
        refine ⟨rfl, .token starts read ?_⟩
        simp only [isSeparator, Bool.or_eq_true, beq_iff_eq] at isEnd
        rcases isEnd with ((rfl | rfl) | rfl) | rfl
        · cases starts
        all_goals
          cases read
          rfl
      · exact ((local_scanClosed c).noEnd (isBreak_of_isSeparator isEnd) ⟨read, closed⟩).elim
  obtain ⟨rfl, cut⟩ := alone
  exact of_cut (cut.of_separator isEnd other)

/-- A piece of a text is one of the text with another behind it, if a separator stands between. -/
lemma append {other : List Char} (piece : Piece cs kinds rest) (parted : Parted cs other) :
    Piece (cs ++ other) kinds (rest ++ other) ∧ Parted rest other := by
  obtain ⟨c, taken, rfl⟩ := piece.exists_front
  rcases parted with empty | ⟨front, d, same, isEnd⟩ | apart
  · simp at empty
  · rcases eq_nil_or_end _ same with rfl | ⟨more, rfl⟩
    · rw [same] at piece ⊢
      have again := piece.of_separator isEnd other
      exact ⟨by simpa using again, .inl rfl⟩
    · have again := piece.replace (apart_cons isEnd other)
      exact ⟨by simpa using again, .inr (.inl ⟨more, d, rfl, isEnd⟩)⟩
  · have alone : Piece ((c :: taken) ++ (rest ++ [])) kinds (rest ++ []) := by simpa using piece
    have again := alone.replace apart
    exact ⟨by simpa using again, .inr (.inr apart)⟩

/-- A piece gives the first kind, if it is a token. -/
lemma kindsOf_eq (piece : Piece cs kinds rest) : kindsOf cs = kinds ++ kindsOf rest := by
  cases piece with
  | trivia cut => exact (Cuts.single cut).kindsOf_eq
  | token starts read closed =>
    rw [← map_kind_tokensFrom 0, tokensFrom_of_cons (skipTrivia_token starts), read, List.map_cons,
      map_kind_tokensFrom]
    rfl

end Piece

/-! ## Closed texts -/

/-- A text leaves nothing open at its end: its comments and quotations are closed. -/
inductive Closed : List Char → Prop
  /-- Nothing. -/
  | nil : Closed []
  /-- A piece in front of the rest. -/
  | piece {cs rest : List Char} {kinds : List TokenKind} (first : Piece cs kinds rest)
      (others : Closed rest) : Closed cs

/-- The tokens of a closed text in front of another are those of the one and of the other, if a
separator stands between.

**Proof sketch.** Induction on the pieces of the text. Each ignores what follows, but for a separator at
the end, which is a piece alone. -/
lemma Closed.kindsOf_append {cs other : List Char} (closed : Closed cs) (parted : Parted cs other) :
    kindsOf (cs ++ other) = kindsOf cs ++ kindsOf other := by
  induction closed with
  | nil => rw [kindsOf_nil]; rfl
  | piece first others ih =>
    obtain ⟨again, parted'⟩ := first.append parted
    rw [again.kindsOf_eq, first.kindsOf_eq, ih parted', List.append_assoc]

/-- A text that is read to its end leaves nothing open. -/
lemma Whole.closed {text : String} (whole : Whole text) : Closed text.toList := by
  obtain ⟨kinds, cuts⟩ := whole
  generalize text.toList = cs at cuts ⊢
  generalize nothing : ([] : List Char) = rest at cuts
  induction cuts with
  | refl =>
    subst nothing
    exact .nil
  | cut first others ih => exact .piece (.of_cut first) (ih nothing)

end SqlRouting.Lexer
