import Mathlib.Algebra.GroupWithZero.Nat
import SqlRouting.Proofs.Closed
import SqlRouting.Proofs.Move
import SqlRouting.Proofs.Segments

/-!
# Tokens of a text with insertions

A text that is inserted at a boundary of the reading, starts with a separator and leaves nothing open
changes no token around it: the tokens of the whole are those of the text with those of the inserted
text between them. What follows the inserted text may join it only if no separator stands between them.

## Main definitions

* `SqlRouting.Edit.Fits` — an insertion that changes no token of the text around it.
* `SqlRouting.Edit.weave` — the kinds of tokens with those of insertions between them.

## Main results

* `SqlRouting.Edit.kindsOf_applyInsertions`, `SqlRouting.Edit.tokenize_applyInsertions` — the tokens
  of a text with its insertions.
* `SqlRouting.Edit.placeholders_applyInsertions` — the number of placeholders among them.
-/

set_option autoImplicit false

namespace SqlRouting.Edit

open Text Lexer TokenStream

/-! ## Weaving -/

/-- The kinds of some tokens with those of insertions between them, each in front of the tokens that do
not start before its place. -/
def weave : List Token → List (Nat × String) → List TokenKind
  | tokens, [] => tokens.map Token.kind
  | tokens, (place, inserted) :: rest =>
    (tokens.takeWhile (·.span.start < place)).map Token.kind ++ kindsOf inserted.toList ++
      weave (tokens.dropWhile (·.span.start < place)) rest

/-- Weaving loses no token and adds those of the insertions. -/
lemma count_weave (kind : TokenKind) (tokens : List Token) (insertions : List (Nat × String)) :
    (weave tokens insertions).count kind = (tokens.map Token.kind).count kind +
      (insertions.map fun insertion => (kindsOf insertion.2.toList).count kind).sum := by
  induction insertions generalizing tokens with
  | nil => rfl
  | cons insertion rest ih =>
    have whole := List.takeWhile_append_dropWhile (p := fun token => token.span.start < insertion.1)
      (l := tokens)
    have split := congrArg (fun tokens => (tokens.map Token.kind).count kind) whole
    simp only [List.map_append, List.count_append] at split
    rw [weave, List.count_append, List.count_append, ih, List.map_cons, List.sum_cons, ← split]
    omega

/-- The last token comes last, if nothing is inserted behind its start. -/
lemma weave_concat {last : Token} {insertions : List (Nat × String)} (tokens : List Token)
    (bound : ∀ insertion ∈ insertions, insertion.1 ≤ last.span.start) :
    weave (tokens ++ [last]) insertions = weave tokens insertions ++ [last.kind] := by
  induction insertions generalizing tokens with
  | nil => exact List.map_append
  | cons insertion rest ih =>
    obtain ⟨within, others⟩ := List.forall_mem_cons.1 bound
    have behind : ¬ decide (last.span.start < insertion.1) = true := by simpa using within
    have same : ((tokens ++ [last]).takeWhile fun token => token.span.start < insertion.1) =
          tokens.takeWhile (·.span.start < insertion.1) ∧
        ((tokens ++ [last]).dropWhile fun token => token.span.start < insertion.1) =
          tokens.dropWhile (·.span.start < insertion.1) ++ [last] := by
      induction tokens with
      | nil => exact ⟨List.takeWhile_cons_of_neg behind, List.dropWhile_cons_of_neg behind⟩
      | cons token tokens ih =>
        rw [List.cons_append, List.takeWhile_cons, List.takeWhile_cons, List.dropWhile_cons,
          List.dropWhile_cons]
        split
        · exact ⟨congrArg _ ih.1, ih.2⟩
        · exact ⟨rfl, rfl⟩
    rw [weave, weave, same.1, same.2, ih _ others, ← List.append_assoc]

/-! ## Insertions that fit -/

/-- An insertion changes no token of the text around it. It stands at a boundary of the reading,
starts with a separator and leaves nothing open; it also ends with a separator, or one follows it. -/
structure Fits (text : String) (insertion : Nat × String) : Prop where
  /-- The reading of the text can be stopped at the place. -/
  boundary : Boundary text insertion.1
  /-- The inserted text starts with a separator. -/
  starts : ∃ c cs, insertion.2.toList = c :: cs ∧ isSeparator c = true
  /-- The inserted text leaves nothing open. -/
  closed : Closed insertion.2.toList
  /-- A separator stands between the inserted text and what follows it. -/
  ends : (∃ front d, insertion.2.toList = front ++ [d] ∧ isSeparator d = true) ∨
    ∀ front rest, text.toList = front ++ rest → byteLength front = insertion.1 → Apart rest

variable {text : String} {insertion : Nat × String} {inserts : List (Nat × String)}
variable {front rest : List Char} {last : Nat}

/-- Whatever is put behind an inserted text starts with a separator. -/
lemma Fits.apart (fits : Fits text insertion) (other : List Char) :
    Apart (insertion.2.toList ++ other) := by
  obtain ⟨c, cs, same, starts⟩ := fits.starts
  rw [same]
  exact apart_cons starts _

/-- The tokens of an inserted text and of what follows it do not join, if this starts with a separator
where it has to. -/
lemma Fits.kindsOf_append (fits : Fits text insertion) (whole : text.toList = front ++ rest)
    (place : byteLength front = insertion.1) {other : List Char}
    (follows : Apart rest → Apart other) :
    kindsOf (insertion.2.toList ++ other) = kindsOf insertion.2.toList ++ kindsOf other := by
  refine fits.closed.kindsOf_append (.inr ?_)
  exact fits.ends.imp id fun apart => follows (apart front rest whole place)

/-! ## Splicing -/

/-- The first insertion comes after the part of the text up to its place, to which the reading goes on. -/
lemma Fits.splits {kinds : List TokenKind} (inserts : List (Nat × String))
    (whole : text.toList = front ++ rest) (cuts : Cuts text.toList kinds rest)
    (fits : Fits text insertion) (later : byteLength front ≤ insertion.1) :
    ∃ middle rest' more, rest = middle ++ rest' ∧ Cuts rest more rest' ∧
      byteLength (front ++ middle) = insertion.1 ∧
      (splice text (byteLength front) (insertion :: inserts)).toList =
        middle ++ (insertion.2.toList ++ (splice text insertion.1 inserts).toList) := by
  obtain ⟨middle, rest', more, rfl, place, goesOn⟩ := fits.boundary.goes_on whole cuts later
  rw [← byteLength_append] at place
  exact ⟨middle, rest', more, rfl, goesOn, place, toList_splice_cons inserts whole place⟩

/-- Insertions into a part of a text that starts with a separator leave it so. -/
lemma apart_splice {kinds : List TokenKind} (whole : text.toList = front ++ rest)
    (cuts : Cuts text.toList kinds rest) (fits : ∀ insertion ∈ inserts, Fits text insertion)
    (later : ∀ insertion ∈ inserts, byteLength front ≤ insertion.1) (apart : Apart rest) :
    Apart (splice text (byteLength front) inserts).toList := by
  cases inserts with
  | nil => rwa [toList_splice_nil whole]
  | cons insertion inserts =>
    obtain ⟨fit, -⟩ := List.forall_mem_cons.1 fits
    obtain ⟨middle, rest', more, rfl, -, -, same⟩ :=
      fit.splits inserts whole cuts (later _ List.mem_cons_self)
    rw [same]
    cases middle with
    | nil => exact fit.apart _
    | cons c middle =>
      rintro d others ⟨⟩
      exact apart c _ rfl

/-- The tokens in front of a place are those that start before it. -/
lemma tokensFrom_split {total : Nat} {cs rest : List Char} {kinds : List TokenKind}
    (cuts : Cuts cs kinds rest) (bound : byteLength cs ≤ total)
    (valid : ∀ token ∈ tokensFrom total cs, token.kind.isBroken = false) :
    ((tokensFrom total cs).takeWhile (·.span.start < total - byteLength rest)).map Token.kind =
        kinds ∧
      (tokensFrom total cs).dropWhile (·.span.start < total - byteLength rest) =
        tokensFrom total rest := by
  obtain ⟨before, first⟩ := cuts.firstTokens bound
  obtain ⟨taken, rfl⟩ := cuts.suffix
  rw [byteLength_append] at bound
  rw [first.tokens] at valid ⊢
  obtain ⟨_, behind⟩ := firstTokens_of_valid (by omega) fun token mem =>
    valid token (List.mem_append_right _ mem)
  have isBefore : ∀ token ∈ before,
      decide (token.span.start < total - byteLength rest) = true := by
    intro token mem
    obtain ⟨-, proper, within⟩ := first.within token mem
    exact decide_eq_true (by omega)
  rw [List.takeWhile_append_of_pos isBefore, List.dropWhile_append_of_pos isBefore]
  cases after : tokensFrom total rest with
  | nil => exact ⟨by rw [List.takeWhile_nil, List.append_nil, first.kinds], rfl⟩
  | cons token others =>
    have within := (behind.within token (by simp [after])).1
    have isBehind : ¬ decide (token.span.start < total - byteLength rest) = true := by
      simpa using within
    refine ⟨?_, List.dropWhile_cons_of_neg isBehind⟩
    rw [List.takeWhile_cons_of_neg (p := fun token : Token =>
      decide (token.span.start < total - byteLength rest)) isBehind, List.append_nil, first.kinds]

/-- The tokens of a text with insertions at increasing places are those of the text with those of the
insertions between them.

**Proof sketch.** Induction on the insertions. What is inserted starts with a separator, so the text
before it is cut as before; and it is cut off what follows it, because a separator comes between. -/
lemma kindsOf_splice {kinds : List TokenKind} (whole : text.toList = front ++ rest)
    (cuts : Cuts text.toList kinds rest)
    (valid : ∀ token ∈ tokensFrom (byteLength text.toList) rest, token.kind.isBroken = false)
    (fits : ∀ insertion ∈ inserts, Fits text insertion)
    (later : ∀ insertion ∈ inserts, byteLength front ≤ insertion.1)
    (sorted : inserts.Pairwise fun a b => a.1 ≤ b.1) :
    kindsOf (splice text (byteLength front) inserts).toList =
      weave (tokensFrom (byteLength text.toList) rest) inserts := by
  induction inserts generalizing front rest kinds with
  | nil => rw [toList_splice_nil whole, weave, map_kind_tokensFrom]
  | cons insertion inserts ih =>
    obtain ⟨fit, others⟩ := List.forall_mem_cons.1 fits
    obtain ⟨after, sorted'⟩ := List.pairwise_cons.1 sorted
    obtain ⟨middle, rest', more, rfl, goesOn, place, same⟩ :=
      fit.splits inserts whole cuts (later _ List.mem_cons_self)
    have whole' : text.toList = (front ++ middle) ++ rest' := by rw [whole, List.append_assoc]
    have cuts' := cuts.trans goesOn
    have left : ∀ other ∈ inserts, byteLength (front ++ middle) ≤ other.1 := by
      intro other mem
      rw [place]
      exact after other mem
    have atPlace : byteLength text.toList - byteLength rest' = insertion.1 := by
      rw [whole', byteLength_append, place, Nat.add_sub_cancel]
    obtain ⟨before, behind⟩ := tokensFrom_split goesOn
      (by rw [whole, byteLength_append front]; exact Nat.le_add_left _ _) valid
    rw [atPlace] at before behind
    -- the insertions that come later
    have spliced := ih whole' cuts' (fun token mem => valid token
      (List.dropWhile_subset _ (by rw [behind]; exact mem))) others left sorted'
    have apart := apart_splice whole' cuts' others left
    rw [place] at spliced apart
    -- the parts of the text, each cut off the next
    have first : Cuts (middle ++ (insertion.2.toList ++ (splice text insertion.1 inserts).toList))
        more (insertion.2.toList ++ (splice text insertion.1 inserts).toList) :=
      have start : Cuts (middle ++ ([] ++ rest')) more ([] ++ rest') := goesOn
      start.replace (fit.apart (splice text insertion.1 inserts).toList).detached
    have second := fit.kindsOf_append whole' place apart
    rw [same, weave, before, behind, first.kindsOf_eq, second, spliced, List.append_assoc]

/-! ## All insertions -/

variable {edits : List Edit}

/-- The tokens of a text with all insertions of some edits are those of the text with those of the
insertions between them, if each insertion fits. -/
lemma kindsOf_applyInsertions
    (valid : ∀ token ∈ tokens text, token.kind.isBroken = false)
    (fits : ∀ insertion ∈ insertions edits, Fits text insertion) :
    kindsOf (applyInsertions text edits).toList =
      weave (tokens text) (inOrder edits) := by
  have whole : text.toList = [] ++ text.toList := rfl
  exact kindsOf_splice whole (.refl _) valid
    (fun insertion mem => fits insertion ((perm_inOrder edits).mem_iff.1 mem))
    (fun _ _ => Nat.zero_le _) (pairwise_inOrder edits)

/-- So are those of the whole text, with the end of the input. -/
lemma tokenize_applyInsertions (valid : ∀ token ∈ tokens text, token.kind.isBroken = false)
    (fits : ∀ insertion ∈ insertions edits, Fits text insertion) :
    (tokenize (applyInsertions text edits)).map Token.kind =
      weave (tokenize text) (inOrder edits) := by
  rw [tokenize, List.map_append, map_kind_tokens, kindsOf_applyInsertions valid fits, tokenize,
    weave_concat]
  · rfl
  · intro insertion mem
    exact (fits insertion ((perm_inOrder edits).mem_iff.1 mem)).boundary.between.le_byteLength

/-- Placeholders are counted by kind. -/
lemma placeholders_tokens (text : String) :
    placeholders (tokens text) = (kindsOf text.toList).count (.symbol .question) := by
  rw [kindsOf, List.count_eq_countP, List.countP_map]
  rfl

/-- The placeholders of a text with all insertions of some edits are those of the text and those of
the insertions, if each insertion fits. -/
lemma placeholders_applyInsertions
    (valid : ∀ token ∈ tokens text, token.kind.isBroken = false)
    (fits : ∀ insertion ∈ insertions edits, Fits text insertion) :
    placeholders (tokens (applyInsertions text edits)) = placeholders (tokens text) +
      ((insertions edits).map fun insertion => placeholders (tokens insertion.2)).sum := by
  rw [placeholders_tokens, kindsOf_applyInsertions valid fits, count_weave, map_kind_tokens,
    ((perm_inOrder edits).map _).sum_nat]
  simp only [placeholders_tokens]

end SqlRouting.Edit
