import SqlRouting.Proofs.Closed
import SqlRouting.Proofs.Partition

/-!
# Tokens by themselves

What a token means is decided by its own source text. A text that has the same source texts, one after
the other with a space between, is read as the same tokens, whatever blanks, comments and tokens stood
around each of them before.

## Main definitions

* `SqlRouting.Lexer.sources` — the source texts of the tokens of a text.

## Main results

* `SqlRouting.Lexer.kindsOf_source` — a source text in front of another is read as its own token.
* `SqlRouting.Lexer.tokenize_sources` — source texts with spaces between them are read as their tokens.
-/

set_option autoImplicit false

namespace SqlRouting.Lexer

open Text

/-- The source texts of the tokens of a text, without the end of the input. -/
def sources (text : String) : List String :=
  (tokens text).map fun token => token.span.text text

section Source

variable {c : Char} {taken left : List Char} {kind : TokenKind}
  (starts : startsTrivia c (taken ++ left) = false) (read : scan c (taken ++ left) = (kind, left))

include read

/-- A token whose closing mark is missing leaves nothing. -/
lemma left_of_isOpen (isOpened : isOpen kind = true) : left = [] := by
  have noRest : (scan c (taken ++ left)).2 = [] := rest_of_isOpen (by rw [read, isOpened])
  rwa [read] at noRest

include starts

/-- The source text `c :: taken` of a token is read as this token, in front of any text that goes on with
no token; or alone, if its closing mark is missing. -/
lemma kindsOf_source {other : List Char} (apart : Apart other) (closed : isOpen kind = true → other = []) :
    kindsOf (c :: taken ++ other) = kind :: kindsOf other := by
  cases isOpened : isOpen kind with
  | false =>
    have piece : Piece ((c :: taken) ++ ([] ++ left)) [kind] ([] ++ left) :=
      .token starts read isOpened
    exact (piece.replace apart).kindsOf_eq
  | true =>
    obtain rfl := left_of_isOpen read isOpened
    obtain rfl := closed isOpened
    rw [List.append_nil] at starts read ⊢
    rw [← map_kind_tokensFrom 0, tokensFrom_of_cons (skipTrivia_token starts), read, List.map_cons,
      map_kind_tokensFrom]

/-- With a space behind it and further source texts, or alone, the source text of a token is read as this
token in front of what they are read as. -/
lemma kindsOf_source_cons {texts : List String} (closed : left = [] → texts = []) :
    kindsOf (String.intercalate " " (String.ofList (c :: taken) :: texts)).toList =
      kind :: kindsOf (String.intercalate " " texts).toList := by
  cases texts with
  | nil =>
    have alone := kindsOf_source starts read apart_nil fun _ => rfl
    rwa [List.append_nil, ← String.toList_ofList (l := c :: taken)] at alone
  | cons text texts =>
    have apart : Apart (' ' :: (String.intercalate " " (text :: texts)).toList) := apart_cons rfl _
    have first := kindsOf_source starts read apart
      fun isOpened => nomatch closed (left_of_isOpen read isOpened)
    have blank (cs : List Char) : kindsOf (' ' :: cs) = kindsOf cs :=
      (Cuts.single (.blank rfl)).kindsOf_eq
    rw [blank] at first
    rw [String.intercalate_cons_of_ne_nil (List.cons_ne_nil _ _), String.toList_append,
      String.toList_append, String.toList_ofList, List.append_assoc]
    exact first

end Source

/-- The source texts of the last tokens of a text, with spaces between them, are read as these tokens.

**Proof sketch.** Induction on the length of the part of the text that they are read from. Behind the
first source text comes a space, or nothing at all if it is the last one, as it is where its closing
mark is missing. -/
lemma kindsOf_sources {text : String} {front cs : List Char} (whole : text.toList = front ++ cs) :
    kindsOf (String.intercalate " " ((tokensFrom (byteLength text.toList) cs).map
      fun token => token.span.text text)).toList = kindsOf cs := by
  induction short : cs.length using Nat.strongRecOn generalizing cs front with
  | ind n ih =>
    rw [← map_kind_tokensFrom (byteLength text.toList) cs]
    cases skipped : skipTrivia cs with
    | nil =>
      rw [tokensFrom_of_nil skipped]
      exact kindsOf_nil
    | cons c rest =>
      obtain ⟨cuts, starts⟩ := cuts_of_skipTrivia skipped
      obtain ⟨gap, rfl, -⟩ := cuts.exists_trivia
      obtain ⟨taken, parts⟩ := suffix_scan c rest
      rw [tokensFrom_of_cons skipped]
      rcases read : scan c rest with ⟨kind, left⟩
      rw [read] at parts
      subst parts
      have place : text.toList = (front ++ gap) ++ ((c :: taken) ++ left) := by
        rw [whole, List.append_assoc, List.cons_append]
      have source : Span.text ⟨byteLength text.toList - byteLength (c :: (taken ++ left)),
          byteLength text.toList - byteLength left⟩ text = String.ofList (c :: taken) :=
        slice_of_left place
      have behind : text.toList = (front ++ gap ++ (c :: taken)) ++ left := by
        rw [place]
        simp only [List.append_assoc]
      have shorter : left.length < n := by
        rw [← short]
        simp only [List.length_append, List.length_cons]
        omega
      rw [List.map_cons, List.map_cons, map_kind_tokensFrom]
      dsimp only
      rw [source, kindsOf_source_cons starts read, ih left.length shorter behind rfl]
      rintro rfl
      rw [tokensFrom_of_nil rfl]
      rfl

/-- The source texts of the tokens of a text, with single spaces between them, are read as tokens of the
same kinds, the invalid ones among them: what a token means does not depend on what stands around it.

**Proof sketch.** Induction on the tokens. A token in front is read from its source text alone if a space
follows, because no token goes on over a space from a place where it could end; and one whose closing mark
is missing is the last one. -/
theorem tokenize_sources (text : String) :
    (tokenize (String.intercalate " " (sources text))).map Token.kind =
      (tokenize text).map Token.kind := by
  rw [tokenize, tokenize, List.map_append, List.map_append, map_kind_tokens, map_kind_tokens, sources]
  congr 1
  exact kindsOf_sources (List.nil_append _).symm

end SqlRouting.Lexer
