import SqlRouting.Proofs.Moved

/-!
# Texts without a part

Some tokens of a text are cut off it, behind which nothing stands but possibly a semicolon. What is left
has the other tokens, as long as no token in front goes on where the part is gone. So a part ends with its
last token if nothing, a semicolon, a blank or another separator stands on one of its sides. Else it
depends on the tokens: a number in front of the part may go on with the hyphens that open a comment behind
it. So the part may also end where the next token starts, where comments are cut off with it, or at the
end of the text, where the semicolon is cut off too.

## Main definitions

* `SqlRouting.Text.without` — a text without what is written between two places.
* `SqlRouting.Lexer.EndsAt` — a place where a part of a text ends.

## Main results

* `SqlRouting.Lexer.grown_of_without` — the tokens of a text without a part.
-/

set_option autoImplicit false

namespace SqlRouting

/-! ## Characters -/

/-- A text without what is written between two places. -/
def Text.without (text : String) (start stop : Nat) : String :=
  slice text 0 start ++ slice text stop (byteLength text.toList)

/-- The characters of a text without a part of it. -/
lemma Text.toList_without {text : String} {front piece rest : List Char}
    (whole : text.toList = front ++ (piece ++ rest)) :
    (without text (byteLength front) (byteLength (front ++ piece))).toList = front ++ rest := by
  have whole' : text.toList = (front ++ piece) ++ rest := by rw [List.append_assoc, whole]
  rw [without, slice_front whole, slice_rest whole', String.toList_append, String.toList_ofList,
    String.toList_ofList]

namespace Lexer

open Text

/-! ## Ends of parts -/

/-- A part of a text may be taken to end at a place, where `behind` are the tokens behind it. -/
inductive EndsAt (text : String) (part behind : List Token) : Nat → Prop
  /-- Where its last token stops, if no token in front of the part goes on there. -/
  | tight {first last : Token} (isFirst : part.head? = some first) (isLast : part.getLast? = some last)
      (divided : Divided (slice text 0 first.span.start).toList
        (slice text last.span.stop (byteLength text.toList)).toList) :
      EndsAt text part behind last.span.stop
  /-- Where the next token starts. -/
  | loose {next : Token} (isNext : behind.head? = some next) : EndsAt text part behind next.span.start
  /-- At the end of the text. -/
  | whole : EndsAt text part behind (byteLength text.toList)

variable {text : String} {part behind before : List Token} {stop : Nat}

/-- Where a part ends that only a semicolon may stand behind, the same tokens are left as behind its last
one, or none are. -/
lemma EndsAt.exists_rest (ends : EndsAt text part behind stop) {front piece left : List Char}
    (whole : text.toList = front ++ (piece ++ left))
    (tokens : tokensFrom (byteLength text.toList) left = behind)
    (starts : ∀ first, part.head? = some first → first.span.start = byteLength front)
    (stops : ∀ last, part.getLast? = some last → last.span.stop = byteLength (front ++ piece))
    (ended : ∀ token ∈ behind.head?, token.kind = .symbol .semicolon) :
    ∃ trivia rest, left = trivia ++ rest ∧ stop = byteLength (front ++ piece ++ trivia) ∧
      Divided front rest ∧ (rest = [] ∨ tokensFrom (byteLength text.toList) rest = behind) := by
  have whole' : text.toList = (front ++ piece) ++ left := by rw [whole, List.append_assoc]
  cases ends with
  | @tight first last isFirst isLast divided =>
    rw [starts first isFirst, stops last isLast, slice_front whole, slice_rest whole',
      String.toList_ofList, String.toList_ofList] at divided
    exact ⟨[], left, rfl, by rw [List.append_nil, stops last isLast], divided, .inr tokens⟩
  | @loose next isNext =>
    obtain ⟨others, rfl⟩ := List.head?_eq_some_iff.1 isNext
    obtain ⟨c, rest, trivia, starts, start, again⟩ := cuts_of_token tokens
    obtain ⟨skipped, same⟩ := trivia.suffix
    have isSemicolon : (scan c rest).1 = .symbol .semicolon := by
      have first := again
      rw [tokensFrom_of_cons (skipTrivia_token starts)] at first
      rw [← ended next rfl, ← (List.cons.inj first).1]
    obtain rfl := eq_of_scan_semicolon isSemicolon
    refine ⟨skipped, ';' :: rest, same.symm, ?_, .inl ?_, .inr again⟩
    · rw [start, whole', ← same, ← List.append_assoc, byteLength_append, Nat.add_sub_cancel]
    · rintro d more ⟨rfl, rfl⟩
      rfl
  | whole =>
    exact ⟨left, [], (List.append_nil _).symm, by rw [whole'], .inl apart_nil.detached, .inl rfl⟩

/-! ## Tokens -/

/-- A part of the tokens of a text is written behind what is cut off for those in front, and the others
are written behind it. -/
lemma exists_piece {first : Token} (split : tokens text = before ++ (first :: part ++ behind))
    (valid : ∀ token ∈ before ++ (first :: part), token.kind.isBroken = false) :
    ∃ front piece left, text.toList = front ++ (piece ++ left) ∧
      Cuts text.toList (before.map Token.kind) (piece ++ left) ∧
      tokensFrom (byteLength text.toList) left = behind ∧ first.span.start = byteLength front ∧
      ∀ last, (first :: part).getLast? = some last → last.span.stop = byteLength (front ++ piece) := by
  obtain ⟨validBefore, validPart⟩ := List.forall_mem_append.1 valid
  obtain ⟨_, cutsBefore, same, -, -⟩ := cuts_of_tokens split validBefore
  obtain ⟨c, cs, trivia, -, start, again⟩ := cuts_of_token same
  have cuts := cutsBefore.trans trivia
  rw [List.append_nil] at cuts
  obtain ⟨front, whole⟩ := cuts.suffix
  obtain ⟨left, cutsPart, tokensLeft, -, stops⟩ := cuts_of_tokens again validPart
  obtain ⟨piece, isPiece⟩ := cutsPart.suffix
  refine ⟨front, piece, left, by rw [isPiece, whole], isPiece ▸ cuts, tokensLeft, ?_, fun last isLast => ?_⟩
  · rw [start, ← whole, byteLength_append, Nat.add_sub_cancel]
  · rw [stops last isLast, ← whole, ← isPiece, ← List.append_assoc, byteLength_append (front ++ piece),
      Nat.add_sub_cancel]

/-- A text without its last tokens, but possibly for a semicolon, grows to the text with them.

**Proof sketch.** The tokens in front of the part are cut off the text one by one, and they still are
where the rest of the text stands in place of the part. What is left behind it has the same tokens as
before, if anything is. -/
lemma grown_of_without {first : Token} (split : tokens text = before ++ (first :: part ++ behind))
    (valid : ∀ token ∈ tokens text, token.kind.isBroken = false)
    (ended : ∀ token ∈ behind.head?, token.kind = .symbol .semicolon)
    (ends : EndsAt text (first :: part) behind stop) : ∃ d more after,
      (after = [] ∨ after.map Token.kind = behind.map Token.kind) ∧
        Grown (without text first.span.start stop) text first.span.start d before (first :: more)
          after := by
  rw [split, ← List.append_assoc, List.forall_mem_append] at valid
  obtain ⟨validFront, validBehind⟩ := valid
  obtain ⟨front, piece, left, whole, cuts, tokensLeft, start, stops⟩ := exists_piece split validFront
  obtain ⟨trivia, rest, rfl, rfl, divided, leaves⟩ := ends.exists_rest whole tokensLeft
    (fun token isFirst => Option.some.inj isFirst ▸ start) stops ended
  have parts : text.toList = front ++ ((piece ++ trivia) ++ rest) := by
    rw [whole, List.append_assoc piece]
  have isShort := toList_without parts
  rw [← List.append_assoc front] at isShort
  rw [start]
  -- the tokens in front stand where they are
  obtain ⟨-, there, within⟩ := cuts.tokens_replace whole isShort split divided
  rcases leaves with rfl | tokensRest
  · have nothing (total : Nat) : tokensFrom total [] = [] := tokensFrom_of_nil (by rw [skipTrivia])
    refine ⟨_, part ++ behind, _, .inl (nothing _), grown_of_tokens isShort parts there ?_ within ?_⟩
    · rw [nothing, List.append_nil, split]
      rfl
    · simp [nothing]
  -- and so do those behind, but for their places
  · have kinds (total : Nat) : (tokensFrom total rest).map Token.kind = behind.map Token.kind := by
      rw [map_kind_tokensFrom, ← map_kind_tokensFrom (byteLength text.toList), tokensRest]
    refine ⟨_, part, _, .inr (kinds _),
      grown_of_tokens isShort parts there ?_ within fun token mem => ?_⟩
    · rw [split, tokensRest]
    · have isKind : token.kind ∈ behind.map Token.kind := kinds _ ▸ List.mem_map_of_mem mem
      obtain ⟨other, isOther, same⟩ := List.mem_map.1 isKind
      rw [← same]
      exact validBehind other isOther

end Lexer

end SqlRouting
