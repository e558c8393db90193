import SqlRouting.Proofs.Cuts

/-!
# Where tokens stand

The tokens of a text are what the cuts of its reading give, and their spans are where these cuts
were made. So a token of an accepted text can be found in the text again, and the reading can be
stopped in front of any token and behind it.

## Main definitions

* `SqlRouting.Lexer.kindsOf` — the kinds of the tokens of some characters.
* `SqlRouting.Lexer.Boundary` — a place of a text where its reading can be stopped.

## Main results

* `SqlRouting.Text.slice_eq` — a slice between two places is what stands between them.
* `SqlRouting.Lexer.Cuts.firstTokens`, `Cuts.kindsOf_eq` — cuts give the first tokens.
* `SqlRouting.Lexer.cuts_of_tokens` — valid tokens are what cuts give.
* `SqlRouting.Lexer.boundary_start`, `boundary_stop` — a token starts and stops at a boundary.
* `SqlRouting.Lexer.Boundary.goes_on` — from one boundary the reading goes on to the next.
-/

set_option autoImplicit false

namespace SqlRouting

/-! ## Bytes -/

namespace Text

/-- The length of two texts is the sum of their lengths. -/
lemma byteLength_append (front rest : List Char) :
    byteLength (front ++ rest) = byteLength front + byteLength rest := by
  induction front with
  | nil => simp [byteLength]
  | cons c front ih => simp [byteLength, ih, Nat.add_assoc]

/-- A character has a byte at least. -/
lemma byteLength_cons_pos (c : Char) (cs : List Char) : 0 < byteLength (c :: cs) :=
  Nat.add_pos_left c.utf8Size_pos _

/-- After the bytes of the front of a text, the rest is left. -/
lemma dropBytes_append (front rest : List Char) :
    dropBytes? (byteLength front) (front ++ rest) = some rest := by
  induction front with
  | nil => rw [byteLength, dropBytes?]; rfl
  | cons c front ih =>
    obtain ⟨n, same⟩ := Nat.exists_eq_add_one.2 (byteLength_cons_pos c front)
    have size : n + 1 - c.utf8Size = byteLength front := by
      rw [← same, byteLength, Nat.add_sub_cancel_left]
    rw [same, List.cons_append, dropBytes?, if_pos (by rw [← same, byteLength]; omega), size, ih]

/-- The bytes of the front of a text make up the front. -/
lemma takeBytes_append (front rest : List Char) :
    takeBytes? (byteLength front) (front ++ rest) = some front := by
  induction front with
  | nil => rw [byteLength, takeBytes?]
  | cons c front ih =>
    obtain ⟨n, same⟩ := Nat.exists_eq_add_one.2 (byteLength_cons_pos c front)
    have size : n + 1 - c.utf8Size = byteLength front := by
      rw [← same, byteLength, Nat.add_sub_cancel_left]
    rw [same, List.cons_append, takeBytes?, if_pos (by rw [← same, byteLength]; omega), size, ih]
    rfl

/-- A slice between two places is what stands between them. -/
lemma slice_eq {text : String} {front middle rest : List Char}
    (whole : text.toList = front ++ (middle ++ rest)) :
    slice text (byteLength front) (byteLength front + byteLength middle) = String.ofList middle := by
  rw [slice, if_pos (Nat.le_add_right _ _), whole, dropBytes_append, Nat.add_sub_cancel_left]
  simp only [Option.bind_some, takeBytes_append]

/-- A slice between two places, each given by what is left behind it. -/
lemma slice_of_left {text : String} {front middle rest : List Char}
    (whole : text.toList = front ++ (middle ++ rest)) :
    slice text (byteLength text.toList - byteLength (middle ++ rest))
      (byteLength text.toList - byteLength rest) = String.ofList middle := by
  have start : byteLength text.toList - byteLength (middle ++ rest) = byteLength front := by
    rw [whole, byteLength_append, Nat.add_sub_cancel]
  have stop : byteLength text.toList - byteLength rest = byteLength front + byteLength middle := by
    rw [whole, byteLength_append, byteLength_append]
    omega
  rw [start, stop, slice_eq whole]

/-- What is written in front of a place. -/
lemma slice_front {text : String} {front rest : List Char} (whole : text.toList = front ++ rest) :
    slice text 0 (byteLength front) = String.ofList front := by
  have whole' : text.toList = [] ++ (front ++ rest) := whole
  have slice := slice_eq whole'
  rwa [byteLength, Nat.zero_add] at slice

/-- What is written behind a place. -/
lemma slice_rest {text : String} {front rest : List Char} (whole : text.toList = front ++ rest) :
    slice text (byteLength front) (byteLength text.toList) = String.ofList rest := by
  have whole' : text.toList = front ++ (rest ++ []) := by rw [List.append_nil, whole]
  have size : byteLength text.toList = byteLength front + byteLength rest := by
    rw [whole, byteLength_append]
  rw [size, slice_eq whole']

/-- A text is split at a place in one way. -/
lemma split_unique {front rest front' rest' : List Char} (whole : front ++ rest = front' ++ rest')
    (place : byteLength front = byteLength front') : front = front' ∧ rest = rest' := by
  rcases List.append_eq_append_iff.1 whole with ⟨middle, rfl, rfl⟩ | ⟨middle, rfl, rfl⟩
  all_goals
    cases middle with
    | nil => simp
    | cons c middle =>
      have longer := byteLength_cons_pos c middle
      rw [byteLength_append] at place
      omega

/-- A place of a text stands between two of its characters, or at one of its ends. -/
def Between (text : String) (place : Nat) : Prop :=
  ∃ front rest, text.toList = front ++ rest ∧ byteLength front = place

/-- A place between characters lies within the text. -/
lemma Between.le_byteLength {text : String} {place : Nat} (between : Between text place) :
    place ≤ byteLength text.toList := by
  obtain ⟨front, rest, whole, rfl⟩ := between
  rw [whole, byteLength_append]
  exact Nat.le_add_right _ _

/-- From one place between characters the text goes on to the next. -/
lemma Between.goes_on {text : String} {front rest : List Char} {place : Nat}
    (whole : text.toList = front ++ rest) (next : Between text place)
    (later : byteLength front ≤ place) :
    ∃ middle rest', rest = middle ++ rest' ∧ byteLength front + byteLength middle = place := by
  obtain ⟨front', rest', whole', rfl⟩ := next
  rcases List.append_eq_append_iff.1 (whole.symm.trans whole') with ⟨middle, rfl, rfl⟩ | ⟨middle, rfl, rfl⟩
  · exact ⟨middle, rest', rfl, (byteLength_append front middle).symm⟩
  · cases middle with
    | nil => exact ⟨[], rest, rfl, by simp [byteLength]⟩
    | cons c middle =>
      have longer := byteLength_cons_pos c middle
      rw [byteLength_append] at later
      omega

end Text

namespace Lexer

open Text

/-! ## Tokens and cuts -/

variable {cs rest : List Char} {kinds more : List TokenKind} {total : Nat}

/-- Skipping goes on after a blank or a comment, and stops at anything else. -/
lemma skipTrivia_cons (c : Char) (cs : List Char) : skipTrivia (c :: cs) =
    if isBlank c then skipTrivia cs
    else if c == '#' then skipLine cs
    else if c == '-' && startsWith (· == '-') cs then skipLine cs.tail
    else if c == '/' && startsWith (· == '*') cs then skipBlock cs.tail
    else c :: cs := by
  rw [skipTrivia.eq_def]
  dsimp only
  split
  · rfl
  split
  · rfl
  split
  · simp [startsWith]
  · simp [startsWith]
  · rename_i noHyphens noBlock
    split
    · rename_i hyphens
      obtain ⟨isHyphen, next⟩ := Bool.and_eq_true_iff.1 hyphens
      exact (noHyphens _ (beq_iff_eq.1 isHyphen) (eq_cons_of_startsWith next)).elim
    split
    · rename_i block
      obtain ⟨isSlash, next⟩ := Bool.and_eq_true_iff.1 block
      exact (noBlock _ (beq_iff_eq.1 isSlash) (eq_cons_of_startsWith next)).elim
    · rfl

/-- What starts a token is not skipped. -/
lemma skipTrivia_token {c : Char} (starts : startsTrivia c cs = false) :
    skipTrivia (c :: cs) = c :: cs := by
  simp only [startsTrivia, Bool.or_eq_false_iff] at starts
  obtain ⟨⟨⟨noBlank, noHash⟩, noHyphens⟩, noBlock⟩ := starts
  simp [skipTrivia_cons, noBlank, noHash, noHyphens, noBlock]

/-- A blank is skipped. -/
lemma skipTrivia_blank {c : Char} (isBlank : isBlank c = true) (cs : List Char) :
    skipTrivia (c :: cs) = skipTrivia cs := by
  rw [skipTrivia_cons, if_pos isBlank]

/-- The comment after a number sign is skipped. -/
lemma skipTrivia_hash (cs : List Char) :
    skipTrivia ('#' :: cs) = ((afterLine? cs).map skipTrivia).getD [] := by
  rw [skipTrivia_cons, if_neg (by decide), if_pos (by decide), skipLine_eq]

/-- The comment after two hyphens is skipped. -/
lemma skipTrivia_hyphens (cs : List Char) :
    skipTrivia ('-' :: '-' :: cs) = ((afterLine? cs).map skipTrivia).getD [] := by
  rw [skipTrivia_cons, if_neg (by decide), if_neg (by decide), if_pos (by rfl), List.tail_cons, skipLine_eq]

/-- An enclosed comment is skipped. -/
lemma skipTrivia_block (cs : List Char) :
    skipTrivia ('/' :: '*' :: cs) = ((afterBlock? cs).map skipTrivia).getD [] := by
  rw [skipTrivia_cons, if_neg (by decide), if_neg (by decide), if_neg (by simp), if_pos (by rfl),
    List.tail_cons, skipBlock_eq]

/-- A blank or a comment is skipped. -/
lemma Cut.skipTrivia_eq (cut : Cut cs [] rest) : skipTrivia cs = skipTrivia rest := by
  cases cut with
  | blank isBlank => exact skipTrivia_blank isBlank rest
  | hash closed => rw [skipTrivia_hash, closed, Option.map_some, Option.getD_some]
  | hyphens closed => rw [skipTrivia_hyphens, closed, Option.map_some, Option.getD_some]
  | block closed => rw [skipTrivia_block, closed, Option.map_some, Option.getD_some]

/-- A comment in front of something that is not skipped is closed. -/
lemma exists_closed {c : Char} {left : Option (List Char)}
    (found : (left.map skipTrivia).getD [] = c :: rest) :
    ∃ middle, left = some middle ∧ skipTrivia middle = c :: rest := by
  cases left with
  | none => cases found
  | some middle => exact ⟨middle, rfl, found⟩

/-- A text that has something in it that is not skipped starts there, or has a blank or a comment cut
off. -/
lemma exists_cut_of_skipTrivia {c : Char} (skipped : skipTrivia cs = c :: rest) :
    (cs = c :: rest ∧ startsTrivia c rest = false) ∨
      ∃ middle, Cut cs [] middle ∧ skipTrivia middle = c :: rest := by
  cases cs with
  | nil => cases skipped
  | cons d ds =>
    cases textFront d ds with
    | blank isBlank => exact .inr ⟨ds, .blank isBlank, (skipTrivia_blank isBlank ds).symm.trans skipped⟩
    | hash =>
      obtain ⟨middle, closed, left⟩ := exists_closed ((skipTrivia_hash _).symm.trans skipped)
      exact .inr ⟨middle, .hash closed, left⟩
    | hyphens =>
      obtain ⟨middle, closed, left⟩ := exists_closed ((skipTrivia_hyphens _).symm.trans skipped)
      exact .inr ⟨middle, .hyphens closed, left⟩
    | block =>
      obtain ⟨middle, closed, left⟩ := exists_closed ((skipTrivia_block _).symm.trans skipped)
      exact .inr ⟨middle, .block closed, left⟩
    | token starts =>
      rw [skipTrivia_token starts] at skipped
      cases skipped
      exact .inl ⟨rfl, starts⟩

/-- What is skipped in front of a token is cut off.

**Proof sketch.** Induction on the length of the text, which each blank or comment in front makes
shorter. -/
lemma cuts_of_skipTrivia {c : Char} (skipped : skipTrivia cs = c :: rest) :
    Cuts cs [] (c :: rest) ∧ startsTrivia c rest = false := by
  induction short : cs.length using Nat.strongRecOn generalizing cs with
  | ind n ih =>
    rcases exists_cut_of_skipTrivia skipped with ⟨rfl, starts⟩ | ⟨middle, first, left⟩
    · exact ⟨.refl _, starts⟩
    · obtain ⟨d, taken, rfl⟩ := first.exists_front
      simp only [List.length_append, List.length_cons] at short
      obtain ⟨cuts, starts⟩ := ih middle.length (by omega) left rfl
      exact ⟨.cut first cuts, starts⟩

/-- There are no tokens where everything is skipped. -/
lemma tokensFrom_of_nil (skipped : skipTrivia cs = []) : tokensFrom total cs = [] := by
  unfold tokensFrom
  split
  · rfl
  · rename_i left
    rw [skipped] at left
    cases left

/-- The first token starts with the first character that is not skipped. -/
lemma tokensFrom_of_cons {c : Char} (skipped : skipTrivia cs = c :: rest) : tokensFrom total cs =
    ⟨(scan c rest).1, ⟨total - byteLength (c :: rest), total - byteLength (scan c rest).2⟩⟩ ::
      tokensFrom total (scan c rest).2 := by
  rw [tokensFrom]
  split
  · rename_i left
    rw [skipped] at left
    cases left
  · rename_i left
    rw [skipped] at left
    cases left
    rfl

/-- Where a text starts with blanks and comments, its tokens are those after them. -/
lemma Cut.tokensFrom_trivia (cut : Cut cs [] rest) : tokensFrom total cs = tokensFrom total rest := by
  have same := cut.skipTrivia_eq
  cases skipped : skipTrivia rest with
  | nil => rw [tokensFrom_of_nil skipped, tokensFrom_of_nil (same.trans skipped)]
  | cons c left =>
    rw [tokensFrom_of_cons skipped, tokensFrom_of_cons (same.trans skipped)]

/-- Where a text starts with a token, this is its first token. -/
lemma Cut.tokensFrom_token {kind : TokenKind} (cut : Cut cs [kind] rest) : tokensFrom total cs =
    ⟨kind, ⟨total - byteLength cs, total - byteLength rest⟩⟩ :: tokensFrom total rest := by
  cases cut with
  | token starts read valid => rw [tokensFrom_of_cons (skipTrivia_token starts), read]

/-- A cut gives one token at most, which is valid. -/
lemma Cut.kinds_cases (cut : Cut cs kinds rest) :
    kinds = [] ∨ ∃ kind, kinds = [kind] ∧ kind.isBroken = false := by
  cases cut with
  | token starts read valid => exact .inr ⟨_, rfl, valid⟩
  | _ => exact .inl rfl

/-- The tokens that cuts give are the first tokens of the text. They are valid, and each starts and
stops within what is cut off, in front of the tokens after it. -/
structure FirstTokens (total : Nat) (cs : List Char) (kinds : List TokenKind) (rest : List Char)
    (front : List Token) : Prop where
  /-- They are the first tokens. -/
  tokens : tokensFrom total cs = front ++ tokensFrom total rest
  /-- They are of the kinds that the cuts give. -/
  kinds : front.map Token.kind = kinds
  /-- They are valid. -/
  valid : ∀ token ∈ front, token.kind.isBroken = false
  /-- They lie within what is cut off. -/
  within : ∀ token ∈ front, total - byteLength cs ≤ token.span.start ∧
    token.span.start < token.span.stop ∧ token.span.stop ≤ total - byteLength rest
  /-- They stand one after the other. -/
  ordered : front.Pairwise fun a b => a.span.stop ≤ b.span.start

/-- Cuts give the first tokens. -/
lemma Cuts.firstTokens (cuts : Cuts cs kinds rest) (bound : byteLength cs ≤ total) :
    ∃ front, FirstTokens total cs kinds rest front := by
  induction cuts with
  | refl cs => exact ⟨[], rfl, rfl, by simp, by simp, .nil⟩
  | @cut cs middle rest kinds more first others ih =>
    obtain ⟨d, taken, rfl⟩ := first.exists_front
    have longer := byteLength_cons_pos d taken
    rw [byteLength_append] at bound
    obtain ⟨front, later⟩ := ih (by omega)
    obtain ⟨between, rfl⟩ := others.suffix
    rw [byteLength_append] at bound
    rcases first.kinds_cases with rfl | ⟨kind, rfl, valid⟩
    · refine ⟨front, first.tokensFrom_trivia.trans later.tokens, later.kinds, later.valid, ?_,
        later.ordered⟩
      intro token mem
      obtain ⟨above, proper, below⟩ := later.within token mem
      simp only [byteLength_append] at above ⊢
      omega
    · refine ⟨_ :: front, first.tokensFrom_token.trans (congrArg _ later.tokens), ?_, ?_, ?_, ?_⟩
      · rw [List.map_cons, later.kinds]
        rfl
      · exact List.forall_mem_cons.2 ⟨valid, later.valid⟩
      · refine List.forall_mem_cons.2 ⟨?_, fun token mem => ?_⟩
        · simp only [byteLength_append] at bound ⊢
          omega
        · obtain ⟨above, proper, below⟩ := later.within token mem
          simp only [byteLength_append] at above ⊢
          omega
      · refine .cons (fun token mem => ?_) later.ordered
        exact (later.within token mem).1

/-! ## Kinds -/

/-- The kinds of the tokens of some characters. -/
def kindsOf (cs : List Char) : List TokenKind :=
  (tokensFrom (byteLength cs) cs).map Token.kind

/-- The kinds of a text are those of its tokens. -/
lemma map_kind_tokens (text : String) : (tokens text).map Token.kind = kindsOf text.toList := rfl

/-- What the tokens of a text are does not depend on where it stands. -/
lemma map_kind_tokensFrom (total : Nat) (cs : List Char) :
    (tokensFrom total cs).map Token.kind = kindsOf cs := by
  have upTo (n : Nat) : ∀ (cs : List Char) (total other : Nat), cs.length ≤ n →
      (tokensFrom total cs).map Token.kind = (tokensFrom other cs).map Token.kind := by
    induction n with
    | zero =>
      intro cs total other short
      obtain rfl := List.length_eq_zero_iff.1 (Nat.le_zero.1 short)
      have skipped : skipTrivia [] = [] := by rw [skipTrivia]
      rw [tokensFrom_of_nil skipped, tokensFrom_of_nil skipped]
    | succ n ih =>
      intro cs total other short
      cases skipped : skipTrivia cs with
      | nil => rw [tokensFrom_of_nil skipped, tokensFrom_of_nil skipped]
      | cons c rest =>
        have shorter := length_skipTrivia_le cs
        have read := length_scan_le c rest
        rw [skipped, List.length_cons] at shorter
        rw [tokensFrom_of_cons skipped, tokensFrom_of_cons skipped, List.map_cons, List.map_cons,
          ih _ total other (by omega)]
  exact upTo cs.length cs total _ (Nat.le_refl _)

/-- Cuts give the first kinds. -/
lemma Cuts.kindsOf_eq (cuts : Cuts cs kinds rest) : kindsOf cs = kinds ++ kindsOf rest := by
  induction cuts with
  | refl cs => rfl
  | cut first others ih =>
    rw [List.append_assoc, ← ih, ← map_kind_tokensFrom 0, ← map_kind_tokensFrom 0]
    rcases first.kinds_cases with rfl | ⟨kind, rfl, -⟩
    · rw [first.tokensFrom_trivia]
      rfl
    · rw [first.tokensFrom_token]
      rfl

/-- Nothing has no tokens. -/
lemma kindsOf_nil : kindsOf [] = [] := by
  rw [kindsOf, tokensFrom_of_nil (by rw [skipTrivia])]
  rfl

/-! ## From tokens to cuts -/

/-- Valid tokens are what cuts give. -/
lemma cuts_of_tokens {before after : List Token} (tokens : tokensFrom total cs = before ++ after)
    (valid : ∀ token ∈ before, token.kind.isBroken = false) :
    ∃ rest, Cuts cs (before.map Token.kind) rest ∧ tokensFrom total rest = after ∧
      (before = [] → rest = cs) ∧
      ∀ last, before.getLast? = some last → last.span.stop = total - byteLength rest := by
  induction before generalizing cs with
  | nil => exact ⟨cs, .refl cs, tokens, fun _ => rfl, by simp⟩
  | cons token before ih =>
    cases skipped : skipTrivia cs with
    | nil =>
      rw [tokensFrom_of_nil skipped] at tokens
      cases tokens
    | cons c left =>
      rw [tokensFrom_of_cons skipped] at tokens
      obtain ⟨rfl, others⟩ := List.cons.inj tokens
      obtain ⟨trivia, starts⟩ := cuts_of_skipTrivia skipped
      obtain ⟨isValid, othersValid⟩ := List.forall_mem_cons.1 valid
      obtain ⟨rest, cuts, same, ended, stops⟩ := ih others othersValid
      refine ⟨rest, trivia.trans (.cut (.token starts rfl isValid) cuts), same, by simp, ?_⟩
      intro last isLast
      cases before with
      | nil =>
        cases isLast
        rw [ended rfl]
        rfl
      | cons next before => exact stops last (by simpa using isLast)

/-- The first token starts where the first character that is not skipped stands. -/
lemma cuts_of_token {token : Token} {after : List Token} (tokens : tokensFrom total cs = token :: after) :
    ∃ c rest, Cuts cs [] (c :: rest) ∧ startsTrivia c rest = false ∧
      token.span.start = total - byteLength (c :: rest) ∧
      tokensFrom total (c :: rest) = token :: after := by
  cases skipped : skipTrivia cs with
  | nil =>
    rw [tokensFrom_of_nil skipped] at tokens
    cases tokens
  | cons c rest =>
    obtain ⟨trivia, starts⟩ := cuts_of_skipTrivia skipped
    have again : tokensFrom total (c :: rest) = _ := tokensFrom_of_cons (skipTrivia_token starts)
    rw [tokensFrom_of_cons skipped] at tokens
    rw [tokens] at again
    exact ⟨c, rest, trivia, starts, by rw [← (List.cons.inj tokens).1], again⟩

/-- Valid tokens stand in their text one after the other. -/
lemma firstTokens_of_valid (bound : byteLength cs ≤ total)
    (valid : ∀ token ∈ tokensFrom total cs, token.kind.isBroken = false) :
    ∃ rest, FirstTokens total cs ((tokensFrom total cs).map Token.kind) rest
      (tokensFrom total cs) := by
  obtain ⟨rest, cuts, ended, -, -⟩ := cuts_of_tokens (List.append_nil _).symm valid
  obtain ⟨front, first⟩ := cuts.firstTokens bound
  obtain rfl : front = tokensFrom total cs := by rw [first.tokens, ended, List.append_nil]
  exact ⟨rest, first⟩

/-! ## One reading -/

/-- A text is cut in one way only. -/
lemma Cut.unique {kinds' : List TokenKind} {rest' : List Char} (cut : Cut cs kinds rest)
    (cut' : Cut cs kinds' rest') : kinds = kinds' ∧ rest = rest' := by
  have same := (cut_iff.1 cut).symm.trans (cut_iff.1 cut')
  exact Prod.mk.inj (Option.some.inj same)

/-- Of two readings of a text, the one that goes further goes on with the other. -/
lemma Cuts.goes_on {kinds' : List TokenKind} {rest' : List Char} (cuts : Cuts cs kinds rest)
    (cuts' : Cuts cs kinds' rest') (further : rest'.length ≤ rest.length) :
    ∃ more, Cuts rest more rest' ∧ kinds' = kinds ++ more := by
  induction cuts generalizing kinds' with
  | refl cs => exact ⟨kinds', cuts', rfl⟩
  | cut first others ih =>
    cases cuts' with
    | refl =>
      obtain ⟨c, taken, rfl⟩ := first.exists_front
      have shorter := others.suffix.length_le
      simp only [List.length_append, List.length_cons] at further
      omega
    | cut first' others' =>
      obtain ⟨rfl, rfl⟩ := first.unique first'
      obtain ⟨more, goesOn, rfl⟩ := ih others' further
      exact ⟨more, goesOn, by rw [List.append_assoc]⟩

/-! ## Boundaries -/

/-- The reading of a text can be stopped at a place: what stands before it is blanks, closed comments
and whole tokens. -/
def Boundary (text : String) (place : Nat) : Prop :=
  ∃ front rest kinds, text.toList = front ++ rest ∧ byteLength front = place ∧
    Cuts text.toList kinds rest

variable {text : String} {before after : List Token} {token : Token}

/-- The reading can be stopped before it has begun. -/
lemma boundary_zero (text : String) : Boundary text 0 :=
  ⟨[], text.toList, [], rfl, rfl, .refl _⟩

/-- The reading of a text that is read to its end can be stopped there. -/
lemma boundary_end (whole : Whole text) : Boundary text (byteLength text.toList) := by
  obtain ⟨kinds, cuts⟩ := whole
  exact ⟨text.toList, [], kinds, by simp, rfl, cuts⟩

/-- The reading is stopped between characters. -/
lemma Boundary.between {place : Nat} (h : Boundary text place) : Between text place := by
  obtain ⟨front, rest, kinds, whole, same, -⟩ := h
  exact ⟨front, rest, whole, same⟩

/-- From a place where the reading is stopped it goes on to any later one. -/
lemma Boundary.goes_on {front rest : List Char} {kinds : List TokenKind} {place : Nat}
    (whole : text.toList = front ++ rest) (cuts : Cuts text.toList kinds rest)
    (next : Boundary text place) (later : byteLength front ≤ place) :
    ∃ middle rest' more, rest = middle ++ rest' ∧ byteLength front + byteLength middle = place ∧
      Cuts rest more rest' := by
  obtain ⟨front', rest', kinds', whole', rfl, cuts'⟩ := next
  obtain ⟨middle, left, rfl, place⟩ := Text.Between.goes_on whole ⟨front', rest', whole', rfl⟩ later
  rw [whole, ← List.append_assoc] at whole'
  obtain ⟨rfl, rfl⟩ := split_unique whole' ((byteLength_append front middle).trans place)
  obtain ⟨more, goesOn, -⟩ := cuts.goes_on cuts' (by simp)
  exact ⟨middle, left, more, rfl, place, goesOn⟩

/-- The reading can be stopped behind a valid token with valid tokens before it. -/
lemma boundary_stop (split : tokens text = before ++ token :: after)
    (valid : ∀ known ∈ before ++ [token], known.kind.isBroken = false) :
    Boundary text token.span.stop := by
  have known : tokensFrom (byteLength text.toList) text.toList = (before ++ [token]) ++ after := by
    rw [← tokens, split, List.append_assoc, List.singleton_append]
  obtain ⟨rest, cuts, -, -, stops⟩ := cuts_of_tokens known valid
  obtain ⟨front, whole⟩ := cuts.suffix
  refine ⟨front, rest, _, whole.symm, ?_, cuts⟩
  rw [stops token (by simp), ← whole, byteLength_append, Nat.add_sub_cancel]

/-- The reading can be stopped in front of a token with valid tokens before it, and goes on with the
first character of the token. -/
lemma boundary_start (split : tokens text = before ++ token :: after)
    (valid : ∀ known ∈ before, known.kind.isBroken = false) :
    ∃ front c rest kinds, text.toList = front ++ c :: rest ∧ byteLength front = token.span.start ∧
      Cuts text.toList kinds (c :: rest) ∧ (scan c rest).1 = token.kind := by
  obtain ⟨left, cuts, same, -, -⟩ := cuts_of_tokens split valid
  obtain ⟨c, rest, trivia, starts, start, again⟩ := cuts_of_token same
  obtain ⟨front, whole⟩ := (cuts.trans trivia).suffix
  refine ⟨front, c, rest, _, whole.symm, ?_, cuts.trans trivia, ?_⟩
  · rw [start, ← whole, byteLength_append, Nat.add_sub_cancel]
  · rw [tokensFrom_of_cons (skipTrivia_token starts)] at again
    rw [← (List.cons.inj again).1]

end Lexer

end SqlRouting
