import SqlRouting.Proofs.Extract
import SqlRouting.Proofs.Query

/-!
# How tokens cover a text

Every character of a text belongs to one token, or to the blanks and comments between two tokens, in
front of the first one or behind the last one. A comment between tokens is closed; only at the end of
the text may one be open. So nothing of a text is lost, and nothing is read twice.

## Main definitions

* `SqlRouting.Lexer.Trivia` — blanks and closed comments, as they stand between tokens.
* `SqlRouting.Lexer.LastTrivia` — blanks and comments at the end of a text.
* `SqlRouting.Lexer.Covered` — tokens that cover a text, with blanks and comments between them.

## Main results

* `SqlRouting.Lexer.covered_tokensFrom` — the tokens of a text cover it.
* `SqlRouting.Lexer.tokenize_partition` — how the tokens of a text cover it, and where they stand.
-/

set_option autoImplicit false

namespace SqlRouting.Lexer

open Text

/-! ## Blanks and comments -/

/-- What opens a comment that closes with its line: two hyphens, or a number sign. -/
def OpensLine (mark : List Char) : Prop :=
  mark = ['-', '-'] ∨ mark = ['#']

/-- Some characters have no end of an enclosed comment among them. -/
def NoBlockEnd (cs : List Char) : Prop :=
  ¬ ['*', '/'] <:+: cs

/-- Blanks and closed comments. -/
inductive Trivia : List Char → Prop
  /-- Nothing. -/
  | nil : Trivia []
  /-- A blank. -/
  | blank {c : Char} {cs : List Char} (isBlank : isBlank c = true) (others : Trivia cs) :
      Trivia (c :: cs)
  /-- A comment up to the first newline. -/
  | line {mark body cs : List Char} (opens : OpensLine mark) (inLine : '\n' ∉ body)
      (others : Trivia cs) : Trivia (mark ++ (body ++ '\n' :: cs))
  /-- A comment up to the first star with a slash. -/
  | block {body cs : List Char} (inside : NoBlockEnd body) (others : Trivia cs) :
      Trivia ('/' :: '*' :: (body ++ '*' :: '/' :: cs))

/-- Blanks and comments, of which the last one may be left open. -/
inductive LastTrivia : List Char → Prop
  /-- Blanks and closed comments. -/
  | closed {cs : List Char} (trivia : Trivia cs) : LastTrivia cs
  /-- A comment on the last line. -/
  | line {front mark body : List Char} (trivia : Trivia front) (opens : OpensLine mark)
      (inLine : '\n' ∉ body) : LastTrivia (front ++ (mark ++ body))
  /-- An enclosed comment without its end. -/
  | block {front body : List Char} (trivia : Trivia front) (inside : NoBlockEnd body) :
      LastTrivia (front ++ '/' :: '*' :: body)

/-- Blanks and comments in front of others. -/
lemma Trivia.append {front cs : List Char} (h : Trivia front) (h' : Trivia cs) :
    Trivia (front ++ cs) := by
  induction h with
  | nil => exact h'
  | blank isBlank others ih => exact .blank isBlank ih
  | line opens inLine others ih =>
    simp only [List.append_assoc, List.cons_append]
    exact .line opens inLine ih
  | block inside others ih =>
    simp only [List.append_assoc, List.cons_append]
    exact .block inside ih

/-- Blanks and closed comments in front of the last ones. -/
lemma LastTrivia.append {front cs : List Char} (h : Trivia front) (h' : LastTrivia cs) :
    LastTrivia (front ++ cs) := by
  cases h' with
  | closed trivia => exact .closed (h.append trivia)
  | line trivia opens inLine =>
    rw [← List.append_assoc]
    exact .line (h.append trivia) opens inLine
  | block trivia inside =>
    rw [← List.append_assoc]
    exact .block (h.append trivia) inside

/-- A text has no newline exactly if nothing comes after its line. -/
lemma afterLine_eq_none {cs : List Char} : afterLine? cs = none ↔ '\n' ∉ cs := by
  induction cs with
  | nil => simp [afterLine?]
  | cons c cs ih =>
    by_cases newline : c = '\n'
    · simp [afterLine?, newline]
    · simp [afterLine?, newline, ih, Ne.symm newline]

/-- One character more in front of a text has no end of a comment either, if it makes none with the
first character. -/
lemma NoBlockEnd.cons {c : Char} {cs : List Char} (h : NoBlockEnd cs)
    (noEnd : ∀ rest, c = '*' → cs ≠ '/' :: rest) : NoBlockEnd (c :: cs) := by
  intro ends
  rcases List.infix_cons_iff.1 ends with ⟨rest, same⟩ | ends
  · obtain ⟨isStar, left⟩ := List.cons.inj same
    exact noEnd rest isStar.symm left.symm
  · exact h ends

/-- An enclosed comment ends at its first star with a slash. -/
lemma exists_of_afterBlock {cs rest : List Char} (cut : afterBlock? cs = some rest) :
    ∃ body, cs = body ++ '*' :: '/' :: rest ∧ NoBlockEnd body := by
  fun_induction afterBlock? cs with
  | case1 => cases cut
  | case2 left =>
    cases cut
    exact ⟨[], rfl, by simp [NoBlockEnd]⟩
  | case3 c left noEnd ih =>
    obtain ⟨body, rfl, inside⟩ := ih cut
    refine ⟨c :: body, rfl, inside.cons ?_⟩
    rintro more isStar rfl
    exact noEnd _ isStar rfl

/-- Where nothing comes after an enclosed comment, it has no end. -/
lemma noBlockEnd_of_afterBlock {cs : List Char} (unclosed : afterBlock? cs = none) : NoBlockEnd cs := by
  fun_induction afterBlock? cs with
  | case1 => simp [NoBlockEnd]
  | case2 left => cases unclosed
  | case3 c left noEnd ih => exact (ih unclosed).cons fun rest isStar same => noEnd rest isStar same

/-- A cut that is no token takes off a blank or a comment. -/
lemma Cut.exists_trivia {cs rest : List Char} (cut : Cut cs [] rest) :
    ∃ front, cs = front ++ rest ∧ Trivia front := by
  cases cut with
  | @blank c cs isBlank => exact ⟨[c], rfl, .blank isBlank .nil⟩
  | hash closed =>
    obtain ⟨body, rfl, inLine⟩ := afterLine_iff.1 closed
    exact ⟨_, by simp, .line (.inr rfl) inLine .nil⟩
  | hyphens closed =>
    obtain ⟨body, rfl, inLine⟩ := afterLine_iff.1 closed
    exact ⟨_, by simp, .line (.inl rfl) inLine .nil⟩
  | block closed =>
    obtain ⟨body, rfl, inside⟩ := exists_of_afterBlock closed
    exact ⟨_, by simp, .block inside .nil⟩

/-- Cuts without a token take off blanks and comments. -/
lemma Cuts.exists_trivia {cs rest : List Char} (cuts : Cuts cs [] rest) :
    ∃ front, cs = front ++ rest ∧ Trivia front := by
  generalize noKinds : ([] : List TokenKind) = kinds at cuts
  induction cuts with
  | refl cs => exact ⟨[], rfl, .nil⟩
  | cut first others ih =>
    obtain ⟨rfl, rfl⟩ := List.append_eq_nil_iff.1 noKinds.symm
    obtain ⟨front, rfl, trivia⟩ := first.exists_trivia
    obtain ⟨more, rfl, later⟩ := ih rfl
    exact ⟨front ++ more, (List.append_assoc _ _ _).symm, trivia.append later⟩

/-- A text of which everything is skipped is blank but for comments.

**Proof sketch.** Induction on the length of the text. A blank or a closed comment in front makes it
shorter, and a comment that is not closed is the last one. -/
lemma lastTrivia_of_skipTrivia {cs : List Char} (skipped : skipTrivia cs = []) : LastTrivia cs := by
  induction short : cs.length using Nat.strongRecOn generalizing cs with
  | ind n ih =>
    have goes_on {rest : List Char} (cut : Cut cs [] rest) : LastTrivia cs := by
      have left : skipTrivia rest = [] := cut.skipTrivia_eq.symm.trans skipped
      obtain ⟨c, taken, whole⟩ := cut.exists_front
      obtain ⟨front, rfl, trivia⟩ := cut.exists_trivia
      obtain rfl := List.append_cancel_right whole
      simp only [List.length_append, List.length_cons] at short
      exact .append trivia (ih rest.length (by omega) left rfl)
    cases cs with
    | nil => exact .closed .nil
    | cons c cs =>
      cases textFront c cs with
      | blank isBlank => exact goes_on (.blank isBlank)
      | hash =>
        cases closed : afterLine? cs with
        | none => exact .line .nil (.inr rfl) (afterLine_eq_none.1 closed)
        | some rest => exact goes_on (.hash closed)
      | hyphens cs =>
        cases closed : afterLine? cs with
        | none => exact .line .nil (.inl rfl) (afterLine_eq_none.1 closed)
        | some rest => exact goes_on (.hyphens closed)
      | block cs =>
        cases closed : afterBlock? cs with
        | none => exact .block .nil (noBlockEnd_of_afterBlock closed)
        | some rest => exact goes_on (.block closed)
      | token starts =>
        rw [skipTrivia_token starts] at skipped
        cases skipped

/-! ## Tokens -/

/-- A character that is no token is not mistaken for a closing mark that is missing. -/
lemma isOpen_unexpectedCharacter (c : Char) : isOpen (Fault.unexpectedCharacter c).kind = false := by
  have third (fault : Fault) (other : fault.message.toList[2]? ≠ some 'e') :
      ((Fault.unexpectedCharacter c).kind == fault.kind) = false := by
    refine beq_eq_false_iff_ne.2 fun same => other ?_
    have message : fault.message = "unexpected character " ++ quotedCharacter c :=
      (TokenKind.invalid.inj same).symm
    generalize quotedCharacter c = quoted at message
    rw [message, String.toList_append]
    rfl
  simp only [isOpen, List.any_cons, List.any_nil, Bool.or_false, Bool.or_eq_false_iff]
  exact ⟨third _ (by decide), third _ (by decide), third _ (by decide)⟩

/-- Enclosed text whose closing mark is missing takes the whole rest of the text. -/
lemma rest_of_isOpen_scanEnclosed {closing : Char} {escapes : Bool} {make : String → TokenKind}
    {fault : Fault} {cs : List Char} (made : ∀ value, isOpen (make value) = false)
    (isOpened : isOpen (scanEnclosed closing escapes make fault cs).1 = true) :
    (scanEnclosed closing escapes make fault cs).2 = [] := by
  unfold scanEnclosed at isOpened ⊢
  split at isOpened
  · rw [made] at isOpened
    cases isOpened
  · rfl

/-- A token whose closing mark is missing takes the whole rest of the text. -/
lemma rest_of_isOpen {c : Char} {cs : List Char} (isOpened : isOpen (scan c cs).1 = true) :
    (scan c cs).2 = [] := by
  have scanned := scanner c
  generalize scan c = scans at scanned isOpened ⊢
  cases scanned with
  | symbol => cases isOpened
  | string => exact rest_of_isOpen_scanEnclosed (fun _ => rfl) isOpened
  | name => exact rest_of_isOpen_scanEnclosed (fun _ => rfl) isOpened
  | userVariable =>
    rcases scanVariable_kind cs with ⟨name, same⟩ | same
    · rw [same] at isOpened
      cases isOpened
    · rw [same] at isOpened
      exact absurd isOpened (by decide)
  | number =>
    obtain ⟨literal, same⟩ := scanNumber_kind c cs
    rw [same] at isOpened
    cases isOpened
  | word =>
    rw [scanWord, isOpen_of_valid (wordKind_valid _)] at isOpened
    cases isOpened
  | unexpected =>
    rw [isOpen_unexpectedCharacter] at isOpened
    cases isOpened

/-- What is left behind a token is an end of the text. -/
lemma suffix_scan (c : Char) (cs : List Char) : (scan c cs).2 <:+ cs := by
  cases isOpened : isOpen (scan c cs).1 with
  | false => exact (local_scanTaken c fun _ closed => closed).suffix ⟨rfl, isOpened⟩
  | true =>
    rw [rest_of_isOpen isOpened]
    exact List.nil_suffix

/-- The tokens behind others are those of the last part of the text. -/
lemma exists_rest_of_tokens {total : Nat} {cs : List Char} {before after : List Token}
    (split : tokensFrom total cs = before ++ after) :
    ∃ rest, rest <:+ cs ∧ tokensFrom total rest = after := by
  induction before generalizing cs with
  | nil => exact ⟨cs, List.suffix_rfl, split⟩
  | cons token before ih =>
    cases skipped : skipTrivia cs with
    | nil =>
      rw [tokensFrom_of_nil skipped] at split
      cases split
    | cons c left =>
      rw [tokensFrom_of_cons skipped, List.cons_append] at split
      obtain ⟨rest, behind, same⟩ := ih (List.cons.inj split).2
      have first : c :: left <:+ cs := (cuts_of_skipTrivia skipped).1.suffix
      have second : (scan c left).2 <:+ c :: left :=
        (suffix_scan c left).trans (List.suffix_cons c left)
      exact ⟨rest, behind.trans (second.trans first), same⟩

/-! ## Covering a text -/

/-- Some tokens, the end of the text behind them, cover the last characters `cs` of a text, which start
at the byte `start`. Blanks and comments stand in front of each token, and every other character is one
of a token. -/
inductive Covered : Nat → List Char → List Token → Prop
  /-- The end of the text. -/
  | ending {start : Nat} {gap : List Char} (trivia : LastTrivia gap) :
      Covered start gap
        [⟨.endOfInput, ⟨start + byteLength gap, start + byteLength gap⟩⟩]
  /-- A token. -/
  | token {start : Nat} {gap source cs : List Char} {kind : TokenKind} {tokens : List Token}
      (trivia : Trivia gap) (nonempty : source ≠ []) (notEnd : kind ≠ .endOfInput)
      (others : Covered (start + byteLength gap + byteLength source) cs tokens) :
      Covered start (gap ++ (source ++ cs))
        (⟨kind, ⟨start + byteLength gap, start + byteLength gap + byteLength source⟩⟩ :: tokens)

/-- The tokens of the last part of a text cover it.

**Proof sketch.** Induction on the length of the part. What is skipped in front of a token are blanks
and comments, and the token takes at least one character. -/
lemma covered_tokensFrom {start total : Nat} {cs : List Char} (whole : total = start + byteLength cs) :
    Covered start cs (tokensFrom total cs ++ [⟨.endOfInput, ⟨total, total⟩⟩]) := by
  induction short : cs.length using Nat.strongRecOn generalizing cs start with
  | ind n ih =>
    cases skipped : skipTrivia cs with
    | nil =>
      rw [tokensFrom_of_nil skipped, List.nil_append, whole]
      exact .ending (lastTrivia_of_skipTrivia skipped)
    | cons c rest =>
      obtain ⟨gap, rfl, trivia⟩ := (cuts_of_skipTrivia skipped).1.exists_trivia
      obtain ⟨taken, left⟩ := suffix_scan c rest
      have parts : c :: rest = (c :: taken) ++ (scan c rest).2 := by rw [List.cons_append, left]
      rw [tokensFrom_of_cons skipped, List.cons_append]
      rw [parts, byteLength_append, byteLength_append] at whole
      have first : total - byteLength (c :: rest) = start + byteLength gap := by
        rw [parts, byteLength_append]
        omega
      have behind : total - byteLength (scan c rest).2 =
          start + byteLength gap + byteLength (c :: taken) := by omega
      rw [first, behind]
      conv =>
        arg 2
        rw [parts]
      refine .token trivia (List.cons_ne_nil _ _) (scan_ne_endOfInput c rest) (ih _ ?_ (by omega) rfl)
      rw [← short, List.length_append, List.length_cons]
      have := length_scan_le c rest
      omega

namespace Covered

variable {start : Nat} {cs : List Char} {tokens : List Token}

/-- The last of the tokens is the end of the text, and no other is. -/
lemma exists_ending (h : Covered start cs tokens) : ∃ init, tokens =
    init ++ [⟨.endOfInput, ⟨start + byteLength cs, start + byteLength cs⟩⟩] ∧
      ∀ token ∈ init, token.kind ≠ .endOfInput ∧ token.span.start < token.span.stop := by
  induction h with
  | ending trivia => exact ⟨[], rfl, by simp⟩
  | @token start gap source cs kind tokens trivia nonempty notEnd others ih =>
    obtain ⟨init, rfl, holds⟩ := ih
    obtain ⟨c, source, rfl⟩ := List.exists_cons_of_ne_nil nonempty
    have longer : 0 < byteLength (c :: source) := byteLength_cons_pos c source
    let first : Token :=
      ⟨kind, ⟨start + byteLength gap, start + byteLength gap + byteLength (c :: source)⟩⟩
    have proper : first.span.start < first.span.stop := by
      dsimp only [first]
      omega
    refine ⟨first :: init, ?_, List.forall_mem_cons.2 ⟨⟨notEnd, proper⟩, holds⟩⟩
    rw [List.cons_append, byteLength_append, byteLength_append]
    simp only [Nat.add_assoc, first]

/-- The tokens start and stop between two characters of the text. -/
lemma between {text : String} {front : List Char} (h : Covered start cs tokens)
    (whole : text.toList = front ++ cs) (place : byteLength front = start) :
    ∀ token ∈ tokens, Between text token.span.start ∧ Between text token.span.stop := by
  induction h generalizing front with
  | @ending start gap trivia =>
    have last : Between text (start + byteLength gap) :=
      ⟨front ++ gap, [], by rw [whole, List.append_nil], by rw [byteLength_append, place]⟩
    exact List.forall_mem_singleton.2 ⟨last, last⟩
  | @token start gap source cs kind tokens trivia nonempty notEnd others ih =>
    have first : Between text (start + byteLength gap) :=
      ⟨front ++ gap, source ++ cs, by rw [whole, List.append_assoc], by rw [byteLength_append, place]⟩
    have whole' : text.toList = (front ++ gap ++ source) ++ cs := by
      rw [whole]
      simp only [List.append_assoc]
    have place' : byteLength (front ++ gap ++ source) = start + byteLength gap + byteLength source := by
      rw [byteLength_append, byteLength_append, place]
    exact List.forall_mem_cons.2 ⟨⟨first, _, _, whole', place'⟩, ih whole' place'⟩

/-- The tokens stand one after the other, from the start on. -/
lemma ordered (h : Covered start cs tokens) : (∀ token ∈ tokens, start ≤ token.span.start) ∧
    tokens.Pairwise fun a b => a.span.stop ≤ b.span.start := by
  induction h with
  | ending trivia => exact ⟨by simp, List.pairwise_singleton _ _⟩
  | token trivia nonempty notEnd others ih =>
    obtain ⟨behind, pairwise⟩ := ih
    refine ⟨List.forall_mem_cons.2 ⟨Nat.le_add_right _ _, fun token mem => ?_⟩,
      List.pairwise_cons.2 ⟨behind, pairwise⟩⟩
    have := behind token mem
    omega

end Covered

/-- The tokens of a text cover it. -/
lemma covered_tokenize (text : String) : Covered 0 text.toList (tokenize text) :=
  covered_tokensFrom (Nat.zero_add _).symm

/-- The tokens of a text stand one after the other, with its end behind them. -/
lemma ordered_tokenize (text : String) :
    (tokenize text).Pairwise (fun a b => a.span.stop ≤ b.span.start) ∧
      ∀ token ∈ tokenize text, token.span.start ≤ token.span.stop := by
  obtain ⟨init, split, proper⟩ := (covered_tokenize text).exists_ending
  refine ⟨(covered_tokenize text).ordered.2, fun token mem => ?_⟩
  rw [split] at mem
  rcases List.mem_append.1 mem with mem | mem
  · exact Nat.le_of_lt (proper token mem).2
  · obtain rfl := List.mem_singleton.1 mem
    exact Nat.le_refl _

/-- A token is not empty, unless it is the end of the text. -/
lemma start_lt_stop {text : String} {token : Token} (mem : token ∈ tokenize text)
    (noEnd : token.kind ≠ .endOfInput) : token.span.start < token.span.stop := by
  obtain ⟨init, split, proper⟩ := (covered_tokenize text).exists_ending
  rw [split] at mem
  rcases List.mem_append.1 mem with mem | mem
  · exact (proper token mem).2
  · obtain rfl := List.mem_singleton.1 mem
    exact absurd rfl noEnd

/-- The first of some tokens in a row does not stop behind the last one. -/
lemma stop_le_stop {text : String} {before middle after : List Token} {first last : Token}
    (split : tokenize text = before ++ (first :: middle ++ after))
    (isLast : (first :: middle).getLast? = some last) : first.span.stop ≤ last.span.stop := by
  obtain ⟨ordered, proper⟩ := ordered_tokenize text
  rcases List.mem_cons.1 (List.mem_of_getLast? isLast) with rfl | mem
  · exact Nat.le_refl _
  · rw [split, List.cons_append] at ordered
    have next := (List.pairwise_cons.1 (List.pairwise_append.1 ordered).2.1).1 last
      (List.mem_append_left _ mem)
    have others := proper last (by rw [split]; simp [mem])
    omega

/-- The tokens of a text cover it: the end of the text is the last of them and no other, each of the
others takes at least one character, they stand between characters and one after the other, and all
that is not in a token is blank or in a comment.

**Proof sketch.** Induction on what is left of the text: what is skipped in front of a token is blank or in
a comment, and the token itself takes at least one character. That the spans stand between characters, and
one after the other, is read off this cover. -/
theorem tokenize_partition (text : String) :
    (∃ init, tokenize text =
        init ++ [⟨.endOfInput, ⟨byteLength text.toList, byteLength text.toList⟩⟩] ∧
      ∀ token ∈ init, token.kind ≠ .endOfInput ∧ token.span.start < token.span.stop) ∧
    (∀ token ∈ tokenize text, Between text token.span.start ∧ Between text token.span.stop) ∧
    (tokenize text).Pairwise (fun a b => a.span.stop ≤ b.span.start) ∧
    Covered 0 text.toList (tokenize text) := by
  have covered : Covered 0 text.toList (tokenize text) :=
    covered_tokensFrom (Nat.zero_add _).symm
  have ends := covered.exists_ending
  rw [Nat.zero_add] at ends
  exact ⟨ends, covered.between (List.nil_append _).symm rfl, covered.ordered.2, covered⟩

end SqlRouting.Lexer
