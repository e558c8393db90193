import SqlRouting.Proofs.Scanners

/-!
# Reading tokens one by one

A text is read by small cuts: each takes a blank, a comment or a token off its front. A cut ignores
what follows, so what is read of a text stays as it is where the rest of the text is replaced by
another that goes on with no token. This is how a text with something inserted is read.

## Main definitions

* `SqlRouting.Lexer.TextFront` — what a text starts with: a blank, a comment, or anything else.
* `SqlRouting.Lexer.Cut` — a blank, a closed comment or a token at the front of a text.
* `SqlRouting.Lexer.Cuts` — several cuts, with the kinds of the tokens among them.
* `SqlRouting.Lexer.Divided` — a text that may go on with another.

## Main results

* `SqlRouting.Lexer.Cuts.replace` — cuts ignore what follows.
* `SqlRouting.Lexer.cut_iff` — the cut at the front of a text can be computed.
-/

set_option autoImplicit false

namespace SqlRouting.Lexer

open Text

/-! ## Comments -/

/-- The rest of a text after the end of its line. -/
def afterLine? : List Char → Option (List Char)
  | [] => none
  | c :: cs => if c == '\n' then some cs else afterLine? cs

/-- The rest of a text after the end of an enclosed comment. -/
def afterBlock? : List Char → Option (List Char)
  | [] => none
  | '*' :: '/' :: rest => some rest
  | _ :: rest => afterBlock? rest

/-- A line ends at its first newline. -/
lemma afterLine_iff {cs rest : List Char} :
    afterLine? cs = some rest ↔ ∃ line, cs = line ++ '\n' :: rest ∧ '\n' ∉ line := by
  induction cs with
  | nil => simp [afterLine?]
  | cons c cs ih =>
    by_cases newline : c = '\n'
    · subst newline
      rw [afterLine?, if_pos (beq_self_eq_true _), Option.some.injEq]
      constructor
      · rintro rfl
        exact ⟨[], rfl, by simp⟩
      · rintro ⟨- | ⟨d, line⟩, same, outside⟩
        · exact (List.cons.inj same).2
        · exact absurd (by rw [(List.cons.inj same).1]; exact List.mem_cons_self) outside
    · rw [afterLine?, if_neg (by simpa using newline), ih]
      constructor
      · rintro ⟨line, rfl, outside⟩
        exact ⟨c :: line, rfl, by simp [outside, Ne.symm newline]⟩
      · rintro ⟨- | ⟨d, line⟩, same, outside⟩
        · exact absurd (List.cons.inj same).1 newline
        · exact ⟨line, (List.cons.inj same).2, fun mem => outside (List.mem_cons_of_mem d mem)⟩

/-- Skipping a comment that closes with its line goes on after the line. -/
lemma skipLine_eq (cs : List Char) : skipLine cs = ((afterLine? cs).map skipTrivia).getD [] := by
  induction cs with
  | nil => rw [skipLine, afterLine?]; rfl
  | cons c cs ih =>
    rw [skipLine, afterLine?]
    split
    · rfl
    · exact ih

/-- Skipping an enclosed comment goes on after its end. -/
lemma skipBlock_eq (cs : List Char) : skipBlock cs = ((afterBlock? cs).map skipTrivia).getD [] := by
  fun_induction afterBlock? cs with
  | case1 => rw [skipBlock]; rfl
  | case2 rest => rw [skipBlock]; rfl
  | case3 c rest inside ih => rw [skipBlock, ih]; exact inside

/-- The rest after a line is an end of the text. -/
lemma suffix_of_afterLine {cs rest : List Char} (cut : afterLine? cs = some rest) : rest <:+ cs := by
  obtain ⟨line, rfl, -⟩ := afterLine_iff.1 cut
  exact (List.suffix_cons _ _).trans (List.suffix_append _ _)

/-- Cutting off the rest of a line ignores what follows. It is the one thing that ends with a blank. -/
lemma afterLine_replace {front rest other : List Char} (cut : afterLine? (front ++ rest) = some rest) :
    afterLine? (front ++ other) = some other := by
  obtain ⟨line, same, outside⟩ := afterLine_iff.1 cut
  obtain rfl : front = line ++ ['\n'] :=
    (List.append_left_inj rest).1 (by rw [same, List.append_assoc]; rfl)
  exact afterLine_iff.2 ⟨line, by rw [List.append_assoc]; rfl, outside⟩

/-- Anything may follow a line. -/
lemma afterLine_append {line : List Char} (cut : afterLine? line = some []) (other : List Char) :
    afterLine? (line ++ other) = some other :=
  afterLine_replace (by rwa [List.append_nil])

/-- No line ends with a separator. -/
lemma afterLine_noEnd {front : List Char} {d : Char} (isEnd : isSeparator d = true) :
    afterLine? (front ++ [d]) ≠ some [] := by
  intro cut
  obtain ⟨line, same, -⟩ := afterLine_iff.1 cut
  cases (List.append_inj' same rfl).2
  cases isEnd

/-- The rest after an enclosed comment is a proper end of the text. -/
lemma suffix_of_afterBlock {cs rest : List Char} (cut : afterBlock? cs = some rest) :
    rest <:+ cs ∧ rest ≠ cs := by
  have suffix : rest <:+ cs ∧ rest.length < cs.length := by
    fun_induction afterBlock? cs with
    | case1 => cases cut
    | case2 left =>
      cases cut
      exact ⟨(List.suffix_cons _ _).trans (List.suffix_cons _ _), by simp only [List.length_cons]; omega⟩
    | case3 c left inside ih =>
      obtain ⟨suffix, shorter⟩ := ih cut
      exact ⟨suffix.trans (List.suffix_cons c left), by simp only [List.length_cons]; omega⟩
  exact ⟨suffix.1, fun same => absurd (congrArg List.length same) (Nat.ne_of_lt suffix.2)⟩

/-- Cutting off an enclosed comment ignores what follows. -/
lemma local_afterBlock : Local fun cs (_ : Unit) rest => afterBlock? cs = some rest where
  suffix cut := (suffix_of_afterBlock cut).1
  replace := by
    intro front more rest other _ cut detached
    generalize whole : front ++ (more ++ rest) = cs at cut
    fun_induction afterBlock? cs generalizing front with
    | case1 => cases cut
    | case2 left =>
      cases cut
      obtain rfl : front = ['*', '/'] := (List.append_left_inj (more ++ rest)).1 whole
      rfl
    | case3 c left inside ih =>
      obtain ⟨⟨taken, rfl⟩, proper⟩ := suffix_of_afterBlock cut
      obtain rfl : front = c :: taken := List.append_cancel_right whole
      obtain ⟨d, taken, rfl⟩ := List.exists_cons_of_ne_nil (l := taken) (by rintro rfl; exact proper rfl)
      rw [List.cons_append, afterBlock?, ih rfl cut]
      rintro tail rfl same
      exact inside _ rfl (by rw [List.cons_append, (List.cons.inj same).1])
  noEnd := by
    intro front _ d isEnd cut
    generalize whole : front ++ [d] = cs at cut
    fun_induction afterBlock? cs generalizing front with
    | case1 => cases cut
    | case2 left =>
      cases cut
      have last : front ++ [d] = ['*'] ++ ['/'] := whole
      cases (List.append_inj' last rfl).2
      cases isEnd
    | case3 c left inside ih =>
      rcases eq_nil_or_end [c] whole.symm with rfl | ⟨more, rfl⟩
      · cases cut
      · exact ih rfl cut

/-! ## Cuts -/

/-- Whether a text that starts with `c` and goes on with `cs` starts with a blank or a comment. -/
def startsTrivia (c : Char) (cs : List Char) : Bool :=
  isBlank c || c == '#' || (c == '-' && startsWith (· == '-') cs) ||
    (c == '/' && startsWith (· == '*') cs)

/-- A text that starts with a given character. -/
lemma eq_cons_of_startsWith {d : Char} {cs : List Char} (first : startsWith (· == d) cs = true) :
    cs = d :: cs.tail := by
  cases cs with
  | nil => cases first
  | cons c cs =>
    obtain rfl : c = d := beq_iff_eq.1 first
    rfl

/-- What a text with a first character `c` starts with. -/
inductive TextFront : Char → List Char → Prop
  /-- A blank. -/
  | blank {c : Char} {cs : List Char} (isBlank : isBlank c = true) : TextFront c cs
  /-- The number sign of a comment. -/
  | hash (cs : List Char) : TextFront '#' cs
  /-- The two hyphens of a comment. -/
  | hyphens (cs : List Char) : TextFront '-' ('-' :: cs)
  /-- The opening of an enclosed comment. -/
  | block (cs : List Char) : TextFront '/' ('*' :: cs)
  /-- Anything else. -/
  | token {c : Char} {cs : List Char} (starts : startsTrivia c cs = false) : TextFront c cs

/-- A text starts with a blank, a comment, or anything else. -/
lemma textFront (c : Char) (cs : List Char) : TextFront c cs := by
  cases starts : startsTrivia c cs with
  | false => exact .token starts
  | true =>
    simp only [startsTrivia, Bool.or_eq_true, Bool.and_eq_true, beq_iff_eq] at starts
    rcases starts with ((isBlank | rfl) | ⟨rfl, next⟩) | ⟨rfl, next⟩
    · exact .blank isBlank
    · exact .hash cs
    · rw [eq_cons_of_startsWith next]
      exact .hyphens cs.tail
    · rw [eq_cons_of_startsWith next]
      exact .block cs.tail

/-- A blank, a closed comment or a valid token at the front of a text, with its kind if it is a token
and the rest of the text. -/
inductive Cut : List Char → List TokenKind → List Char → Prop
  /-- A blank. -/
  | blank {c : Char} {cs : List Char} (isBlank : isBlank c = true) : Cut (c :: cs) [] cs
  /-- A comment after a number sign. -/
  | hash {cs rest : List Char} (closed : afterLine? cs = some rest) : Cut ('#' :: cs) [] rest
  /-- A comment after two hyphens. -/
  | hyphens {cs rest : List Char} (closed : afterLine? cs = some rest) : Cut ('-' :: '-' :: cs) [] rest
  /-- An enclosed comment. -/
  | block {cs rest : List Char} (closed : afterBlock? cs = some rest) : Cut ('/' :: '*' :: cs) [] rest
  /-- A token. -/
  | token {c : Char} {cs rest : List Char} {kind : TokenKind} (starts : startsTrivia c cs = false)
      (read : scan c cs = (kind, rest)) (valid : kind.isBroken = false) : Cut (c :: cs) [kind] rest

/-- What starts a token starts none but a token, whatever follows. -/
lemma startsTrivia_replace {c : Char} {more rest other : List Char}
    (starts : startsTrivia c (more ++ rest) = false) (detached : Detached other) :
    startsTrivia c (more ++ other) = false := by
  simp only [startsTrivia, Bool.or_eq_false_iff, Bool.and_eq_false_iff] at starts ⊢
  obtain ⟨⟨plain, noHyphens⟩, noBlock⟩ := starts
  exact ⟨⟨plain, noHyphens.imp id fun h => startsWith_replace (stops_beq rfl) more h detached⟩,
    noBlock.imp id fun h => startsWith_replace (stops_beq rfl) more h detached⟩

/-- A cut takes something off the front of a text. -/
lemma Cut.exists_front {cs rest : List Char} {kinds : List TokenKind} (cut : Cut cs kinds rest) :
    ∃ c taken, cs = c :: taken ++ rest := by
  cases cut with
  | @blank c _ isBlank => exact ⟨c, [], rfl⟩
  | hash closed =>
    obtain ⟨taken, rfl⟩ := suffix_of_afterLine closed
    exact ⟨_, taken, rfl⟩
  | hyphens closed =>
    obtain ⟨taken, rfl⟩ := suffix_of_afterLine closed
    exact ⟨_, '-' :: taken, rfl⟩
  | block closed =>
    obtain ⟨taken, rfl⟩ := local_afterBlock.suffix (a := ()) closed
    exact ⟨_, '*' :: taken, rfl⟩
  | @token c _ _ _ starts read valid =>
    obtain ⟨taken, rfl⟩ := (local_scan _).suffix ⟨read, valid⟩
    exact ⟨c, taken, rfl⟩

/-- What is left after a cut is the end of the text. -/
lemma Cut.suffix {cs rest : List Char} {kinds : List TokenKind} (cut : Cut cs kinds rest) :
    rest <:+ cs := by
  obtain ⟨c, taken, rfl⟩ := cut.exists_front
  exact List.suffix_append _ _

/-- A cut ignores what follows. -/
lemma Cut.replace {front more rest other : List Char} {kinds : List TokenKind}
    (cut : Cut (front ++ (more ++ rest)) kinds (more ++ rest)) (detached : Detached other) :
    Cut (front ++ (more ++ other)) kinds (more ++ other) := by
  generalize whole : front ++ (more ++ rest) = cs at cut
  generalize left : more ++ rest = following at cut
  cases cut with
  | @blank c cs isBlank =>
    obtain rfl : front = [c] := by
      rw [left, ← List.singleton_append, List.append_cancel_right_eq] at whole
      exact whole
    exact .blank isBlank
  | hash closed =>
    subst left
    obtain ⟨taken, rfl⟩ := suffix_of_afterLine closed
    obtain rfl : front = '#' :: taken := List.append_cancel_right whole
    exact .hash (afterLine_replace closed)
  | hyphens closed =>
    subst left
    obtain ⟨taken, rfl⟩ := suffix_of_afterLine closed
    obtain rfl : front = '-' :: '-' :: taken := List.append_cancel_right whole
    exact .hyphens (afterLine_replace closed)
  | block closed =>
    subst left
    obtain ⟨taken, rfl⟩ := local_afterBlock.suffix (a := ()) closed
    obtain rfl : front = '/' :: '*' :: taken := List.append_cancel_right whole
    exact .block (local_afterBlock.replace (a := ()) closed detached)
  | @token c _ _ _ starts read valid =>
    subst left
    obtain ⟨taken, rfl⟩ := (local_scan c).suffix ⟨read, valid⟩
    obtain rfl : front = c :: taken := List.append_cancel_right whole
    obtain ⟨read', -⟩ := (local_scan c).replace ⟨read, valid⟩ detached
    rw [← List.append_assoc] at starts
    have starts' := startsTrivia_replace starts detached
    rw [List.append_assoc] at starts'
    exact .token starts' read' valid

/-- A separator at the end of a text is cut off alone. -/
lemma Cut.end_alone {front : List Char} {d : Char} {kinds : List TokenKind}
    (isEnd : isSeparator d = true) (cut : Cut (front ++ [d]) kinds []) : front = [] := by
  generalize whole : front ++ [d] = cs at cut
  cases cut with
  | blank isBlank => simpa using congrArg List.length whole
  | hash closed =>
    rcases eq_nil_or_end ['#'] whole.symm with rfl | ⟨more, rfl⟩
    · cases closed
    · exact (afterLine_noEnd isEnd closed).elim
  | hyphens closed =>
    rcases eq_nil_or_end ['-', '-'] whole.symm with rfl | ⟨more, rfl⟩
    · cases closed
    · exact (afterLine_noEnd isEnd closed).elim
  | block closed =>
    rcases eq_nil_or_end ['/', '*'] whole.symm with rfl | ⟨more, rfl⟩
    · cases closed
    · exact (local_afterBlock.noEnd (a := ()) (isBreak_of_isSeparator isEnd) closed).elim
  | @token c cs _ _ starts read valid =>
    rcases eq_nil_or_end [c] whole.symm with rfl | ⟨more, rfl⟩
    · have lone : front ++ [d] = [] ++ [c] := whole
      exact (List.append_inj' lone rfl).1
    · exact ((local_scan c).noEnd (isBreak_of_isSeparator isEnd) ⟨read, valid⟩).elim

/-- No token ends with a blank. -/
lemma Cut.not_blank {front : List Char} {d : Char} {kind : TokenKind} (cut : Cut (front ++ [d]) [kind] []) :
    isBlank d = false := by
  rw [← Bool.not_eq_true]
  intro blank
  generalize whole : front ++ [d] = cs at cut
  cases cut with
  | @token c cs _ _ starts read valid =>
    rcases eq_nil_or_end [c] whole.symm with rfl | ⟨more, rfl⟩
    · have lone : front ++ [d] = [] ++ [c] := whole
      obtain ⟨-, same⟩ := List.append_inj' lone rfl
      cases same
      rw [startsTrivia, blank] at starts
      cases starts
    · have isEnd : isBreak d = true := by rw [isBreak, blank, Bool.or_true]
      exact ((local_scan c).noEnd isEnd ⟨read, valid⟩).elim

/-- Anything may follow a cut that ends with a character no token ends with. -/
lemma Cut.of_break {front : List Char} {d : Char} {kinds : List TokenKind} (isEnd : isBreak d = true)
    (cut : Cut (front ++ [d]) kinds []) (other : List Char) : Cut (front ++ d :: other) kinds other := by
  have same (more : List Char) : more ++ d :: other = (more ++ [d]) ++ other := by
    rw [List.append_assoc, List.singleton_append]
  generalize whole : front ++ [d] = cs at cut
  cases cut with
  | @blank c _ isBlank =>
    have lone : front ++ [d] = [] ++ [c] := whole
    obtain ⟨rfl, ⟨⟩⟩ := List.append_inj' lone rfl
    exact .blank isBlank
  | hash closed =>
    rw [same, whole]
    exact .hash (afterLine_append closed other)
  | hyphens closed =>
    rw [same, whole]
    exact .hyphens (afterLine_append closed other)
  | block closed =>
    rcases eq_nil_or_end ['/', '*'] whole.symm with rfl | ⟨more, rfl⟩
    · cases closed
    · exact (local_afterBlock.noEnd (a := ()) isEnd closed).elim
  | @token c cs _ _ starts read valid =>
    rcases eq_nil_or_end [c] whole.symm with rfl | ⟨more, rfl⟩
    · have lone : front ++ [d] = [] ++ [c] := whole
      obtain ⟨rfl, ⟨⟩⟩ := List.append_inj' lone rfl
      have noBlank : isBlank d = false := by
        simp only [startsTrivia, Bool.or_eq_false_iff] at starts
        exact starts.1.1.1
      simp only [isBreak, isSeparator, noBlank, Bool.or_false, Bool.or_eq_true, beq_iff_eq] at isEnd
      rcases isEnd with (((rfl | rfl) | rfl) | rfl) | rfl
      · cases noBlank
      all_goals
        cases read
        exact .token rfl rfl rfl
    · exact ((local_scan c).noEnd isEnd ⟨read, valid⟩).elim

/-- Anything may follow a separator. -/
lemma Cut.of_separator {d : Char} {kinds : List TokenKind} (isEnd : isSeparator d = true)
    (cut : Cut [d] kinds []) (other : List Char) : Cut (d :: other) kinds other := by
  have lone : Cut ([] ++ [d]) kinds [] := cut
  exact lone.of_break (isBreak_of_isSeparator isEnd) other

/-- A text may go on with `other` behind `front`: no token before it does, or `front` ends with a
character that no token ends with. -/
def Divided (front other : List Char) : Prop :=
  Detached other ∨ ∀ d ∈ front.getLast?, isBreak d = true

/-- A text may so go on behind the end of what is in front. -/
lemma Divided.behind {start front other : List Char} (h : Divided (start ++ front) other) :
    Divided front other := by
  refine h.imp_right fun ends d isLast => ends d ?_
  rw [List.getLast?_append, Option.mem_def.1 isLast]
  rfl

/-- A cut ignores what follows a text that may go on with anything. -/
lemma Cut.replace_divided {front more rest other : List Char} {kinds : List TokenKind}
    (cut : Cut (front ++ (more ++ rest)) kinds (more ++ rest)) (divided : Divided (front ++ more) other) :
    Cut (front ++ (more ++ other)) kinds (more ++ other) := by
  rcases divided with detached | ends
  · exact cut.replace detached
  rcases List.eq_nil_or_concat more with rfl | ⟨init, d, rfl⟩
  · -- the cut itself ends there
    rcases List.eq_nil_or_concat front with rfl | ⟨init, d, rfl⟩
    · obtain ⟨c, taken, same⟩ := cut.exists_front
      have longer := congrArg List.length same
      simp only [List.nil_append, List.length_append, List.length_cons] at longer
      omega
    · rw [List.concat_eq_append] at cut ends ⊢
      have isEnd : isBreak d = true := ends d (by simp)
      have alone : Cut ((init ++ [d]) ++ ([] ++ [])) kinds ([] ++ []) := cut.replace apart_nil.detached
      rw [List.append_nil, List.append_nil] at alone
      simpa using alone.of_break isEnd other
  · rw [List.concat_eq_append] at cut ends ⊢
    have isEnd : isBreak d = true := ends d (by simp)
    have detached : Detached (d :: other) := by
      rintro c cs ⟨rfl, rfl⟩
      exact isEnd
    rw [List.append_assoc] at cut ⊢
    exact cut.replace detached

/-- Several cuts, one after the other, with the kinds of the tokens among them and the rest of the
text. -/
inductive Cuts : List Char → List TokenKind → List Char → Prop
  /-- No cut. -/
  | refl (cs : List Char) : Cuts cs [] cs
  /-- A cut in front of others. -/
  | cut {cs middle rest : List Char} {kinds more : List TokenKind} (first : Cut cs kinds middle)
      (others : Cuts middle more rest) : Cuts cs (kinds ++ more) rest

namespace Cuts

variable {cs middle rest : List Char} {kinds more : List TokenKind}

/-- A single cut. -/
lemma single (h : Cut cs kinds rest) : Cuts cs kinds rest := by
  simpa using Cuts.cut h (.refl rest)

/-- Cuts after cuts. -/
lemma trans (h : Cuts cs kinds middle) (h' : Cuts middle more rest) : Cuts cs (kinds ++ more) rest := by
  induction h with
  | refl => exact h'
  | cut first others ih =>
    rw [List.append_assoc]
    exact .cut first (ih h')

/-- What is left after cuts is the end of the text. -/
lemma suffix (h : Cuts cs kinds rest) : rest <:+ cs := by
  induction h with
  | refl cs => exact List.suffix_rfl
  | cut first others ih => exact ih.trans first.suffix

/-- Several cuts ignore what follows.

**Proof sketch.** Induction on the cuts. What the first one leaves ends with what they all leave, so
the first one ignores what follows that. -/
lemma replace {front more rest other : List Char} {kinds : List TokenKind}
    (h : Cuts (front ++ (more ++ rest)) kinds (more ++ rest)) (detached : Detached other) :
    Cuts (front ++ (more ++ other)) kinds (more ++ other) := by
  generalize whole : front ++ (more ++ rest) = cs at h
  generalize left : more ++ rest = following at h
  induction h generalizing front with
  | refl cs =>
    subst left
    obtain rfl : front = [] := by simpa using whole
    exact .refl _
  | cut first others ih =>
    subst left
    obtain ⟨between, rfl⟩ := others.suffix
    obtain ⟨taken, rfl⟩ := first.suffix
    obtain rfl : front = taken ++ between :=
      (List.append_left_inj (more ++ rest)).1 (by rw [whole, List.append_assoc])
    rw [← List.append_assoc between] at first
    have again := first.replace detached
    rw [List.append_assoc between] at again
    rw [List.append_assoc]
    exact .cut again (ih rfl rfl)

end Cuts

/-! ## Reading a whole text -/

/-- A text is read to its end: it has no invalid token, and no comment in it is open at the end. -/
def Whole (text : String) : Prop :=
  ∃ kinds, Cuts text.toList kinds []

/-- The cut at the front of a text. -/
def cut? : List Char → Option (List TokenKind × List Char)
  | [] => none
  | c :: cs =>
    if isBlank c then some ([], cs)
    else if c == '#' then (afterLine? cs).map ([], ·)
    else if c == '-' && startsWith (· == '-') cs then (afterLine? cs.tail).map ([], ·)
    else if c == '/' && startsWith (· == '*') cs then (afterBlock? cs.tail).map ([], ·)
    else if (scan c cs).1.isBroken then none
    else some ([(scan c cs).1], (scan c cs).2)

/-- A blank is cut off. -/
lemma cut?_blank {c : Char} (isBlank : isBlank c = true) (cs : List Char) :
    cut? (c :: cs) = some ([], cs) := by
  rw [cut?, if_pos isBlank]

/-- The comment after a number sign is cut off. -/
lemma cut?_hash (cs : List Char) : cut? ('#' :: cs) = (afterLine? cs).map ([], ·) := by
  rw [cut?, if_neg (by decide), if_pos (by decide)]

/-- The comment after two hyphens is cut off. -/
lemma cut?_hyphens (cs : List Char) : cut? ('-' :: '-' :: cs) = (afterLine? cs).map ([], ·) := by
  rw [cut?, if_neg (by decide), if_neg (by decide), if_pos (by rfl), List.tail_cons]

/-- An enclosed comment is cut off. -/
lemma cut?_block (cs : List Char) : cut? ('/' :: '*' :: cs) = (afterBlock? cs).map ([], ·) := by
  rw [cut?, if_neg (by decide), if_neg (by decide), if_neg (by simp), if_pos (by rfl), List.tail_cons]

/-- A valid token is cut off. -/
lemma cut?_token {c : Char} {cs : List Char} (starts : startsTrivia c cs = false) :
    cut? (c :: cs) =
      if (scan c cs).1.isBroken then none else some ([(scan c cs).1], (scan c cs).2) := by
  simp only [startsTrivia, Bool.or_eq_false_iff] at starts
  obtain ⟨⟨⟨noBlank, noHash⟩, noHyphens⟩, noBlock⟩ := starts
  rw [cut?, if_neg (by simp [noBlank]), if_neg (by simp [noHash]), if_neg (by simp [noHyphens]),
    if_neg (by simp [noBlock])]

/-- The cut at the front of a text can be computed. -/
lemma cut_iff {cs rest : List Char} {kinds : List TokenKind} :
    Cut cs kinds rest ↔ cut? cs = some (kinds, rest) := by
  constructor
  · intro cut
    cases cut with
    | blank isBlank => exact cut?_blank isBlank _
    | hash closed => rw [cut?_hash, closed, Option.map_some]
    | hyphens closed => rw [cut?_hyphens, closed, Option.map_some]
    | block closed => rw [cut?_block, closed, Option.map_some]
    | token starts read valid => rw [cut?_token starts, read, if_neg (by simp [valid])]
  · intro computed
    cases cs with
    | nil => cases computed
    | cons c cs =>
      cases textFront c cs with
      | blank isBlank =>
        rw [cut?_blank isBlank] at computed
        cases computed
        exact .blank isBlank
      | hash =>
        obtain ⟨_, closed, same⟩ := Option.map_eq_some_iff.1 ((cut?_hash _).symm.trans computed)
        cases same
        exact .hash closed
      | hyphens =>
        obtain ⟨_, closed, same⟩ := Option.map_eq_some_iff.1 ((cut?_hyphens _).symm.trans computed)
        cases same
        exact .hyphens closed
      | block =>
        obtain ⟨_, closed, same⟩ := Option.map_eq_some_iff.1 ((cut?_block _).symm.trans computed)
        cases same
        exact .block closed
      | token starts =>
        rw [cut?_token starts] at computed
        split at computed
        · cases computed
        · rename_i valid
          cases computed
          exact .token starts rfl (by simpa using valid)

/-- Whether a text is read to its end by at most `n` cuts. -/
def isWholeUpTo : Nat → List Char → Bool
  | _, [] => true
  | 0, _ :: _ => false
  | n + 1, c :: cs => ((cut? (c :: cs)).map fun read => isWholeUpTo n read.2).getD false

/-- A text has no more cuts than characters. -/
lemma isWholeUpTo_iff {n : Nat} {cs : List Char} (enough : cs.length ≤ n) :
    isWholeUpTo n cs = true ↔ ∃ kinds, Cuts cs kinds [] := by
  induction n generalizing cs with
  | zero =>
    obtain rfl := List.length_eq_zero_iff.1 (Nat.le_zero.1 enough)
    exact ⟨fun _ => ⟨[], .refl []⟩, fun _ => rfl⟩
  | succ n ih =>
    cases cs with
    | nil => exact ⟨fun _ => ⟨[], .refl []⟩, fun _ => rfl⟩
    | cons c cs =>
      rw [isWholeUpTo]
      cases computed : cut? (c :: cs) with
      | none =>
        simp only [Option.map_none, Option.getD_none, Bool.false_eq_true, false_iff]
        rintro ⟨kinds, cuts⟩
        cases cuts with
        | cut first others => rw [cut_iff.1 first] at computed; cases computed
      | some read =>
        obtain ⟨kinds, rest⟩ := read
        have first := cut_iff.2 computed
        obtain ⟨d, taken, same⟩ := first.exists_front
        have shorter := congrArg List.length same
        simp only [List.length_cons, List.length_append] at shorter enough
        have fewer : rest.length ≤ n := by omega
        rw [Option.map_some, Option.getD_some, ih fewer]
        constructor
        · rintro ⟨more, others⟩
          exact ⟨kinds ++ more, .cut first others⟩
        · rintro ⟨_, cuts⟩
          cases cuts with
          | cut first' others =>
            rw [cut_iff.1 first'] at computed
            cases computed
            exact ⟨_, others⟩

instance (text : String) : Decidable (Whole text) :=
  decidable_of_iff (isWholeUpTo text.toList.length text.toList = true)
    (isWholeUpTo_iff (Nat.le_refl _))

end SqlRouting.Lexer
