import Mathlib.Tactic.Lemma
import SqlRouting.Token.Lexer

/-!
# What the scanners take

A scanner takes a number, a word, a symbol or some other token off the front of a text. What it
takes is decided by the characters that it takes and by the one or two after them, so the rest of
the text may be replaced by any other that goes on with no token. The scanners are made of a few
kinds of cuts, and each of these ignores what follows.

## Main definitions

* `SqlRouting.Lexer.Apart` — a text that goes on with no token before it.
* `SqlRouting.Lexer.Local` — a way to cut off the front of a text that ignores what follows.
* `SqlRouting.Lexer.guarded` — a choice between two cuts by the first character.
* `SqlRouting.Lexer.Encloses` — the characters that enclosed text is read from.
* `SqlRouting.Lexer.Scanner` — what reads the tokens that start with a character.

## Main results

* `SqlRouting.Lexer.Local.andThen`, `local_span`, `local_guarded`, `local_enclosed` — the kinds of
  cuts ignore what follows.
* `SqlRouting.Lexer.scanner` — the first character decides what reads a token.
* `SqlRouting.Lexer.local_scan` — cutting off a token ignores what follows.
-/

set_option autoImplicit false

namespace SqlRouting.Lexer

open Text

/-! ## What follows a cut -/

/-- Whether `c` goes on with no token and with no comment. -/
def isSeparator (c : Char) : Bool :=
  c == ' ' || c == ',' || c == '(' || c == ')'

/-- Whether no token ends with `c`, unless it is that one character. -/
def isBreak (c : Char) : Bool :=
  isSeparator c || c == ';' || isBlank c

/-- The characters that no token ends with. -/
def breaks : List Char :=
  [',', '(', ')', ';'] ++ ([0x9, 0xa, 0xb, 0xc, 0xd, 0x20, 0x85, 0xa0, 0x1680, 0x2000, 0x2001, 0x2002,
    0x2003, 0x2004, 0x2005, 0x2006, 0x2007, 0x2008, 0x2009, 0x200a, 0x2028, 0x2029, 0x202f, 0x205f,
    0x3000].map Char.ofNat)

/-- A separator, a semicolon or a blank is one of the characters that no token ends with. -/
lemma mem_breaks {c : Char} (h : isBreak c = true) : c ∈ breaks := by
  simp only [isBreak, isSeparator, Bool.or_eq_true, beq_iff_eq] at h
  rcases h with ((((rfl | rfl) | rfl) | rfl) | rfl) | h
  · decide
  · decide
  · decide
  · decide
  · decide
  · simp only [isBlank, blank, CharSet.contains, CharSet.covers] at h
    refine List.mem_append_right _ (List.mem_map.2 ⟨c.toNat, ?_, Char.ofNat_toNat c⟩)
    simp only [Bool.if_false_left, Bool.if_true_left, Bool.and_eq_true, Bool.or_eq_true,
      Bool.not_eq_true', decide_eq_true_eq, decide_eq_false_iff_not, Bool.or_false] at h
    simp only [List.mem_cons, List.not_mem_nil, or_false]
    omega

/-- A class of characters has no separator, no semicolon and no blank in it. -/
def Stops (p : Char → Bool) : Prop :=
  ∀ c, isBreak c = true → p c = false

/-- There are some characters to be looked at. -/
lemma stops_of {p : Char → Bool} (noBreak : breaks.any p = false) : Stops p := by
  intro c h
  exact Bool.not_eq_true _ ▸ List.any_eq_false.1 noBreak c (mem_breaks h)

/-- A single character that ends tokens is a class without separators and blanks. -/
lemma stops_beq {d : Char} (noBreak : isBreak d = false) : Stops (· == d) := by
  intro c h
  refine beq_false_of_ne ?_
  rintro rfl
  rw [noBreak] at h
  cases h

/-- Two classes without separators and blanks make one. -/
lemma Stops.or {p q : Char → Bool} (hp : Stops p) (hq : Stops q) : Stops fun c => p c || q c := by
  intro c h
  show (p c || q c) = false
  rw [hp c h, hq c h]
  rfl

/-- Letters and numerals are no separators and no blanks. -/
lemma stops_isLetterOrNumeral : Stops isLetterOrNumeral :=
  stops_of (by decide +kernel)

/-- The characters of words are no separators and no blanks. -/
lemma stops_isWordCharacter : Stops isWordCharacter :=
  (stops_isLetterOrNumeral.or (stops_beq rfl)).or (stops_beq rfl)

/-- The characters of variables are no separators, semicolons or blanks. -/
lemma stops_isVariableCharacter : Stops isVariableCharacter :=
  (stops_isLetterOrNumeral.or (stops_beq rfl)).or (stops_beq rfl)

/-- No token ends with a separator. -/
lemma isBreak_of_isSeparator {c : Char} (h : isSeparator c = true) : isBreak c = true := by
  rw [isBreak, h]
  rfl

/-- A text starts with a character that no token before it ends with, if it starts with anything. -/
def Detached (cs : List Char) : Prop :=
  ∀ c rest, cs = c :: rest → isBreak c = true

/-- A text starts with a separator, if it starts with anything. -/
def Apart (cs : List Char) : Prop :=
  ∀ c rest, cs = c :: rest → isSeparator c = true

/-- Nothing goes on with no token. -/
lemma apart_nil : Apart [] := by
  intro c rest same
  cases same

/-- A separator goes on with no token. -/
lemma apart_cons {c : Char} (isSeparator : isSeparator c = true) (cs : List Char) : Apart (c :: cs) := by
  rintro d rest ⟨rfl⟩
  exact isSeparator

/-- A text that starts with a separator starts with a character that no token ends with. -/
lemma Apart.detached {cs : List Char} (apart : Apart cs) : Detached cs :=
  fun c rest same => isBreak_of_isSeparator (apart c rest same)

/-- The end of a text that ends with some character ends with it, if there is anything in it. -/
lemma eq_nil_or_end (start : List Char) {cs front : List Char} {d : Char}
    (same : start ++ cs = front ++ [d]) :
    cs = [] ∨ ∃ more, cs = more ++ [d] := by
  rcases List.eq_nil_or_concat cs with rfl | ⟨more, c, rfl⟩
  · exact .inl rfl
  · rw [List.concat_eq_append, ← List.append_assoc] at same
    exact .inr ⟨more, by rw [List.concat_eq_append, (List.append_inj' same rfl).2]⟩

/-- The ways to cut off the front of a text, with a value and the rest of the text, that ignore what
follows the front. -/
structure Local {α : Type} (cuts : List Char → α → List Char → Prop) : Prop where
  /-- The rest is the end of the text. -/
  suffix {cs rest : List Char} {a : α} (cut : cuts cs a rest) : rest <:+ cs
  /-- The end of the rest may be replaced by a text that goes on with no token. -/
  replace {front more rest other : List Char} {a : α}
    (cut : cuts (front ++ (more ++ rest)) a (more ++ rest)) (detached : Detached other) :
    cuts (front ++ (more ++ other)) a (more ++ other)
  /-- A separator or a blank at the end of the text is left. -/
  noEnd {front : List Char} {a : α} {d : Char} (isEnd : isBreak d = true) :
    ¬ cuts (front ++ [d]) a []

namespace Local

variable {α β γ : Type}

/-- One cut after the other ignores what follows both. -/
lemma andThen {f : List Char → α × List Char} {g : List Char → β × List Char}
    (h : Local fun cs a rest => f cs = (a, rest)) (h' : Local fun cs b rest => g cs = (b, rest))
    (join : α → β → γ) :
    Local fun cs c rest => (join (f cs).1 (g (f cs).2).1, (g (f cs).2).2) = (c, rest) where
  suffix := by
    rintro cs _ _ ⟨rfl⟩
    exact (h'.suffix rfl).trans (h.suffix rfl)
  replace := by
    intro front more rest other c cut detached
    rcases first : f (front ++ (more ++ rest)) with ⟨a, middle⟩
    rcases second : g middle with ⟨b, left⟩
    simp only [first, second] at cut
    obtain ⟨rfl, rfl⟩ := Prod.mk.inj cut
    obtain ⟨between, rfl⟩ := h'.suffix second
    obtain ⟨start, same⟩ := h.suffix first
    rw [← List.append_assoc, List.append_cancel_right_eq] at same
    subst same
    rw [List.append_assoc, ← List.append_assoc between] at first
    have first' := h.replace first detached
    rw [List.append_assoc between, ← List.append_assoc start] at first'
    simp only [first', h'.replace second detached]
  noEnd := by
    intro front c d isEnd cut
    obtain ⟨-, left⟩ := Prod.mk.inj cut
    have suffix : (f (front ++ [d])).2 <:+ front ++ [d] := h.suffix rfl
    obtain ⟨start, same⟩ := suffix
    rcases eq_nil_or_end _ same with empty | ⟨more, middle⟩
    · exact h.noEnd isEnd (Prod.ext rfl empty)
    · rw [middle] at left
      exact h'.noEnd isEnd (Prod.ext rfl left)

/-- A cut with its value changed ignores what follows. -/
lemma map {f : List Char → α × List Char} (h : Local fun cs a rest => f cs = (a, rest)) (g : α → β) :
    Local fun cs b rest => (g (f cs).1, (f cs).2) = (b, rest) where
  suffix := by
    rintro cs _ _ ⟨rfl⟩
    exact h.suffix rfl
  replace := by
    intro front more rest other b cut detached
    obtain ⟨rfl, left⟩ := Prod.mk.inj cut
    rw [h.replace (Prod.ext rfl left) detached]
  noEnd := by
    intro front b d isEnd cut
    obtain ⟨-, left⟩ := Prod.mk.inj cut
    exact h.noEnd isEnd (Prod.ext rfl left)

/-- A cut that ignores what follows does so where its value is restricted. -/
lemma restrict {cuts : List Char → α → List Char → Prop} (h : Local cuts) (valid : α → Prop) :
    Local fun cs a rest => cuts cs a rest ∧ valid a where
  suffix cut := h.suffix cut.1
  replace cut detached := ⟨h.replace cut.1 detached, cut.2⟩
  noEnd isEnd cut := h.noEnd isEnd cut.1

end Local

/-- Cutting nothing off ignores what follows. -/
lemma local_nothing {α : Type} (a : α) : Local fun cs (b : α) rest => (a, cs) = (b, rest) where
  suffix := by
    rintro cs _ _ ⟨rfl⟩
    exact List.suffix_rfl
  replace := by
    intro front more rest other b cut detached
    obtain ⟨rfl, left⟩ := Prod.mk.inj cut
    obtain rfl : front = [] := by simpa using left
    rfl
  noEnd := by
    intro front b d isEnd cut
    simpa using (Prod.mk.inj cut).2

/-! ## Runs of characters -/

/-- Cutting off the longest run of characters of a class ignores what follows, if no separator is
of this class. -/
lemma local_span {p : Char → Bool} (stops : Stops p) :
    Local fun cs (run : List Char) rest => (cs.takeWhile p, cs.dropWhile p) = (run, rest) where
  suffix := by
    rintro cs _ run ⟨rfl⟩
    exact List.dropWhile_suffix p
  replace := by
    intro front more rest other run cut detached
    obtain ⟨taken, dropped⟩ := Prod.mk.inj cut
    have whole := List.takeWhile_append_dropWhile (p := p) (l := front ++ (more ++ rest))
    rw [taken, dropped, List.append_cancel_right_eq] at whole
    subst whole
    have all : ∀ c ∈ run, p c = true := by
      rw [← taken]
      exact List.all_eq_true.1 List.all_takeWhile
    have stop : (more ++ other).head?.all (!p ·) = true := by
      cases more with
      | cons c more =>
        have stopped := List.head?_dropWhile_not p (run ++ (c :: more ++ rest))
        rw [dropped] at stopped
        simpa using stopped
      | nil =>
        cases other with
        | nil => rfl
        | cons c other => simp [stops c (detached c other rfl)]
    rw [List.takeWhile_append_of_pos all, List.dropWhile_append_of_pos all]
    generalize more ++ other = following at stop
    cases following with
    | nil => simp
    | cons c following => simp_all
  noEnd := by
    intro front run d isEnd cut
    have whole := List.takeWhile_append_dropWhile (p := p) (l := front ++ [d])
    rw [(Prod.mk.inj cut).2, List.append_nil] at whole
    have all := List.all_takeWhile (p := p) (l := front ++ [d])
    simp [whole, stops d isEnd] at all

/-- Cutting off a run of digits ignores what follows. -/
lemma local_spanDigits : Local fun cs digits rest => spanDigits cs = (digits, rest) :=
  local_span (stops_of rfl)

/-! ## Numbers -/

/-- Whether the first character of a text is of a class. -/
def startsWith (p : Char → Bool) (cs : List Char) : Bool :=
  cs.head?.any p

/-- What goes on with no token starts with no character of a class without separators. -/
lemma startsWith_detached {p : Char → Bool} (stops : Stops p) {other : List Char}
    (detached : Detached other) : startsWith p other = false := by
  cases other with
  | nil => rfl
  | cons c other => exact stops c (detached c other rfl)

/-- What follows a text starts with no character of a class without separators, if it did not
before. -/
lemma startsWith_replace {p : Char → Bool} (stops : Stops p) (more : List Char)
    {rest other : List Char} (noStart : startsWith p (more ++ rest) = false) (detached : Detached other) :
    startsWith p (more ++ other) = false := by
  cases more with
  | cons c more => exact noStart
  | nil => exact startsWith_detached stops detached

/-- Cuts by `f` after a first character of a class, and by `g` where there is none. -/
def guarded {α : Type} (p : Char → Bool) (f : Char → List Char → α × List Char)
    (g : List Char → α × List Char) : List Char → α × List Char
  | [] => g []
  | c :: cs => if p c then f c cs else g (c :: cs)

section Guarded

variable {α : Type} {p : Char → Bool} {f : Char → List Char → α × List Char}
  {g : List Char → α × List Char} {cs : List Char}

/-- Where the first character is of another class, the cut is the one by `g`. -/
lemma guarded_of_not (noStart : startsWith p cs = false) : guarded p f g cs = g cs := by
  cases cs with
  | nil => rfl
  | cons c cs =>
    have absent : ¬ p c = true := by simpa [startsWith] using noStart
    rw [guarded, if_neg absent]

/-- Where nothing is cut off, the first character is of another class. -/
lemma startsWith_of_guarded (h : ∀ c, Local fun cs a rest => f c cs = (a, rest)) {a : α}
    (cut : guarded p f g cs = (a, cs)) : startsWith p cs = false := by
  cases cs with
  | nil => rfl
  | cons c cs =>
    rw [guarded] at cut
    split at cut
    · have shorter := ((h c).suffix cut).length_le
      simp only [List.length_cons] at shorter
      omega
    · rename_i absent
      simpa [startsWith] using absent

/-- A choice between two cuts by the first character ignores what follows, if no separator is of the
class. -/
lemma local_guarded (stops : Stops p) (h : ∀ c, Local fun cs a rest => f c cs = (a, rest))
    (h' : Local fun cs a rest => g cs = (a, rest)) :
    Local fun cs a rest => guarded p f g cs = (a, rest) where
  suffix := by
    intro cs rest a cut
    cases cs with
    | nil => exact h'.suffix cut
    | cons c cs =>
      rw [guarded] at cut
      split at cut
      · exact ((h c).suffix cut).trans (List.suffix_cons c cs)
      · exact h'.suffix cut
  replace := by
    intro front more rest other a cut detached
    cases front with
    | nil =>
      have noStart : startsWith p (more ++ rest) = false := startsWith_of_guarded h cut
      rw [List.nil_append, guarded_of_not noStart] at cut
      rw [List.nil_append, guarded_of_not (startsWith_replace stops _ noStart detached)]
      have start : g ([] ++ (more ++ rest)) = (a, more ++ rest) := cut
      exact h'.replace start detached
    | cons c front =>
      rw [List.cons_append, guarded] at cut ⊢
      split at cut
      · rename_i present
        rw [if_pos present]
        exact (h c).replace cut detached
      · rename_i absent
        rw [if_neg absent]
        have start : g ((c :: front) ++ (more ++ rest)) = (a, more ++ rest) := cut
        exact h'.replace start detached
  noEnd := by
    intro front a d isEnd cut
    cases front with
    | nil =>
      rw [List.nil_append, guarded, if_neg (by simp [stops d isEnd])] at cut
      have alone : g ([] ++ [d]) = (a, []) := cut
      exact h'.noEnd isEnd alone
    | cons c front =>
      rw [List.cons_append, guarded] at cut
      split at cut
      · exact (h c).noEnd isEnd cut
      · have last : g ((c :: front) ++ [d]) = (a, []) := cut
        exact h'.noEnd isEnd last

end Guarded

/-- Whether a character is a sign. -/
def isSign (c : Char) : Bool :=
  c == '+' || c == '-'

/-- Whether a character is the letter of an exponent. -/
def isExponentLetter (c : Char) : Bool :=
  c == 'e' || c == 'E'

/-- Cutting off a sign ignores what follows. -/
lemma local_spanSign : Local fun cs sign rest => spanSign cs = (sign, rest) := by
  have same : spanSign = guarded isSign (fun c cs => ([c], cs)) fun cs => ([], cs) := by
    funext cs
    cases cs <;> rfl
  rw [same]
  exact local_guarded (stops_of rfl) (fun _ => local_nothing _) (local_nothing _)

/-- Cutting off an exponent ignores what follows. -/
lemma local_spanExponent : Local fun cs exponent rest => spanExponent cs = (exponent, rest) := by
  have same : spanExponent = guarded isExponentLetter
      (fun e cs => (e :: ((spanSign cs).1 ++ (spanDigits (spanSign cs).2).1),
        (spanDigits (spanSign cs).2).2)) fun cs => ([], cs) := by
    funext cs
    cases cs <;> rfl
  rw [same]
  refine local_guarded (stops_of rfl) (fun e => ?_) (local_nothing _)
  exact local_spanSign.andThen local_spanDigits fun sign digits => e :: (sign ++ digits)

/-- Whether a text starts with a point and a digit. -/
def startsFraction (cs : List Char) : Bool :=
  startsWith (· == '.') cs && startsWith isDecimalDigit cs.tail

/-- A fraction is a point with the digits after it. -/
lemma spanFraction_eq (cs : List Char) : spanFraction cs =
    if startsFraction cs then ('.' :: (spanDigits cs.tail).1, (spanDigits cs.tail).2) else ([], cs) := by
  rcases cs with - | ⟨c, - | ⟨d, cs⟩⟩
  · rfl
  · simp [spanFraction, startsFraction, startsWith]
  · by_cases isPoint : c = '.'
    · subst isPoint
      simp [spanFraction, startsFraction, startsWith]
    · simp [spanFraction, startsFraction, startsWith, isPoint]

/-- What follows a text starts no fraction, if it did not before. -/
lemma startsFraction_replace (more : List Char) {rest other : List Char}
    (noFraction : startsFraction (more ++ rest) = false) (detached : Detached other) :
    startsFraction (more ++ other) = false := by
  rcases more with - | ⟨c, more⟩
  · have absent := startsWith_detached (stops_beq (rfl : isBreak '.' = false)) detached
    rw [List.nil_append, startsFraction, absent, Bool.false_and]
  · simp only [startsFraction, List.cons_append, List.tail_cons, Bool.and_eq_false_iff] at noFraction ⊢
    exact noFraction.imp id fun noDigit => startsWith_replace (stops_of rfl) more noDigit detached

/-- Where a digit comes first, digits are cut off. -/
lemma spanDigits_ne {cs digits : List Char} (first : startsWith isDecimalDigit cs = true) :
    spanDigits cs ≠ (digits, cs) := by
  intro same
  cases cs with
  | nil => cases first
  | cons d cs =>
    have isDigit : isDecimalDigit d = true := first
    have left := congrArg (List.length ∘ Prod.snd) same
    have shorter := length_dropWhile_le isDecimalDigit cs
    simp [spanDigits, isDigit] at left
    omega

/-- The digits of a fraction do not start at its point. -/
lemma spanDigits_tail_ne {cs : List Char} (present : startsFraction cs = true) :
    (spanDigits cs.tail).2 ≠ cs := by
  intro same
  cases cs with
  | nil => cases present
  | cons c cs =>
    have shorter : (spanDigits cs).2.length ≤ cs.length := (local_spanDigits.suffix rfl).length_le
    have lengths := congrArg List.length same
    simp only [List.tail_cons, List.length_cons] at lengths
    omega

/-- Cutting off a fraction ignores what follows. -/
lemma local_spanFraction : Local fun cs fraction rest => spanFraction cs = (fraction, rest) where
  suffix := by
    intro cs rest fraction cut
    rw [spanFraction_eq] at cut
    split at cut
    · cases cut
      exact (local_spanDigits.suffix rfl).trans (List.tail_suffix cs)
    · cases cut
      exact List.suffix_rfl
  replace := by
    intro front more rest other fraction cut detached
    rw [spanFraction_eq] at cut ⊢
    cases present : startsFraction (front ++ (more ++ rest)) with
    | false =>
      simp only [present, Bool.false_eq_true, if_false, Prod.mk.injEq] at cut
      obtain ⟨rfl, left⟩ := cut
      obtain rfl : front = [] := by simpa using left
      have absent := startsFraction_replace more present detached
      rw [List.nil_append, absent]
      rfl
    | true =>
      simp only [present, if_true, Prod.mk.injEq] at cut
      obtain ⟨rfl, left⟩ := cut
      obtain ⟨point, digit⟩ := Bool.and_eq_true_iff.1 present
      cases front with
      | nil => exact absurd left (spanDigits_tail_ne present)
      | cons c front =>
        have read : spanDigits (front ++ (more ++ rest)) = (_, more ++ rest) := Prod.ext rfl left
        have again := local_spanDigits.replace read detached
        have stillDigit : startsWith isDecimalDigit (front ++ (more ++ other)) = true := by
          cases front with
          | nil => exact absurd read (spanDigits_ne digit)
          | cons d front => exact digit
        have stillPresent : startsFraction (c :: front ++ (more ++ other)) = true :=
          Bool.and_eq_true_iff.2 ⟨point, stillDigit⟩
        rw [if_pos stillPresent]
        simp only [List.cons_append, List.tail_cons, again]
  noEnd := by
    intro front fraction d isEnd cut
    rw [spanFraction_eq] at cut
    split at cut
    · rename_i present
      cases front with
      | nil => simp [startsFraction, startsWith] at present
      | cons c front => exact local_spanDigits.noEnd isEnd (Prod.ext rfl (Prod.mk.inj cut).2)
    · simpa using (Prod.mk.inj cut).2

/-- Cutting off a decimal number ignores what follows. -/
lemma local_scanDecimal (first : Char) :
    Local fun cs kind rest => scanDecimal first cs = (kind, rest) :=
  (local_spanDigits.andThen local_spanFraction (· ++ ·)).andThen local_spanExponent
    fun digits exponent => TokenKind.number (String.ofList (first :: (digits ++ exponent)))

/-- Whether `c` marks a hexadecimal number after the digit `first`. -/
def isHexMark (first c : Char) : Bool :=
  first == '0' && (c == 'x' || c == 'X')

/-- Cutting off a number ignores what follows. -/
lemma local_scanNumber (first : Char) :
    Local fun cs kind rest => scanNumber first cs = (kind, rest) := by
  have same : scanNumber first = guarded (isHexMark first)
      (fun x cs => (.number (String.ofList (first :: x :: cs.takeWhile isHexDigit)),
        cs.dropWhile isHexDigit)) (scanDecimal first) := by
    funext cs
    cases cs <;> rfl
  rw [same]
  have stops : Stops (isHexMark first) := by
    intro c isBreak
    have marks : Stops fun c => c == 'x' || c == 'X' := (stops_beq rfl).or (stops_beq rfl)
    exact Bool.and_eq_false_imp.2 fun _ => marks c isBreak
  refine local_guarded stops (fun x => ?_) (local_scanDecimal first)
  exact (local_span (stops_of rfl)).map fun digits =>
    TokenKind.number (String.ofList (first :: x :: digits))

/-! ## Words and variables -/

/-- Cutting off a word ignores what follows. -/
lemma local_scanWord (first : Char) : Local fun cs kind rest => scanWord first cs = (kind, rest) :=
  (local_span stops_isWordCharacter).map fun letters => wordKind (String.ofList (first :: letters))

/-- The kind of a variable, by its name. -/
def variableKind (name : List Char) : TokenKind :=
  if name.isEmpty then Fault.emptyVariableName.kind else .userVariable (String.ofList name)

/-- Cutting off a variable ignores what follows. -/
lemma local_scanVariable : Local fun cs kind rest => scanVariable cs = (kind, rest) := by
  have same : scanVariable = guarded (· == '@')
      (fun _ cs => (variableKind (cs.takeWhile isVariableCharacter), cs.dropWhile isVariableCharacter))
      fun cs => (variableKind (cs.takeWhile isVariableCharacter),
        cs.dropWhile isVariableCharacter) := by
    funext cs
    rcases cs with - | ⟨c, cs⟩
    · rfl
    · by_cases isMark : c = '@'
      · subst isMark
        rfl
      · simp [scanVariable, guarded, variableKind, isMark]
  have name := (local_span stops_isVariableCharacter).map variableKind
  rw [same]
  exact local_guarded (stops_beq rfl) (fun _ => name) name

/-! ## Enclosed text -/

section Enclosed

variable {closing : Char} {escapes : Bool}

/-- Enclosed text ends at its closing character, unless this is doubled. -/
lemma enclosed_closing {cs : List Char} (single : startsWith (· == closing) cs = false) :
    enclosed? closing escapes (closing :: cs) = some ([], cs) := by
  cases cs with
  | nil => simp [enclosed?]
  | cons d cs =>
    have differs : ¬ (d == closing) = true := by simpa [startsWith] using single
    rw [enclosed?, if_pos (beq_self_eq_true closing), if_neg differs]

/-- A character that neither closes nor escapes stands for itself. -/
lemma enclosed_plain {c : Char} (noClosing : ¬ (c == closing) = true)
    (noEscape : ¬ (c == '\\' && escapes) = true) (cs : List Char) :
    enclosed? closing escapes (c :: cs) =
      (enclosed? closing escapes cs).map fun (value, rest) => (c :: value, rest) := by
  cases cs with
  | nil => simp [enclosed?, noClosing]
  | cons d cs => rw [enclosed?, if_neg noClosing, if_neg noEscape]

/-- The characters `written` are enclosed text of the given value with its closing character, in front of
`rest`. -/
inductive Encloses (closing : Char) (escapes : Bool) (rest : List Char) : List Char → List Char → Prop
  /-- The closing character, if it does not follow once more. -/
  | close (single : startsWith (· == closing) rest = false) : Encloses closing escapes rest [closing] []
  /-- The closing character twice. -/
  | doubled {written value : List Char} (inner : Encloses closing escapes rest written value) :
      Encloses closing escapes rest (closing :: closing :: written) (closing :: value)
  /-- Any character after a backslash. -/
  | escaped {c d : Char} {written value : List Char} (noClosing : ¬ (c == closing) = true)
      (escape : (c == '\\' && escapes) = true) (inner : Encloses closing escapes rest written value) :
      Encloses closing escapes rest (c :: d :: written) (d :: value)
  /-- Any other character. -/
  | plain {c : Char} {written value : List Char} (noClosing : ¬ (c == closing) = true)
      (noEscape : ¬ (c == '\\' && escapes) = true) (inner : Encloses closing escapes rest written value) :
      Encloses closing escapes rest (c :: written) (c :: value)

/-- What is read as enclosed text is enclosed text in front of the rest. -/
lemma exists_encloses {cs value rest : List Char}
    (read : enclosed? closing escapes cs = some (value, rest)) :
    ∃ written, cs = written ++ rest ∧ Encloses closing escapes rest written value := by
  fun_induction enclosed? closing escapes cs generalizing value rest with
  | case1 | case3 => cases read
  | case2 c closed =>
    cases read
    obtain rfl := beq_iff_eq.1 closed
    exact ⟨[c], rfl, .close rfl⟩
  | case4 c d tail closed doubled ih =>
    obtain ⟨⟨inner, _⟩, read, same⟩ := Option.map_eq_some_iff.1 read
    cases same
    obtain ⟨written, rfl, encloses⟩ := ih read
    obtain rfl := beq_iff_eq.1 closed
    obtain rfl := beq_iff_eq.1 doubled
    exact ⟨d :: d :: written, rfl, encloses.doubled⟩
  | case5 c d tail closed single =>
    cases read
    obtain rfl := beq_iff_eq.1 closed
    exact ⟨[c], rfl, .close (by simpa [startsWith] using single)⟩
  | case6 c d tail noClosing escape ih =>
    obtain ⟨⟨inner, _⟩, read, same⟩ := Option.map_eq_some_iff.1 read
    cases same
    obtain ⟨written, rfl, encloses⟩ := ih read
    exact ⟨c :: d :: written, rfl, encloses.escaped noClosing escape⟩
  | case7 c d tail noClosing noEscape ih =>
    obtain ⟨⟨inner, _⟩, read, same⟩ := Option.map_eq_some_iff.1 read
    cases same
    obtain ⟨written, whole, encloses⟩ := ih read
    exact ⟨c :: written, congrArg (c :: ·) whole, encloses.plain noClosing noEscape⟩

namespace Encloses

variable {written value rest : List Char}

/-- Enclosed text in front of the rest is read. -/
lemma read (h : Encloses closing escapes rest written value) :
    enclosed? closing escapes (written ++ rest) = some (value, rest) := by
  induction h with
  | close single => exact enclosed_closing single
  | doubled _ ih =>
    rw [List.cons_append, List.cons_append, enclosed?, if_pos (beq_self_eq_true closing),
      if_pos (beq_self_eq_true closing), ih]
    rfl
  | escaped noClosing escape _ ih =>
    rw [List.cons_append, List.cons_append, enclosed?, if_neg noClosing, if_pos escape, ih]
    rfl
  | plain noClosing noEscape _ ih =>
    rw [List.cons_append, enclosed_plain noClosing noEscape, ih]
    rfl

/-- The rest after enclosed text decides nothing but that the closing character is single. -/
lemma replace {other : List Char} (h : Encloses closing escapes rest written value)
    (single : startsWith (· == closing) rest = false → startsWith (· == closing) other = false) :
    Encloses closing escapes other written value := by
  induction h with
  | close first => exact .close (single first)
  | doubled _ ih => exact ih.doubled
  | escaped noClosing escape _ ih => exact ih.escaped noClosing escape
  | plain noClosing noEscape _ ih => exact ih.plain noClosing noEscape

/-- Enclosed text ends with its closing character. -/
lemma exists_closing (h : Encloses closing escapes rest written value) :
    ∃ front, written = front ++ [closing] := by
  induction h with
  | close => exact ⟨[], rfl⟩
  | doubled _ ih =>
    obtain ⟨front, rfl⟩ := ih
    exact ⟨closing :: closing :: front, rfl⟩
  | @escaped c d _ _ _ _ _ ih =>
    obtain ⟨front, rfl⟩ := ih
    exact ⟨c :: d :: front, rfl⟩
  | @plain c _ _ _ _ _ ih =>
    obtain ⟨front, rfl⟩ := ih
    exact ⟨c :: front, rfl⟩

end Encloses

/-- Cutting off enclosed text ignores what follows. -/
lemma local_enclosed (noBreak : isBreak closing = false) :
    Local fun cs value rest => enclosed? closing escapes cs = some (value, rest) where
  suffix := by
    intro cs rest value read
    obtain ⟨written, rfl, -⟩ := exists_encloses read
    exact List.suffix_append _ _
  replace := by
    intro front more rest other value read detached
    obtain ⟨written, whole, encloses⟩ := exists_encloses read
    obtain rfl : front = written := List.append_cancel_right whole
    exact (encloses.replace fun single =>
      startsWith_replace (stops_beq noBreak) more single detached).read
  noEnd := by
    intro front value d isEnd read
    obtain ⟨written, whole, encloses⟩ := exists_encloses read
    obtain ⟨start, rfl⟩ := encloses.exists_closing
    rw [List.append_nil] at whole
    obtain ⟨-, same⟩ := List.append_inj' whole rfl
    cases same
    rw [isEnd] at noBreak
    cases noBreak

end Enclosed

/-! ## Symbols -/

/-- The symbols that start with `c` and go on with `d` or with nothing. -/
def symbolOr (d : Char) (long short : Symbol) : List Char → Symbol × List Char :=
  guarded (· == d) (fun _ cs => (long, cs)) fun cs => (short, cs)

/-- Cutting off the longer of two symbols ignores what follows, if no separator goes on with the
shorter. -/
lemma local_symbolOr {d : Char} (noBreak : isBreak d = false) (long short : Symbol) :
    Local fun cs symbol rest => symbolOr d long short cs = (symbol, rest) :=
  local_guarded (stops_beq noBreak) (fun _ => local_nothing long) (local_nothing short)

/-- The symbols that start with a greater-than sign, an exclamation mark, a bar or an ampersand. -/
lemma scanSymbol_pairs (cs : List Char) :
    scanSymbol? '>' cs = some (symbolOr '=' .gtEq .gt cs) ∧
      scanSymbol? '!' cs = some (symbolOr '=' .notEq .bang cs) ∧
      scanSymbol? '|' cs = some (symbolOr '|' .doubleBar .bar cs) ∧
      scanSymbol? '&' cs = some (symbolOr '&' .doubleAmp .amp cs) := by
  rcases cs with - | ⟨d, cs⟩
  · exact ⟨rfl, rfl, rfl, rfl⟩
  · refine ⟨?_, ?_, ?_, ?_⟩
    · by_cases same : d = '=' <;> simp [scanSymbol?, symbolOr, guarded, same]
    · by_cases same : d = '=' <;> simp [scanSymbol?, symbolOr, guarded, same]
    · by_cases same : d = '|' <;> simp [scanSymbol?, symbolOr, guarded, same]
    · by_cases same : d = '&' <;> simp [scanSymbol?, symbolOr, guarded, same]

/-- The symbols that start with a less-than sign. -/
lemma scanSymbol_less (cs : List Char) : scanSymbol? '<' cs =
    some (guarded (· == '=') (fun _ => symbolOr '>' .nullSafeEq .ltEq) (symbolOr '>' .notEq .lt) cs) := by
  rcases cs with - | ⟨d, cs⟩
  · rfl
  · by_cases equals : d = '='
    · rcases cs with - | ⟨e, cs⟩
      · simp [scanSymbol?, symbolOr, guarded, equals]
      · by_cases greater : e = '>' <;> simp [scanSymbol?, symbolOr, guarded, equals, greater]
    · by_cases greater : d = '>' <;> simp [scanSymbol?, symbolOr, guarded, equals, greater]

/-- Whether a character starts a symbol does not depend on what follows, and if it does, cutting the
symbol off ignores what follows the symbol. -/
lemma scanSymbol_cases (c : Char) : (∀ cs, scanSymbol? c cs = none) ∨
    ∃ f : List Char → Symbol × List Char, (Local fun cs symbol rest => f cs = (symbol, rest)) ∧
      ∀ cs, scanSymbol? c cs = some (f cs) := by
  by_cases single : c ∈ ['(', ')', ',', ';', '.', '?', '+', '-', '*', '/', '%', '^', '~', '=']
  · right
    simp only [List.mem_cons, List.not_mem_nil, or_false] at single
    rcases single with rfl | rfl | rfl | rfl | rfl | rfl | rfl | rfl | rfl | rfl | rfl | rfl | rfl | rfl
    all_goals exact ⟨_, local_nothing _, fun cs => rfl⟩
  · by_cases double : c ∈ ['<', '>', '!', '|', '&']
    · right
      simp only [List.mem_cons, List.not_mem_nil, or_false] at double
      rcases double with rfl | rfl | rfl | rfl | rfl
      · refine ⟨_, local_guarded (stops_beq rfl) (fun _ => ?_) ?_, scanSymbol_less⟩
        · exact local_symbolOr rfl .nullSafeEq .ltEq
        · exact local_symbolOr rfl .notEq .lt
      · exact ⟨_, local_symbolOr rfl .gtEq .gt, fun cs => (scanSymbol_pairs cs).1⟩
      · exact ⟨_, local_symbolOr rfl .notEq .bang, fun cs => (scanSymbol_pairs cs).2.1⟩
      · exact ⟨_, local_symbolOr rfl .doubleBar .bar, fun cs => (scanSymbol_pairs cs).2.2.1⟩
      · exact ⟨_, local_symbolOr rfl .doubleAmp .amp, fun cs => (scanSymbol_pairs cs).2.2.2⟩
    · left
      intro cs
      unfold scanSymbol?
      split <;> simp at single double ⊢

/-! ## Tokens -/

/-- Whether a token takes the whole rest of its text because its closing mark is missing. -/
def isOpen (kind : TokenKind) : Bool :=
  [Fault.unterminatedString, .unterminatedQuotedName, .unterminatedBracketedName].any fun fault =>
    kind == fault.kind

/-- A quotation mark is no separator, semicolon or blank. -/
lemma isBreak_of_isQuotationMark {c : Char} (isQuote : isQuotationMark c = true) : isBreak c = false := by
  simp only [isQuotationMark, Bool.or_eq_true, beq_iff_eq] at isQuote
  rcases isQuote with (((rfl | rfl) | rfl) | rfl) | rfl <;> decide +kernel

/-- What reads the tokens that start with the character `c`, from what follows it. -/
inductive Scanner (c : Char) : (List Char → TokenKind × List Char) → Prop
  /-- A symbol. -/
  | symbol {f : List Char → Symbol × List Char}
      (isLocal : Local fun cs symbol rest => f cs = (symbol, rest))
      (isSymbol : ∀ cs, scanSymbol? c cs = some (f cs)) : Scanner c fun cs => (.symbol (f cs).1, (f cs).2)
  /-- A string. -/
  | string (isQuote : c = '\'') : Scanner c (scanEnclosed '\'' true .string .unterminatedString)
  /-- A quoted name. -/
  | name {closing : Char} {fault : Fault} (opens : isQuotationMark c = true)
      (closes : isQuotationMark closing = true) (isFault : isOpen fault.kind = true) :
      Scanner c (scanEnclosed closing false .identifier fault)
  /-- A variable. -/
  | userVariable : Scanner c scanVariable
  /-- A number. -/
  | number : Scanner c (scanNumber c)
  /-- A word. -/
  | word (starts : isWordStart c = true) : Scanner c (scanWord c)
  /-- No token starts with the character. -/
  | unexpected : Scanner c fun cs => ((Fault.unexpectedCharacter c).kind, cs)

/-- The first character decides what reads a token. -/
lemma scanner (c : Char) : Scanner c (scan c) := by
  rcases scanSymbol_cases c with noReader | ⟨f, isLocal, isSymbol⟩
  · have noSymbol : scan c = fun cs => _ := funext fun cs => by rw [scan, noReader]
    rw [noSymbol]
    by_cases isString : (c == '\'') = true
    · simp only [if_pos isString]
      exact .string (beq_iff_eq.1 isString)
    by_cases isQuoted : (c == '"' || c == '\u0060') = true
    · have isQuote : isQuotationMark c = true := by
        rw [Bool.or_eq_true] at isQuoted
        rcases isQuoted with same | same <;> simp [isQuotationMark, same]
      simp only [if_neg isString, if_pos isQuoted]
      exact .name isQuote isQuote (by decide)
    by_cases isBracketed : (c == '[') = true
    · simp only [if_neg isString, if_neg isQuoted, if_pos isBracketed]
      exact .name (by simp [isQuotationMark, isBracketed]) rfl (by decide)
    by_cases isVariable : (c == '@') = true
    · simp only [if_neg isString, if_neg isQuoted, if_neg isBracketed, if_pos isVariable]
      exact .userVariable
    by_cases isNumber : isDecimalDigit c = true
    · simp only [if_neg isString, if_neg isQuoted, if_neg isBracketed, if_neg isVariable,
        if_pos isNumber]
      exact .number
    by_cases isWord : isWordStart c = true
    · simp only [if_neg isString, if_neg isQuoted, if_neg isBracketed, if_neg isVariable,
        if_neg isNumber, if_pos isWord]
      exact .word isWord
    · simp only [if_neg isString, if_neg isQuoted, if_neg isBracketed, if_neg isVariable,
        if_neg isNumber, if_neg isWord]
      exact .unexpected
  · have same : scan c = fun cs => (.symbol (f cs).1, (f cs).2) := funext fun cs => by rw [scan, isSymbol cs]
    rw [same]
    exact .symbol isLocal isSymbol

/-- Enclosed text is read as what is made of it, or as a fault. -/
lemma scanEnclosed_kind (closing : Char) (escapes : Bool) (make : String → TokenKind) (fault : Fault)
    (cs : List Char) : (∃ value, (scanEnclosed closing escapes make fault cs).1 = make value) ∨
      (scanEnclosed closing escapes make fault cs).1 = fault.kind := by
  unfold scanEnclosed
  split
  · exact .inl ⟨_, rfl⟩
  · exact .inr rfl

/-- Enclosed text is read as no kind that is neither made of it nor the fault. -/
lemma scanEnclosed_ne {closing : Char} {escapes : Bool} {make : String → TokenKind} {fault : Fault}
    {cs : List Char} {kind : TokenKind} (made : ∀ value, make value ≠ kind) (noFault : fault.kind ≠ kind) :
    (scanEnclosed closing escapes make fault cs).1 ≠ kind := by
  rcases scanEnclosed_kind closing escapes make fault cs with ⟨value, same⟩ | same
  · rw [same]
    exact made value
  · rw [same]
    exact noFault

/-- A number without a base is read as one, which is what it takes of the text. -/
lemma scanDecimal_source (first : Char) (cs : List Char) : ∃ literal,
    (scanDecimal first cs).1 = .number literal ∧
      first :: cs = literal.toList ++ (scanDecimal first cs).2 := by
  have digits (cs : List Char) : (spanDigits cs).1 ++ (spanDigits cs).2 = cs :=
    List.takeWhile_append_dropWhile
  have fraction (cs : List Char) : (spanFraction cs).1 ++ (spanFraction cs).2 = cs := by
    unfold spanFraction
    split
    · split
      · rw [List.cons_append, digits]
      · rfl
    · rfl
  have sign (cs : List Char) : (spanSign cs).1 ++ (spanSign cs).2 = cs := by
    unfold spanSign
    split
    · rfl
    · split <;> rfl
  have exponent (cs : List Char) : (spanExponent cs).1 ++ (spanExponent cs).2 = cs := by
    unfold spanExponent
    split
    · rfl
    · split
      · rw [List.cons_append, List.append_assoc, digits, sign]
      · rfl
  refine ⟨_, rfl, ?_⟩
  rw [scanDecimal, String.toList_ofList, List.cons_append, List.append_assoc, List.append_assoc,
    exponent, fraction, digits]

/-- A number is read as one, which is what it takes of the text. -/
lemma scanNumber_source (first : Char) (cs : List Char) : ∃ literal,
    (scanNumber first cs).1 = .number literal ∧
      first :: cs = literal.toList ++ (scanNumber first cs).2 := by
  unfold scanNumber
  split
  · exact scanDecimal_source first []
  · rename_i x rest
    split
    · refine ⟨_, rfl, ?_⟩
      rw [String.toList_ofList, List.cons_append, List.cons_append, List.takeWhile_append_dropWhile]
    · exact scanDecimal_source first (x :: rest)

/-- A number is read as one. -/
lemma scanNumber_kind (first : Char) (cs : List Char) :
    ∃ literal, (scanNumber first cs).1 = .number literal := by
  obtain ⟨literal, same, -⟩ := scanNumber_source first cs
  exact ⟨literal, same⟩

/-- A variable is read as one, or as a fault. -/
lemma scanVariable_kind (cs : List Char) : (∃ name, (scanVariable cs).1 = .userVariable name) ∨
    (scanVariable cs).1 = Fault.emptyVariableName.kind := by
  unfold scanVariable
  dsimp only
  split
  · split
    · exact .inr rfl
    · exact .inl ⟨_, rfl⟩
  · split
    · exact .inr rfl
    · exact .inl ⟨_, rfl⟩

/-- A number is of no other kind. -/
lemma scanNumber_ne {first : Char} {cs : List Char} {kind : TokenKind}
    (noNumber : ∀ literal, TokenKind.number literal ≠ kind) : (scanNumber first cs).1 ≠ kind := by
  obtain ⟨literal, same⟩ := scanNumber_kind first cs
  rw [same]
  exact noNumber literal

/-- A variable is of no kind that is neither one nor a fault. -/
lemma scanVariable_ne {cs : List Char} {kind : TokenKind}
    (noName : ∀ name, TokenKind.userVariable name ≠ kind)
    (noFault : Fault.emptyVariableName.kind ≠ kind) : (scanVariable cs).1 ≠ kind := by
  rcases scanVariable_kind cs with ⟨name, same⟩ | same
  · rw [same]
    exact noName name
  · rw [same]
    exact noFault

/-- Cutting off enclosed text as a token ignores what follows. -/
lemma local_scanEnclosed {closing : Char} (noBreak : isBreak closing = false) (escapes : Bool)
    (make : String → TokenKind) (fault : Fault) {taken : TokenKind → Prop}
    (noFault : ¬ taken fault.kind) :
    Local fun cs kind rest =>
      scanEnclosed closing escapes make fault cs = (kind, rest) ∧ taken kind := by
  have whole {cs rest : List Char} {kind : TokenKind}
      (cut : scanEnclosed closing escapes make fault cs = (kind, rest)) (valid : taken kind) :
      ∃ value, enclosed? closing escapes cs = some (value, rest) ∧ make (String.ofList value) = kind := by
    unfold scanEnclosed at cut
    split at cut
    · rename_i value _ read
      cases cut
      exact ⟨value, read, rfl⟩
    · cases cut
      exact absurd valid noFault
  refine ⟨fun cut => ?_, fun cut detached => ?_, fun isEnd cut => ?_⟩
  · obtain ⟨value, read, -⟩ := whole cut.1 cut.2
    exact (local_enclosed noBreak).suffix read
  · obtain ⟨value, read, made⟩ := whole cut.1 cut.2
    have again := (local_enclosed noBreak).replace read detached
    exact ⟨by simp only [scanEnclosed, again, made], cut.2⟩
  · obtain ⟨value, read, -⟩ := whole cut.1 cut.2
    exact (local_enclosed noBreak).noEnd isEnd read

/-- Cutting off a token that is taken only if it is closed ignores what follows. Its first character
is already taken. -/
lemma local_scanTaken (c : Char) {taken : TokenKind → Prop}
    (closed : ∀ kind, taken kind → isOpen kind = false) :
    Local fun cs kind rest => scan c cs = (kind, rest) ∧ taken kind := by
  have noFault {fault : Fault} (isOpen : isOpen fault.kind = true) : ¬ taken fault.kind :=
    fun isTaken => by simp [closed _ isTaken] at isOpen
  have scanned := scanner c
  generalize scan c = scans at scanned ⊢
  cases scanned with
  | symbol isLocal => exact (isLocal.map TokenKind.symbol).restrict taken
  | string => exact local_scanEnclosed rfl true .string .unterminatedString (noFault (by decide))
  | name _ closes isFault =>
    exact local_scanEnclosed (isBreak_of_isQuotationMark closes) false .identifier _ (noFault isFault)
  | userVariable => exact local_scanVariable.restrict taken
  | number => exact (local_scanNumber c).restrict taken
  | word => exact (local_scanWord c).restrict taken
  | unexpected => exact (local_nothing _).restrict taken

/-- A valid token is closed. -/
lemma isOpen_of_valid {kind : TokenKind} (valid : kind.isBroken = false) : isOpen kind = false := by
  cases kind <;> first | rfl | cases valid

/-- Cutting off a valid token, of which the first character is already taken, ignores what
follows. -/
lemma local_scan (c : Char) :
    Local fun cs kind rest => scan c cs = (kind, rest) ∧ kind.isBroken = false :=
  local_scanTaken c fun _ => isOpen_of_valid

end SqlRouting.Lexer
