import SqlRouting.Proofs.Position

/-!
# Quoted values

Any value can be written as a string, or as a name between quotation marks, backticks or brackets: its
closing characters are doubled, and in a string its backslashes too, which would make the next character
stand for itself. It is read back as one token, whatever the value has in it: other quotes, comments or
runs of the doubled characters. What follows does not matter, unless it starts with one more closing
character, which would be read together with the last one.

## Main definitions

* `SqlRouting.Lexer.Quotation` — the ways to write a value between two characters.
* `SqlRouting.Lexer.Quotation.written` — a value written in one of these ways.

## Main results

* `SqlRouting.Lexer.Quotation.enclosed_doubled` — enclosed text is read back.
* `SqlRouting.Lexer.Quotation.tokenize_written` — a written value is one token.
-/

set_option autoImplicit false

namespace SqlRouting.Lexer

open Text

/-- The ways to write a value between two characters. -/
inductive Quotation
  /-- A string, between apostrophes. -/
  | string
  /-- A name between quotation marks. -/
  | quotationMarks
  /-- A name between backticks. -/
  | backticks
  /-- A name between brackets. -/
  | brackets
deriving DecidableEq, Repr

namespace Quotation

/-- The character in front of the value. -/
def opening : Quotation → Char
  | .string => '\''
  | .quotationMarks => '"'
  | .backticks => '\u0060'
  | .brackets => '['

/-- The character behind the value. -/
def closing : Quotation → Char
  | .brackets => ']'
  | form => form.opening

/-- Whether a backslash makes the next character stand for itself. -/
def escapes : Quotation → Bool
  | .string => true
  | _ => false

/-- Whether a character of the value is written twice. -/
def doubles (form : Quotation) (c : Char) : Bool :=
  c == form.closing || (c == '\\' && form.escapes)

/-- The characters between the first and the last one. -/
def doubled (form : Quotation) (value : List Char) : List Char :=
  value.flatMap fun c => if form.doubles c then [c, c] else [c]

/-- A value, written between two characters. -/
def written (form : Quotation) (value : String) : String :=
  String.ofList (form.opening :: (form.doubled value.toList ++ [form.closing]))

/-- The token that a written value is. -/
def kind : Quotation → String → TokenKind
  | .string => .string
  | _ => .identifier

variable {form : Quotation} {cs rest value : List Char} {c : Char}

/-! ## Reading enclosed text -/

/-- A closing character or a backslash that is doubled stands for itself. -/
lemma enclosed_twice (twice : form.doubles c = true) (cs : List Char) :
    enclosed? form.closing form.escapes (c :: c :: cs) =
      (enclosed? form.closing form.escapes cs).map fun (value, rest) => (c :: value, rest) := by
  by_cases closes : (c == form.closing) = true
  · obtain rfl := beq_iff_eq.1 closes
    rw [enclosed?, if_pos closes, if_pos closes]
  · have escaped : (c == '\\' && form.escapes) = true :=
      (Bool.or_eq_true_iff.1 twice).resolve_left closes
    rw [enclosed?, if_neg closes, if_pos escaped]

/-- A character that is not doubled stands for itself. -/
lemma enclosed_once (once : ¬ form.doubles c = true) (cs : List Char) :
    enclosed? form.closing form.escapes (c :: cs) =
      (enclosed? form.closing form.escapes cs).map fun (value, rest) => (c :: value, rest) := by
  rw [doubles, Bool.or_eq_true_iff, not_or] at once
  exact enclosed_plain once.1 once.2 cs

/-- The doubled characters of a value are read back, up to a single closing character.

**Proof sketch.** Induction on the value: each of its characters is read from the one or two it is written
as, so a run of closing characters or backslashes is read two by two. -/
lemma enclosed_doubled (single : startsWith (· == form.closing) rest = false) (value : List Char) :
    enclosed? form.closing form.escapes (form.doubled value ++ form.closing :: rest) =
      some (value, rest) := by
  induction value with
  | nil => exact enclosed_closing single
  | cons c value ih =>
    rw [doubled] at ih
    rw [doubled, List.flatMap_cons]
    by_cases twice : form.doubles c = true
    · rw [if_pos twice, List.append_assoc, List.cons_append, List.cons_append, List.nil_append,
        enclosed_twice twice, ih, Option.map_some]
    · rw [if_neg twice, List.append_assoc, List.cons_append, List.nil_append, enclosed_once twice, ih,
        Option.map_some]

/-! ## Reading a token -/

/-- What follows an opening character is read up to its closing character. -/
lemma scan_opening (read : enclosed? form.closing form.escapes cs = some (value, rest)) :
    scan form.opening cs = (form.kind (String.ofList value), rest) := by
  cases form <;> simp_all [scan, scanSymbol?, scanEnclosed, opening, closing, escapes, kind]

/-- An opening character is not skipped. -/
lemma skipTrivia_opening (form : Quotation) (cs : List Char) :
    skipTrivia (form.opening :: cs) = form.opening :: cs := by
  apply skipTrivia_token
  cases form <;> rfl

/-- A written value is the first token, and the others are those of what follows. -/
lemma tokensFrom_written (total : Nat) (value : String)
    (single : startsWith (· == form.closing) rest = false) :
    tokensFrom total ((form.written value).toList ++ rest) =
      ⟨form.kind value, ⟨total - byteLength ((form.written value).toList ++ rest),
        total - byteLength rest⟩⟩ :: tokensFrom total rest := by
  have whole : (form.written value).toList ++ rest =
      form.opening :: (form.doubled value.toList ++ form.closing :: rest) := by
    rw [written, String.toList_ofList, List.cons_append, List.append_assoc, List.singleton_append]
  have read := scan_opening (enclosed_doubled single value.toList)
  rw [String.ofList_toList] at read
  rw [whole, tokensFrom_of_cons (skipTrivia_opening form _), read]

/-- A written value is one token, with nothing but the end of the input behind it. -/
lemma tokenize_alone (form : Quotation) (value : String) :
    tokenize (form.written value) =
      [⟨form.kind value, ⟨0, byteLength (form.written value).toList⟩⟩, ending (form.written value)] := by
  have nothing : startsWith (· == form.closing) [] = false := rfl
  have alone := tokensFrom_written (byteLength (form.written value).toList) value nothing
  have noOthers : tokensFrom (byteLength (form.written value).toList) [] = [] :=
    tokensFrom_of_nil (by rw [skipTrivia])
  rw [List.append_nil, noOthers, Nat.sub_self] at alone
  rw [tokenize, tokens, alone]
  rfl

/-- A value written as a string or as a quoted name is read back: it is one token, with nothing but the
end of the input behind it, and the same first token if other text follows that does not start with the
closing character.

**Proof sketch.** The value is read back from its doubled characters, and the token ends where what
follows starts. -/
theorem tokenize_written (form : Quotation) (value : String) :
    tokenize (form.written value) =
        [⟨form.kind value, ⟨0, byteLength (form.written value).toList⟩⟩, ending (form.written value)] ∧
      ∀ rest : String, rest.toList.head? ≠ some form.closing →
        (tokenize (form.written value ++ rest)).head? =
          some ⟨form.kind value, ⟨0, byteLength (form.written value).toList⟩⟩ := by
  constructor
  · exact tokenize_alone form value
  · intro rest other
    have single : startsWith (· == form.closing) rest.toList = false := by
      cases left : rest.toList with
      | nil => rfl
      | cons c cs => simpa [startsWith, left] using other
    have first := tokensFrom_written (byteLength ((form.written value).toList ++ rest.toList)) value single
    rw [tokenize, tokens, String.toList_append, first, Nat.sub_self, byteLength_append,
      Nat.add_sub_cancel]
    rfl

/-- A string with an apostrophe in it, in front of another one. -/
theorem tokenize_written_apostrophe :
    ", 'x'".toList.head? ≠ some string.closing ∧
      (tokenize (string.written "it's" ++ ", 'x'")).head? = some ⟨.string "it's", ⟨0, 7⟩⟩ := by
  have other : ", 'x'".toList.head? ≠ some string.closing := by decide
  have length : byteLength (string.written "it's").toList = 7 := by decide +kernel
  have read := (tokenize_written .string "it's").2 ", 'x'" other
  rw [length] at read
  exact ⟨other, read⟩

end Quotation

end SqlRouting.Lexer
