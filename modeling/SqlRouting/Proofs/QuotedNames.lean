import SqlRouting.Dialect
import SqlRouting.Proofs.Quoting

/-!
# Quoted names

A dialect puts a name between two quotes and leaves the name as it is. A quote in the name is not doubled, so
it ends the quoted name, or is read together with the quote behind it. Either way the token is another name,
if it is one at all, and what comes behind it in the name is read as tokens of its own.

## Main definitions

* `SqlRouting.Dialect.ReadsBack` — a name is read back from its quoted text.

## Main results

* `SqlRouting.Lexer.Quotation.eq_of_enclosed` — what is read as a value is the value with doubled quotes.
* `SqlRouting.Dialect.readsBack_iff` — a name is read back exactly if the quote is not in it.
* `SqlRouting.Dialect.name_escapes` — a name that is read as a part of a statement.
-/

set_option autoImplicit false

namespace SqlRouting

open Text Lexer

/-- A name is read back from its quoted text: the text is this name, and nothing is behind it. -/
def Dialect.ReadsBack (dialect : Dialect) (name : String) : Prop :=
  (tokenize (dialect.quoteIdentifier name)).map Token.kind = [.identifier name, .endOfInput]

namespace Lexer.Quotation

variable {form : Quotation} {cs value rest : List Char}

/-- The characters of a value are doubled one after the other. -/
lemma doubled_cons (form : Quotation) (c : Char) (value : List Char) :
    form.doubled (c :: value) = (if form.doubles c then [c, c] else [c]) ++ form.doubled value :=
  List.flatMap_cons

/-- **What is read as a value is the value with doubled quotes**, up to a single quote, where no backslash
has a meaning.

**Proof sketch.** Induction on the enclosed text: a quote in it is written twice, and any other character
once. -/
lemma eq_of_enclosed (plain : form.escapes = false)
    (read : enclosed? form.closing false cs = some (value, rest)) :
    cs = form.doubled value ++ form.closing :: rest := by
  have doubles (c : Char) : form.doubles c = (c == form.closing) := by simp [doubles, plain]
  obtain ⟨written, rfl, encloses⟩ := exists_encloses read
  clear read
  induction encloses with
  | close => rfl
  | doubled _ ih =>
    rw [doubled_cons, if_pos (by simp [doubles]), List.append_assoc, ← ih]
    rfl
  | escaped _ escape =>
    rw [Bool.and_false] at escape
    cases escape
  | plain noClosing _ _ ih =>
    rw [doubled_cons, if_neg (by rw [doubles]; exact noClosing), List.append_assoc, ← ih]
    rfl

/-- The doubled characters of a value are longer by the number of its quotes. -/
lemma length_doubled (plain : form.escapes = false) (value : List Char) :
    (form.doubled value).length = value.length + value.count form.closing := by
  have doubles (c : Char) : form.doubles c = (c == form.closing) := by simp [doubles, plain]
  induction value with
  | nil => rfl
  | cons c value ih =>
    rw [doubled_cons, List.length_append, ih, List.count_cons, doubles]
    split <;> simp <;> omega

/-- Nothing is doubled in a value without the quote. -/
lemma doubled_eq_self (plain : form.escapes = false) (noQuote : form.closing ∉ value) :
    form.doubled value = value := by
  induction value with
  | nil => rfl
  | cons c value ih =>
    have other : c ≠ form.closing := Ne.symm (List.ne_of_not_mem_cons noQuote)
    rw [doubled_cons, if_neg (by simp [doubles, plain, other]), ih (List.not_mem_of_not_mem_cons noQuote)]
    rfl

/-- The token that a value between two quotes starts with is the value only if the quote is not in it.

**Proof sketch.** What is read is a value with its quotes doubled and one more quote. If it is the value
itself, nothing is doubled, because there is no room for it. -/
lemma noQuote_of_read (plain : form.escapes = false)
    (read : enclosed? form.closing false (value ++ [form.closing]) = some (value, rest)) :
    form.closing ∉ value := by
  have lengths := congrArg List.length (eq_of_enclosed plain read)
  simp only [List.length_append, List.length_cons, List.length_nil, length_doubled plain] at lengths
  exact List.count_eq_zero.1 (by omega)

/-- A name between two quotes is read back exactly if the quote is not in it. -/
lemma readsBack_iff_of_form (form : Quotation) {dialect : Dialect} {name : String}
    (plain : form.escapes = false) (isName : form.kind = .identifier)
    (quote : dialect.identifierQuote = form.closing) (sameQuote : form.opening = form.closing) :
    dialect.ReadsBack name ↔ form.closing ∉ name.toList := by
  have text : (dialect.quoteIdentifier name).toList =
      form.opening :: (name.toList ++ [form.closing]) := by
    simp [Dialect.quoteIdentifier, quote, sameQuote]
  constructor
  · intro readsBack
    rw [Dialect.ReadsBack, tokenize, tokens, text, tokensFrom_of_cons (skipTrivia_opening form _),
      List.cons_append, List.map_cons] at readsBack
    have first := (List.cons.inj readsBack).1
    cases read : enclosed? form.closing false (name.toList ++ [form.closing]) with
    | none =>
      exfalso
      cases form <;>
        simp_all [scan, scanSymbol?, scanEnclosed, opening, closing, escapes, Fault.kind]
    | some pair =>
      obtain ⟨value, rest⟩ := pair
      rw [scan_opening (by rw [plain]; exact read), isName] at first
      have same : value = name.toList := by
        rw [← TokenKind.identifier.inj first, String.toList_ofList]
      exact noQuote_of_read plain (same ▸ read)
  · intro noQuote
    have written : dialect.quoteIdentifier name = form.written name := by
      rw [← String.toList_inj, text, Quotation.written, String.toList_ofList,
        doubled_eq_self plain noQuote]
    rw [Dialect.ReadsBack, written, tokenize_alone, isName]
    rfl

end Lexer.Quotation

namespace Dialect

/-- **A name is read back exactly if the quote is not in it.** Between two quotes of the standard dialect or
of that of MySQL, a name is read as one token, this name, with nothing behind it, exactly if the quote of the
dialect is none of its characters.

**Proof sketch.** What the reading of a quoted name gives is its value with doubled quotes made single. So a
name without the quote is read as it is; and a name that is read back can have no quote, because doubling it
would take more characters than there are. -/
theorem readsBack_iff (name : String) :
    (generic.ReadsBack name ↔ '"' ∉ name.toList) ∧ (mysql.ReadsBack name ↔ '\u0060' ∉ name.toList) :=
  ⟨Quotation.readsBack_iff_of_form .quotationMarks rfl rfl rfl rfl,
    Quotation.readsBack_iff_of_form .backticks rfl rfl rfl rfl⟩

/-- **A name that is read as a part of a statement**: the quote in it ends the quoted name, and the quote
behind it is in a comment. -/
theorem name_escapes :
    (tokenize (generic.quoteIdentifier "a\" FROM u -- ")).map Token.kind =
        [.identifier "a", .keyword .FROM, .identifier "u", .endOfInput] ∧
      ¬ generic.ReadsBack "a\" FROM u -- " := by
  have kinds : (tokenize (generic.quoteIdentifier "a\" FROM u -- ")).map Token.kind =
      [.identifier "a", .keyword .FROM, .identifier "u", .endOfInput] := by decide +kernel
  refine ⟨kinds, fun readsBack => ?_⟩
  have lengths := congrArg List.length (kinds.symm.trans readsBack)
  exact absurd lengths (by simp)

end Dialect

end SqlRouting
