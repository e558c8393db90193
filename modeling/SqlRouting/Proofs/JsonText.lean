import Mathlib.Data.List.DropRight
import Mathlib.Data.List.Forall2
import SqlRouting.Json.Printer
import SqlRouting.Json.Reader
import SqlRouting.Proofs.Decimal

/-!
# JSON texts are read back

A value is written on one line or over several, and either text is read as the same value again. What
follows a written value does not matter, as long as it does not go on with a number; so the parts of an
array and of an object are read one after the other, with blanks between them.

## Main definitions

* `SqlRouting.Json.ReadsAs` — some characters are read as a value, whatever follows them.
* `SqlRouting.Json.map` — a value with other strings.
* `SqlRouting.Json.Proper` — all numbers of a value are numerals.

## Main results

* `SqlRouting.Json.string?_literal` — a string literal is read as the text that it was made of.
* `SqlRouting.Json.readsAs_array`, `readsAs_object` — parts that are read make a value that is.
* `SqlRouting.Json.read?_compact`, `read?_pretty` — what is written is read back.
-/

set_option autoImplicit false

namespace SqlRouting.Json

open Text

/-! ## String literals -/

section Strings

variable {c : Char} {cs rest : List Char}

/-- The escape of a control is read as its number. -/
lemma hexNumber?_control {n : Nat} (small : n < 0x20) :
    hexNumber? '0' '0' (hexDigit (n / 16)) (hexDigit (n % 16)) = some n := by
  have all : ∀ n < 0x20, hexNumber? '0' '0' (hexDigit (n / 16)) (hexDigit (n % 16)) = some n := by
    decide
  exact all n small

/-- The characters after a backslash are read as what they stand for. -/
lemma points?_escaped {e : Char} (stands : escaped? e = some c) (rest : List Char) :
    points? ('\\' :: e :: rest) = (points? rest).map fun (points, rest) => (c.toNat :: points, rest) := by
  have noCode : e ≠ 'u' := by
    rintro rfl
    cases stands
  rw [points?]
  · rw [stands]
    cases points? rest <;> rfl
  · exact fun _ _ _ _ _ isCode => absurd isCode noCode

/-- A character is written after a backslash, or by its number, or as it is. -/
lemma escape_cases (c : Char) :
    (∃ e, escape c = ['\\', e] ∧ escaped? e = some c) ∨
    (c.toNat < 0x20 ∧
      escape c = ['\\', 'u', '0', '0', hexDigit (c.toNat / 16), hexDigit (c.toNat % 16)]) ∨
    (c ≠ '"' ∧ c ≠ '\\' ∧ ¬ c.toNat < 0x20 ∧ escape c = [c]) := by
  unfold escape
  split_ifs
  case neg quote backslash _ _ _ _ _ control =>
    exact .inr (.inr ⟨by simpa using quote, by simpa using backslash, control, rfl⟩)
  any_goals exact .inl ⟨_, rfl, by rw [beq_iff_eq.1 ‹(c == _) = true›]; rfl⟩
  case pos control => exact .inr (.inl ⟨control, rfl⟩)

/-- What is written for a character is read as its code point. -/
lemma points?_escape (c : Char) (rest : List Char) : points? (escape c ++ rest) =
    (points? rest).map fun (points, rest) => (c.toNat :: points, rest) := by
  rcases escape_cases c with ⟨e, same, stands⟩ | ⟨control, same⟩ | ⟨noQuote, noBackslash, plain, same⟩
  · rw [same]
    exact points?_escaped stands rest
  · rw [same]
    simp only [List.cons_append, List.nil_append]
    rw [points?, hexNumber?_control control]
    cases points? rest <;> rfl
  · rw [same, List.singleton_append, points?, if_neg plain]
    · cases points? rest <;> rfl
    · exact noQuote
    · exact fun _ _ _ _ _ isBackslash => absurd isBackslash noBackslash
    · exact fun _ _ isBackslash => absurd isBackslash noBackslash

/-- The code points of some characters, of which none is the half of a surrogate pair, stand for these
characters. -/
lemma characters?_toNat (cs : List Char) : characters? (cs.map Char.toNat) = some cs := by
  have whole (c : Char) : isHighSurrogate c.toNat = false ∧ isLowSurrogate c.toNat = false := by
    have valid : c.toNat < 0xd800 ∨ 0xdfff < c.toNat ∧ c.toNat < 0x110000 := c.valid
    simp only [isHighSurrogate, isLowSurrogate, Bool.and_eq_false_iff, decide_eq_false_iff_not]
    omega
  induction cs with
  | nil => rfl
  | cons c cs ih =>
    obtain ⟨noHigh, noLow⟩ := whole c
    cases cs with
    | nil => simp [characters?, noHigh, noLow]
    | cons d cs =>
      simp only [List.map_cons] at ih ⊢
      rw [characters?, noHigh, noLow, if_neg (by simp), if_neg (by simp), ih, Char.ofNat_toNat]
      rfl

/-- A string literal is read as the text that it was made of. -/
lemma string?_literal (text : String) (rest : List Char) :
    string? (text.toList.flatMap escape ++ '"' :: rest) = some (some text, rest) := by
  have points (cs : List Char) :
      points? (cs.flatMap escape ++ '"' :: rest) = some (cs.map Char.toNat, rest) := by
    induction cs with
    | nil => rfl
    | cons c cs ih => rw [List.flatMap_cons, List.append_assoc, points?_escape, ih]; rfl
  simp only [string?, points, Option.map_some, characters?_toNat, String.ofList_toList]

end Strings

/-! ## Characters that are read as a value -/

/-- Nothing follows, or a blank, or what ends a part of an array or of an object. -/
def Delimited (rest : List Char) : Prop :=
  ∀ c ∈ rest.head?, isSpace c = true ∨ c = ',' ∨ c = ']' ∨ c = '\x7d'

/-- Some characters are read as a value, whatever follows them, in two steps a character. -/
def ReadsAs (cs : List Char) (value : Read) : Prop :=
  ∀ n rest, Delimited rest → 2 * cs.length ≤ n → value? n (cs ++ rest) = some (value, rest)

variable {cs rest : List Char} {n : Nat}

/-- A digit does not follow where a value ends, nor what goes on with a number. -/
lemma Delimited.ends {c : Char} (h : Delimited (c :: rest)) :
    isDecimalDigit c = false ∧ c ≠ '.' ∧ c ≠ 'e' ∧ c ≠ 'E' := by
  rcases h c rfl with blank | rfl | rfl | rfl
  · simp only [isSpace, Bool.or_eq_true, beq_iff_eq] at blank
    rcases blank with ((rfl | rfl) | rfl) | rfl <;> decide
  all_goals decide

/-- Nothing goes on with a number where a value ends. -/
lemma Delimited.no_more (h : Delimited rest) :
    fraction? rest = some ([], rest) ∧ exponent? rest = some ([], rest) := by
  cases rest with
  | nil => exact ⟨rfl, rfl⟩
  | cons c rest =>
    obtain ⟨-, noPoint, noSmall, noCapital⟩ := h.ends
    constructor
    · rw [fraction?]
      exact fun _ same => noPoint (List.cons.inj same).1
    · simp [exponent?, noSmall, noCapital]

/-- A numeral is read as the number that it was made of. -/
lemma number?_numeral (n : Nat) (delimited : Delimited rest) :
    number? ((toString n).toList ++ rest) = some (toString n, rest) := by
  obtain ⟨first, others, split, isFirst⟩ := exists_digit n
  rw [toList_numeral] at split
  have stops : rest.takeWhile isDecimalDigit = [] ∧ rest.dropWhile isDecimalDigit = rest := by
    cases rest with
    | nil => exact ⟨rfl, rfl⟩
    | cons c rest => simp [delimited.ends.1]
  have all : digits? (Nat.toDigits 10 n ++ rest) = some (Nat.toDigits 10 n, rest) := by
    have isDigit : ∀ c ∈ Nat.toDigits 10 n, isDecimalDigit c = true := fun _ => isDecimalDigit_of_mem
    rw [digits?, List.takeWhile_append_of_pos isDigit, List.dropWhile_append_of_pos isDigit, stops.1,
      stops.2, List.append_nil, if_neg (by simp [Nat.toDigits_ne_nil])]
  have whole : whole? (Nat.toDigits 10 n ++ rest) = some (Nat.toDigits 10 n, rest) := by
    by_cases positive : 0 < n
    · rw [whole?, all]
      intro left same
      rw [split] at same
      have isZero := (List.cons.inj same).1
      exact head?_toDigits positive (by rw [split, isZero]; rfl)
    · obtain rfl : n = 0 := by omega
      rfl
  have unsigned : unsigned? (Nat.toDigits 10 n ++ rest) = some (Nat.toDigits 10 n, rest) := by
    simp [unsigned?, whole, delimited.no_more]
  rw [toList_numeral, number?, unsigned, Option.map_some, ← toList_numeral]
  · show some (String.ofList (toString n).toList, rest) = _
    rw [String.ofList_toList]
  · intro left same
    rw [split] at same
    rw [(List.cons.inj same).1] at isFirst
    cases isFirst

/-- A value that is not known may be read in some steps. -/
lemma ReadsAs.of_succ {value : Read} (nonempty : cs ≠ [])
    (reads : ∀ n rest, Delimited rest → 2 * cs.length ≤ n + 1 →
      value? (n + 1) (cs ++ rest) = some (value, rest)) : ReadsAs cs value := by
  intro n rest delimited enough
  have long := List.length_pos_iff.2 nonempty
  obtain ⟨n, rfl⟩ : ∃ m, n = m + 1 := ⟨n - 1, by omega⟩
  exact reads n rest delimited enough

/-- The word for a missing value is read as one. -/
lemma readsAs_null : ReadsAs "null".toList .null :=
  .of_succ (by decide) fun _ _ _ _ => rfl

/-- The words for truth values are read as them. -/
lemma readsAs_boolean (value : Bool) :
    ReadsAs (if value then "true" else "false").toList (.boolean value) := by
  cases value
  · exact .of_succ (by decide) fun _ _ _ _ => rfl
  · exact .of_succ (by decide) fun _ _ _ _ => rfl

/-- A string literal is an escaped text between quotes. -/
lemma toList_literal (text : String) :
    (literal text).toList = '"' :: (text.toList.flatMap escape ++ ['"']) := by
  simp [literal]

/-- A string literal is read as the text that it was made of. -/
lemma readsAs_string (text : String) : ReadsAs (literal text).toList (.string (some text)) := by
  rw [toList_literal]
  refine .of_succ (List.cons_ne_nil _ _) fun n rest _ _ => ?_
  show (string? (text.toList.flatMap escape ++ ['"'] ++ rest)).map _ = _
  rw [List.append_assoc, List.singleton_append, string?_literal]
  rfl

/-- A numeral is read as the number that it was made of. -/
lemma readsAs_numeral (n : Nat) : ReadsAs (toString n).toList (.number (toString n)) := by
  obtain ⟨first, others, split, isDigit⟩ := exists_digit n
  have noBlank : isSpace first = false := by
    cases blank : isSpace first with
    | false => rfl
    | true =>
      simp only [isSpace, Bool.or_eq_true, beq_iff_eq] at blank
      rcases blank with ((rfl | rfl) | rfl) | rfl <;> cases isDigit
  refine .of_succ (by simp) fun m rest delimited _ => ?_
  have read := number?_numeral n delimited
  rw [split] at read ⊢
  rw [List.cons_append] at read ⊢
  rw [value?, skipSpace, List.dropWhile_cons_of_neg (by simp [noBlank])]
  -- no other value starts with a digit
  split
  case h_7 => rw [read]; rfl
  all_goals
    rename_i same
    rw [(List.cons.inj same).1] at isDigit
    cases isDigit

/-! ## Parts of arrays and objects -/

/-- Nothing but blanks. -/
def Blank (cs : List Char) : Prop :=
  ∀ c ∈ cs, isSpace c = true

/-- No characters are blank. -/
lemma blank_nil : Blank [] :=
  List.forall_mem_nil _

section Parts

variable {before between after gap : List Char} {parts : List (List Char)}

/-- Blanks in front are skipped. -/
lemma skipSpace_append (blank : Blank before) (cs : List Char) :
    skipSpace (before ++ cs) = skipSpace cs :=
  List.dropWhile_append_of_pos blank

/-- Blanks are skipped up to the first character that is none. -/
lemma skipSpace_stop {c : Char} (blank : Blank before) (noBlank : isSpace c = false) (cs : List Char) :
    skipSpace (before ++ c :: cs) = c :: cs := by
  rw [skipSpace_append blank, skipSpace, List.dropWhile_cons_of_neg (by simp [noBlank])]

/-- Nothing is skipped after blanks are. -/
lemma skipSpace_skipSpace (cs : List Char) : skipSpace (skipSpace cs) = skipSpace cs :=
  List.dropWhile_idempotent ..

/-- A value is read behind blanks. -/
lemma value?_skipSpace (n : Nat) (cs : List Char) : value? n (skipSpace cs) = value? n cs := by
  cases n with
  | zero => rfl
  | succ n => rw [value?, value?, skipSpace_skipSpace]

/-- Elements are read behind blanks. -/
lemma elements?_skipSpace (n : Nat) (cs : List Char) : elements? n (skipSpace cs) = elements? n cs := by
  cases n with
  | zero => rfl
  | succ n => rw [elements?, elements?, value?_skipSpace]

/-- Fields are read behind blanks. -/
lemma fields?_skipSpace (n : Nat) (cs : List Char) : fields? n (skipSpace cs) = fields? n cs := by
  cases n with
  | zero => rfl
  | succ n => rw [fields?, fields?, skipSpace_skipSpace]

/-- Blanks and what ends a part end a value. -/
lemma delimited_append {c : Char} (blank : Blank after) (ends : c = ',' ∨ c = ']' ∨ c = '\x7d') :
    Delimited (after ++ c :: rest) := by
  cases after with
  | nil =>
    rintro _ ⟨⟩
    exact .inr ends
  | cons d after =>
    rintro _ ⟨⟩
    exact .inl (blank d List.mem_cons_self)

/-- A comma ends a value. -/
lemma delimited_comma (cs : List Char) : Delimited (',' :: cs) :=
  delimited_append blank_nil (.inl rfl)

/-- Some characters are read as a field: a string literal, a colon and a value. -/
def FieldReadsAs (cs : List Char) (field : Option String × Read) : Prop :=
  ∃ text gap part, field.1 = some text ∧ Blank gap ∧ ReadsAs part field.2 ∧
    cs = (literal text).toList ++ ':' :: (gap ++ part)

/-- The last element of an array is read up to the closing bracket. -/
lemma elements?_last {part : List Char} {value : Read} (isAfter : Blank after) (reads : ReadsAs part value)
    (enough : 2 * part.length ≤ n) :
    elements? (n + 1) (part ++ (after ++ ']' :: rest)) = some ([value], rest) := by
  rw [elements?, reads n _ (delimited_append isAfter (by simp)) enough]
  simp only [skipSpace_stop isAfter (by rfl : isSpace ']' = false)]

/-- An element of an array is read up to the comma. -/
lemma elements?_cons {part more : List Char} {value : Read} (isBetween : Blank between)
    (reads : ReadsAs part value) (enough : 2 * part.length ≤ n) :
    elements? (n + 1) (part ++ ',' :: (between ++ more)) =
      (elements? n more).map fun (values, rest) => (value :: values, rest) := by
  rw [elements?, reads n _ (delimited_comma _) enough, ← elements?_skipSpace n more,
    ← skipSpace_append isBetween, elements?_skipSpace]
  rfl

/-- The parts of an array or an object are read one after the other, up to what closes it, if each of them
is. -/
lemma reads_parts {α : Type} {read : Nat → List Char → Option (List α × List Char)}
    {reads : List Char → α → Prop} {close : Char}
    (last : ∀ {n part a rest}, reads part a → 2 * part.length ≤ n →
      read (n + 1) (part ++ (after ++ close :: rest)) = some ([a], rest))
    (cons : ∀ {n part a more}, reads part a → 2 * part.length ≤ n →
      read (n + 1) (part ++ ',' :: (between ++ more)) =
        (read n more).map fun (as, rest) => (a :: as, rest))
    {as : List α} (each : List.Forall₂ reads parts as) (nonempty : parts ≠ [])
    (enough : 2 * (((',' :: between).intercalate parts).length + 1) ≤ n) (rest : List Char) :
    read n ((',' :: between).intercalate parts ++ (after ++ close :: rest)) = some (as, rest) := by
  -- each turn takes one step off the bound, and leaves enough of it for the parts that follow
  induction each generalizing n with
  | nil => exact absurd rfl nonempty
  | @cons part a parts as isPart others ih =>
    obtain ⟨n, rfl⟩ : ∃ m, n = m + 1 := ⟨n - 1, by omega⟩
    cases others with
    | nil =>
      rw [List.intercalate_singleton] at enough ⊢
      exact last isPart (by omega)
    | @cons part' a' parts as isPart' others =>
      rw [List.intercalate_cons_cons] at enough ⊢
      simp only [List.length_append, List.length_cons] at enough
      rw [List.append_assoc, List.append_assoc, List.cons_append, cons isPart (by omega),
        ih (List.cons_ne_nil _ _) (by omega)]
      rfl

/-- No element starts with a closing bracket. -/
lemma elements?_bracket (same : skipSpace cs = ']' :: rest) (n : Nat) : elements? n cs = none := by
  have nothing (n : Nat) : value? n (']' :: rest) = none := by
    cases n <;> rfl
  rw [← elements?_skipSpace, same]
  cases n with
  | zero => rfl
  | succ n => rw [elements?, nothing]

/-- What starts with an opening bracket is an array of the elements that follow. -/
lemma value?_bracket {elements : List Read} (read : elements? n cs = some (elements, rest)) :
    value? (n + 1) ('[' :: cs) = some (.array elements, rest) := by
  have opens : skipSpace ('[' :: cs) = '[' :: cs := rfl
  simp only [value?, opens]
  split
  · rename_i same
    rw [elements?_bracket same] at read
    cases read
  · rw [elements?_skipSpace, read]
    rfl

/-- An array without elements is read as one. -/
lemma readsAs_emptyArray : ReadsAs ['[', ']'] (.array []) :=
  .of_succ (by decide) fun _ _ _ _ => rfl

/-- An array is read, if its elements are. -/
lemma readsAs_array {values : List Read} (each : List.Forall₂ ReadsAs parts values) (nonempty : parts ≠ [])
    (isBefore : Blank before) (isBetween : Blank between) (isAfter : Blank after) :
    ReadsAs ('[' :: (before ++ ((',' :: between).intercalate parts ++ (after ++ [']']))))
      (.array values) := by
  refine .of_succ (List.cons_ne_nil _ _) fun n rest _ enough => ?_
  have elements := reads_parts (elements?_last isAfter) (elements?_cons isBetween) each nonempty (n := n)
    (by simp at enough ⊢; omega) rest
  rw [← elements?_skipSpace, ← skipSpace_append isBefore, elements?_skipSpace] at elements
  simpa using value?_bracket elements

/-- A field of an object is read up to the closing brace, or else up to the comma. -/
lemma fields?_field {part more : List Char} {field : Option String × Read} (reads : FieldReadsAs part field)
    (delimited : Delimited more) (enough : 2 * part.length ≤ n) (rest : List Char) :
    (skipSpace more = '\x7d' :: rest → fields? (n + 1) (part ++ more) = some ([field], rest)) ∧
      (skipSpace more = ',' :: rest → fields? (n + 1) (part ++ more) =
        (fields? n rest).map fun (fields, rest) => (field :: fields, rest)) := by
  obtain ⟨text, gap, value, key, isGap, reads, rfl⟩ := reads
  obtain ⟨_, parsed⟩ := field
  obtain rfl : _ = some text := key
  have read : value? n (gap ++ (value ++ more)) = some (parsed, more) := by
    rw [← value?_skipSpace, skipSpace_append isGap, value?_skipSpace]
    exact reads n more delimited (by simp at enough; omega)
  have quote (cs : List Char) : skipSpace ('"' :: cs) = '"' :: cs := rfl
  have colon (cs : List Char) : skipSpace (':' :: cs) = ':' :: cs := rfl
  rw [toList_literal]
  simp only [List.cons_append, List.append_assoc, List.nil_append]
  constructor <;> intro same <;> rw [fields?, quote] <;> simp only [string?_literal, colon, read, same]

/-- The last field of an object is read up to the closing brace. -/
lemma fields?_last {part : List Char} {field : Option String × Read} (isAfter : Blank after)
    (reads : FieldReadsAs part field) (enough : 2 * part.length ≤ n) :
    fields? (n + 1) (part ++ (after ++ '\x7d' :: rest)) = some ([field], rest) :=
  (fields?_field reads (delimited_append isAfter (by simp)) enough rest).1 (skipSpace_stop isAfter rfl rest)

/-- A field of an object is read up to the comma. -/
lemma fields?_cons {part more : List Char} {field : Option String × Read} (isBetween : Blank between)
    (reads : FieldReadsAs part field) (enough : 2 * part.length ≤ n) :
    fields? (n + 1) (part ++ ',' :: (between ++ more)) =
      (fields? n more).map fun (fields, rest) => (field :: fields, rest) := by
  rw [(fields?_field reads (delimited_comma _) enough (between ++ more)).2 rfl, ← fields?_skipSpace n more,
    ← skipSpace_append isBetween, fields?_skipSpace]

/-- What starts with an opening brace is an object of the fields that follow. -/
lemma value?_brace {fields : List (Option String × Read)} (read : fields? n cs = some (fields, rest)) :
    value? (n + 1) ('\x7b' :: cs) = some (.object fields, rest) := by
  have opens : skipSpace ('\x7b' :: cs) = '\x7b' :: cs := rfl
  simp only [value?, opens]
  split
  · rename_i same
    have nothing : fields? n cs = none := by
      rw [← fields?_skipSpace, same]
      cases n <;> rfl
    rw [nothing] at read
    cases read
  · rw [fields?_skipSpace, read]
    rfl

/-- An object without fields is read as one. -/
lemma readsAs_emptyObject : ReadsAs ['\x7b', '\x7d'] (.object []) :=
  .of_succ (by decide) fun _ _ _ _ => rfl

/-- An object is read, if its fields are. -/
lemma readsAs_object {fields : List (Option String × Read)} (each : List.Forall₂ FieldReadsAs parts fields)
    (nonempty : parts ≠ []) (isBefore : Blank before) (isBetween : Blank between) (isAfter : Blank after) :
    ReadsAs ('\x7b' :: (before ++ ((',' :: between).intercalate parts ++ (after ++ ['\x7d']))))
      (.object fields) := by
  refine .of_succ (List.cons_ne_nil _ _) fun n rest _ enough => ?_
  have read := reads_parts (fields?_last isAfter) (fields?_cons isBetween) each nonempty (n := n)
    (by simp at enough ⊢; omega) rest
  rw [← fields?_skipSpace, ← skipSpace_append isBefore, fields?_skipSpace] at read
  simpa using value?_brace read

end Parts

/-! ## Values -/

mutual

/-- A value with a function applied to its strings, the keys of objects among them. -/
def map {τ σ : Type} (f : τ → σ) : Json τ → Json σ
  | .null => .null
  | .boolean value => .boolean value
  | .number literal => .number literal
  | .string value => .string (f value)
  | .array elements => .array (mapElements f elements)
  | .object fields => .object (mapFields f fields)

/-- The elements of an array with a function applied to their strings. -/
def mapElements {τ σ : Type} (f : τ → σ) : List (Json τ) → List (Json σ)
  | [] => []
  | element :: elements => map f element :: mapElements f elements

/-- The fields of an object with a function applied to their strings and keys. -/
def mapFields {τ σ : Type} (f : τ → σ) : List (τ × Json τ) → List (σ × Json σ)
  | [] => []
  | (key, value) :: fields => (f key, map f value) :: mapFields f fields

end

/-- All numbers of a value are numerals. -/
inductive Proper {τ : Type} : Json τ → Prop
  /-- A missing value. -/
  | null : Proper .null
  /-- A truth value. -/
  | boolean (value : Bool) : Proper (.boolean value)
  /-- A numeral. -/
  | numeral (n : Nat) : Proper (.ofNat n)
  /-- A string. -/
  | string (value : τ) : Proper (.string value)
  /-- An array, if its elements are so. -/
  | array {elements : List (Json τ)} (each : ∀ element ∈ elements, Proper element) :
      Proper (.array elements)
  /-- An object, if its values are so. -/
  | object {fields : List (τ × Json τ)} (each : ∀ field ∈ fields, Proper field.2) :
      Proper (.object fields)

section Lists

variable {τ σ : Type}

/-- A function is applied to the elements one by one. -/
lemma mapElements_eq (f : τ → σ) (elements : List (Json τ)) :
    mapElements f elements = elements.map (map f) := by
  induction elements with
  | nil => rfl
  | cons element elements ih => rw [mapElements, ih, List.map_cons]

/-- A function is applied to the fields one by one. -/
lemma mapFields_eq (f : τ → σ) (fields : List (τ × Json τ)) :
    mapFields f fields = fields.map fun field => (f field.1, map f field.2) := by
  induction fields with
  | nil => rfl
  | cons field fields ih => rw [mapFields, ih, List.map_cons]

/-- Elements are written one by one. -/
lemma compactElements_eq (elements : List (Json String)) :
    compactElements elements = elements.map compact := by
  induction elements with
  | nil => rfl
  | cons element elements ih => rw [compactElements, ih, List.map_cons]

/-- Fields are written one by one. -/
lemma compactFields_eq (fields : List (String × Json String)) :
    compactFields fields = fields.map fun field => literal field.1 ++ ":" ++ compact field.2 := by
  induction fields with
  | nil => rfl
  | cons field fields ih => rw [compactFields, ih, List.map_cons]

/-- Elements are written one by one, also over several lines. -/
lemma prettyElements_eq (level : Nat) (elements : List (Json String)) :
    prettyElements level elements = elements.map (prettyAt level) := by
  induction elements with
  | nil => rfl
  | cons element elements ih => rw [prettyElements, ih, List.map_cons]

/-- Fields are written one by one, also over several lines. -/
lemma prettyFields_eq (level : Nat) (fields : List (String × Json String)) :
    prettyFields level fields =
      fields.map fun field => literal field.1 ++ ": " ++ prettyAt level field.2 := by
  induction fields with
  | nil => rfl
  | cons field fields ih => rw [prettyFields, ih, List.map_cons]

end Lists

/-! ## What is written is read back -/

section Written

variable {write : Json String → String} {value : Json String}

/-- Elements that are read by themselves are read one by one. -/
lemma forall₂_elements {elements : List (Json String)}
    (each : ∀ element ∈ elements, ReadsAs (write element).toList (element.map some)) :
    List.Forall₂ ReadsAs ((elements.map write).map String.toList) (mapElements some elements) := by
  rw [mapElements_eq, List.map_map, List.forall₂_map_left_iff, List.forall₂_map_right_iff,
    List.forall₂_same]
  exact each

/-- Fields whose values are read by themselves are read one by one. -/
lemma forall₂_fields {fields : List (String × Json String)} {colon : String} {gap : List Char}
    (isColon : colon.toList = ':' :: gap) (isGap : Blank gap)
    (each : ∀ field ∈ fields, ReadsAs (write field.2).toList (field.2.map some)) :
    List.Forall₂ FieldReadsAs
      ((fields.map fun field => literal field.1 ++ colon ++ write field.2).map String.toList)
      (mapFields some fields) := by
  rw [mapFields_eq, List.map_map, List.forall₂_map_left_iff, List.forall₂_map_right_iff,
    List.forall₂_same]
  exact fun field mem => ⟨field.1, gap, _, rfl, isGap, each field mem, by simp [isColon]⟩

section Enclosed

variable {opening comma closing : String} {before between after : List Char}

/-- An array that is not empty is read, if its elements are. -/
lemma readsAs_elements {elements : List (Json String)} (nonempty : elements ≠ [])
    (opens : opening.toList = '[' :: before) (separates : comma.toList = ',' :: between)
    (closes : closing.toList = after ++ [']']) (isBefore : Blank before) (isBetween : Blank between)
    (isAfter : Blank after)
    (each : ∀ element ∈ elements, ReadsAs (write element).toList (element.map some)) :
    ReadsAs (opening ++ String.intercalate comma (elements.map write) ++ closing).toList
      (.array (mapElements some elements)) := by
  have reads := readsAs_array (forall₂_elements each) (by simpa using nonempty) isBefore isBetween isAfter
  rwa [String.toList_append, String.toList_append, String.toList_intercalate, opens, separates, closes,
    List.append_assoc, List.cons_append]

/-- An object that is not empty is read, if the values of its fields are. -/
lemma readsAs_fields {fields : List (String × Json String)} {colon : String} {gap : List Char}
    (nonempty : fields ≠ []) (opens : opening.toList = '\x7b' :: before)
    (separates : comma.toList = ',' :: between) (closes : closing.toList = after ++ ['\x7d'])
    (isColon : colon.toList = ':' :: gap) (isBefore : Blank before) (isBetween : Blank between)
    (isAfter : Blank after) (isGap : Blank gap)
    (each : ∀ field ∈ fields, ReadsAs (write field.2).toList (field.2.map some)) :
    ReadsAs (opening ++ String.intercalate comma
        (fields.map fun field => literal field.1 ++ colon ++ write field.2) ++ closing).toList
      (.object (mapFields some fields)) := by
  have reads := readsAs_object (forall₂_fields isColon isGap each) (by simpa using nonempty) isBefore
    isBetween isAfter
  rwa [String.toList_append, String.toList_append, String.toList_intercalate, opens, separates, closes,
    List.append_assoc, List.cons_append]

end Enclosed

/-- What is written on one line is read back. -/
lemma readsAs_compact (proper : value.Proper) : ReadsAs (compact value).toList (value.map some) := by
  induction proper with
  | null => exact readsAs_null
  | boolean value => exact readsAs_boolean value
  | numeral n => exact readsAs_numeral n
  | string text => exact readsAs_string text
  | @array elements _ ih =>
    cases elements with
    | nil => exact readsAs_emptyArray
    | cons element elements =>
      rw [compact, compactElements_eq]
      exact readsAs_elements (List.cons_ne_nil _ _) rfl rfl rfl blank_nil blank_nil blank_nil ih
  | @object fields _ ih =>
    cases fields with
    | nil => exact readsAs_emptyObject
    | cons field fields =>
      rw [compact, compactFields_eq]
      exact readsAs_fields (List.cons_ne_nil _ _) rfl rfl rfl rfl blank_nil blank_nil blank_nil blank_nil ih

/-- A line break with an indentation is blank. -/
lemma blank_lineBreak (level : Nat) : Blank (lineBreak level).toList := by
  intro c mem
  simp only [lineBreak, String.toList_append, String.toList_ofList, List.mem_append,
    List.mem_replicate] at mem
  rcases mem with mem | ⟨-, rfl⟩
  · obtain rfl := List.mem_singleton.1 mem
    rfl
  · rfl

/-- Brackets with nothing between them stand on one line. -/
lemma enclose_nil (level : Nat) (opening closing : String) :
    enclose level opening closing [] = opening ++ closing :=
  if_pos List.isEmpty_nil

/-- Parts are enclosed by brackets with line breaks. -/
lemma enclose_of_ne_nil {parts : List String} (nonempty : parts ≠ []) (level : Nat)
    (opening closing : String) : enclose level opening closing parts =
      opening ++ lineBreak (level + 1) ++ String.intercalate ("," ++ lineBreak (level + 1)) parts ++
        (lineBreak level ++ closing) := by
  rw [enclose, if_neg (by simpa using nonempty)]
  exact String.append_assoc

/-- What is written over several lines is read back. -/
lemma readsAs_prettyAt (proper : value.Proper) (level : Nat) :
    ReadsAs (prettyAt level value).toList (value.map some) := by
  have blank := blank_lineBreak
  induction proper generalizing level with
  | null => exact readsAs_null
  | boolean value => exact readsAs_boolean value
  | numeral n => exact readsAs_numeral n
  | string text => exact readsAs_string text
  | @array elements _ ih =>
    rw [prettyAt, prettyElements_eq]
    cases elements with
    | nil =>
      rw [List.map_nil, enclose_nil, String.toList_append]
      exact readsAs_emptyArray
    | cons element elements =>
      rw [enclose_of_ne_nil (by simp)]
      exact readsAs_elements (List.cons_ne_nil _ _) (String.toList_append ..) (String.toList_append ..)
        (String.toList_append ..) (blank _) (blank _) (blank _) fun element mem => ih element mem _
  | @object fields _ ih =>
    rw [prettyAt, prettyFields_eq]
    cases fields with
    | nil =>
      rw [List.map_nil, enclose_nil, String.toList_append]
      exact readsAs_emptyObject
    | cons field fields =>
      have isGap : Blank [' '] := List.forall_mem_singleton.2 rfl
      rw [enclose_of_ne_nil (by simp)]
      exact readsAs_fields (List.cons_ne_nil _ _) (String.toList_append ..) (String.toList_append ..)
        (String.toList_append ..) rfl (blank _) (blank _) (blank _) isGap fun field mem => ih field mem _

/-- A text that is read as a value is read as it by itself. -/
lemma ReadsAs.read? {text : String} {value : Read} (reads : ReadsAs text.toList value) :
    Json.read? text = some value := by
  have alone := reads (2 * text.toList.length + 2) [] (fun _ mem => by cases mem) (by omega)
  rw [List.append_nil] at alone
  simp [Json.read?, alone, skipSpace]

/-- A value that is written on one line is read back. -/
lemma read?_compact (proper : value.Proper) : read? (compact value) = some (value.map some) :=
  (readsAs_compact proper).read?

/-- A value that is written over several lines is read back. -/
lemma read?_pretty (proper : value.Proper) : read? (pretty value) = some (value.map some) :=
  (readsAs_prettyAt proper 0).read?

end Written

end SqlRouting.Json
