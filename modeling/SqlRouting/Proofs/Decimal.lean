import Mathlib.Data.List.Basic
import Mathlib.Data.List.Induction
import Mathlib.Data.Nat.Digits.Defs
import Mathlib.Tactic.IntervalCases
import SqlRouting.Text.Basic

/-!
# Decimal numerals

A number is written by its decimal digits. The numeral has the value of the number, and starts with a
zero only if it is zero. Read back, a text of decimal digits may have more zeros in front.

## Main definitions

* `SqlRouting.Text.Writes` — a text of decimal digits writes a number.

## Main results

* `SqlRouting.Text.decimal?_toString` — a numeral writes its number.
* `SqlRouting.Text.head?_toDigits` — the first digit of a numeral.
* `SqlRouting.Text.decimal64?_eq_some` — which numbers below `2 ^ 64` are read, and from which texts.
-/

set_option autoImplicit false

namespace SqlRouting.Text

/-- The decimal digits. -/
lemma mem_digits {c : Char} (isDigit : isDecimalDigit c = true) : c ∈ "0123456789".toList := by
  simp only [isDecimalDigit, Bool.and_eq_true, decide_eq_true_eq, Char.le_def,
    UInt32.le_iff_toNat_le] at isDigit
  obtain ⟨low, high⟩ := isDigit
  have low : 48 ≤ c.toNat := low
  have high : c.toNat ≤ 57 := high
  rw [← Char.ofNat_toNat c]
  generalize c.toNat = n at low high
  interval_cases n <;> decide

/-- A numeral of several digits is that of a smaller number and a last digit. -/
lemma toDigits_of_le {n : Nat} (long : 10 ≤ n) :
    Nat.toDigits 10 n = Nat.toDigits 10 (n / 10) ++ [(n % 10).digitChar] := by
  have front : 0 < n / 10 := Nat.div_pos long (by decide)
  have parts := Nat.toDigits_append_toDigits (b := 10) (by decide) front (Nat.mod_lt n (by decide))
  rw [Nat.div_add_mod, Nat.toDigits_of_lt_base (Nat.mod_lt n (by decide))] at parts
  exact parts.symm

/-- A numeral does not start with a zero, but for zero itself. -/
lemma head?_toDigits {n : Nat} (positive : 0 < n) : (Nat.toDigits 10 n).head? ≠ some '0' := by
  induction n using Nat.strongRecOn with
  | ind n ih =>
    rcases Nat.lt_or_ge n 10 with short | long
    · have digits : ∀ n < 10, 0 < n → n.digitChar ≠ '0' := by decide
      rw [Nat.toDigits_of_lt_base short]
      simpa using digits n short positive
    · rw [toDigits_of_le long, List.head?_append_of_ne_nil _ Nat.toDigits_ne_nil]
      exact ih (n / 10) (by omega) (Nat.div_pos long (by decide))

/-- A numeral has the value of its number. -/
lemma decimalValue_toDigits (n : Nat) : decimalValue 0 (Nat.toDigits 10 n) = n := by
  induction n using Nat.strongRecOn with
  | ind n ih =>
    have digits : ∀ d < 10, d.digitChar.toNat - '0'.toNat = d := by decide
    rcases Nat.lt_or_ge n 10 with short | long
    · rw [Nat.toDigits_of_lt_base short, decimalValue, List.foldl_cons, digits n short]
      simp
    · have front := ih (n / 10) (by omega)
      rw [decimalValue] at front
      rw [toDigits_of_le long, decimalValue, List.foldl_append, front, List.foldl_cons, List.foldl_nil,
        digits _ (Nat.mod_lt n (by decide))]
      exact Nat.div_add_mod n 10

/-- The characters of a numeral are digits. -/
lemma isDecimalDigit_of_mem {n : Nat} {c : Char} (mem : c ∈ Nat.toDigits 10 n) :
    isDecimalDigit c = true := by
  have isDigit := Nat.isDigit_of_mem_toDigits (by decide) (by decide) mem
  simpa [isDecimalDigit, Char.isDigit, Char.le_def] using isDigit

/-- The numeral of a number consists of its digits. -/
lemma toList_numeral (n : Nat) : (toString n).toList = Nat.toDigits 10 n :=
  String.toList_ofList

/-- A numeral writes its number. -/
lemma decimal?_toString (n : Nat) : decimal? (toString n) = some n := by
  have all : (Nat.toDigits 10 n).all isDecimalDigit = true :=
    List.all_eq_true.2 fun _ => isDecimalDigit_of_mem
  simp only [decimal?, toList_numeral, all, decimalValue_toDigits]
  rw [if_pos (by simp [Nat.toDigits_ne_nil])]

/-- A numeral starts with a digit. -/
lemma exists_digit (n : Nat) : ∃ first others, (toString n).toList = first :: others ∧
    isDecimalDigit first = true := by
  obtain ⟨first, others, split⟩ := List.exists_cons_of_ne_nil (Nat.toDigits_ne_nil (n := n) (b := 10))
  exact ⟨first, others, (toList_numeral n).trans split, isDecimalDigit_of_mem (n := n) (by simp [split])⟩

/-! ## Reading digits -/

/-- A text of decimal digits writes a number. -/
structure Writes (literal : String) (value : Nat) : Prop where
  /-- There is a digit. -/
  notEmpty : literal ≠ ""
  /-- There is nothing but digits. -/
  digits : ∀ c ∈ literal.toList, '0' ≤ c ∧ c ≤ '9'
  /-- From the last one on, the digits are those of the number in base ten. -/
  value_eq : Nat.ofDigits 10 (literal.toList.reverse.map fun c => c.toNat - '0'.toNat) = value

/-- The value of a run of digits is that of its digits in base ten. -/
lemma decimalValue_eq_ofDigits (cs : List Char) :
    decimalValue 0 cs = Nat.ofDigits 10 (cs.reverse.map fun c => c.toNat - '0'.toNat) := by
  induction cs using List.reverseRecOn with
  | nil => rfl
  | append_singleton front last ih =>
    rw [decimalValue] at ih
    rw [decimalValue, List.foldl_append, ih, List.reverse_append, List.reverse_singleton,
      List.singleton_append, List.map_cons, Nat.ofDigits_cons]
    exact Nat.add_comm ..

/-- A number is read from the texts of digits that write it. -/
lemma decimal?_eq_some {literal : String} {value : Nat} :
    decimal? literal = some value ↔ Writes literal value := by
  have digit (c : Char) : isDecimalDigit c = true ↔ '0' ≤ c ∧ c ≤ '9' := by simp [isDecimalDigit]
  simp only [decimal?, decimalValue_eq_ofDigits, Option.ite_none_right_eq_some, Option.some.injEq,
    Bool.and_eq_true, Bool.not_eq_true', List.isEmpty_eq_false_iff, List.all_eq_true, digit]
  constructor
  · rintro ⟨⟨notEmpty, digits⟩, value⟩
    exact ⟨fun empty => notEmpty (by rw [empty]; rfl), digits, value⟩
  · rintro ⟨notEmpty, digits, value⟩
    exact ⟨⟨fun empty => notEmpty (String.toList_eq_nil_iff.1 empty), digits⟩, value⟩

/-- A number is read from the texts of digits that write it, as long as it is below `2 ^ 64`. -/
lemma decimal64?_eq_some {literal : String} {value : Nat} :
    decimal64? literal = some value ↔ Writes literal value ∧ value < 2 ^ 64 := by
  rw [decimal64?, Option.filter_eq_some_iff, decimal?_eq_some, decide_eq_true_eq]
  rfl

example : decimal64? "018446744073709551615" = some (2 ^ 64 - 1) ∧
    decimal64? "18446744073709551616" = none := by
  decide +kernel

end SqlRouting.Text
