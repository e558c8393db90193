import SqlRouting.Text.Alphabetic
import SqlRouting.Text.Blank
import SqlRouting.Text.Numeral

/-!
# Text of statements

Positions in a statement are byte offsets into its UTF-8 form, names are compared ignoring the
case of ASCII letters, and quotes are dropped where two spellings of one name are compared. This
module has these operations; a text is a `String`, and the work is done on its characters.

## Main definitions

* `SqlRouting.Text.byteLength` — the length in bytes of a list of characters.
* `SqlRouting.Text.slice` — the text between two byte offsets.
* `SqlRouting.Text.sameName` — equality of names, ignoring ASCII case.
* `SqlRouting.Text.unquoted` — a text without its quotation marks and brackets.
* `SqlRouting.Text.decimal?` — the number a run of decimal digits writes.
-/

set_option autoImplicit false

namespace SqlRouting.Text

/-! ## Classes of characters -/

/-- Whether `c` separates words. -/
def isBlank (c : Char) : Bool :=
  blank.contains c

/-- Whether `c` is a letter. -/
def isLetter (c : Char) : Bool :=
  alphabetic.contains c

/-- Whether `c` is a letter or writes a number. -/
def isLetterOrNumeral (c : Char) : Bool :=
  alphabetic.contains c || numeral.contains c

/-- Whether `c` is one of the digits `0` to `9`. -/
def isDecimalDigit (c : Char) : Bool :=
  '0' ≤ c && c ≤ '9'

/-- Whether `c` is a digit of a hexadecimal number, in either case. -/
def isHexDigit (c : Char) : Bool :=
  isDecimalDigit c || ('a' ≤ c && c ≤ 'f') || ('A' ≤ c && c ≤ 'F')

/-! ## Byte offsets -/

/-- The number of bytes that `cs` takes in UTF-8. -/
def byteLength : List Char → Nat
  | [] => 0
  | c :: cs => c.utf8Size + byteLength cs

/-- The characters of `cs` after its first `n` bytes; `none` if `n` falls inside a character or
beyond the end. -/
def dropBytes? : Nat → List Char → Option (List Char)
  | 0, cs => some cs
  | _ + 1, [] => none
  | n + 1, c :: cs => if c.utf8Size ≤ n + 1 then dropBytes? (n + 1 - c.utf8Size) cs else none

/-- The characters that make up the first `n` bytes of `cs`; `none` if `n` falls inside a
character or beyond the end. -/
def takeBytes? : Nat → List Char → Option (List Char)
  | 0, _ => some []
  | _ + 1, [] => none
  | n + 1, c :: cs =>
    if c.utf8Size ≤ n + 1 then (takeBytes? (n + 1 - c.utf8Size) cs).map (c :: ·) else none

/-- The part of `text` from byte `start` to byte `stop`. It is empty unless both offsets lie on
character boundaries of the text, in this order. -/
def slice (text : String) (start stop : Nat) : String :=
  if start ≤ stop then
    match (dropBytes? start text.toList).bind (takeBytes? (stop - start)) with
    | some cs => String.ofList cs
    | none => ""
  else ""

/-! ## Names -/

/-- Whether `a` and `b` are equal when the case of ASCII letters is ignored. -/
def sameName (a b : String) : Bool :=
  a.toList.map Char.toLower == b.toList.map Char.toLower

/-- Names are the same if they are equal in small letters. -/
theorem sameName_iff {a b : String} :
    sameName a b = true ↔ a.toList.map Char.toLower = b.toList.map Char.toLower := by
  rw [sameName, beq_iff_eq]

/-- Every name equals itself. -/
theorem sameName_self (name : String) : sameName name name = true :=
  sameName_iff.2 rfl

/-- A name that is the same as another is so in either order. -/
theorem sameName_symm {a b : String} (same : sameName a b = true) : sameName b a = true :=
  sameName_iff.2 (sameName_iff.1 same).symm

/-- Names that are the same as one name are the same. -/
theorem sameName_trans {a b c : String} (same : sameName a b = true) (same' : sameName b c = true) :
    sameName a c = true :=
  sameName_iff.2 ((sameName_iff.1 same).trans (sameName_iff.1 same'))

/-- Whether some name of `names` equals `name`, ignoring ASCII case. -/
def containsName (names : List String) (name : String) : Bool :=
  names.any (sameName · name)

/-- Whether `c` opens or closes a quoted name or a string literal. -/
def isQuotationMark (c : Char) : Bool :=
  c == '\u0060' || c == '"' || c == '\'' || c == '[' || c == ']'

/-- A text without quotation marks and brackets, so that quoted and plain spellings of one
reference become equal. -/
def unquoted (text : String) : String :=
  String.ofList (text.toList.filter fun c => !isQuotationMark c)

/-- A text without its blank characters. -/
def withoutBlanks (text : String) : String :=
  String.ofList (text.toList.filter fun c => !isBlank c)

/-- A text without the blank characters at its two ends. -/
def trimmed (text : String) : String :=
  String.ofList ((text.toList.dropWhile isBlank).reverse.dropWhile isBlank).reverse

/-! ## Numbers -/

/-- The number that the decimal digits `cs` write after a number that reads `acc`. -/
def decimalValue (acc : Nat) (cs : List Char) : Nat :=
  cs.foldl (fun value c => 10 * value + (c.toNat - '0'.toNat)) acc

/-- The number that `text` writes, if it is a nonempty run of decimal digits. -/
def decimal? (text : String) : Option Nat :=
  let cs := text.toList
  if !cs.isEmpty && cs.all isDecimalDigit then some (decimalValue 0 cs) else none

/-- The number that `text` writes, if it is a nonempty run of decimal digits and fits into 64
bits. -/
def decimal64? (text : String) : Option Nat :=
  (decimal? text).filter (· < UInt64.size)

end SqlRouting.Text
