import SqlRouting.Json.Basic
import SqlRouting.Text.Basic

/-!
# Reading JSON

A text is read as one JSON value with nothing but blanks around it. A string literal may escape
the halves of a surrogate pair one by one; where a half has no partner the literal is well formed
but denotes no text, and its value is `none`.

## Main definitions

* `SqlRouting.Json.string?` — reads a string literal after its opening quote.
* `SqlRouting.Json.number?` — reads a number.
* `SqlRouting.Json.read?` — reads a text as a value.
-/

set_option autoImplicit false

namespace SqlRouting.Json

open Text

/-- A value that was read: a string literal may denote no text. -/
abbrev Read := Json (Option String)

/-! ## Blanks and words -/

/-- Whether `c` may stand between the parts of a value. -/
def isSpace (c : Char) : Bool :=
  c == ' ' || c == '\t' || c == '\n' || c == '\r'

/-- The rest of the text after blanks. -/
def skipSpace (cs : List Char) : List Char :=
  cs.dropWhile isSpace

/-- The rest of the text after `word`, if it starts with it. -/
def word? : (word cs : List Char) → Option (List Char)
  | [], cs => some cs
  | _ :: _, [] => none
  | w :: word, c :: cs => if w == c then word? word cs else none

/-! ## String literals -/

/-- The value of a hexadecimal digit. -/
def hexDigit? (c : Char) : Option Nat :=
  if isDecimalDigit c then some (c.toNat - '0'.toNat)
  else if 'a' ≤ c && c ≤ 'f' then some (c.toNat - 'a'.toNat + 10)
  else if 'A' ≤ c && c ≤ 'F' then some (c.toNat - 'A'.toNat + 10)
  else none

/-- The number that four hexadecimal digits write. -/
def hexNumber? (a b c d : Char) : Option Nat := do
  return (((← hexDigit? a) * 16 + (← hexDigit? b)) * 16 + (← hexDigit? c)) * 16 + (← hexDigit? d)

/-- The character that a backslash before `c` stands for. -/
def escaped? (c : Char) : Option Char :=
  match c with
  | '"' => some '"'
  | '\\' => some '\\'
  | '/' => some '/'
  | 'b' => some '\x08'
  | 'f' => some '\x0c'
  | 'n' => some '\n'
  | 'r' => some '\r'
  | 't' => some '\t'
  | _ => none

/-- Reads a string literal after its opening quote, as the code points that its characters and
escapes stand for. -/
def points? : List Char → Option (List Nat × List Char)
  | [] => none
  | '"' :: rest => some ([], rest)
  | '\\' :: 'u' :: a :: b :: c :: d :: rest => do
    let point ← hexNumber? a b c d
    let (points, rest) ← points? rest
    return (point :: points, rest)
  | '\\' :: e :: rest => do
    let c ← escaped? e
    let (points, rest) ← points? rest
    return (c.toNat :: points, rest)
  | c :: rest =>
    if c.toNat < 0x20 then none
    else do
      let (points, rest) ← points? rest
      return (c.toNat :: points, rest)

/-- Whether `point` is the first half of a surrogate pair. -/
def isHighSurrogate (point : Nat) : Bool :=
  0xd800 ≤ point && point < 0xdc00

/-- Whether `point` is the second half of a surrogate pair. -/
def isLowSurrogate (point : Nat) : Bool :=
  0xdc00 ≤ point && point < 0xe000

/-- The characters of some code points, of which surrogate pairs write one character each; `none`
if the half of a pair stands alone. -/
def characters? : List Nat → Option (List Char)
  | [] => some []
  | [point] =>
    if isHighSurrogate point || isLowSurrogate point then none else some [Char.ofNat point]
  | point :: next :: rest =>
    if isHighSurrogate point then
      if isLowSurrogate next then
        (characters? rest).map
          (Char.ofNat (0x10000 + (point - 0xd800) * 0x400 + (next - 0xdc00)) :: ·)
      else none
    else if isLowSurrogate point then none
    else (characters? (next :: rest)).map (Char.ofNat point :: ·)

/-- Reads a string literal after its opening quote. -/
def string? (cs : List Char) : Option (Option String × List Char) :=
  (points? cs).map fun (points, rest) => ((characters? points).map String.ofList, rest)

/-! ## Numbers -/

/-- Splits off a nonempty run of decimal digits. -/
def digits? (cs : List Char) : Option (List Char × List Char) :=
  let digits := cs.takeWhile isDecimalDigit
  if digits.isEmpty then none else some (digits, cs.dropWhile isDecimalDigit)

/-- Splits off a whole number, which has no zero in front of other digits. -/
def whole? : List Char → Option (List Char × List Char)
  | '0' :: rest => some (['0'], rest)
  | cs => digits? cs

/-- Splits off an optional fraction. -/
def fraction? : List Char → Option (List Char × List Char)
  | '.' :: rest => (digits? rest).map fun (digits, rest) => ('.' :: digits, rest)
  | cs => some ([], cs)

/-- Splits off an optional exponent. -/
def exponent? : List Char → Option (List Char × List Char)
  | [] => some ([], [])
  | e :: cs =>
    if e == 'e' || e == 'E' then
      match cs with
      | '+' :: rest => (digits? rest).map fun (digits, rest) => (e :: '+' :: digits, rest)
      | '-' :: rest => (digits? rest).map fun (digits, rest) => (e :: '-' :: digits, rest)
      | _ => (digits? cs).map fun (digits, rest) => (e :: digits, rest)
    else some ([], e :: cs)

/-- Reads a number without its sign. -/
def unsigned? (cs : List Char) : Option (List Char × List Char) := do
  let (whole, rest) ← whole? cs
  let (fraction, rest) ← fraction? rest
  let (exponent, rest) ← exponent? rest
  return (whole ++ fraction ++ exponent, rest)

/-- Reads a number. -/
def number? : List Char → Option (String × List Char)
  | '-' :: rest => (unsigned? rest).map fun (digits, rest) => (String.ofList ('-' :: digits), rest)
  | cs => (unsigned? cs).map fun (digits, rest) => (String.ofList digits, rest)

/-! ## Values -/

mutual

/-- Reads a value that takes at most `n` nested steps. -/
def value? : Nat → List Char → Option (Read × List Char)
  | 0, _ => none
  | n + 1, cs =>
    match skipSpace cs with
    | '\x7b' :: rest =>
      match skipSpace rest with
      | '\x7d' :: rest => some (.object [], rest)
      | rest => (fields? n rest).map fun (fields, rest) => (.object fields, rest)
    | '[' :: rest =>
      match skipSpace rest with
      | ']' :: rest => some (.array [], rest)
      | rest => (elements? n rest).map fun (elements, rest) => (.array elements, rest)
    | '"' :: rest => (string? rest).map fun (text, rest) => (.string text, rest)
    | 't' :: rest => (word? "rue".toList rest).map fun rest => (.boolean true, rest)
    | 'f' :: rest => (word? "alse".toList rest).map fun rest => (.boolean false, rest)
    | 'n' :: rest => (word? "ull".toList rest).map fun rest => (.null, rest)
    | rest => (number? rest).map fun (literal, rest) => (.number literal, rest)

/-- Reads the elements of an array that is not empty, with its closing bracket, in at most `n`
nested steps. -/
def elements? : Nat → List Char → Option (List Read × List Char)
  | 0, _ => none
  | n + 1, cs =>
    match value? n cs with
    | none => none
    | some (element, rest) =>
      match skipSpace rest with
      | ',' :: rest =>
        (elements? n rest).map fun (elements, rest) => (element :: elements, rest)
      | ']' :: rest => some ([element], rest)
      | _ => none

/-- Reads the fields of an object that is not empty, with its closing brace, in at most `n` nested
steps. -/
def fields? : Nat → List Char → Option (List (Option String × Read) × List Char)
  | 0, _ => none
  | n + 1, cs =>
    match skipSpace cs with
    | '"' :: rest =>
      match string? rest with
      | none => none
      | some (key, rest) =>
        match skipSpace rest with
        | ':' :: rest =>
          match value? n rest with
          | none => none
          | some (value, rest) =>
            match skipSpace rest with
            | ',' :: rest =>
              (fields? n rest).map fun (fields, rest) => ((key, value) :: fields, rest)
            | '\x7d' :: rest => some ([(key, value)], rest)
            | _ => none
        | _ => none
    | _ => none

end

/-- Reads a text as a value. Every second nested step of the reading takes a character, so the
bound on the steps is never met. -/
def read? (text : String) : Option Read :=
  let cs := text.toList
  match value? (2 * cs.length + 2) cs with
  | some (value, rest) => if (skipSpace rest).isEmpty then some value else none
  | none => none

end SqlRouting.Json
