import SqlRouting.Json.Basic

/-!
# Writing JSON

A value is written on one line without blanks, or over several lines with an indentation of two
blanks for each level.

## Main definitions

* `SqlRouting.Json.compact` — a value on one line.
* `SqlRouting.Json.pretty` — a value over several lines.
-/

set_option autoImplicit false

namespace SqlRouting.Json

/-! ## Strings -/

/-- A hexadecimal digit. -/
def hexDigit (n : Nat) : Char :=
  Nat.digitChar n

/-- A character within a string literal. Quotes, backslashes and controls are escaped. -/
def escape (c : Char) : List Char :=
  if c == '"' then ['\\', '"']
  else if c == '\\' then ['\\', '\\']
  else if c == '\x08' then ['\\', 'b']
  else if c == '\t' then ['\\', 't']
  else if c == '\n' then ['\\', 'n']
  else if c == '\x0c' then ['\\', 'f']
  else if c == '\r' then ['\\', 'r']
  else if c.toNat < 0x20 then
    ['\\', 'u', '0', '0', hexDigit (c.toNat / 16), hexDigit (c.toNat % 16)]
  else [c]

/-- A text as a string literal. -/
def literal (text : String) : String :=
  "\"" ++ String.ofList (text.toList.flatMap escape) ++ "\""

/-! ## Values on one line -/

mutual

/-- A value on one line. -/
def compact : Json String → String
  | .null => "null"
  | .boolean value => if value then "true" else "false"
  | .number literal => literal
  | .string value => literal value
  | .array elements => "[" ++ String.intercalate "," (compactElements elements) ++ "]"
  | .object fields => "\x7b" ++ String.intercalate "," (compactFields fields) ++ "\x7d"

/-- The elements of an array, each on one line. -/
def compactElements : List (Json String) → List String
  | [] => []
  | element :: elements => compact element :: compactElements elements

/-- The fields of an object, each on one line. -/
def compactFields : List (String × Json String) → List String
  | [] => []
  | (key, value) :: fields => (literal key ++ ":" ++ compact value) :: compactFields fields

end

/-! ## Values over several lines -/

/-- A line break followed by the indentation of a level. -/
def lineBreak (level : Nat) : String :=
  "\n" ++ String.ofList (List.replicate (2 * level) ' ')

/-- Parts between an opening and a closing bracket at `level`, each on lines of its own. -/
def enclose (level : Nat) (opening closing : String) (parts : List String) : String :=
  if parts.isEmpty then opening ++ closing
  else
    opening ++ lineBreak (level + 1) ++ String.intercalate ("," ++ lineBreak (level + 1)) parts ++
      lineBreak level ++ closing

mutual

/-- A value over several lines, the first of which is at `level`. -/
def prettyAt (level : Nat) : Json String → String
  | .null => "null"
  | .boolean value => if value then "true" else "false"
  | .number literal => literal
  | .string value => literal value
  | .array elements => enclose level "[" "]" (prettyElements (level + 1) elements)
  | .object fields => enclose level "\x7b" "\x7d" (prettyFields (level + 1) fields)

/-- The elements of an array at `level`. -/
def prettyElements (level : Nat) : List (Json String) → List String
  | [] => []
  | element :: elements => prettyAt level element :: prettyElements level elements

/-- The fields of an object at `level`. -/
def prettyFields (level : Nat) : List (String × Json String) → List String
  | [] => []
  | (key, value) :: fields =>
    (literal key ++ ": " ++ prettyAt level value) :: prettyFields level fields

end

/-- A value over several lines. -/
def pretty (value : Json String) : String :=
  prettyAt 0 value

end SqlRouting.Json
