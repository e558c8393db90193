import SqlRouting.Text.GraphemeExtend
import SqlRouting.Text.Unprintable

/-!
# Characters in messages

A message that names a single character writes it between apostrophes. A character that would not
be seen there is spelled by an escape.

## Main definitions

* `SqlRouting.Text.quotedCharacter` — the spelling of a character in a message.
-/

set_option autoImplicit false

namespace SqlRouting.Text

/-- The escape of `c` by its code point in hexadecimal. -/
def codePointEscape (c : Char) : String :=
  "\\u\x7b" ++ String.ofList (Nat.toDigits 16 c.toNat) ++ "\x7d"

/-- The spelling of `c` between apostrophes: the common controls, the backslash and the apostrophe
by a short escape, a character that cannot be seen alone by its code point, any other by itself. -/
def escapedCharacter (c : Char) : String :=
  if c == '\x00' then "\\0"
  else if c == '\t' then "\\t"
  else if c == '\r' then "\\r"
  else if c == '\n' then "\\n"
  else if c == '\\' then "\\\\"
  else if c == '\'' then "\\'"
  else if graphemeExtend.contains c || unprintable.contains c then codePointEscape c
  else String.singleton c

/-- The character `c` as a message names it. -/
def quotedCharacter (c : Char) : String :=
  "'" ++ escapedCharacter c ++ "'"

end SqlRouting.Text
