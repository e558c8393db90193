import SqlRouting.Text.CharSet

/-!
# Blank characters

The characters that separate words without being part of one (the Unicode property White_Space).

## Main definitions

* `SqlRouting.Text.blank` — the ranges of the property.
-/

set_option autoImplicit false

namespace SqlRouting.Text

/-- The characters with the property White_Space. -/
def blank : CharSet := ⟨
  [(0x9, 0xd), (0x20, 0x20), (0x85, 0x85), (0xa0, 0xa0), (0x1680, 0x1680), (0x2000, 0x200a),
   (0x2028, 0x2029), (0x202f, 0x202f), (0x205f, 0x205f), (0x3000, 0x3000)]⟩

end SqlRouting.Text
