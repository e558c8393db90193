/-!
# JSON values

Rules are read from JSON, and reports are written in it. A value keeps the fields of an object in
the order they were given, with repetitions, and a number by its spelling.

## Main definitions

* `SqlRouting.Json` — a JSON value whose strings have the type `τ`.
-/

set_option autoImplicit false

namespace SqlRouting

/-- A JSON value. Its strings are of type `τ`: a value that is written has texts, while one that
was read may have string literals that denote no text. -/
inductive Json (τ : Type)
  | null
  | boolean (value : Bool)
  | number (literal : String)
  | string (value : τ)
  | array (elements : List (Json τ))
  | object (fields : List (τ × Json τ))

namespace Json

/-- The number `n` as a value. -/
def ofNat {τ : Type} (n : Nat) : Json τ :=
  .number (toString n)

/-- A value that may be missing. -/
def ofOption {τ α : Type} (f : α → Json τ) : Option α → Json τ
  | none => .null
  | some a => f a

/-- The values of a list, in an array. -/
def ofList {τ α : Type} (f : α → Json τ) (as : List α) : Json τ :=
  .array (as.map f)

end Json

end SqlRouting
