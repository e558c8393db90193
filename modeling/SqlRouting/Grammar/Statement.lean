import SqlRouting.Grammar.Insert
import SqlRouting.Grammar.Select
import SqlRouting.Statement

/-!
# Reading statements

## Main definitions

* `SqlRouting.Grammar.statement` — reads a statement.
* `SqlRouting.Statement.ofText` — the statement that a text writes.
-/

set_option autoImplicit false

namespace SqlRouting

namespace Grammar

open SqlRouting.Parser

/-- Reads the end of the text, before which a semicolon may stand. -/
def finish : Parser Unit := do
  let _ ← skipSymbol .semicolon
  if (← stream).atEnd then return ()
  else unexpected (.kind .endOfInput)

/-- Reads a statement. -/
def statement (env : Environment) : Parser Statement := do
  let statement ←
    if ← checkKeyword .SELECT then pure (Statement.select (← select env))
    else if ← checkKeyword .INSERT then pure (Statement.insert (← insert env))
    else unexpected .statement
  finish
  return statement

end Grammar

/-- The statement that a text writes. -/
def Statement.ofText (env : Environment) (text : String) : Except ParseError Statement :=
  (·.1) <$> (Grammar.statement env).run ⟨.ofText text, {}⟩

end SqlRouting
