import SqlRouting.Statement.Insert
import SqlRouting.Statement.Select

/-!
# Statements

## Main definitions

* `SqlRouting.Statement` — a query or an insertion.
* `SqlRouting.Statement.context` — what a statement collects, whatever its kind.
-/

set_option autoImplicit false

namespace SqlRouting

/-- A statement that can be routed. -/
inductive Statement
  | select (query : SelectStatement)
  | insert (insertion : InsertStatement)
deriving DecidableEq, Repr

/-- What a statement collects. -/
def Statement.context : Statement → Context
  | .select query => query.context
  | .insert insertion => insertion.context

end SqlRouting
