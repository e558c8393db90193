import SqlRouting.Statement.Edit

/-!
# Applying insertions

The edits that insert text are applied to a statement from left to right, and those at the same
place in the order they were recorded. The other edits wait until the shard is known.

## Main definitions

* `SqlRouting.Edit.insertions` — the places and texts that some edits insert.
* `SqlRouting.Edit.splice` — a text with insertions at increasing places.
* `SqlRouting.Edit.applyInsertions` — the text of a statement with all insertions.
-/

set_option autoImplicit false

namespace SqlRouting.Edit

/-- The places and texts that some edits insert, in the order they were recorded. -/
def insertions (edits : List Edit) : List (Nat × String) :=
  edits.filterMap fun edit => edit.insertedText?.map (edit.start, ·)

/-- The part of `text` from byte `last` on, with insertions at increasing places. A place before
`last` or beyond the end is moved to the nearest one between. -/
def splice (text : String) (last : Nat) : List (Nat × String) → String
  | [] => Text.slice text last (Text.byteLength text.toList)
  | (place, inserted) :: rest =>
    let place := max last (min place (Text.byteLength text.toList))
    Text.slice text last place ++ inserted ++ splice text place rest

/-- The text of a statement with all insertions of its edits. -/
def applyInsertions (text : String) (edits : List Edit) : String :=
  splice text 0 ((insertions edits).mergeSort fun a b => a.1 ≤ b.1)

end SqlRouting.Edit
