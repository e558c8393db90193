import SqlRouting.Span

/-!
# Edits

Reading a statement records where its text has to change before it is sent to a shard. Some edits
insert text of their own. The others mark a part of the text that is replaced once the shard is
known: the name of a table, an operand of a limit, the inserted values.

## Main definitions

* `SqlRouting.Edit` — a change of the text at some place.
* `SqlRouting.Edit.start` — the place of an edit.
* `SqlRouting.Edit.insertedText?` — the text that an edit inserts.
-/

set_option autoImplicit false

namespace SqlRouting

/-- How an insertion gives its values. -/
inductive InsertForm
  /-- Rows of values in parentheses. -/
  | values
  /-- Assignments to columns. -/
  | set
deriving DecidableEq, Repr

/-- A change of the text of a statement. -/
inductive Edit
  /-- The name of a table, with its schema, to be replaced by the name in the shard. -/
  | table (span : Span) (tableName written : String)
  /-- Items to insert at the end of a list. -/
  | items (start : Nat) (items : List String)
  /-- A clause to insert that orders the result. -/
  | orderBy (start : Nat) (items : List String)
  /-- A number of rows to skip. -/
  | offset (span : Span) (value : Nat)
  /-- A number of rows to return. -/
  | rowCount (span : Span) (value : Nat)
  /-- A list of columns to insert after the name of a table. -/
  | insertColumns (start : Nat) (columns : List String)
  /-- The start of the inserted values. -/
  | insertValues (start : Nat) (form : InsertForm)
deriving DecidableEq, Repr

/-- The kinds of edits. -/
inductive EditKind
  | table | items | orderBy | offset | rowCount | insertColumns | insertValues
deriving DecidableEq, Repr

namespace Edit

/-- The kind of an edit. -/
def kind : Edit → EditKind
  | .table _ _ _ => .table
  | .items _ _ => .items
  | .orderBy _ _ => .orderBy
  | .offset _ _ => .offset
  | .rowCount _ _ => .rowCount
  | .insertColumns _ _ => .insertColumns
  | .insertValues _ _ => .insertValues

/-- The offset in the text where an edit applies. -/
def start : Edit → Nat
  | .table span _ _ => span.start
  | .items start _ => start
  | .orderBy start _ => start
  | .offset span _ => span.start
  | .rowCount span _ => span.start
  | .insertColumns start _ => start
  | .insertValues start _ => start

/-- The text that an edit inserts; `none` if it only marks text to be replaced. -/
def insertedText? : Edit → Option String
  | .items _ texts => some (String.join (texts.map (", " ++ ·)))
  | .orderBy _ texts => some (" ORDER BY " ++ String.intercalate ", " texts ++ " ")
  | .insertColumns _ columns => some ("(" ++ String.intercalate ", " columns ++ ")")
  | _ => none

/-- The same edit, with the form of inserted values replaced. -/
def withInsertForm (form : InsertForm) : Edit → Edit
  | .insertValues start _ => .insertValues start form
  | edit => edit

end Edit

end SqlRouting
