import SqlRouting.Parser
import SqlRouting.Statement.Select

/-!
# Reading limits

A limit has the number of rows, and possibly the number of rows to skip before them. Each is a
number or a placeholder; the numbers are recorded as edits, because the rows of several shards are
skipped only after they are merged.

## Main definitions

* `SqlRouting.Grammar.limitValue` — reads an operand of a limit.
* `SqlRouting.Grammar.limit` — reads the limit of a query.
-/

set_option autoImplicit false

namespace SqlRouting.Grammar

open SqlRouting.Parser

/-- Reads an operand of a limit, and gives it with its span. -/
def limitValue : Parser (LimitValue × Span) := do
  let token ← current
  match token.kind with
  | .number literal =>
    let _ ← advance
    match Text.decimal64? literal with
    | some value => return (.literal value, token.span)
    | none => throw (.ofToken .nonNegativeInteger token.kind token.span)
  | .symbol .question => return (.placeholder (← placeholder), token.span)
  | _ => unexpected .limitValue

/-- The edit that an operand gives if it is a number. -/
def limitEdit (edit : Span → Nat → Edit) : LimitValue × Span → List Edit
  | (.literal value, span) => [edit span value]
  | (.placeholder _, _) => []

/-- Reads the operands of a limit: the number of rows to skip, if it is given, and the number of
rows. -/
def limitOperands (style : LimitStyle) : Parser (Option (LimitValue × Span) × LimitValue × Span) :=
  do
  let first ← limitValue
  if style == .commaSeparated && (← checkSymbol .comma) then
    let _ ← advance
    return (some first, ← limitValue)
  else if ← skipKeyword [.OFFSET] then return (some (← limitValue), first)
  else return (none, first)

/-- Reads the limit of a query, if there is one. -/
def limit (style : LimitStyle) (shape : ResultShape) : Parser ResultShape := do
  let start ← offset
  if ← skipKeyword [.LIMIT] then
    let (skipped, rowCount) ← limitOperands style
    (skipped.toList.flatMap (limitEdit .offset) ++ limitEdit .rowCount rowCount).forM addEdit
    return { shape with
      limit := some
        { offset := skipped.map (·.1)
          rowCount := some rowCount.1
          span := ⟨start, ← previousEnd⟩ } }
  else return shape

end SqlRouting.Grammar
