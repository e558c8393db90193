import SqlRouting.Text.Basic

/-!
# Spans

A span is a range of byte offsets in the text of a statement. Tokens, expressions, edits and
errors are placed by spans, and all of them refer to the text as it was given.

## Main definitions

* `SqlRouting.Span` — a range of byte offsets.
* `SqlRouting.Span.merge` — the smallest span around two spans.
* `SqlRouting.Span.text` — the text a span covers.
-/

set_option autoImplicit false

namespace SqlRouting

/-- A range of byte offsets, from `start` up to and without `stop`. -/
structure Span where
  /-- The offset of the first byte. -/
  start : Nat
  /-- The offset after the last byte. -/
  stop : Nat
deriving DecidableEq, Repr, Inhabited

namespace Span

/-- The empty span at the start of a text. -/
def origin : Span := ⟨0, 0⟩

/-- The number of bytes of a span. -/
def length (span : Span) : Nat :=
  span.stop - span.start

/-- Whether a span has no bytes. -/
def isEmpty (span : Span) : Bool :=
  span.start == span.stop

/-- The smallest span that covers both `a` and `b`. -/
def merge (a b : Span) : Span :=
  ⟨min a.start b.start, max a.stop b.stop⟩

/-- The text that a span covers in `source`; empty if the span does not fall on the source. -/
def text (span : Span) (source : String) : String :=
  Text.slice source span.start span.stop

/-- A span as messages write it. -/
def render (span : Span) : String :=
  toString span.start ++ ".." ++ toString span.stop

end Span

end SqlRouting
