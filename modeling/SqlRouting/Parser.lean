import SqlRouting.Dialect
import SqlRouting.Rule.Basic
import SqlRouting.Rule.Metadata
import SqlRouting.Statement.Context
import SqlRouting.Token.Stream

/-!
# Parsers

A parser reads some tokens of a statement and records what it finds in the context. It fails with
the error of the first token it cannot use. Everything in the grammar is built from the few steps
of this module, each of which moves the stream, changes the context, or only looks.

## Main definitions

* `SqlRouting.Environment` — what the grammar consults.
* `SqlRouting.ParserState` — a position in the tokens together with the context.
* `SqlRouting.Parser` — a step from one such state to another that may fail.
* `SqlRouting.Parser.commaSeparated` — one or more of something, with commas between.
-/

set_option autoImplicit false

namespace SqlRouting

/-- What the grammar consults while it reads a statement. -/
structure Environment where
  /-- The dialect. -/
  dialect : Dialect := .generic
  /-- The rules of the sharded tables. -/
  rules : ShardingRule := {}
  /-- The known columns of tables. -/
  metadata : TableMetadata := {}
deriving DecidableEq, Repr

/-- A position in the tokens of a statement, with what was collected up to there. -/
structure ParserState where
  /-- The tokens that are left. -/
  stream : TokenStream
  /-- What was collected. -/
  context : Context := {}
deriving DecidableEq, Repr

/-- A step from one state to another that gives a value, or fails. -/
abbrev Parser (α : Type) : Type :=
  StateT ParserState (Except ParseError) α

namespace Parser

/-! ## Looking -/

/-- The stream. -/
def stream : Parser TokenStream :=
  return (← get).stream

/-- The current token. -/
def current : Parser Token :=
  return (← get).stream.current

/-- The kind of the current token. -/
def kind : Parser TokenKind :=
  return (← get).stream.kind

/-- The kind of the token after the current one. -/
def peek : Parser TokenKind :=
  return (← get).stream.peek

/-- Where the current token starts. -/
def offset : Parser Nat :=
  return (← get).stream.offset

/-- Where the token read last ends. -/
def previousEnd : Parser Nat :=
  return (← get).stream.previousEnd

/-- The number of tokens that are left. -/
def remaining : Parser Nat :=
  return (← get).stream.remaining

/-- What was collected. -/
def context : Parser Context :=
  return (← get).context

/-- Whether the current token is `symbol`. -/
def checkSymbol (symbol : Symbol) : Parser Bool :=
  return (← get).stream.check (.symbol symbol)

/-- Whether the current token is `keyword`. -/
def checkKeyword (keyword : Keyword) : Parser Bool :=
  return (← get).stream.checkKeyword keyword

/-- Whether the current token is an operator that joins two operands. -/
def checkComposite : Parser Bool :=
  return (← get).stream.kind.isComposite

/-- Whether the current token opens parentheses around a query. -/
def checkQueryInParentheses : Parser Bool :=
  return (← get).stream.check (.symbol .leftParen) &&
    (← get).stream.peek == .keyword .SELECT

/-- The text of the statement under a span. -/
def textOf (span : Span) : Parser String :=
  return span.text (← get).stream.source

/-- The text of the statement from `start` to the end of the token read last, without blanks at its
ends. -/
def textFrom (start : Nat) : Parser String :=
  return Text.trimmed ((← get).stream.slice start (← get).stream.previousEnd)

/-! ## Failing -/

/-- Fails because the current token is not what is expected. -/
def unexpected {α : Type} (expected : Expectation) : Parser α := do
  throw ((← get).stream.unexpected expected)

/-- Fails because a construct is not supported. -/
def unsupported {α : Type} (construct : Construct) (span : Span) : Parser α :=
  throw (.unsupported construct span)

/-- Fails if the current token is a keyword out of `keywords`. -/
def refuseKeywords (keywords : List Keyword) : Parser Unit := do
  (← get).stream.refuseKeywords keywords

/-! ## Moving -/

/-- Makes a step of the stream a parser. -/
def ofStream {α : Type} (step : TokenStream → Except ParseError α × TokenStream) : Parser α :=
  fun state =>
    match step state.stream with
    | (.ok value, stream) => .ok (value, { state with stream })
    | (.error error, _) => .error error

/-- Makes a test of the stream, which may step past a token, a parser. -/
def ofTest (test : TokenStream → Bool × TokenStream) : Parser Bool :=
  ofStream fun stream => (.ok (test stream).1, (test stream).2)

/-- Steps past the current token and gives it. -/
def advance : Parser Token :=
  ofStream fun stream => (.ok stream.current, stream.advance)

/-- Steps past the current token if it is `symbol`. -/
def skipSymbol (symbol : Symbol) : Parser Bool :=
  ofTest (TokenStream.skipIf (.symbol symbol))

/-- Steps past the current token if it is a keyword out of `keywords`. -/
def skipKeyword (keywords : List Keyword) : Parser Bool :=
  ofTest (TokenStream.skipIfKeyword keywords)

/-- Steps past every keyword out of `keywords` until another token comes. -/
def skipAllKeywords (keywords : List Keyword) : Parser Unit :=
  ofStream fun stream => (.ok (), stream.skipAllKeywords keywords)

/-- Steps past the current token, which has to be `symbol`, and gives it. -/
def acceptSymbol (symbol : Symbol) : Parser Token :=
  ofStream (TokenStream.accept (.symbol symbol))

/-- Steps past the current token, which has to be `keyword`, and gives it. -/
def acceptKeyword (keyword : Keyword) : Parser Token :=
  ofStream (TokenStream.acceptKeyword keyword)

/-- Steps past the current token, which has to be a name, and gives the name with its span. -/
def acceptIdentifier : Parser (String × Span) :=
  ofStream TokenStream.acceptIdentifier

/-! ## Recording -/

/-- Changes what was collected. -/
def modifyContext (change : Context → Context) : Parser Unit :=
  modify fun state => { state with context := change state.context }

/-- Records an edit of the text. -/
def addEdit (edit : Edit) : Parser Unit :=
  modifyContext (·.addEdit edit)

/-- Steps past the current token, a placeholder, and gives its index. -/
def placeholder : Parser Nat := do
  let _ ← advance
  let index := (← context).parameters
  modifyContext (·.passParameters 1)
  return index

/-- Steps past a balanced group and counts the placeholders in it. -/
def skipGroup (brackets : TokenStream.Brackets) : Parser Unit := do
  let count ← ofStream (TokenStream.skipGroup brackets)
  modifyContext (·.passParameters count)

/-- Steps past a parenthesised group, if there is one, and counts the placeholders in it. -/
def skipParentheses : Parser Unit := do
  let count ← ofStream TokenStream.skipParentheses
  modifyContext (·.passParameters count)

/-! ## Repetition -/

/-- One or more of `item` with commas between, and at most `n` commas. -/
def commaSeparatedUpTo {α : Type} (item : Parser α) : Nat → Parser (List α)
  | 0 => return [← item]
  | n + 1 => do
    let first ← item
    if ← skipSymbol .comma then return first :: (← commaSeparatedUpTo item n)
    else return [first]

/-- One or more of `item` with commas between. There are no more commas than tokens. -/
def commaSeparated {α : Type} (item : Parser α) : Parser (List α) := do
  commaSeparatedUpTo item (← remaining)

end Parser

end SqlRouting
