import SqlRouting.ParseError
import SqlRouting.Token.Lexer

/-!
# Token streams

A stream is a position in the tokens of one statement. It moves forward only; looking ahead leaves
it where it is, and past the last token it stays at the end of the input. An operation that can
fail gives its answer together with the stream it leaves behind, and one that only tests the
current token leaves the stream unchanged when it fails.

## Main definitions

* `SqlRouting.TokenStream` — the tokens that are left, and the one read last.
* `SqlRouting.TokenStream.advance` — the step past the current token.
* `SqlRouting.TokenStream.accept` — the step past a required token.
* `SqlRouting.TokenStream.splitGroup?` — the shortest balanced group at the head of a list of
  tokens.
* `SqlRouting.TokenStream.skipGroup` — the step past a balanced group.
-/

set_option autoImplicit false

namespace SqlRouting

/-- A position in the tokens of a statement. -/
structure TokenStream where
  /-- The text of the statement. -/
  source : String
  /-- The token read last. -/
  previous : Token
  /-- The tokens that are left, without the end of the input. -/
  ahead : List Token
  /-- The length of the text in bytes. -/
  length : Nat
deriving DecidableEq, Repr

namespace TokenStream

/-- The stream at the first token of a text. -/
def ofText (text : String) : TokenStream :=
  ⟨text, ⟨.endOfInput, Span.origin⟩, Lexer.tokens text, Text.byteLength text.toList⟩

/-! ## Looking -/

/-- The end of the input. -/
def ending (stream : TokenStream) : Token :=
  ⟨.endOfInput, ⟨stream.length, stream.length⟩⟩

/-- The number of tokens that are left. -/
def remaining (stream : TokenStream) : Nat :=
  stream.ahead.length

/-- The current token. -/
def current (stream : TokenStream) : Token :=
  stream.ahead.headD stream.ending

/-- The kind of the current token. -/
def kind (stream : TokenStream) : TokenKind :=
  stream.current.kind

/-- Where the current token starts. -/
def offset (stream : TokenStream) : Nat :=
  stream.current.span.start

/-- Where the token read last ends. -/
def previousEnd (stream : TokenStream) : Nat :=
  stream.previous.span.stop

/-- Whether the whole statement is read. -/
def atEnd (stream : TokenStream) : Bool :=
  stream.kind == .endOfInput

/-- The kind of the `n`-th token after the current one, where the count starts at one. -/
def peekNth (stream : TokenStream) (n : Nat) : TokenKind :=
  (stream.ahead[max n 1]?.getD stream.ending).kind

/-- The kind of the token after the current one. -/
def peek (stream : TokenStream) : TokenKind :=
  stream.peekNth 1

/-- Whether the current token agrees with `kind` up to its payload. -/
def check (stream : TokenStream) (kind : TokenKind) : Bool :=
  stream.kind.sameClass kind

/-- Whether the current token is `keyword`. -/
def checkKeyword (stream : TokenStream) (keyword : Keyword) : Bool :=
  stream.kind == .keyword keyword

/-- Whether the current token is a keyword out of `keywords`. -/
def checkAnyKeyword (stream : TokenStream) (keywords : List Keyword) : Bool :=
  stream.kind.isKeywordIn keywords

/-- The text between two offsets of the statement. -/
def slice (stream : TokenStream) (start stop : Nat) : String :=
  Text.slice stream.source start stop

/-- The error of meeting the current token where `expected` is required. -/
def unexpected (stream : TokenStream) (expected : Expectation) : ParseError :=
  ParseError.ofToken expected stream.kind stream.current.span

/-! ## Moving -/

/-- The stream after the current token. -/
def advance (stream : TokenStream) : TokenStream :=
  { stream with previous := stream.current, ahead := stream.ahead.tail }

/-- The stream after the next `n` tokens. -/
def advanceBy : Nat → TokenStream → TokenStream
  | 0, stream => stream
  | n + 1, stream => advanceBy n stream.advance

/-- Steps past the current token if it agrees with `kind` up to its payload. -/
def skipIf (kind : TokenKind) (stream : TokenStream) : Bool × TokenStream :=
  if stream.check kind then (true, stream.advance) else (false, stream)

/-- Steps past the current token if it is a keyword out of `keywords`. -/
def skipIfKeyword (keywords : List Keyword) (stream : TokenStream) : Bool × TokenStream :=
  if stream.checkAnyKeyword keywords then (true, stream.advance) else (false, stream)

/-- Steps past every keyword out of `keywords` until another token comes. -/
def skipAllKeywords (keywords : List Keyword) (stream : TokenStream) : TokenStream :=
  advanceBy (stream.ahead.takeWhile (·.kind.isKeywordIn keywords)).length stream

/-- Steps past the current token, which has to agree with `kind` up to its payload. -/
def accept (kind : TokenKind) (stream : TokenStream) : Except ParseError Token × TokenStream :=
  if stream.check kind then (.ok stream.current, stream.advance)
  else (.error (stream.unexpected (.kind kind)), stream)

/-- Steps past the current token, which has to be `keyword`. -/
def acceptKeyword (keyword : Keyword) (stream : TokenStream) :
    Except ParseError Token × TokenStream :=
  if stream.checkKeyword keyword then (.ok stream.current, stream.advance)
  else (.error (stream.unexpected (.keyword keyword)), stream)

/-- Steps past the current token, which has to be a name, and gives the name with its span. -/
def acceptIdentifier (stream : TokenStream) :
    Except ParseError (String × Span) × TokenStream :=
  match stream.kind with
  | .identifier name => (.ok (name, stream.current.span), stream.advance)
  | _ => (.error (stream.unexpected .identifier), stream)

/-- Refuses the current token if it is a keyword out of `keywords`. -/
def refuseKeywords (keywords : List Keyword) (stream : TokenStream) : Except ParseError Unit :=
  match stream.kind with
  | .keyword k =>
    if keywords.contains k then .error (.unsupported (.keyword k) stream.current.span) else .ok ()
  | _ => .ok ()

/-! ## Balanced groups -/

/-- A pair of token kinds that enclose a group. -/
structure Brackets where
  /-- The kind that opens a group. -/
  opening : TokenKind
  /-- The kind that closes a group. -/
  closing : TokenKind

/-- The parentheses. -/
def Brackets.parentheses : Brackets :=
  ⟨.symbol .leftParen, .symbol .rightParen⟩

/-- The words around a conditional expression. -/
def Brackets.conditional : Brackets :=
  ⟨.keyword .CASE, .keyword .END⟩

/-- What is expected where a group is not closed. -/
def Brackets.missing (brackets : Brackets) : Expectation :=
  match brackets.closing with
  | .keyword k => .keyword k
  | kind => .kind kind

/-- The nesting depth after a token of kind `kind`. -/
def Brackets.depthAfter (brackets : Brackets) (depth : Nat) (kind : TokenKind) : Nat :=
  if kind == brackets.opening then depth + 1
  else if kind == brackets.closing then depth - 1
  else depth

/-- Splits a list of tokens after the first one that brings the nesting depth to zero; `none` if
the list ends or cannot be read before that. -/
def splitGroup? (brackets : Brackets) : Nat → List Token → Option (List Token × List Token)
  | _, [] => none
  | depth, token :: tokens =>
    if token.kind.isBroken then none
    else
      let depth := brackets.depthAfter depth token.kind
      if depth == 0 then some ([token], tokens)
      else (splitGroup? brackets depth tokens).map fun (group, rest) => (token :: group, rest)

/-- The number of placeholders in a list of tokens. -/
def placeholders (tokens : List Token) : Nat :=
  tokens.countP (·.kind == .symbol .question)

/-- Steps past the group at the current token and gives the number of placeholders in it. A group
without its end leaves the stream where the reading stops. -/
def skipGroup (brackets : Brackets) (stream : TokenStream) :
    Except ParseError Nat × TokenStream :=
  match splitGroup? brackets 0 stream.ahead with
  | some (group, _) => (.ok (placeholders group), stream.advanceBy group.length)
  | none =>
    let stopped := stream.advanceBy (stream.ahead.takeWhile (!·.kind.isBroken)).length
    (.error (stopped.unexpected brackets.missing), stopped)

/-- Steps past a parenthesised group and gives the number of placeholders in it; does nothing if
the current token opens none. -/
def skipParentheses (stream : TokenStream) : Except ParseError Nat × TokenStream :=
  if stream.check (.symbol .leftParen) then stream.skipGroup .parentheses else (.ok 0, stream)

end TokenStream

end SqlRouting
