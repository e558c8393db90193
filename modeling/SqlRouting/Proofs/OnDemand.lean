import SqlRouting.Proofs.Move
import SqlRouting.Proofs.Position

/-!
# Reading tokens on demand

The tokens of a text need not be read at once. A cursor keeps the characters that are left and reads one
token from their front. A reader keeps the current token, the one before it, and a cursor behind it: it
moves by reading one more token, and looks ahead with a copy of its cursor, which leaves its own where it
is.

A reader asks for tokens in loops that end by themselves: each token takes characters from the text, and
at the end of the input no loop goes on.

## Main definitions

* `SqlRouting.Lexer.Cursor` — a place in a text from which tokens are read.
* `SqlRouting.Lexer.Cursor.next` — the next token and the place behind it.
* `SqlRouting.TokenReader` — the current token, with a cursor behind it.
* `SqlRouting.TokenReader.unread` — a bound for the tokens a reader can still pass.

## Main results

* `SqlRouting.Lexer.Cursor.next_eq` — a cursor reads the tokens of its text one after the other.
* `SqlRouting.TokenReader.unread_advance_lt` — a reader makes progress up to the end of the input.
-/

set_option autoImplicit false

namespace SqlRouting

/-! ## Cursors -/

namespace Lexer

open Text

/-- A place in a text from which its tokens are read one at a time. -/
structure Cursor where
  /-- The text. -/
  source : String
  /-- The characters that are left. -/
  left : List Char
deriving DecidableEq, Repr

namespace Cursor

/-- The place in front of a text. -/
def ofText (text : String) : Cursor :=
  ⟨text, text.toList⟩

/-- The next token, and the place behind it. Behind the last token it is the end of the input, any number
of times. -/
def next (cursor : Cursor) : Token × Cursor :=
  let total := byteLength cursor.source.toList
  match skipTrivia cursor.left with
  | [] => (⟨.endOfInput, ⟨total, total⟩⟩, ⟨cursor.source, []⟩)
  | c :: rest =>
    let read := scan c rest
    (⟨read.1, ⟨total - byteLength (c :: rest), total - byteLength read.2⟩⟩, ⟨cursor.source, read.2⟩)

/-- The token after the next `n` ones. -/
def nth : Nat → Cursor → Token
  | 0, cursor => cursor.next.1
  | n + 1, cursor => nth n cursor.next.2

/-- The tokens that can be read from a place. -/
def tokens (cursor : Cursor) : List Token :=
  tokensFrom (byteLength cursor.source.toList) cursor.left

/-- Reading a token does not change the text. -/
lemma source_next (cursor : Cursor) : cursor.next.2.source = cursor.source := by
  unfold next
  split <;> rfl

/-- A cursor reads the first of its tokens, and has the others left. -/
lemma next_eq (cursor : Cursor) :
    cursor.next.1 = cursor.tokens.headD (ending cursor.source) ∧
      cursor.next.2.tokens = cursor.tokens.tail := by
  unfold next tokens
  cases skipped : skipTrivia cursor.left with
  | nil =>
    have nothing : skipTrivia [] = [] := by rw [skipTrivia]
    rw [tokensFrom_of_nil skipped]
    exact ⟨rfl, tokensFrom_of_nil nothing⟩
  | cons c rest =>
    rw [tokensFrom_of_cons skipped]
    exact ⟨rfl, rfl⟩

/-- Looking ahead finds the tokens that are left, and the end of the input behind them. -/
lemma nth_eq (n : Nat) (cursor : Cursor) :
    cursor.nth n = cursor.tokens[n]?.getD (ending cursor.source) := by
  induction n generalizing cursor with
  | zero => rw [nth, cursor.next_eq.1, List.headD_eq_head?_getD, List.head?_eq_getElem?]
  | succ n ih => rw [nth, ih, cursor.next_eq.2, source_next, List.getElem?_tail]

/-- Reading a token makes the text shorter, unless nothing is left to be read. -/
lemma next_shorter (cursor : Cursor) :
    (cursor.next.1.kind = .endOfInput ∧ cursor.next.2.left = []) ∨
      cursor.next.2.left.length < cursor.left.length := by
  have skip := length_skipTrivia_le cursor.left
  unfold next
  cases skipped : skipTrivia cursor.left with
  | nil => exact .inl ⟨rfl, rfl⟩
  | cons c rest =>
    have taken := length_scan_le c rest
    rw [skipped, List.length_cons] at skip
    refine .inr ?_
    dsimp only
    omega

end Cursor

end Lexer

/-! ## Readers -/

/-- The current token of a text, with the one before it and a cursor behind it. -/
structure TokenReader where
  /-- The place behind the current token. -/
  cursor : Lexer.Cursor
  /-- The current token. -/
  current : Token
  /-- The token read last. -/
  previous : Token
deriving DecidableEq, Repr

namespace TokenReader

/-- The reader at the first token of a text. -/
def ofText (text : String) : TokenReader :=
  let first := (Lexer.Cursor.ofText text).next
  ⟨first.2, first.1, ⟨.endOfInput, Span.origin⟩⟩

/-- The reader after the current token. -/
def advance (reader : TokenReader) : TokenReader :=
  let next := reader.cursor.next
  ⟨next.2, next.1, reader.current⟩

/-- No more than this many tokens are left, the current one among them. -/
def unread (reader : TokenReader) : Nat :=
  reader.cursor.left.length + if reader.current.kind = .endOfInput then 0 else 1

/-- Up to the end of the input, moving on leaves less to be read. -/
lemma unread_advance_lt {reader : TokenReader} (more : reader.current.kind ≠ .endOfInput) :
    reader.advance.unread < reader.unread := by
  rw [unread, unread, if_neg more, advance]
  dsimp only
  rcases reader.cursor.next_shorter with ⟨atEnd, nothing⟩ | shorter
  · rw [if_pos atEnd, nothing, List.length_nil]
    omega
  · split <;> omega

/-! ### Looking -/

/-- The kind of the `n`-th token after the current one, where the count starts at one. -/
def peekNth (reader : TokenReader) (n : Nat) : TokenKind :=
  (reader.cursor.nth (n - 1)).kind

/-- The kind of the token after the current one. -/
def peek (reader : TokenReader) : TokenKind :=
  reader.peekNth 1

/-- Whether the current token agrees with `kind` up to its payload. -/
def check (reader : TokenReader) (kind : TokenKind) : Bool :=
  reader.current.kind.sameClass kind

/-- Whether the current token is `keyword`. -/
def checkKeyword (reader : TokenReader) (keyword : Keyword) : Bool :=
  reader.current.kind == .keyword keyword

/-- Whether the current token is a keyword out of `keywords`. -/
def checkAnyKeyword (reader : TokenReader) (keywords : List Keyword) : Bool :=
  keywords.any (reader.checkKeyword ·)

/-- Whether the current token is a keyword out of some is told by its kind. -/
lemma checkAnyKeyword_eq (reader : TokenReader) (keywords : List Keyword) :
    reader.checkAnyKeyword keywords = reader.current.kind.isKeywordIn keywords := by
  rw [Bool.eq_iff_iff, checkAnyKeyword, List.any_eq_true]
  simp only [checkKeyword, beq_iff_eq]
  cases reader.current.kind <;> simp [TokenKind.isKeywordIn]

/-- The error of meeting the current token where `expected` is required. -/
def unexpected (reader : TokenReader) (expected : Expectation) : ParseError :=
  ParseError.ofToken expected reader.current.kind reader.current.span

/-- Refuses the current token if it is a keyword out of `keywords`. -/
def refuseKeywords (keywords : List Keyword) (reader : TokenReader) : Except ParseError Unit :=
  match reader.current.kind with
  | .keyword k =>
    if keywords.contains k then .error (.unsupported (.keyword k) reader.current.span) else .ok ()
  | _ => .ok ()

/-! ### Moving -/

/-- Steps past the current token if it agrees with `kind` up to its payload. -/
def skipIf (kind : TokenKind) (reader : TokenReader) : Bool × TokenReader :=
  if reader.check kind then (true, reader.advance) else (false, reader)

/-- Steps past the current token if it is a keyword out of `keywords`. -/
def skipIfKeyword (keywords : List Keyword) (reader : TokenReader) : Bool × TokenReader :=
  if reader.checkAnyKeyword keywords then (true, reader.advance) else (false, reader)

/-- A keyword is not the end of the input. -/
lemma not_end_of_checkAnyKeyword {reader : TokenReader} {keywords : List Keyword}
    (found : reader.checkAnyKeyword keywords = true) : reader.current.kind ≠ .endOfInput := by
  obtain ⟨keyword, -, same⟩ := List.any_eq_true.1 found
  rw [beq_iff_eq.1 same]
  exact TokenKind.noConfusion

/-- Steps past the current token as long as it is a keyword out of `keywords`. -/
def skipAllKeywords (keywords : List Keyword) (reader : TokenReader) : TokenReader :=
  if _ : reader.checkAnyKeyword keywords then skipAllKeywords keywords reader.advance else reader
termination_by reader.unread
decreasing_by exact unread_advance_lt (not_end_of_checkAnyKeyword (by assumption))

/-- Steps past the current token, which has to agree with `kind` up to its payload. -/
def accept (kind : TokenKind) (reader : TokenReader) : Except ParseError Token × TokenReader :=
  if reader.check kind then (.ok reader.current, reader.advance)
  else (.error (reader.unexpected (.kind kind)), reader)

/-- Steps past the current token, which has to be `keyword`. -/
def acceptKeyword (keyword : Keyword) (reader : TokenReader) :
    Except ParseError Token × TokenReader :=
  if reader.checkKeyword keyword then (.ok reader.current, reader.advance)
  else (.error (reader.unexpected (.keyword keyword)), reader)

/-- Steps past the current token, which has to be a name, and gives the name with its span. -/
def acceptIdentifier (reader : TokenReader) : Except ParseError (String × Span) × TokenReader :=
  match reader.current.kind with
  | .identifier name => (.ok (name, reader.current.span), reader.advance)
  | _ => (.error (reader.unexpected .identifier), reader)

/-! ### Groups -/

/-- The nesting depth and the number of placeholders after a token of kind `kind`. -/
def counted (kind : TokenKind) (depth found : Nat) : Nat × Nat :=
  match kind with
  | .symbol .leftParen => (depth + 1, found)
  | .symbol .rightParen => (depth - 1, found)
  | .symbol .question => (depth, found + 1)
  | _ => (depth, found)

/-- The nesting depth and the number of placeholders are counted token by token. -/
lemma counted_eq (token : Token) (depth found : Nat) : counted token.kind depth found =
    (TokenStream.Brackets.parentheses.depthAfter depth token.kind,
      found + TokenStream.placeholders [token]) := by
  unfold counted
  split
  all_goals simp_all [TokenStream.Brackets.depthAfter, TokenStream.Brackets.parentheses,
    TokenStream.placeholders]

/-- The end of the input cannot be passed. -/
lemma not_end_of_not_isBroken {kind : TokenKind} (whole : ¬ kind.isBroken = true) :
    kind ≠ .endOfInput := by
  rintro rfl
  exact whole rfl

/-- Steps past tokens until the nesting depth is zero, and gives the number of placeholders. -/
def skipGroup (depth found : Nat) (reader : TokenReader) : Except ParseError Nat × TokenReader :=
  if _ : reader.current.kind.isBroken then
    (.error (reader.unexpected (.kind (.symbol .rightParen))), reader)
  else
    let count := counted reader.current.kind depth found
    if count.1 == 0 then (.ok count.2, reader.advance) else skipGroup count.1 count.2 reader.advance
termination_by reader.unread
decreasing_by exact unread_advance_lt (not_end_of_not_isBroken (by assumption))

/-- Steps past a parenthesised group and gives the number of placeholders in it; does nothing if the
current token opens none. -/
def skipParentheses (reader : TokenReader) : Except ParseError Nat × TokenReader :=
  if reader.check (.symbol .leftParen) then reader.skipGroup 0 0 else (.ok 0, reader)

end TokenReader

end SqlRouting
