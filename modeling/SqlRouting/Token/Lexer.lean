import SqlRouting.Text.Quoted
import SqlRouting.Token.Basic

/-!
# Reading tokens

A statement is cut into tokens from left to right. Blank characters and comments separate tokens
and belong to none; every other character belongs to exactly one token, if need be to one that
says why the input cannot be read. The offset of a token is found from the characters that are
left when it starts: a rest of the text starts as many bytes before the end as it is long.

## Main definitions

* `SqlRouting.Lexer.skipTrivia` — the rest of a text after blanks and comments.
* `SqlRouting.Lexer.scan` — one token and the rest of the text.
* `SqlRouting.Lexer.tokens` — the tokens of a text, without the end of the input.
* `SqlRouting.Lexer.tokenize` — the tokens of a text, followed by the end of the input.

## Main results

* `SqlRouting.Lexer.length_skipTrivia_le` — skipping never lengthens the text.
* `SqlRouting.Lexer.length_scan_le` — a token takes its first character and no more than the rest.
-/

set_option autoImplicit false

namespace SqlRouting.Lexer

open Text

/-! ## Blanks and comments -/

mutual

/-- The rest of the text after blanks and comments. A comment runs from two hyphens or a number
sign to the end of the line, or is enclosed between a slash with a star and a star with a
slash. -/
def skipTrivia : List Char → List Char
  | [] => []
  | c :: cs =>
    if isBlank c then skipTrivia cs
    else if c == '#' then skipLine cs
    else
      match c, cs with
      | '-', '-' :: rest => skipLine rest
      | '/', '*' :: rest => skipBlock rest
      | _, _ => c :: cs

/-- The rest of the text after the end of a comment that closes with its line. -/
def skipLine : List Char → List Char
  | [] => []
  | c :: cs => if c == '\n' then skipTrivia cs else skipLine cs

/-- The rest of the text after the end of an enclosed comment. An unclosed one takes it all. -/
def skipBlock : List Char → List Char
  | [] => []
  | '*' :: '/' :: rest => skipTrivia rest
  | _ :: rest => skipBlock rest

end

/-! ## Enclosed text -/

/-- Why the input at some place is no token. -/
inductive Fault
  | unterminatedString
  | unterminatedQuotedName
  | unterminatedBracketedName
  | emptyVariableName
  | unexpectedCharacter (c : Char)
deriving DecidableEq, Repr

namespace Fault

/-- A fault in words. -/
def message : Fault → String
  | .unterminatedString => "unterminated string literal"
  | .unterminatedQuotedName => "unterminated quoted identifier"
  | .unterminatedBracketedName => "unterminated bracketed identifier"
  | .emptyVariableName => "empty variable name"
  | .unexpectedCharacter c => "unexpected character " ++ quotedCharacter c

/-- The token kind that reports a fault. -/
def kind (fault : Fault) : TokenKind :=
  .invalid fault.message

end Fault

/-- Reads enclosed text up to its closing character, which stands for itself when doubled; where
`escapes` holds, a backslash makes the next character stand for itself. Gives the value and the
rest of the text, or `none` if the closing character is missing. -/
def enclosed? (closing : Char) (escapes : Bool) : List Char → Option (List Char × List Char)
  | [] => none
  | [c] => if c == closing then some ([], []) else none
  | c :: d :: rest =>
    if c == closing then
      if d == closing then (enclosed? closing escapes rest).map fun (v, r) => (closing :: v, r)
      else some ([], d :: rest)
    else if c == '\\' && escapes then
      (enclosed? closing escapes rest).map fun (v, r) => (d :: v, r)
    else (enclosed? closing escapes (d :: rest)).map fun (v, r) => (c :: v, r)

/-- The token of enclosed text: its kind is made from the value, or is `fault` if the text is not
closed, and then it takes the whole rest of the input. -/
def scanEnclosed (closing : Char) (escapes : Bool) (make : String → TokenKind) (fault : Fault)
    (cs : List Char) : TokenKind × List Char :=
  match enclosed? closing escapes cs with
  | some (value, rest) => (make (String.ofList value), rest)
  | none => (fault.kind, [])

/-! ## Numbers, variables and words -/

/-- Splits off the longest run of decimal digits. -/
def spanDigits (cs : List Char) : List Char × List Char :=
  (cs.takeWhile isDecimalDigit, cs.dropWhile isDecimalDigit)

/-- Splits off a fraction: a point with at least one digit after it. -/
def spanFraction : List Char → List Char × List Char
  | '.' :: d :: rest =>
    if isDecimalDigit d then ('.' :: (spanDigits (d :: rest)).1, (spanDigits (d :: rest)).2)
    else ([], '.' :: d :: rest)
  | cs => ([], cs)

/-- Splits off the sign of an exponent. -/
def spanSign : List Char → List Char × List Char
  | [] => ([], [])
  | s :: rest => if s == '+' || s == '-' then ([s], rest) else ([], s :: rest)

/-- Splits off an exponent: its letter, an optional sign and any number of digits. -/
def spanExponent : List Char → List Char × List Char
  | [] => ([], [])
  | e :: cs =>
    if e == 'e' || e == 'E' then
      let sign := spanSign cs
      (e :: (sign.1 ++ (spanDigits sign.2).1), (spanDigits sign.2).2)
    else ([], e :: cs)

/-- The decimal number that starts with the digit `first`, with an optional fraction and
exponent. -/
def scanDecimal (first : Char) (cs : List Char) : TokenKind × List Char :=
  let whole := spanDigits cs
  let fraction := spanFraction whole.2
  let exponent := spanExponent fraction.2
  (.number (String.ofList (first :: (whole.1 ++ fraction.1 ++ exponent.1))), exponent.2)

/-- The number that starts with the digit `first`: hexadecimal after `0x`, else decimal. -/
def scanNumber (first : Char) : List Char → TokenKind × List Char
  | [] => scanDecimal first []
  | x :: rest =>
    if first == '0' && (x == 'x' || x == 'X') then
      (.number (String.ofList (first :: x :: rest.takeWhile isHexDigit)),
        rest.dropWhile isHexDigit)
    else scanDecimal first (x :: rest)

/-- Whether `c` continues the name of a variable. -/
def isVariableCharacter (c : Char) : Bool :=
  isLetterOrNumeral c || c == '_' || c == '.'

/-- The variable after its first mark; a second mark may follow the first. -/
def scanVariable (cs : List Char) : TokenKind × List Char :=
  let named := match cs with
    | '@' :: rest => rest
    | _ => cs
  let name := named.takeWhile isVariableCharacter
  let kind := if name.isEmpty then Fault.emptyVariableName.kind
    else .userVariable (String.ofList name)
  (kind, named.dropWhile isVariableCharacter)

/-- Whether `c` starts a word. -/
def isWordStart (c : Char) : Bool :=
  isLetter c || c == '_'

/-- Whether `c` continues a word. -/
def isWordCharacter (c : Char) : Bool :=
  isLetterOrNumeral c || c == '_' || c == '$'

/-- What a word is: a keyword if it spells one, else a name. -/
def wordKind (text : String) : TokenKind :=
  match Keyword.ofWord? text with
  | some keyword => .keyword keyword
  | none => .identifier text

/-- The word that starts with `first`. -/
def scanWord (first : Char) (cs : List Char) : TokenKind × List Char :=
  (wordKind (String.ofList (first :: cs.takeWhile isWordCharacter)),
    cs.dropWhile isWordCharacter)

/-! ## One token -/

/-- The longest symbol that starts with `c` and goes on in `cs`, with the rest of the text. -/
def scanSymbol? (c : Char) (cs : List Char) : Option (Symbol × List Char) :=
  match c, cs with
  | '(', _ => some (.leftParen, cs)
  | ')', _ => some (.rightParen, cs)
  | ',', _ => some (.comma, cs)
  | ';', _ => some (.semicolon, cs)
  | '.', _ => some (.dot, cs)
  | '?', _ => some (.question, cs)
  | '+', _ => some (.plus, cs)
  | '-', _ => some (.minus, cs)
  | '*', _ => some (.star, cs)
  | '/', _ => some (.slash, cs)
  | '%', _ => some (.percent, cs)
  | '^', _ => some (.caret, cs)
  | '~', _ => some (.tilde, cs)
  | '=', _ => some (.eq, cs)
  | '<', '=' :: '>' :: rest => some (.nullSafeEq, rest)
  | '<', '=' :: rest => some (.ltEq, rest)
  | '<', '>' :: rest => some (.notEq, rest)
  | '<', _ => some (.lt, cs)
  | '>', '=' :: rest => some (.gtEq, rest)
  | '>', _ => some (.gt, cs)
  | '!', '=' :: rest => some (.notEq, rest)
  | '!', _ => some (.bang, cs)
  | '|', '|' :: rest => some (.doubleBar, rest)
  | '|', _ => some (.bar, cs)
  | '&', '&' :: rest => some (.doubleAmp, rest)
  | '&', _ => some (.amp, cs)
  | _, _ => none

/-- The token that starts with the character `c` and goes on in `cs`, with the rest of the
text. -/
def scan (c : Char) (cs : List Char) : TokenKind × List Char :=
  match scanSymbol? c cs with
  | some (symbol, rest) => (.symbol symbol, rest)
  | none =>
    if c == '\'' then scanEnclosed '\'' true .string .unterminatedString cs
    else if c == '"' || c == '\u0060' then
      scanEnclosed c false .identifier .unterminatedQuotedName cs
    else if c == '[' then scanEnclosed ']' false .identifier .unterminatedBracketedName cs
    else if c == '@' then scanVariable cs
    else if isDecimalDigit c then scanNumber c cs
    else if isWordStart c then scanWord c cs
    else ((Fault.unexpectedCharacter c).kind, cs)

/-! ## Progress -/

/-- Skipping blanks and comments, also from within a comment, never lengthens the text. -/
theorem length_skip_le : (cs : List Char) → (skipTrivia cs).length ≤ cs.length ∧
    (skipLine cs).length ≤ cs.length ∧ (skipBlock cs).length ≤ cs.length
  | [] => by simp [skipTrivia, skipLine, skipBlock]
  | [c] => by
    refine ⟨?_, ?_, by simp [skipBlock]⟩
    · unfold skipTrivia
      repeat' split
      all_goals simp_all [skipTrivia, skipLine]
    · unfold skipLine
      split <;> simp [skipTrivia, skipLine]
  | c :: d :: rest => by
    have one := length_skip_le (d :: rest)
    have two := length_skip_le rest
    simp only [List.length_cons] at one two
    refine ⟨?_, ?_, ?_⟩
    · unfold skipTrivia
      repeat' split
      all_goals simp_all only [List.cons.injEq, List.length_cons]
      all_goals omega
    · unfold skipLine
      split <;> simp only [List.length_cons] <;> omega
    · unfold skipBlock
      split <;> rename_i same
      · cases same
      · cases same
        simp only [List.length_cons]; omega
      · cases same
        simp only [List.length_cons]; omega

/-- Skipping blanks and comments never lengthens the text. -/
theorem length_skipTrivia_le (cs : List Char) : (skipTrivia cs).length ≤ cs.length :=
  (length_skip_le cs).1

/-- The rest after dropping a run of characters is no longer than the text. -/
theorem length_dropWhile_le (p : Char → Bool) (cs : List Char) :
    (cs.dropWhile p).length ≤ cs.length :=
  (List.dropWhile_suffix p).length_le

/-- The rest after enclosed text is no longer than the text. -/
theorem length_enclosed_le {closing : Char} {escapes : Bool} {cs value rest : List Char}
    (h : enclosed? closing escapes cs = some (value, rest)) : rest.length ≤ cs.length := by
  fun_induction enclosed? closing escapes cs generalizing value rest with
  | case1 => simp at h
  | case2 => simp_all
  | case3 => simp at h
  | case4 _ _ _ _ _ ih | case6 _ _ _ _ _ ih =>
    obtain ⟨⟨_, _⟩, read, same⟩ := Option.map_eq_some_iff.1 h
    have := ih read
    simp_all only [Prod.mk.injEq, List.length_cons]
    omega
  | case5 => simp_all
  | case7 _ _ _ _ _ ih =>
    obtain ⟨⟨_, _⟩, read, same⟩ := Option.map_eq_some_iff.1 h
    have := ih read
    simp_all only [Prod.mk.injEq, List.length_cons]
    omega

/-- The rest after a token of enclosed text is no longer than the text. -/
theorem length_scanEnclosed_le (closing : Char) (escapes : Bool) (make : String → TokenKind)
    (fault : Fault) (cs : List Char) :
    (scanEnclosed closing escapes make fault cs).2.length ≤ cs.length := by
  unfold scanEnclosed
  split
  · rename_i read
    exact length_enclosed_le read
  · simp

/-- The rest after a fraction is no longer than the text. -/
theorem length_spanFraction_le (cs : List Char) : (spanFraction cs).2.length ≤ cs.length := by
  unfold spanFraction
  split
  · split
    · exact Nat.le_succ_of_le (length_dropWhile_le _ _)
    · exact Nat.le_refl _
  · exact Nat.le_refl _

/-- The rest after a sign is no longer than the text. -/
theorem length_spanSign_le (cs : List Char) : (spanSign cs).2.length ≤ cs.length := by
  unfold spanSign
  repeat' split
  all_goals simp

/-- The rest after an exponent is no longer than the text. -/
theorem length_spanExponent_le (cs : List Char) : (spanExponent cs).2.length ≤ cs.length := by
  unfold spanExponent
  split
  · exact Nat.le_refl _
  · split
    · exact Nat.le_succ_of_le (Nat.le_trans (length_dropWhile_le _ _) (length_spanSign_le _))
    · exact Nat.le_refl _

/-- The rest after a decimal number is no longer than the text. -/
theorem length_scanDecimal_le (first : Char) (cs : List Char) :
    (scanDecimal first cs).2.length ≤ cs.length :=
  Nat.le_trans (length_spanExponent_le _)
    (Nat.le_trans (length_spanFraction_le _) (length_dropWhile_le _ _))

/-- The rest after a number is no longer than the text. -/
theorem length_scanNumber_le (first : Char) (cs : List Char) :
    (scanNumber first cs).2.length ≤ cs.length := by
  unfold scanNumber
  split
  · exact length_scanDecimal_le _ _
  · split
    · exact Nat.le_succ_of_le (length_dropWhile_le _ _)
    · exact length_scanDecimal_le _ _

/-- The rest after a variable is no longer than the text. -/
theorem length_scanVariable_le (cs : List Char) : (scanVariable cs).2.length ≤ cs.length := by
  unfold scanVariable
  split
  · exact Nat.le_succ_of_le (length_dropWhile_le _ _)
  · exact length_dropWhile_le _ _

/-- The rest after a symbol is no longer than the text. -/
theorem length_scanSymbol_le {c : Char} {cs rest : List Char} {symbol : Symbol}
    (h : scanSymbol? c cs = some (symbol, rest)) : rest.length ≤ cs.length := by
  unfold scanSymbol? at h
  split at h <;> cases h <;> simp only [List.length_cons, Nat.le_refl] <;> omega

/-- The rest after a token, of which the first character is already taken, is no longer than the
text. -/
theorem length_scan_le (c : Char) (cs : List Char) : (scan c cs).2.length ≤ cs.length := by
  unfold scan
  split
  · rename_i read
    exact length_scanSymbol_le read
  · repeat' split
    · exact length_scanEnclosed_le _ _ _ _ _
    · exact length_scanEnclosed_le _ _ _ _ _
    · exact length_scanEnclosed_le _ _ _ _ _
    · exact length_scanVariable_le _
    · exact length_scanNumber_le _ _
    · exact length_dropWhile_le _ _
    · exact Nat.le_refl _

/-! ## All tokens -/

/-- The tokens of `cs`, which is the last part of a text of `total` bytes. -/
def tokensFrom (total : Nat) (cs : List Char) : List Token :=
  match _ : skipTrivia cs with
  | [] => []
  | c :: rest =>
    let read := scan c rest
    ⟨read.1, ⟨total - byteLength (c :: rest), total - byteLength read.2⟩⟩ ::
      tokensFrom total read.2
termination_by cs.length
decreasing_by
  have skipped := length_skipTrivia_le cs
  have read := length_scan_le c rest
  rename_i left _
  rw [left] at skipped
  simp only [List.length_cons] at skipped
  omega

/-- The tokens of a text, without the end of the input. -/
def tokens (text : String) : List Token :=
  tokensFrom (byteLength text.toList) text.toList

/-- The token that stands for the end of a text. -/
def ending (text : String) : Token :=
  let length := byteLength text.toList
  ⟨.endOfInput, ⟨length, length⟩⟩

/-- The tokens of a text, followed by the end of the input. -/
def tokenize (text : String) : List Token :=
  tokens text ++ [ending text]

end SqlRouting.Lexer
