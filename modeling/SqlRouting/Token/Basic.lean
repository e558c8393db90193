import SqlRouting.Keyword
import SqlRouting.Span

/-!
# Tokens

A statement is read as a sequence of tokens: literals, names, keywords and symbols, each with the
span it was read from. Where the input cannot be read, a token says why.

## Main definitions

* `SqlRouting.Symbol` — the operators and delimiters.
* `SqlRouting.TokenKind` — what a token is, with its payload.
* `SqlRouting.TokenKind.sameClass` — agreement of kinds up to the payload.
* `SqlRouting.Token` — a kind with its span.
-/

set_option autoImplicit false

namespace SqlRouting

/-! ## Symbols -/

/-- An operator or a delimiter. -/
inductive Symbol
  | plus | minus | star | slash | percent
  | eq | notEq | lt | ltEq | gt | gtEq | nullSafeEq
  | doubleBar | doubleAmp | amp | bar | caret | tilde | bang
  | leftParen | rightParen | comma | semicolon | dot | question
deriving DecidableEq, Repr

namespace Symbol

/-- The spelling of a symbol; of the two spellings of "not equal", the standard one. -/
def text : Symbol → String
  | .plus => "+"
  | .minus => "-"
  | .star => "*"
  | .slash => "/"
  | .percent => "%"
  | .eq => "="
  | .notEq => "<>"
  | .lt => "<"
  | .ltEq => "<="
  | .gt => ">"
  | .gtEq => ">="
  | .nullSafeEq => "<=>"
  | .doubleBar => "||"
  | .doubleAmp => "&&"
  | .amp => "&"
  | .bar => "|"
  | .caret => "^"
  | .tilde => "~"
  | .bang => "!"
  | .leftParen => "("
  | .rightParen => ")"
  | .comma => ","
  | .semicolon => ";"
  | .dot => "."
  | .question => "?"

/-- Whether a symbol joins two operands into one expression. -/
def isComposite : Symbol → Bool
  | .plus | .minus | .star | .slash | .percent => true
  | .amp | .bar | .doubleAmp | .doubleBar | .caret => true
  | _ => false

/-- Whether a symbol compares two operands. -/
def isComparison : Symbol → Bool
  | .eq | .notEq | .lt | .ltEq | .gt | .gtEq | .nullSafeEq => true
  | _ => false

end Symbol

/-! ## Kinds of tokens -/

/-- What a token is. -/
inductive TokenKind
  /-- A number, as written. -/
  | number (literal : String)
  /-- A string literal, by its value. -/
  | string (value : String)
  /-- A name, without its quotes. -/
  | identifier (name : String)
  /-- A session or user variable, without its leading marks. -/
  | userVariable (name : String)
  /-- A reserved word. -/
  | keyword (word : Keyword)
  /-- An operator or a delimiter. -/
  | symbol (symbol : Symbol)
  /-- The end of the statement. -/
  | endOfInput
  /-- Input that is no token, with the reason. -/
  | invalid (reason : String)
deriving DecidableEq, Repr

namespace TokenKind

/-- Whether two kinds agree up to their payloads. All keywords agree, and a symbol agrees with
itself. -/
def sameClass : TokenKind → TokenKind → Bool
  | .number _, .number _ => true
  | .string _, .string _ => true
  | .identifier _, .identifier _ => true
  | .userVariable _, .userVariable _ => true
  | .keyword _, .keyword _ => true
  | .symbol a, .symbol b => a == b
  | .endOfInput, .endOfInput => true
  | .invalid _, .invalid _ => true
  | _, _ => false

/-- Whether a kind is an operator that joins two operands into one expression. -/
def isComposite : TokenKind → Bool
  | .symbol s => s.isComposite
  | _ => false

/-- Whether a kind is an operator that compares two operands. -/
def isComparison : TokenKind → Bool
  | .symbol s => s.isComparison
  | _ => false

/-- Whether a kind is a keyword out of `keywords`. -/
def isKeywordIn (keywords : List Keyword) : TokenKind → Bool
  | .keyword k => keywords.contains k
  | _ => false

/-- Whether nothing can be read at a token of this kind or past it. -/
def isBroken : TokenKind → Bool
  | .endOfInput => true
  | .invalid _ => true
  | _ => false

/-- A kind as messages write it. -/
def render : TokenKind → String
  | .number literal => "number " ++ literal
  | .string value => "string '" ++ value ++ "'"
  | .identifier name => "identifier " ++ name
  | .userVariable name => "variable @" ++ name
  | .keyword k => "keyword " ++ k.word
  | .symbol s => "'" ++ s.text ++ "'"
  | .endOfInput => "end of input"
  | .invalid reason => "invalid input (" ++ reason ++ ")"

end TokenKind

/-! ## Tokens -/

/-- A token of a statement. -/
structure Token where
  /-- What the token is. -/
  kind : TokenKind
  /-- Where it was read. -/
  span : Span
deriving DecidableEq, Repr

end SqlRouting
