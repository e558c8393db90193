import SqlRouting.Grammar.Expression
import SqlRouting.Proofs.Move

/-!
# Tokens of expressions

What the tokens of an expression say about it, without a parser. A lone shape is written by a few
tokens and by nothing else, and any other tokens of an expression write a piece of source text. The
grammar of operands says which tokens an expression may have at all; with it a word between two
predicates is told from one inside a predicate.

## Main definitions

* `SqlRouting.Grammar.Lone` — the tokens that write a lone reference, literal or placeholder.
* `SqlRouting.Grammar.Written` — the tokens that write a shape of any kind.
* `SqlRouting.Grammar.Operand` — the tokens that an expression may have.
* `SqlRouting.Grammar.AliasTokens` — the tokens that write an alias.
* `SqlRouting.Grammar.Separated` — the tokens that write a list of items.

## Main results

* `SqlRouting.Grammar.Lone.unique` — tokens write at most one lone shape.
* `SqlRouting.Grammar.Written.eq_of_lone` — tokens of a lone shape write nothing else.
-/

set_option autoImplicit false

namespace SqlRouting

open TokenStream

/-- A group that is split off is balanced by itself. -/
lemma TokenStream.splitGroup_self {brackets : Brackets} {depth : Nat}
    {tokens group rest : List Token}
    (split : splitGroup? brackets depth tokens = some (group, rest)) :
    splitGroup? brackets depth group = some (group, []) := by
  induction tokens generalizing depth group with
  | nil => simp [splitGroup?] at split
  | cons token tokens ih =>
    simp only [splitGroup?] at split
    split at split
    · simp at split
    · rename_i whole
      split at split
      · rename_i closed
        simp only [Option.some.injEq, Prod.mk.injEq] at split
        obtain ⟨rfl, rfl⟩ := split
        simp only [splitGroup?]
        rw [if_neg whole, if_pos closed]
      · rename_i inside
        obtain ⟨⟨inner, _⟩, found, same⟩ := Option.map_eq_some_iff.1 split
        simp only [Prod.mk.injEq] at same
        obtain ⟨rfl, rfl⟩ := same
        simp only [splitGroup?]
        rw [if_neg whole, if_neg inside, ih found]
        rfl

namespace Grammar

/-! ## Lone shapes -/

/-- The name that a token writes after the owner of a column and a dot. -/
def columnName? (source : String) (token : Token) : Option String :=
  match token.kind with
  | .identifier name => some name
  | .keyword _ => some (token.span.text source)
  | _ => none

/-- The tokens write a lone reference, literal or placeholder, where `index` placeholders come
before them. A star is no name of a column, not even in quotes. -/
inductive Lone (source : String) (index : Nat) : List Token → ExpressionNode → Prop
  /-- A string. -/
  | text (value : String) (span : Span) : Lone source index [⟨.string value, span⟩] (.text value)
  /-- A number without a sign. -/
  | number (literal : String) (span : Span) :
      Lone source index [⟨.number literal, span⟩] (.number literal)
  /-- A number after a plus, which is dropped. -/
  | positive (literal : String) (sign span : Span) :
      Lone source index [⟨.symbol .plus, sign⟩, ⟨.number literal, span⟩] (.number literal)
  /-- A number after a minus. -/
  | negative (literal : String) (sign span : Span) :
      Lone source index [⟨.symbol .minus, sign⟩, ⟨.number literal, span⟩] (.number ("-" ++ literal))
  /-- A placeholder. -/
  | placeholder (span : Span) : Lone source index [⟨.symbol .question, span⟩] (.placeholder index)
  /-- A name alone. -/
  | bare (name : String) (span : Span) : Lone source index [⟨.identifier name, span⟩] (.bare name)
  /-- A name after an owner and a dot. -/
  | qualified (owner name : String) (span dot : Span) (token : Token)
      (named : columnName? source token = some name) (noStar : name ≠ "*") :
      Lone source index [⟨.identifier owner, span⟩, ⟨.symbol .dot, dot⟩, token]
        (.qualified owner name)

/-- The tokens write a shape: a lone one, or source text if they write no lone one. -/
def Written (source : String) (index : Nat) (tokens : List Token) (node : ExpressionNode) : Prop :=
  Lone source index tokens node ∨
    (∃ text, node = .other text) ∧ ∀ lone, ¬ Lone source index tokens lone

/-- Whether a lone shape may start with a token of a kind. -/
def startsLone : TokenKind → Bool
  | .string _ | .number _ | .identifier _ => true
  | .symbol symbol => symbol == .plus || symbol == .minus || symbol == .question
  | _ => false

variable {source : String} {index : Nat} {tokens more : List Token} {node node' : ExpressionNode}

namespace Lone

/-- Tokens write at most one lone shape. -/
lemma unique (h : Lone source index tokens node) (h' : Lone source index tokens node') :
    node = node' := by
  cases h <;> cases h' <;> simp_all

/-- What a lone shape starts with. -/
lemma starts {first : Token} {rest : List Token} (h : Lone source index (first :: rest) node) :
    startsLone first.kind = true := by
  cases h <;> rfl

/-- After the first token of a lone shape there is neither an operator nor a parenthesis. -/
lemma tail_plain {first token : Token} {rest : List Token}
    (h : Lone source index (first :: rest) node) (mem : token ∈ rest) :
    token.kind.isComposite = false ∧ token.kind ≠ .symbol .leftParen := by
  cases h with
  | positive literal sign span | negative literal sign span =>
    obtain rfl := List.mem_singleton.1 mem
    exact ⟨rfl, by simp⟩
  | qualified owner name span dot last named noStar =>
    rcases List.mem_cons.1 mem with rfl | mem
    · exact ⟨rfl, by simp⟩
    · obtain rfl := List.mem_singleton.1 mem
      revert named
      unfold columnName?
      cases token.kind <;> simp [TokenKind.isComposite]
  | _ => simp at mem

end Lone

namespace Written

/-- Tokens that write a lone shape are read as nothing else. -/
lemma eq_of_lone (h : Written source index tokens node) (lone : Lone source index tokens node') :
    node = node' := by
  rcases h with h | ⟨-, noLone⟩
  · exact h.unique lone
  · exact absurd lone (noLone node')

/-- A shape that is no source text is lone. -/
lemma lone (h : Written source index tokens node) (shaped : ∀ text, node ≠ .other text) :
    Lone source index tokens node := by
  rcases h with h | ⟨⟨text, rfl⟩, -⟩
  · exact h
  · exact absurd rfl (shaped text)

/-- Tokens that start like no lone shape write source text. -/
lemma of_starts {text : String} {first : Token} {rest : List Token}
    (starts : startsLone first.kind = false) :
    Written source index (first :: rest) (.other text) := by
  refine .inr ⟨⟨text, rfl⟩, fun lone h => ?_⟩
  rw [h.starts] at starts
  exact absurd starts (by simp)

/-- Tokens with an operator or a parenthesis after the first write source text. -/
lemma of_mem {text : String} {token : Token} (nonempty : tokens ≠ []) (mem : token ∈ more)
    (joins : token.kind.isComposite = true ∨ token.kind = .symbol .leftParen) :
    Written source index (tokens ++ more) (.other text) := by
  refine .inr ⟨⟨text, rfl⟩, fun lone h => ?_⟩
  obtain ⟨first, rest, rfl⟩ := List.exists_cons_of_ne_nil nonempty
  have plain := h.tail_plain (List.mem_append_right rest mem)
  rcases joins with isComposite | isParenthesis
  · simp [plain.1] at isComposite
  · exact plain.2 isParenthesis

end Written

/-! ## Operands -/

/-- Whether a token of this kind is an operand by itself. -/
def standsAlone : TokenKind → Bool
  | .string _ | .number _ | .identifier _ | .userVariable _ => true
  | .keyword keyword => isValueKeyword keyword
  | .symbol symbol => symbol == .question
  | _ => false

/-- Whether a token of this kind may stand before an operand. -/
def standsBefore : TokenKind → Bool
  | .keyword keyword => keyword == .NOT || keyword == .EXISTS
  | .symbol symbol => symbol == .minus || symbol == .plus || symbol == .tilde || symbol == .bang
  | _ => false

/-- Whether a token of this kind may name a column after its owner and a dot. -/
def namesColumn : TokenKind → Bool
  | .identifier _ | .keyword _ => true
  | .symbol symbol => symbol == .star
  | _ => false

/-- The tokens are one balanced group, in parentheses or between the words of a conditional. -/
def Group (tokens : List Token) : Prop :=
  splitGroup? .parentheses 0 tokens = some (tokens, []) ∨
    splitGroup? .conditional 0 tokens = some (tokens, [])

/-- The tokens that an expression may have. Words like those between predicates are among them only
inside a group, or in front of one. -/
inductive Operand : List Token → Prop
  /-- A literal, a name, a variable, a value or a placeholder. -/
  | alone {token : Token} (stands : standsAlone token.kind = true) : Operand [token]
  /-- A reference through an owner. -/
  | reference {owner name : Token} {first : String} {dot : Span}
      (isOwner : owner.kind = .identifier first) (isName : namesColumn name.kind = true) :
      Operand [owner, ⟨.symbol .dot, dot⟩, name]
  /-- A group. -/
  | group {tokens : List Token} (balanced : Group tokens) : Operand tokens
  /-- A word with arguments. -/
  | word {token : Token} {keyword : Keyword} {arguments : List Token}
      (isWord : token.kind = .keyword keyword) (balanced : Group arguments) :
      Operand (token :: arguments)
  /-- Any operand with arguments. -/
  | called {tokens arguments : List Token} (operand : Operand tokens) (balanced : Group arguments) :
      Operand (tokens ++ arguments)
  /-- An operator of one operand. -/
  | prefixed {token : Token} {tokens : List Token} (stands : standsBefore token.kind = true)
      (operand : Operand tokens) : Operand (token :: tokens)
  /-- An operator between two operands. -/
  | joined {left right : List Token} {token : Token} (first : Operand left)
      (isComposite : token.kind.isComposite = true) (second : Operand right) :
      Operand (left ++ token :: right)

/-! ## Aliases -/

/-- The tokens write an alias, or none if there are no tokens. -/
inductive AliasTokens (source : String) : List Token → Option String → Prop
  /-- No alias. -/
  | nil : AliasTokens source [] none
  /-- A name alone. -/
  | bare (name : String) (span : Span) : AliasTokens source [⟨.identifier name, span⟩] (some name)
  /-- A name after a word of its own. -/
  | name (name : String) (word span : Span) :
      AliasTokens source [⟨.keyword .AS, word⟩, ⟨.identifier name, span⟩] (some name)
  /-- A string after the word. -/
  | text (value : String) (word span : Span) :
      AliasTokens source [⟨.keyword .AS, word⟩, ⟨.string value, span⟩] (some value)
  /-- A keyword after the word, by its spelling. -/
  | keyword (keyword : Keyword) (word span : Span) :
      AliasTokens source [⟨.keyword .AS, word⟩, ⟨.keyword keyword, span⟩] (some (span.text source))

/-! ## Lists -/

/-- The tokens write items with commas between, where `index` placeholders come before them and
`item` says which tokens write an item after how many placeholders. -/
inductive Separated {α : Type} (item : Nat → List Token → α → Prop) : Nat → List Token → List α → Prop
  /-- An item alone. -/
  | one {index : Nat} {tokens : List Token} {a : α} (first : item index tokens a) :
      Separated item index tokens [a]
  /-- An item in front of others. -/
  | cons {index : Nat} {tokens rest : List Token} {comma : Token} {a : α} {others : List α}
      (first : item index tokens a) (isComma : comma.kind = .symbol .comma)
      (more : Separated item (index + placeholders tokens) rest others) :
      Separated item index (tokens ++ comma :: rest) (a :: others)

/-- Each item of a list is written by some of the tokens. -/
lemma Separated.located {α : Type} {item : Nat → List Token → α → Prop} {items : List α}
    (h : Separated item index tokens items) : ∀ a ∈ items, ∃ before part after,
      tokens = before ++ part ++ after ∧ item (index + placeholders before) part a := by
  induction h with
  | one first =>
    intro a mem
    obtain rfl := List.mem_singleton.1 mem
    exact ⟨[], _, [], by simp, first⟩
  | @cons index tokens rest comma a others first isComma more ih =>
    intro b mem
    rcases List.mem_cons.1 mem with rfl | mem
    · exact ⟨[], tokens, comma :: rest, rfl, first⟩
    · obtain ⟨before, part, after, rfl, written⟩ := ih b mem
      refine ⟨tokens ++ comma :: before, part, after, by simp, ?_⟩
      have plain : comma.kind ≠ .symbol .question := by simp [isComma]
      rwa [placeholders_append, placeholders_cons_of_ne plain, ← Nat.add_assoc]

/-- The tokens of a list end with those of an item. -/
lemma Separated.exists_last {α : Type} {item : Nat → List Token → α → Prop} {items : List α}
    (h : Separated item index tokens items) : ∃ before part index a,
      tokens = before ++ part ∧ item index part a := by
  induction h with
  | one first => exact ⟨[], _, _, _, rfl, first⟩
  | @cons index tokens rest comma a others first isComma more ih =>
    obtain ⟨before, part, index, b, rfl, last⟩ := ih
    exact ⟨tokens ++ comma :: before, part, index, b, by simp, last⟩

/-! ## Tokens are there -/

/-- A group has tokens. -/
lemma Group.ne_nil (h : Group tokens) : tokens ≠ [] := by
  rcases h with split | split
  · exact (eq_append_of_splitGroup split).2
  · exact (eq_append_of_splitGroup split).2

/-- An operand has tokens. -/
lemma Operand.ne_nil (h : Operand tokens) : tokens ≠ [] := by
  cases h with
  | group balanced => exact balanced.ne_nil
  | called operand balanced => simp [balanced.ne_nil]
  | _ => simp

end Grammar

end SqlRouting
