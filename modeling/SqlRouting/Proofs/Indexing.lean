import Mathlib.Data.List.Infix
import SqlRouting.Proofs.Walks

/-!
# Tokens by their indices

An index into the list of all tokens of a text walks along them: behind the last one it finds the end of
the input, any number of times. A group of parentheses is the shortest run of tokens that closes all it
opens, if it comes before anything that cannot be read; counting the nesting depth finds it.

## Main definitions

* `SqlRouting.Indexed.tokenAt` — the token with an index.
* `SqlRouting.Indexed.shortestGroup?` — the group of parentheses that some tokens start with.
* `SqlRouting.Indexed.walk` — an index that walks along the tokens of a text.

## Main results

* `SqlRouting.Indexed.splitGroup_eq` — counting the nesting depth finds the shortest group.
* `SqlRouting.Indexed.group_eq` — a group is found by counting, from an index on.
-/

set_option autoImplicit false

namespace SqlRouting

open Lexer

namespace Indexed

/-- The token with an index among those of a text, which the end of the input follows any number of
times. -/
def tokenAt (text : String) (i : Nat) : Token :=
  (tokenize text)[i]?.getD (ending text)

/-- The token in front of an index. In front of the first one there is an end of nothing. -/
def tokenBefore (text : String) : Nat → Token
  | 0 => ⟨.endOfInput, Span.origin⟩
  | i + 1 => tokenAt text i

/-- Whether some tokens close as many parentheses as they open, together with the `depth` ones that are
open in front of them. -/
def closesAll (depth : Nat) (tokens : List Token) : Bool :=
  depth + tokens.countP (·.kind == .symbol .leftParen) == tokens.countP (·.kind == .symbol .rightParen)

/-- The shortest group that some tokens start with: of the tokens in front of what cannot be read, the
first ones that close all parentheses they open. -/
def shortestGroup? (tokens : List Token) : Option (List Token) :=
  (tokens.takeWhile (!·.kind.isBroken)).inits.tail.find? (closesAll 0)

/-- The error of meeting the token with an index where `expected` is required. -/
def unexpected (text : String) (expected : Expectation) (i : Nat) : ParseError :=
  ParseError.ofToken expected (tokenAt text i).kind (tokenAt text i).span

/-- The group from an index on: the number of placeholders in it, and the index behind it. If it has no
end, the index is that of the first token that cannot be read. -/
def group (text : String) (i : Nat) : Except ParseError Nat × Nat :=
  match shortestGroup? ((tokenize text).drop i) with
  | some group => (.ok (TokenStream.placeholders group), i + group.length)
  | none =>
    let stop := i + (((tokenize text).drop i).takeWhile (!·.kind.isBroken)).length
    (.error (unexpected text (.kind (.symbol .rightParen)) stop), stop)

/-- An index that walks along the tokens of a text. -/
def walk (text : String) : Walk Nat where
  current := tokenAt text
  previous := tokenBefore text
  peekNth n i := (tokenAt text (i + max n 1)).kind
  advance i := i + 1
  skipAllKeywords keywords i :=
    i + (((tokenize text).drop i).takeWhile (·.kind.isKeywordIn keywords)).length
  skipGroup := group text

variable {text : String} {i : Nat}

/-- Behind the tokens of a text there are ends of the input only. -/
lemma tokenAt_eq (text : String) (i : Nat) : tokenAt text i = (tokens text)[i]?.getD (ending text) := by
  rw [tokenAt, tokenize]
  by_cases inside : i < (tokens text).length
  · rw [List.getElem?_append_left inside]
  · rw [List.getElem?_append_right (Nat.not_lt.1 inside), List.getElem?_eq_none (Nat.not_lt.1 inside)]
    cases i - (tokens text).length <;> rfl

/-- The token with an index is the first one from there on. -/
lemma headD_drop (text : String) (i : Nat) :
    ((tokens text).drop i).headD (ending text) = tokenAt text i := by
  rw [List.headD_eq_head?_getD, List.head?_drop, tokenAt_eq]

/-- The tokens from an index on are counted from there. -/
lemma getElem_drop (text : String) (i n : Nat) :
    ((tokens text).drop i)[n]?.getD (ending text) = tokenAt text (i + n) := by
  rw [List.getElem?_drop, tokenAt_eq]

/-- A run of tokens ends in front of the end of the input. -/
lemma takeWhile_drop (text : String) {p : Token → Bool} (stops : p (ending text) = false) (i : Nat) :
    ((tokenize text).drop i).takeWhile p = ((tokens text).drop i).takeWhile p := by
  have empty : ([ending text].drop (i - (tokens text).length)).takeWhile p = [] := by
    cases i - (tokens text).length with
    | zero => rw [List.drop_zero, List.takeWhile_cons_of_neg (by rw [stops]; decide)]
    | succ n => simp
  rw [tokenize, List.drop_append]
  induction (tokens text).drop i with
  | nil => rw [List.nil_append, empty, List.takeWhile_nil]
  | cons token rest ih => rw [List.cons_append, List.takeWhile_cons, List.takeWhile_cons, ih]

/-! ## Groups -/

/-- Where a parenthesis is open, or opens, the depth behind a token is what is still to be closed. -/
lemma closesAll_cons {depth : Nat} {token : Token}
    (opened : 0 < depth ∨ token.kind = .symbol .leftParen) (tokens : List Token) :
    closesAll depth (token :: tokens) =
      closesAll (TokenStream.Brackets.parentheses.depthAfter depth token.kind) tokens := by
  rw [Bool.eq_iff_iff]
  simp only [closesAll, List.countP_cons, beq_iff_eq, TokenStream.Brackets.depthAfter,
    TokenStream.Brackets.parentheses]
  by_cases opens : token.kind = .symbol .leftParen
  · simp only [opens, reduceCtorEq, TokenKind.symbol.injEq, ↓reduceIte]
    omega
  · by_cases closes : token.kind = .symbol .rightParen
    · have positive := opened.resolve_right opens
      simp only [closes, reduceCtorEq, TokenKind.symbol.injEq, ↓reduceIte]
      omega
    · simp only [opens, closes, ↓reduceIte, Nat.add_zero]

/-- Counting the nesting depth finds the shortest run of tokens that closes all parentheses.

**Proof sketch.** Induction on the tokens. What is left to be closed behind the first token is counted by
the depth there. -/
lemma splitGroup_eq_find {depth : Nat} {tokens : List Token}
    (opened : 0 < depth ∨ tokens.head?.map Token.kind = some (.symbol .leftParen)) :
    (TokenStream.splitGroup? .parentheses depth tokens).map Prod.fst =
      (tokens.takeWhile (!·.kind.isBroken)).inits.tail.find? (closesAll depth) := by
  induction tokens generalizing depth with
  | nil => rfl
  | cons token tokens ih =>
    have opened' : 0 < depth ∨ token.kind = .symbol .leftParen := by simpa using opened
    have inits (run : List Token) : run.inits = [] :: run.inits.tail := by cases run <;> rfl
    rw [TokenStream.splitGroup?]
    by_cases broken : token.kind.isBroken = true
    · rw [if_pos broken, List.takeWhile_cons_of_neg (by simp [broken])]
      rfl
    have behind : closesAll depth ∘ (token :: ·) =
        closesAll (TokenStream.Brackets.parentheses.depthAfter depth token.kind) :=
      funext (closesAll_cons opened')
    rw [if_neg broken, List.takeWhile_cons_of_pos (by simp [broken]), List.inits_cons, List.tail_cons,
      inits, List.map_cons, List.find?_cons, List.find?_map, behind, closesAll_cons opened']
    dsimp only
    generalize TokenStream.Brackets.parentheses.depthAfter depth token.kind = after
    by_cases closed : after = 0
    · subst closed
      rfl
    · have goesOn := @ih after (.inl (Nat.pos_of_ne_zero closed))
      have unclosed : closesAll after [] = false := beq_eq_false_iff_ne.2 closed
      rw [if_neg (by simpa using closed), unclosed]
      dsimp only
      rw [← goesOn, Option.map_map, Option.map_map]
      rfl

/-- A group that starts with an opening parenthesis is the shortest one that closes all it opens. -/
lemma splitGroup_eq {tokens : List Token}
    (opened : tokens.head?.map Token.kind = some (.symbol .leftParen)) :
    (TokenStream.splitGroup? .parentheses 0 tokens).map Prod.fst = shortestGroup? tokens :=
  splitGroup_eq_find (.inr opened)

/-- The rest of a group from an index on, as it is found by counting the nesting depth and the
placeholders. -/
def groupFrom (text : String) (depth found i : Nat) : Except ParseError Nat × Nat :=
  match TokenStream.splitGroup? .parentheses depth ((tokens text).drop i) with
  | some (group, _) => (.ok (found + TokenStream.placeholders group), i + group.length)
  | none =>
    let stop := i + (((tokens text).drop i).takeWhile (!·.kind.isBroken)).length
    (.error (unexpected text (.kind (.symbol .rightParen)) stop), stop)

/-- A group is found by counting.

**Proof sketch.** At an opening parenthesis there is a token, so counting finds the shortest group. The
end of the input is in no group and cannot be read. -/
lemma group_eq (opens : (tokenAt text i).kind = .symbol .leftParen) :
    group text i = groupFrom text 0 0 i := by
  have readable := takeWhile_drop text (p := (!·.kind.isBroken)) rfl i
  have opened : ((tokens text).drop i).head?.map Token.kind = some (.symbol .leftParen) := by
    rw [← headD_drop, List.headD_eq_head?_getD] at opens
    cases first : ((tokens text).drop i).head? with
    | none =>
      rw [first] at opens
      cases opens
    | some token =>
      rw [first] at opens
      exact congrArg some opens
  have found : (TokenStream.splitGroup? .parentheses 0 ((tokens text).drop i)).map Prod.fst =
      shortestGroup? ((tokenize text).drop i) := by
    rw [splitGroup_eq opened, shortestGroup?, shortestGroup?, readable]
  rw [group, groupFrom, readable, ← found]
  cases TokenStream.splitGroup? .parentheses 0 ((tokens text).drop i) with
  | some split => simp only [Option.map_some, Nat.zero_add]
  | none => rfl

variable {depth : Nat} {token : Token} {rest : List Token}

/-- Where some tokens are left, the first of them has the index. -/
lemma tokenAt_of_drop (whole : (tokens text).drop i = token :: rest) :
    tokenAt text i = token ∧ (tokens text).drop (i + 1) = rest := by
  rw [← headD_drop, ← List.tail_drop, whole]
  exact ⟨rfl, rfl⟩

/-- Where no tokens are left, the input has ended. -/
lemma tokenAt_of_nil (whole : (tokens text).drop i = []) : tokenAt text i = ending text := by
  rw [← headD_drop, whole]
  rfl

/-- Nothing is in a group where the token cannot be read. -/
lemma groupFrom_of_isBroken (broken : (tokenAt text i).kind.isBroken = true) (depth found : Nat) :
    groupFrom text depth found i = (.error (unexpected text (.kind (.symbol .rightParen)) i), i) := by
  unfold groupFrom
  cases whole : (tokens text).drop i with
  | nil => simp [TokenStream.splitGroup?]
  | cons token rest =>
    rw [(tokenAt_of_drop whole).1] at broken
    simp [TokenStream.splitGroup?, broken]

/-- A group ends with the token that brings the nesting depth to zero. -/
lemma groupFrom_of_closed (whole : (tokens text).drop i = token :: rest)
    (readable : ¬ token.kind.isBroken = true)
    (closed : TokenStream.Brackets.parentheses.depthAfter depth token.kind = 0) (found : Nat) :
    groupFrom text depth found i = (.ok (found + TokenStream.placeholders [token]), i + 1) := by
  unfold groupFrom
  rw [whole, TokenStream.splitGroup?, if_neg readable, closed]
  rfl

/-- A group goes on behind another token. -/
lemma groupFrom_of_open (whole : (tokens text).drop i = token :: rest)
    (readable : ¬ token.kind.isBroken = true)
    (unclosed : TokenStream.Brackets.parentheses.depthAfter depth token.kind ≠ 0) (found : Nat) :
    groupFrom text depth found i =
      groupFrom text (TokenStream.Brackets.parentheses.depthAfter depth token.kind)
        (found + TokenStream.placeholders [token]) (i + 1) := by
  unfold groupFrom
  rw [whole, (tokenAt_of_drop whole).2, TokenStream.splitGroup?, if_neg readable,
    List.takeWhile_cons_of_pos (by simp [readable])]
  dsimp only
  rw [if_neg (by simpa using unclosed)]
  cases TokenStream.splitGroup? .parentheses
      (TokenStream.Brackets.parentheses.depthAfter depth token.kind) rest with
  | some split =>
    rw [Option.map_some]
    dsimp only
    rw [List.length_cons, ← List.singleton_append, TokenStream.placeholders_append, Nat.add_assoc,
      Nat.add_assoc, Nat.add_comm 1]
  | none =>
    rw [Option.map_none]
    dsimp only
    rw [List.length_cons, Nat.add_assoc, Nat.add_comm 1]

end Indexed

end SqlRouting
