import SqlRouting.Proofs.Steps

/-!
# Operations on tokens

What can be asked of a stream of tokens, and what answers it. Most operations look at the current token
alone, and step past it or leave it: in any walk along some tokens they are the same. So two walks that
are at the same token, and stay so in a step, answer a whole run of operations in the same way.

## Main definitions

* `SqlRouting.Operation` — what can be asked of a stream.
* `SqlRouting.Machine` — something that answers operations one after the other.
* `SqlRouting.Walk` — a way to walk along some tokens.
* `SqlRouting.Walk.machine` — the operations in a walk.

## Main results

* `SqlRouting.Machine.Simulates.trace_eq` — machines that agree in each step agree in a whole run.
* `SqlRouting.Walk.Along.simulates` — walks that go along together agree in each step.
* `SqlRouting.Walk.step_stays` — looking and failing leave a walk where it is.
-/

set_option autoImplicit false

namespace SqlRouting

/-! ## Operations -/

/-- What can be asked of a stream of tokens. -/
inductive Operation
  /-- To step past the current token. -/
  | advance
  /-- The kind of the next token. -/
  | peek
  /-- The kind of the `n`-th token after the current one. -/
  | peekNth (n : Nat)
  /-- Whether the current token agrees with `kind` up to its payload. -/
  | check (kind : TokenKind)
  /-- Whether the current token is `keyword`. -/
  | checkKeyword (keyword : Keyword)
  /-- Whether the current token is a keyword out of `keywords`. -/
  | checkAnyKeyword (keywords : List Keyword)
  /-- To step past the current token if it agrees with `kind` up to its payload. -/
  | skipIf (kind : TokenKind)
  /-- To step past the current token if it is a keyword out of `keywords`. -/
  | skipIfKeyword (keywords : List Keyword)
  /-- To step past all keywords out of `keywords`. -/
  | skipAllKeywords (keywords : List Keyword)
  /-- To step past a token that has to agree with `kind` up to its payload. -/
  | accept (kind : TokenKind)
  /-- To step past a token that has to be `keyword`. -/
  | acceptKeyword (keyword : Keyword)
  /-- To step past a token that has to be a name. -/
  | acceptIdentifier
  /-- To refuse a keyword out of `keywords`. -/
  | refuseKeywords (keywords : List Keyword)
  /-- To step past a group in parentheses. -/
  | skipParentheses
deriving DecidableEq, Repr

/-- Whether an operation only looks. -/
def Operation.looks : Operation → Bool
  | .peek | .peekNth _ | .check _ | .checkKeyword _ | .checkAnyKeyword _ => true
  | _ => false

/-- Whether an operation fails unless the current token is as required. -/
def Operation.requires : Operation → Bool
  | .accept _ | .acceptKeyword _ | .acceptIdentifier | .refuseKeywords _ => true
  | _ => false

/-- What an operation answers. -/
inductive Answer
  | done
  | token (token : Token)
  | kind (kind : TokenKind)
  | told (yes : Bool)
  | name (name : String) (span : Span)
  | count (n : Nat)
  | failed (error : ParseError)
deriving DecidableEq, Repr

namespace Answer

/-- The answer of an operation that may fail. -/
def ofExcept {α : Type} (success : α → Answer) : Except ParseError α → Answer
  | .ok a => success a
  | .error error => .failed error

/-- Whether an operation failed. -/
def isFailure : Answer → Bool
  | .failed _ => true
  | _ => false

end Answer

/-! ## Machines -/

/-- What can be seen between two operations. -/
structure View where
  /-- The current token. -/
  current : Token
  /-- Where the current token starts. -/
  offset : Nat
  /-- Where the token read last ends. -/
  previousEnd : Nat
  /-- Whether all tokens are read. -/
  atEnd : Bool
deriving DecidableEq, Repr

/-- Something that answers operations one after the other. -/
structure Machine (σ : Type) where
  /-- What can be seen in a state. -/
  view : σ → View
  /-- The answer to an operation, and the state after it. -/
  step : Operation → σ → Answer × σ

namespace Machine

variable {σ τ : Type}

/-- What some operations answer, and what can be seen after each of them. -/
def trace (machine : Machine σ) : List Operation → σ → List (Answer × View)
  | [], _ => []
  | operation :: operations, s =>
    let after := machine.step operation s
    (after.1, machine.view after.2) :: machine.trace operations after.2

/-- One machine does what another does, in states that are related. -/
structure Simulates (machine : Machine σ) (other : Machine τ) (R : σ → τ → Prop) : Prop where
  /-- The same can be seen in related states. -/
  view : ∀ {s t}, R s t → machine.view s = other.view t
  /-- Operations have the same answers in related states, and lead to related ones. -/
  step : ∀ {s t}, R s t → ∀ operation, (machine.step operation s).1 = (other.step operation t).1 ∧
    R (machine.step operation s).2 (other.step operation t).2

/-- Machines that agree in each step agree in a whole run. -/
lemma Simulates.trace_eq {machine : Machine σ} {other : Machine τ} {R : σ → τ → Prop}
    (h : machine.Simulates other R) {s : σ} {t : τ} (related : R s t) (operations : List Operation) :
    machine.trace operations s = other.trace operations t := by
  induction operations generalizing s t with
  | nil => rfl
  | cons operation operations ih =>
    obtain ⟨answer, after⟩ := h.step related operation
    rw [trace, trace, answer, h.view after, ih after]

end Machine

/-! ## Walks -/

/-- A way to walk along some tokens. -/
structure Walk (σ : Type) where
  /-- The current token. -/
  current : σ → Token
  /-- The token passed last. -/
  previous : σ → Token
  /-- The kind of the `n`-th token after the current one, where the count starts at one. -/
  peekNth : Nat → σ → TokenKind
  /-- The step past the current token. -/
  advance : σ → σ
  /-- The steps past all keywords out of some. -/
  skipAllKeywords : List Keyword → σ → σ
  /-- The steps past a group in parentheses that the current token opens. -/
  skipGroup : σ → Except ParseError Nat × σ

namespace Walk

variable {σ τ : Type}

/-- The step past a token that is as required; another one is not passed. -/
def passIf (walk : Walk σ) (s : σ) (holds : Bool) (passed refused : Answer) : Answer × σ :=
  if holds then (passed, walk.advance s) else (refused, s)

/-- The error of meeting the current token where `expected` is required. -/
def unexpected (walk : Walk σ) (s : σ) (expected : Expectation) : ParseError :=
  ParseError.ofToken expected (walk.current s).kind (walk.current s).span

/-- What the operations are in a walk. -/
def machine (walk : Walk σ) : Machine σ where
  view s := ⟨walk.current s, (walk.current s).span.start, (walk.previous s).span.stop,
    (walk.current s).kind == .endOfInput⟩
  step
    | .advance, s => (.token (walk.current s), walk.advance s)
    | .peek, s => (.kind (walk.peekNth 1 s), s)
    | .peekNth n, s => (.kind (walk.peekNth n s), s)
    | .check kind, s => (.told ((walk.current s).kind.sameClass kind), s)
    | .checkKeyword keyword, s => (.told ((walk.current s).kind == .keyword keyword), s)
    | .checkAnyKeyword keywords, s => (.told ((walk.current s).kind.isKeywordIn keywords), s)
    | .skipIf kind, s =>
      walk.passIf s ((walk.current s).kind.sameClass kind) (.told true) (.told false)
    | .skipIfKeyword keywords, s =>
      walk.passIf s ((walk.current s).kind.isKeywordIn keywords) (.told true) (.told false)
    | .skipAllKeywords keywords, s => (.done, walk.skipAllKeywords keywords s)
    | .accept kind, s => walk.passIf s ((walk.current s).kind.sameClass kind)
      (.token (walk.current s)) (.failed (walk.unexpected s (.kind kind)))
    | .acceptKeyword keyword, s => walk.passIf s ((walk.current s).kind == .keyword keyword)
      (.token (walk.current s)) (.failed (walk.unexpected s (.keyword keyword)))
    | .acceptIdentifier, s =>
      match (walk.current s).kind with
      | .identifier name => (.name name (walk.current s).span, walk.advance s)
      | _ => (.failed (walk.unexpected s .identifier), s)
    | .refuseKeywords keywords, s =>
      match (walk.current s).kind with
      | .keyword k => if keywords.contains k
        then (.failed (.unsupported (.keyword k) (walk.current s).span), s) else (.done, s)
      | _ => (.done, s)
    | .skipParentheses, s =>
      if (walk.current s).kind.sameClass (.symbol .leftParen) then
        (walk.skipGroup s).map (.ofExcept .count) id
      else (.count 0, s)

/-- Two walks go along together: they are at the same token in related states, and take the same steps. -/
structure Along (walk : Walk σ) (other : Walk τ) (R : σ → τ → Prop) : Prop where
  /-- The current tokens are the same. -/
  current : ∀ {s t}, R s t → walk.current s = other.current t
  /-- The tokens passed last are the same. -/
  previous : ∀ {s t}, R s t → walk.previous s = other.previous t
  /-- The tokens ahead are the same. -/
  peekNth : ∀ {s t}, R s t → ∀ n, walk.peekNth n s = other.peekNth n t
  /-- A step past the current token keeps the walks together. -/
  advance : ∀ {s t}, R s t → R (walk.advance s) (other.advance t)
  /-- Steps past keywords keep the walks together. -/
  skipAllKeywords : ∀ {s t}, R s t → ∀ keywords,
    R (walk.skipAllKeywords keywords s) (other.skipAllKeywords keywords t)
  /-- Steps past a group have the same answer, and keep the walks together. -/
  skipGroup : ∀ {s t}, R s t → (other.current t).kind = .symbol .leftParen →
    (walk.skipGroup s).1 = (other.skipGroup t).1 ∧ R (walk.skipGroup s).2 (other.skipGroup t).2

/-- Walks that go along together do the same as machines. -/
lemma Along.simulates {walk : Walk σ} {other : Walk τ} {R : σ → τ → Prop} (h : walk.Along other R) :
    walk.machine.Simulates other.machine R where
  view related := by simp only [machine, h.current related, h.previous related]
  step {s t} related operation := by
    have passIf (holds : Bool) (passed refused : Answer) :
        (walk.passIf s holds passed refused).1 = (other.passIf t holds passed refused).1 ∧
          R (walk.passIf s holds passed refused).2 (other.passIf t holds passed refused).2 := by
      cases holds with
      | false => exact ⟨rfl, related⟩
      | true => exact ⟨rfl, h.advance related⟩
    cases operation <;> simp only [machine, h.current related, unexpected]
    case advance => exact ⟨trivial, h.advance related⟩
    case peek => exact ⟨congrArg _ (h.peekNth related 1), related⟩
    case peekNth n => exact ⟨congrArg _ (h.peekNth related n), related⟩
    case skipIf | skipIfKeyword | accept | acceptKeyword => exact passIf _ _ _
    case skipAllKeywords keywords => exact ⟨trivial, h.skipAllKeywords related keywords⟩
    case acceptIdentifier =>
      split
      · exact ⟨rfl, h.advance related⟩
      · exact ⟨rfl, related⟩
    case refuseKeywords keywords =>
      split
      · split
        · exact ⟨rfl, related⟩
        · exact ⟨rfl, related⟩
      · exact ⟨rfl, related⟩
    case skipParentheses =>
      split
      · rename_i opens
        obtain ⟨answer, after⟩ := h.skipGroup related (TokenKind.sameClass_symbol.1 opens)
        exact ⟨congrArg (Answer.ofExcept .count) answer, after⟩
      · exact ⟨rfl, related⟩
    all_goals exact ⟨trivial, related⟩

/-- Looking leaves the state as it is, and so does an operation that fails for the current token. -/
lemma step_stays (walk : Walk σ) {operation : Operation} {s : σ}
    (stays : operation.looks = true ∨
      operation.requires = true ∧ (walk.machine.step operation s).1.isFailure = true) :
    (walk.machine.step operation s).2 = s := by
  have passIf {holds : Bool} {passed refused : Answer} (succeeds : passed.isFailure = false)
      (fails : (walk.passIf s holds passed refused).1.isFailure = true) :
      (walk.passIf s holds passed refused).2 = s := by
    cases holds with
    | false => rfl
    | true => exact absurd (succeeds.symm.trans fails) Bool.false_ne_true
  rcases stays with looks | ⟨requires, fails⟩
  · cases operation <;> first | rfl | cases looks
  · cases operation with
    | accept kind => exact passIf rfl fails
    | acceptKeyword keyword => exact passIf rfl fails
    | acceptIdentifier =>
      simp only [machine] at fails ⊢
      generalize (walk.current s).kind = found at fails ⊢
      cases found with
      | identifier name => cases fails
      | _ => rfl
    | refuseKeywords keywords =>
      simp only [machine]
      split
      · split <;> rfl
      · rfl
    | _ => cases requires

end Walk

end SqlRouting
