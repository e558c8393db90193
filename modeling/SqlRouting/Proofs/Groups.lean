import SqlRouting.Proofs.Steps

/-!
# Groups between brackets

A group is stepped over by a loop that counts the brackets that are open. The counter links the place the
loop is at to the tokens behind it: it is the number of brackets that were opened there less those that
were closed. It is positive from the first token on, so it never has to go below zero, and the loop stops
at the first token behind which as many brackets are closed as were opened: that is the end of the shortest
balanced group. Without such a group the loop runs into a token that cannot be read.

## Main definitions

* `SqlRouting.TokenStream.Brackets.Balanced` — as many brackets are closed as are opened, and in no front
  more of them.
* `SqlRouting.TokenStream.Brackets.Encloses` — a group at the head of some tokens.
* `SqlRouting.TokenStream.Brackets.Scans` — the places a loop comes to, with the counter there.
* `SqlRouting.TokenStream.Brackets.StepsPast` — what stepping past a group has to do.

## Main results

* `SqlRouting.TokenStream.Brackets.Scans.keeps` — what the counter says of the tokens behind the loop.
* `SqlRouting.TokenStream.Brackets.Scans.exists_halt` — where the loop ends.
* `SqlRouting.TokenStream.Brackets.stepsPast_skipGroup` — what the loop does at an opening bracket.
* `SqlRouting.Parser.groups_passed` — parentheses and conditionals are stepped past as groups.
-/

set_option autoImplicit false

namespace SqlRouting

open TokenStream

namespace TokenStream.Brackets

/-! ## Balance -/

/-- The number of brackets that are opened. -/
def opened (brackets : Brackets) (tokens : List Token) : Nat :=
  tokens.countP (·.kind == brackets.opening)

/-- The number of brackets that are closed. -/
def closed (brackets : Brackets) (tokens : List Token) : Nat :=
  tokens.countP (·.kind == brackets.closing)

/-- As many brackets are closed as are opened, and in no front more of them. -/
structure Balanced (brackets : Brackets) (tokens : List Token) : Prop where
  /-- All brackets that are opened are closed. -/
  closed_eq : brackets.closed tokens = brackets.opened tokens
  /-- None is closed that was not opened before. -/
  closed_le : ∀ front, front <+: tokens → brackets.closed front ≤ brackets.opened front

/-- A group at the head of some tokens: some of them that are balanced and can be read. -/
structure Encloses (brackets : Brackets) (tokens group : List Token) : Prop where
  /-- The group comes first. -/
  isPrefix : group <+: tokens
  /-- There is something in it. -/
  ne_nil : group ≠ []
  /-- It is balanced. -/
  balanced : brackets.Balanced group
  /-- Neither the end of the input nor input that is no token is in it. -/
  readable : ∀ token ∈ group, token.kind.isBroken = false

/-- The places that a loop over some tokens comes to: the tokens behind it, the counter, and the tokens in
front of it. It goes on behind a token that can be read as long as brackets are open there. -/
inductive Scans (brackets : Brackets) (tokens : List Token) : List Token → Nat → List Token → Prop
  /-- At first no bracket is open. -/
  | start : Scans brackets tokens [] 0 tokens
  /-- A token is passed. -/
  | next {front rest : List Token} {depth : Nat} {token : Token}
      (before : Scans brackets tokens front depth (token :: rest))
      (readable : token.kind.isBroken = false) (unclosed : brackets.depthAfter depth token.kind ≠ 0) :
      Scans brackets tokens (front ++ [token]) (brackets.depthAfter depth token.kind) rest

/-- What stepping past the group at the head of a stream has to do: the outcome is a count of placeholders or
an error, and the stream that is left. -/
structure StepsPast (brackets : Brackets) (stream : TokenStream)
    (outcome : Except ParseError Nat × TokenStream) : Prop where
  /-- It succeeds exactly if there is a group. -/
  succeeds_iff : (∃ count, outcome.1 = .ok count) ↔ ∃ group, brackets.Encloses stream.ahead group
  /-- Then the shortest group is passed, and its placeholders are counted. -/
  shortest : ∀ count, outcome.1 = .ok count → ∃ group, brackets.Encloses stream.ahead group ∧
    (∀ other, brackets.Encloses stream.ahead other → group <+: other) ∧
    outcome.2 = stream.advanceBy group.length ∧ count = placeholders group
  /-- It fails at the first token that cannot be read, behind all others. -/
  stops : ∀ error, outcome.1 = .error error → ∃ front, front <+: stream.ahead ∧
    (∀ token ∈ front, token.kind.isBroken = false) ∧ outcome.2 = stream.advanceBy front.length ∧
    (outcome.2.kind = .endOfInput ∨ ∃ reason, outcome.2.kind = .invalid reason) ∧
    error = outcome.2.unexpected brackets.missing
  /-- Wherever the loop comes to, what is left of it is counted from there. -/
  resumes : ∀ front depth rest, brackets.Scans stream.ahead front depth rest →
    splitGroup? brackets 0 stream.ahead =
      (splitGroup? brackets depth rest).map fun (group, rest) => (front ++ group, rest)
  /-- The counter says how many brackets are open, and one is where a bracket is closed. -/
  counter : ∀ front depth token rest, brackets.Scans stream.ahead front depth (token :: rest) →
    brackets.opened front = brackets.closed front + depth ∧ (token.kind = brackets.closing → 0 < depth)

variable {brackets : Brackets} {tokens front rest group other : List Token} {depth : Nat} {token : Token}

/-- What cannot be read is the end of the input or no token. -/
lemma isBroken_cases {kind : TokenKind} (broken : kind.isBroken = true) :
    kind = .endOfInput ∨ ∃ reason, kind = .invalid reason := by
  cases kind with
  | endOfInput => exact .inl rfl
  | invalid reason => exact .inr ⟨reason, rfl⟩
  | _ => cases broken

/-! ## The counter -/

/-- What holds wherever the loop comes to. -/
structure Keeps (brackets : Brackets) (tokens front : List Token) (depth : Nat) (rest : List Token) :
    Prop where
  /-- The tokens are those behind the loop and those in front of it. -/
  split : tokens = front ++ rest
  /-- Those behind it can be read. -/
  readable : ∀ token ∈ front, token.kind.isBroken = false
  /-- The counter says how many brackets are open. -/
  opened_eq : brackets.opened front = brackets.closed front + depth
  /-- In each front behind the loop some bracket is open. -/
  open_in : ∀ other, other <+: front → other ≠ [] → brackets.closed other < brackets.opened other

/-- A token changes the counter as it changes the number of open brackets, if one is open where it closes
one. -/
lemma opened_concat (distinct : brackets.opening ≠ brackets.closing)
    (counted : brackets.opened front = brackets.closed front + depth)
    (isOpen : token.kind = brackets.closing → 0 < depth) :
    brackets.opened (front ++ [token]) =
      brackets.closed (front ++ [token]) + brackets.depthAfter depth token.kind := by
  simp only [opened, closed, depthAfter, List.countP_append, List.countP_singleton, beq_iff_eq] at *
  by_cases opens : token.kind = brackets.opening
  · have notClosing : token.kind ≠ brackets.closing := fun closes => distinct (opens.symm.trans closes)
    rw [if_pos opens, if_pos opens, if_neg notClosing]
    omega
  · by_cases closes : token.kind = brackets.closing
    · have positive := isOpen closes
      rw [if_neg opens, if_neg opens, if_pos closes, if_pos closes]
      omega
    · rw [if_neg opens, if_neg opens, if_neg closes, if_neg closes]
      omega

namespace Keeps

/-- Some bracket is open behind the first token. -/
lemma depth_pos (h : Keeps brackets tokens front depth rest) (passed : front ≠ []) : 0 < depth := by
  have isOpen := h.open_in front List.prefix_rfl passed
  have counted := h.opened_eq
  omega

/-- A bracket is open where one is closed, if the first token opens one. -/
lemma isOpen (h : Keeps brackets tokens front depth (token :: rest))
    (distinct : brackets.opening ≠ brackets.closing)
    (opens : tokens.head?.map Token.kind = some brackets.opening) :
    token.kind = brackets.closing → 0 < depth := by
  intro closes
  by_cases first : front = []
  · obtain rfl := first
    rw [h.split, List.nil_append, List.head?_cons, Option.map_some] at opens
    exact absurd ((Option.some.inj opens).symm.trans closes) distinct
  · exact h.depth_pos first

/-- **A step of the loop** keeps what the counter says. -/
lemma next (h : Keeps brackets tokens front depth (token :: rest))
    (distinct : brackets.opening ≠ brackets.closing)
    (opens : tokens.head?.map Token.kind = some brackets.opening)
    (readable : token.kind.isBroken = false) (unclosed : brackets.depthAfter depth token.kind ≠ 0) :
    Keeps brackets tokens (front ++ [token]) (brackets.depthAfter depth token.kind) rest where
  split := by rw [h.split, List.append_cons]
  readable := by
    intro other mem
    rcases List.mem_append.1 mem with before | isToken
    · exact h.readable other before
    · exact (List.mem_singleton.1 isToken) ▸ readable
  opened_eq := opened_concat distinct h.opened_eq (h.isOpen distinct opens)
  open_in := by
    intro other isPrefix nonempty
    rcases List.prefix_concat_iff.1 isPrefix with rfl | before
    · have counted := opened_concat distinct h.opened_eq (h.isOpen distinct opens)
      omega
    · exact h.open_in other before nonempty

end Keeps

namespace Scans

/-- **What the counter says** wherever the loop comes to.

**Proof sketch.** Induction on the way of the loop. The first token opens a bracket, and the loop goes on
only where one is open. -/
lemma keeps (h : Scans brackets tokens front depth rest) (distinct : brackets.opening ≠ brackets.closing)
    (opens : tokens.head?.map Token.kind = some brackets.opening) :
    Keeps brackets tokens front depth rest := by
  induction h with
  | start =>
    exact ⟨rfl, fun _ mem => absurd mem (by simp), rfl,
      fun other isPrefix nonempty => absurd (List.prefix_nil.1 isPrefix) nonempty⟩
  | next before readable unclosed ih => exact ih.next distinct opens readable unclosed

/-- What is left of the loop is counted from the place it has come to. -/
lemma splitGroup_eq (h : Scans brackets tokens front depth rest) :
    splitGroup? brackets 0 tokens =
      (splitGroup? brackets depth rest).map fun (group, rest) => (front ++ group, rest) := by
  induction h with
  | start => exact Option.map_id'.symm
  | @next front rest depth token before readable unclosed ih =>
    rw [ih, splitGroup?, if_neg (by simp [readable])]
    dsimp only
    rw [if_neg (by simpa using unclosed), Option.map_map]
    congr 1
    funext split
    simp

/-- Where the loop cannot go on: it is at the last token of the group, or at one that cannot be read. -/
def Halts (brackets : Brackets) (depth : Nat) : List Token → Prop
  | [] => True
  | token :: _ => token.kind.isBroken = true ∨ brackets.depthAfter depth token.kind = 0

/-- The loop goes on until it cannot. -/
lemma exists_halt (h : Scans brackets tokens front depth rest) :
    ∃ front' depth' rest', Scans brackets tokens front' depth' rest' ∧ Halts brackets depth' rest' := by
  induction rest generalizing front depth with
  | nil => exact ⟨front, depth, [], h, trivial⟩
  | cons token rest ih =>
    by_cases broken : token.kind.isBroken = true
    · exact ⟨front, depth, token :: rest, h, .inl broken⟩
    · by_cases closes : brackets.depthAfter depth token.kind = 0
      · exact ⟨front, depth, token :: rest, h, .inr closes⟩
      · exact ih (h.next (Bool.eq_false_iff.2 broken) closes)

end Scans

/-! ## The end of the loop -/

/-- There is no group that ends behind the loop. -/
lemma Keeps.not_encloses (h : Keeps brackets tokens front depth rest)
    (encloses : brackets.Encloses tokens group) : ¬ group <+: front := by
  intro isPrefix
  have isOpen := h.open_in group isPrefix encloses.ne_nil
  have balanced := encloses.balanced.closed_eq
  omega

/-- A group goes on where the loop is. -/
lemma Keeps.exists_readable (h : Keeps brackets tokens front depth rest)
    (encloses : brackets.Encloses tokens group) :
    ∃ token more, rest = token :: more ∧ token.kind.isBroken = false ∧ front ++ [token] <+: group := by
  have whole : front <+: tokens := ⟨rest, h.split.symm⟩
  obtain ⟨inside, rfl⟩ := (List.prefix_or_prefix_of_prefix whole encloses.isPrefix).resolve_right
    (h.not_encloses encloses)
  cases inside with
  | nil => exact absurd (by simp) (h.not_encloses encloses)
  | cons token inside =>
    obtain ⟨more, same⟩ := encloses.isPrefix
    refine ⟨token, inside ++ more, ?_, encloses.readable token (by simp), ⟨inside, by simp⟩⟩
    have cancelled := same.trans h.split
    rw [List.append_assoc] at cancelled
    exact (List.append_cancel_left cancelled).symm

/-- A token behind which no bracket is open ends a group, and the shortest one. -/
lemma Keeps.encloses (h : Keeps brackets tokens front depth (token :: rest))
    (distinct : brackets.opening ≠ brackets.closing)
    (opens : tokens.head?.map Token.kind = some brackets.opening)
    (readable : token.kind.isBroken = false) (closes : brackets.depthAfter depth token.kind = 0) :
    brackets.Encloses tokens (front ++ [token]) ∧
      ∀ other, brackets.Encloses tokens other → front ++ [token] <+: other := by
  have counted := opened_concat distinct h.opened_eq (h.isOpen distinct opens)
  refine ⟨⟨⟨rest, ?_⟩, by simp, ⟨by omega, fun other isPrefix => ?_⟩, fun other mem => ?_⟩,
    fun other encloses => ?_⟩
  · rw [h.split, List.append_assoc, List.singleton_append]
  · rcases List.prefix_concat_iff.1 isPrefix with rfl | before
    · omega
    · by_cases empty : other = []
      · simp [empty, closed, opened]
      · exact Nat.le_of_lt (h.open_in other before empty)
  · rcases List.mem_append.1 mem with before | isToken
    · exact h.readable other before
    · exact (List.mem_singleton.1 isToken) ▸ readable
  · obtain ⟨first, more, same, -, isPrefix⟩ := h.exists_readable encloses
    cases same
    exact isPrefix

/-! ## Stepping past a group -/

section Streams

variable {stream : TokenStream}

/-- Where the loop comes to a token that cannot be read, or to the end, no group ends, and stepping past one
fails there. -/
lemma skipGroup_of_unread {front rest : List Token} {depth : Nat}
    (scans : Scans brackets stream.ahead front depth rest)
    (keeps : Keeps brackets stream.ahead front depth rest)
    (unread : ∀ token ∈ rest.head?, token.kind.isBroken = true) :
    (¬ ∃ group, brackets.Encloses stream.ahead group) ∧
      (stream.advanceBy front.length).kind.isBroken = true ∧
      stream.skipGroup brackets = (.error ((stream.advanceBy front.length).unexpected brackets.missing),
        stream.advanceBy front.length) := by
  have stays : (stream.advanceBy front.length).ahead = rest := by
    rw [ahead_advanceBy, keeps.split, List.drop_left]
  have halted : (stream.advanceBy front.length).kind.isBroken = true ∧
      splitGroup? brackets depth rest = none ∧ rest.takeWhile (!·.kind.isBroken) = [] := by
    cases rest with
    | nil =>
      rw [kind_of_ahead_nil stays]
      exact ⟨rfl, rfl, rfl⟩
    | cons token rest =>
      have broken := unread token rfl
      rw [kind_of_ahead_cons stays, splitGroup?, if_pos broken,
        List.takeWhile_cons_of_neg (by simp [broken])]
      exact ⟨broken, rfl, rfl⟩
  obtain ⟨broken, unsplit, nothing⟩ := halted
  refine ⟨?_, broken, ?_⟩
  · rintro ⟨group, encloses⟩
    obtain ⟨token, more, rfl, readable, -⟩ := keeps.exists_readable encloses
    rw [unread token rfl] at readable
    cases readable
  · have passed : stream.ahead.takeWhile (!·.kind.isBroken) = front := by
      rw [keeps.split, List.takeWhile_append_of_pos fun token mem => by simp [keeps.readable token mem],
        nothing, List.append_nil]
    rw [TokenStream.skipGroup, scans.splitGroup_eq, unsplit, Option.map_none]
    dsimp only
    rw [passed]

/-- At a bracket that opens a group, the group is stepped past, or the loop stops at the first token that
cannot be read.

**Proof sketch.** The loop halts somewhere. If it halts because no bracket is open any more, it is at the end
of the shortest group; else it is at a token that cannot be read, or at the end, and no group ends there. -/
lemma skipGroup_cases (distinct : brackets.opening ≠ brackets.closing)
    (opens : stream.ahead.head?.map Token.kind = some brackets.opening) :
    (∃ group, brackets.Encloses stream.ahead group ∧
      (∀ other, brackets.Encloses stream.ahead other → group <+: other) ∧
      stream.skipGroup brackets = (.ok (placeholders group), stream.advanceBy group.length)) ∨
    (¬ ∃ group, brackets.Encloses stream.ahead group) ∧
      ∃ front, front <+: stream.ahead ∧ (∀ token ∈ front, token.kind.isBroken = false) ∧
        (stream.advanceBy front.length).kind.isBroken = true ∧
        stream.skipGroup brackets = (.error ((stream.advanceBy front.length).unexpected brackets.missing),
          stream.advanceBy front.length) := by
  obtain ⟨front, depth, rest, scans, halts⟩ := (@Scans.start brackets stream.ahead).exists_halt
  have keeps := scans.keeps distinct opens
  by_cases unread : ∀ token ∈ rest.head?, token.kind.isBroken = true
  · obtain ⟨noGroup, broken, fails⟩ := skipGroup_of_unread scans keeps unread
    exact .inr ⟨noGroup, front, ⟨rest, keeps.split.symm⟩, keeps.readable, broken, fails⟩
  · cases rest with
    | nil => exact absurd (by simp) unread
    | cons token rest =>
      have broken : ¬ token.kind.isBroken = true := by simpa using unread
      have closes := halts.resolve_left broken
      obtain ⟨encloses, least⟩ := keeps.encloses distinct opens (Bool.eq_false_iff.2 broken) closes
      refine .inl ⟨front ++ [token], encloses, least, ?_⟩
      rw [TokenStream.skipGroup, scans.splitGroup_eq, splitGroup?, if_neg broken]
      dsimp only
      rw [if_pos (by simp [closes]), Option.map_some]

/-- **What the loop does at an opening bracket.** -/
lemma stepsPast_skipGroup (distinct : brackets.opening ≠ brackets.closing)
    (notEnd : brackets.opening ≠ .endOfInput) (atOpening : stream.kind = brackets.opening) :
    brackets.StepsPast stream (stream.skipGroup brackets) := by
  have opens : stream.ahead.head?.map Token.kind = some brackets.opening := by
    rw [ahead_of_kind atOpening notEnd]
    rfl
  have resumes front depth rest (scans : brackets.Scans stream.ahead front depth rest) :=
    scans.splitGroup_eq
  have counter front depth token rest (scans : brackets.Scans stream.ahead front depth (token :: rest)) :=
    have keeps := scans.keeps distinct opens
    And.intro keeps.opened_eq (keeps.isOpen distinct opens)
  rcases skipGroup_cases distinct opens with ⟨group, encloses, least, same⟩ |
    ⟨none, front, isPrefix, readable, broken, same⟩
  · refine ⟨⟨fun _ => ⟨group, encloses⟩, fun _ => ⟨_, congrArg Prod.fst same⟩⟩, fun count success => ?_,
      fun error failure => ?_, resumes, counter⟩
    · rw [same] at success ⊢
      exact ⟨group, encloses, least, rfl, (Except.ok.inj success).symm⟩
    · rw [same] at failure
      cases failure
  · refine ⟨⟨fun ⟨count, success⟩ => ?_, fun found => absurd found none⟩, fun count success => ?_,
      fun error failure => ?_, resumes, counter⟩
    · rw [same] at success
      cases success
    · rw [same] at success
      cases success
    · rw [same] at failure ⊢
      exact ⟨front, isPrefix, readable, rfl, isBroken_cases broken, (Except.error.inj failure).symm⟩

end Streams

end TokenStream.Brackets

namespace Parser

/-- **Parentheses and conditionals are stepped past as groups.** Both loops succeed exactly if some tokens at
the head of those that are left are balanced and can all be read, and then pass the least number of such
tokens; else they fail at the first token that cannot be read, which may be the end of the input. In
neither of them does the counter go below zero. The placeholders of a conditional that is passed are added
to those of the statement.

**Proof sketch.** The loop has passed a part of the tokens and counts how many brackets are open in it. As
long as it goes on, this is one at least, so no shorter part is balanced; where it comes down to zero the
part is balanced, and a token that cannot be read stops the loop, as it would any longer group. -/
theorem groups_passed (s : ParserState) :
    (s.stream.kind = .symbol .leftParen →
      Brackets.parentheses.StepsPast s.stream s.stream.skipParentheses) ∧
    (s.stream.kind = .keyword .CASE →
      Brackets.conditional.StepsPast s.stream (s.stream.skipGroup .conditional) ∧
      (∀ count stream, s.stream.skipGroup .conditional = (.ok count, stream) →
        (skipGroup .conditional).run s = .ok ((), ⟨stream, s.context.passParameters count⟩)) ∧
      ∀ error stream, s.stream.skipGroup .conditional = (.error error, stream) →
        (skipGroup .conditional).run s = .error error) := by
  refine ⟨fun opens => ?_, fun opens => ⟨?_, fun count stream success => ?_, fun error stream failure => ?_⟩⟩
  · rw [TokenStream.skipParentheses, if_pos (check_symbol.2 opens)]
    exact Brackets.stepsPast_skipGroup (by simp [Brackets.parentheses]) (by simp [Brackets.parentheses]) opens
  · exact Brackets.stepsPast_skipGroup (by simp [Brackets.conditional]) (by simp [Brackets.conditional]) opens
  · refine run_bind_ok.2 ⟨count, ⟨stream, s.context⟩, run_ofStream_ok.2 ⟨stream, success, rfl⟩, rfl⟩
  · rw [skipGroup, StateT.run_bind]
    simp only [ofStream, StateT.run, failure]
    rfl

/-- Nested parentheses with two placeholders in them and one behind them, and a conditional of which only the
inner one is closed. -/
theorem groups_passed_nested : ∃ s t : ParserState,
    s.stream = .ofText "(?, (?)) ?" ∧ t.stream = .ofText "CASE ? WHEN CASE 1 END" ∧
    s.stream.kind = .symbol .leftParen ∧ t.stream.kind = .keyword .CASE ∧
    Brackets.parentheses.StepsPast s.stream s.stream.skipParentheses ∧
    Brackets.conditional.StepsPast t.stream (t.stream.skipGroup .conditional) ∧
    s.stream.skipParentheses.1.toOption = some 2 ∧ s.stream.skipParentheses.2.remaining = 1 ∧
    (t.stream.skipGroup .conditional).1.toOption = none := by
  let s : ParserState := ⟨.ofText "(?, (?)) ?", {}⟩
  let t : ParserState := ⟨.ofText "CASE ? WHEN CASE 1 END", {}⟩
  have opens : s.stream.kind = .symbol .leftParen := by decide +kernel
  have starts : t.stream.kind = .keyword .CASE := by decide +kernel
  exact ⟨s, t, rfl, rfl, opens, starts, (groups_passed s).1 opens, ((groups_passed t).2 starts).1,
    by decide +kernel, by decide +kernel, by decide +kernel⟩

end Parser

end SqlRouting
