import SqlRouting.Proofs.Shape
import SqlRouting.Proofs.Runs
import SqlRouting.Statement.Splice

/-!
# Passages of a statement

A parse passes the tokens of a statement in passages: a reference through an owner, a star with an
owner, the name of a table, a balanced group, or any other token by itself. Only names of tables and
owners with a rule are marked by edits, so the passages tell which of the names are.

## Main definitions

* `SqlRouting.Passage` — some tokens that are passed together.
* `SqlRouting.Passage.edits` — the edits at the names of a passage.
* `SqlRouting.Trail` — a part of a parse with its passages.
* `SqlRouting.Parser.Leads` — a parser whose successes lead to related states.

## Main results

* `SqlRouting.Passage.valid` — no token of a passage is invalid.
* `SqlRouting.Parser.LeadsFrom.bind`, `LeadsFrom.look` — sequences of parsers that lead to related
  states.
* `SqlRouting.Parser.Leads.commaSeparated` — repetition of such a parser.
-/

set_option autoImplicit false

namespace SqlRouting

open TokenStream

/-! ## Edits at names -/

namespace Edit

/-- The edits at the names of tables among some edits. -/
def atNames (edits : List Edit) : List Edit :=
  edits.filter (·.kind == .table)

/-- The edits at names among two lists of edits are those of the one and of the other. -/
@[simp] lemma atNames_append (before after : List Edit) :
    atNames (before ++ after) = atNames before ++ atNames after :=
  List.filter_append ..

/-- The edits among some that insert text or mark inserted values. -/
def additions (edits : List Edit) : List Edit :=
  edits.filter fun edit =>
    [.items, .orderBy, .insertColumns, .insertValues].contains edit.kind

/-- The additions among two lists of edits are those of the one and of the other. -/
@[simp] lemma additions_append (before after : List Edit) :
    additions (before ++ after) = additions before ++ additions after :=
  List.filter_append ..

/-- Only additions insert text. -/
lemma insertions_additions (edits : List Edit) : insertions (additions edits) = insertions edits := by
  rw [insertions, additions, List.filterMap_filter, insertions]
  congr
  funext edit
  cases edit <;> rfl

/-- The insertions of two lists of edits are those of the one and of the other. -/
@[simp] lemma insertions_append (before after : List Edit) :
    insertions (before ++ after) = insertions before ++ insertions after :=
  List.filterMap_append ..

/-- The edit is at the name of a table that starts and stops within some tokens. -/
def Within (tokens : List Token) (edit : Edit) : Prop :=
  ∃ span name written, edit = .table span name written ∧
    (∃ token ∈ tokens, span.start = token.span.start) ∧
    ∃ token ∈ tokens, span.stop = token.span.start ∨ span.stop = token.span.stop

end Edit

/-! ## Passages -/

/-- The name that a token writes, if it is one. -/
def Token.name? (token : Token) : Option String :=
  match token.kind with
  | .identifier name => some name
  | _ => none

/-- Some tokens that a parse passes together. -/
inductive Passage
  /-- A token by itself. -/
  | single (token : Token)
  /-- A reference to a column through an owner. -/
  | reference (owner dot column : Token)
  /-- A star with an owner, as an item of a select list. -/
  | star (owner dot mark : Token)
  /-- The name of a table. -/
  | source (name : Token)
  /-- The name of a table after a schema. -/
  | schemaSource (schema dot name : Token)
  /-- A balanced group. -/
  | group (tokens : List Token)
deriving DecidableEq, Repr

/-- A balanced group starts at a token of this kind. -/
def Opens (kind : TokenKind) : Prop :=
  kind = .symbol .leftParen ∨ kind = .keyword .CASE

namespace Passage

/-- The tokens of a passage. -/
def tokens : Passage → List Token
  | .single token => [token]
  | .reference owner dot column => [owner, dot, column]
  | .star owner dot mark => [owner, dot, mark]
  | .source name => [name]
  | .schemaSource schema dot name => [schema, dot, name]
  | .group tokens => tokens

/-- The tokens of a passage are such that they can be passed together. -/
def Readable : Passage → Prop
  | .single token => token.kind.isBroken = false ∧ token.kind ≠ .symbol .dot
  | .reference owner dot column => owner.name?.isSome = true ∧ dot.kind = .symbol .dot ∧
      Grammar.namesColumn column.kind = true
  | .star owner dot mark => owner.name?.isSome = true ∧ dot.kind = .symbol .dot ∧
      mark.kind = .symbol .star
  | .source name => name.name?.isSome = true
  | .schemaSource schema dot name => schema.name?.isSome = true ∧ dot.kind = .symbol .dot ∧
      name.name?.isSome = true
  | .group tokens => Grammar.Group tokens ∧ ∃ first rest, tokens = first :: rest ∧ Opens first.kind

/-- The edit at the name of a table. -/
def nameEdit (source : String) (span : Span) (name : Token) : Edit :=
  .table span (Text.unquoted (name.name?.getD "")) (span.text source)

/-- The edits at the names of a passage: at the owner of a reference if there is a rule for it, and at
every name of a table. -/
def edits (rules : ShardingRule) (source : String) : Passage → List Edit
  | .reference owner dot _ =>
    let name := owner.name?.getD ""
    let span : Span := ⟨owner.span.start, dot.span.start⟩
    if (rules.find? name).isSome then [.table span name (span.text source)] else []
  | .source name => [nameEdit source name.span name]
  | .schemaSource schema _ name => [nameEdit source ⟨schema.span.start, name.span.stop⟩ name]
  | _ => []

/-- The edits of a passage are at names that start and stop within its tokens. -/
lemma mem_edits {rules : ShardingRule} {source : String} {passage : Passage} {edit : Edit}
    (mem : edit ∈ passage.edits rules source) : edit.Within passage.tokens := by
  cases passage with
  | reference owner dot column =>
    simp only [edits] at mem
    split at mem
    · obtain rfl := List.mem_singleton.1 mem
      exact ⟨_, _, _, rfl, ⟨owner, by simp [tokens], rfl⟩, dot, by simp [tokens], .inl rfl⟩
    · cases mem
  | source name =>
    obtain rfl := List.mem_singleton.1 mem
    exact ⟨_, _, _, rfl, ⟨name, by simp [tokens], rfl⟩, name, by simp [tokens], .inr rfl⟩
  | schemaSource schema dot name =>
    obtain rfl := List.mem_singleton.1 mem
    exact ⟨_, _, _, rfl, ⟨schema, by simp [tokens], rfl⟩, name, by simp [tokens], .inr rfl⟩
  | single | star | group => cases mem

/-- A name is a valid token. -/
lemma valid_of_name {token : Token} (isName : token.name?.isSome = true) :
    token.kind.isBroken = false := by
  unfold Token.name? at isName
  split at isName
  · rename_i same
    rw [same]
    rfl
  · cases isName

/-- A symbol is a valid token. -/
lemma valid_of_symbol {token : Token} {symbol : Symbol} (same : token.kind = .symbol symbol) :
    token.kind.isBroken = false := by
  rw [same]
  rfl

/-- What names a column is a valid token. -/
lemma valid_of_namesColumn {kind : TokenKind} (isName : Grammar.namesColumn kind = true) :
    kind.isBroken = false := by
  cases kind <;> first | rfl | cases isName

/-- No token of a group is invalid. -/
lemma valid_of_splitGroup {brackets : Brackets} {depth : Nat} {tokens group rest : List Token}
    (split : splitGroup? brackets depth tokens = some (group, rest)) :
    ∀ token ∈ group, token.kind.isBroken = false := by
  induction tokens generalizing depth group with
  | nil => cases split
  | cons first tokens ih =>
    simp only [splitGroup?] at split
    split at split
    · cases split
    · rename_i valid
      rw [Bool.not_eq_true] at valid
      split at split
      · cases split
        simpa using valid
      · obtain ⟨⟨inner, _⟩, found, same⟩ := Option.map_eq_some_iff.1 split
        cases same
        exact List.forall_mem_cons.2 ⟨valid, ih found⟩

/-- No token of a passage is invalid. -/
lemma valid {passage : Passage} (readable : passage.Readable) :
    ∀ token ∈ passage.tokens, token.kind.isBroken = false := by
  cases passage with
  | single token => simpa [tokens] using readable.1
  | reference owner dot column =>
    obtain ⟨isOwner, isDot, isColumn⟩ := readable
    simp [tokens, valid_of_name isOwner, valid_of_symbol isDot, valid_of_namesColumn isColumn]
  | star owner dot mark =>
    obtain ⟨isOwner, isDot, isStar⟩ := readable
    simp [tokens, valid_of_name isOwner, valid_of_symbol isDot, valid_of_symbol isStar]
  | source name =>
    have isName : name.name?.isSome = true := readable
    simpa [tokens] using valid_of_name isName
  | schemaSource schema dot name =>
    obtain ⟨isSchema, isDot, isName⟩ := readable
    simp [tokens, valid_of_name isSchema, valid_of_symbol isDot, valid_of_name isName]
  | group tokens =>
    rcases readable.1 with split | split
    · exact valid_of_splitGroup split
    · exact valid_of_splitGroup split

end Passage

/-! ## Trails -/

/-- A part of a parse, in which some passages are passed, their names are marked, and nothing is
inserted or marked as inserted values. -/
structure Trail (rules : ShardingRule) (s : ParserState) (passages : List Passage)
    (s' : ParserState) : Prop where
  /-- Each passage can be passed. -/
  readable : ∀ passage ∈ passages, passage.Readable
  /-- Their tokens come first. -/
  ahead : s.stream.ahead = passages.flatMap Passage.tokens ++ s'.stream.ahead
  /-- The stream is moved past them. -/
  stream : s'.stream = s.stream.advanceBy (passages.flatMap Passage.tokens).length
  /-- The edits at their names are recorded. -/
  names : Edit.atNames s'.context.edits =
    Edit.atNames s.context.edits ++ passages.flatMap (Passage.edits rules s.stream.source)
  /-- Nothing is inserted, and no inserted values are marked. -/
  additions : Edit.additions s'.context.edits = Edit.additions s.context.edits

/-- One state follows from another by a trail. -/
def Follows (rules : ShardingRule) (s s' : ParserState) : Prop :=
  ∃ passages, Trail rules s passages s'

namespace Trail

variable {rules : ShardingRule} {s s₁ s' : ParserState} {passages more : List Passage}

/-- Standing still is a trail. -/
lemma refl (rules : ShardingRule) (s : ParserState) : Trail rules s [] s :=
  ⟨by simp, rfl, rfl, by simp, rfl⟩

/-- A trail stays in its text. -/
lemma source_eq (h : Trail rules s passages s') : s'.stream.source = s.stream.source := by
  rw [h.stream, source_advanceBy]

/-- A trail after a trail is a trail. -/
lemma trans (h : Trail rules s passages s₁) (h' : Trail rules s₁ more s') :
    Trail rules s (passages ++ more) s' where
  readable passage mem := (List.mem_append.1 mem).elim (h.readable passage) (h'.readable passage)
  ahead := by rw [h.ahead, h'.ahead, List.flatMap_append, List.append_assoc]
  stream := by
    rw [h'.stream, h.stream, advanceBy_advanceBy, List.flatMap_append, List.length_append]
  names := by
    rw [h'.names, h.names, h.source_eq, List.flatMap_append, List.append_assoc]
  additions := h'.additions.trans h.additions

/-- Recording something that is neither an edit at a name nor an addition goes on with a trail. -/
lemma record (h : Trail rules s passages s₁) {context : Context}
    (names : Edit.atNames context.edits = Edit.atNames s₁.context.edits)
    (additions : Edit.additions context.edits = Edit.additions s₁.context.edits) :
    Trail rules s passages { s₁ with context } :=
  ⟨h.readable, h.ahead, h.stream, names.trans h.names, additions.trans h.additions⟩

/-- The tokens of a trail are valid. -/
lemma valid (h : Trail rules s passages s') :
    ∀ token ∈ passages.flatMap Passage.tokens, token.kind.isBroken = false := by
  intro token mem
  obtain ⟨passage, isPassage, mem⟩ := List.mem_flatMap.1 mem
  exact Passage.valid (h.readable passage isPassage) token mem

end Trail

/-! ## Parsers that lead to related states -/

namespace Parser

/-- A relation between states that any number of steps keeps. -/
class Steady (R : ParserState → ParserState → Prop) : Prop where
  /-- Standing still keeps it. -/
  refl (s : ParserState) : R s s
  /-- One step after the other keeps it. -/
  trans {s s₁ s' : ParserState} (first : R s s₁) (second : R s₁ s') : R s s'

variable {α β : Type} {R : ParserState → ParserState → Prop} {start : ParserState → Prop}

/-- From the states where `start` holds, each success of `p` leads to a related state. -/
def LeadsFrom (R : ParserState → ParserState → Prop) (start : ParserState → Prop) (p : Parser α) :
    Prop :=
  ∀ s a s', start s → p.run s = .ok (a, s') → R s s'

/-- Each success of `p` leads to a related state. -/
def Leads (R : ParserState → ParserState → Prop) (p : Parser α) : Prop :=
  LeadsFrom R (fun _ => True) p

/-- A parser that leads to related states does so from any states. -/
lemma Leads.leadsFrom {p : Parser α} (h : Leads R p) : LeadsFrom R start p :=
  fun s a s' _ => h s a s' trivial

/-- The states of a success are related. -/
lemma Leads.related {p : Parser α} (h : Leads R p) {s s' : ParserState} {a : α}
    (success : p.run s = .ok (a, s')) : R s s' :=
  h s a s' trivial success

/-- Related states are related by a weaker relation. -/
lemma Leads.mono {Q : ParserState → ParserState → Prop} {p : Parser α}
    (weaker : ∀ s s', R s s' → Q s s') (h : Leads R p) : Leads Q p :=
  fun s a s' holds success => weaker s s' (h s a s' holds success)

/-- A failing parser leads nowhere. -/
lemma leads_unexpected (expected : Expectation) : LeadsFrom R start (@unexpected α expected) :=
  fun _ _ _ _ success => absurd success run_unexpected_ne

/-- A failing parser leads nowhere. -/
lemma leads_unsupported (construct : Construct) (span : Span) :
    LeadsFrom R start (@unsupported α construct span) :=
  fun _ _ _ _ success => absurd success run_unsupported_ne

namespace LeadsFrom

variable [steady : Steady R]

/-- Giving a value stands still. -/
lemma pure (a : α) : LeadsFrom R start (pure a : Parser α) := by
  intro s b s' _ success
  obtain ⟨-, rfl⟩ := run_pure_ok.1 success
  exact steady.refl s

/-- A sequence leads to related states if its parts do. -/
lemma bind {p : Parser α} {f : α → Parser β} (hp : LeadsFrom R start p)
    (hf : ∀ a, Leads R (f a)) : LeadsFrom R start (p >>= f) := by
  intro s b s' holds success
  obtain ⟨a, s₁, first, second⟩ := run_bind_ok.1 success
  exact steady.trans (hp s a s₁ holds first) ((hf a).related second)

omit steady in
/-- What is seen by looking is known of the state from which a sequence goes on. -/
lemma look {p : Parser α} {value : ParserState → α} {f : α → Parser β} (looks : Looks p value)
    (hf : ∀ a, LeadsFrom R (fun s => start s ∧ value s = a) (f a)) :
    LeadsFrom R start (p >>= f) := by
  intro s b s' holds success
  rw [looks.run_bind] at success
  exact hf (value s) s b s' ⟨holds, rfl⟩ success

omit steady in
/-- A choice leads to related states if both of its sides do. -/
lemma ite {c : Prop} [Decidable c] {p q : Parser α} (hp : c → LeadsFrom R start p)
    (hq : ¬ c → LeadsFrom R start q) : LeadsFrom R start (if c then p else q) := by
  by_cases holds : c
  · rw [if_pos holds]
    exact hp holds
  · rw [if_neg holds]
    exact hq holds

end LeadsFrom

section Steady

variable [steady : Steady R]

/-- A result that needs no state stands still. -/
lemma leads_lift (result : Except ParseError α) : LeadsFrom R start (liftM result : Parser α) := by
  intro s a s' _ success
  obtain ⟨-, rfl⟩ := run_lift_ok.1 success
  exact steady.refl s

/-- Refusing keywords stands still. -/
lemma leads_refuseKeywords (keywords : List Keyword) : Leads R (refuseKeywords keywords) := by
  intro s a s' _ success
  rw [run_refuseKeywords_ok success]
  exact steady.refl s

/-- Repetition leads to related states if what is repeated does, and so does a comma. -/
lemma Leads.commaSeparated {item : Parser α} (h : Leads R item)
    (comma : Leads R (skipSymbol .comma)) : Leads R (commaSeparated item) := by
  have upTo (n : Nat) : Leads R (commaSeparatedUpTo item n) := by
    induction n with
    | zero => exact h.bind fun _ => .pure _
    | succ n ih =>
      refine h.bind fun first => .bind comma fun more => ?_
      exact .ite (fun _ => ih.bind fun _ => .pure _) fun _ => .pure _
  exact .look looks_remaining fun n => (upTo n).leadsFrom

/-- A loop over a list leads to related states if its steps do. -/
lemma Leads.foldlM {step : β → α → Parser β} (each : ∀ b a, Leads R (step b a)) (as : List α) :
    ∀ b, Leads R (as.foldlM step b) := by
  induction as with
  | nil => exact fun b => .pure b
  | cons a as ih =>
    intro b
    rw [List.foldlM_cons]
    exact (each b a).bind ih

/-- Recording several things one after the other leads to related states if recording each does. -/
lemma leads_forM {record : α → Parser Unit} {as : List α} (h : ∀ a ∈ as, Leads R (record a)) :
    Leads R (as.forM record) := by
  induction as with
  | nil => exact .pure ()
  | cons a as ih =>
    obtain ⟨first, others⟩ := List.forall_mem_cons.1 h
    show Leads R (record a >>= fun _ => as.forM record)
    exact .bind first fun _ => ih others

end Steady

/-! ## Steps past tokens -/

/-- A relation between states that a step past any valid token but a dot keeps. -/
class Advancing (R : ParserState → ParserState → Prop) : Prop extends Steady R where
  /-- A step past a token keeps it. -/
  token {s : ParserState} {kind : TokenKind} (same : s.stream.kind = kind)
    (valid : kind.isBroken = false := by rfl) (noDot : kind ≠ .symbol .dot := by simp) :
    R s s.advance

/-- A relation between states that also steps past balanced groups keep, and any recording of other
things than edits. -/
class Passing (R : ParserState → ParserState → Prop) : Prop extends Advancing R where
  /-- A step past a group keeps it. -/
  group {s : ParserState} {brackets : Brackets} {group rest : List Token}
    (isBrackets : brackets = .parentheses ∨ brackets = .conditional) (opens : Opens s.stream.kind)
    (split : splitGroup? brackets 0 s.stream.ahead = some (group, rest)) :
    R s { s with stream := s.stream.advanceBy group.length }
  /-- Recording keeps it. -/
  record {s : ParserState} {context : Context} (same : context.edits = s.context.edits) :
    R s { s with context }

/-- A token of this kind is valid and no dot. -/
def Passable (kind : TokenKind) : Prop :=
  kind.isBroken = false ∧ kind ≠ .symbol .dot

section Advancing

variable [advancing : Advancing R]

/-- Passing a valid token but a dot leads to related states. -/
lemma leads_advance (known : ∀ s, start s → Passable s.stream.kind) :
    LeadsFrom R start advance := by
  intro s token s' holds success
  cases success
  obtain ⟨valid, noDot⟩ := known s holds
  exact advancing.token rfl valid noDot

/-- A sequence that starts with passing a valid token but a dot leads to related states. -/
lemma related_of_advance {kind : TokenKind} {f : Token → Parser α} {s s' : ParserState} {a : α}
    (same : s.stream.kind = kind) (valid : kind.isBroken = false) (noDot : kind ≠ .symbol .dot)
    (success : (advance >>= f).run s = .ok (a, s')) (hf : ∀ token, Leads R (f token)) : R s s' :=
  advancing.trans (advancing.token same valid noDot) ((hf _).related success)

/-- Skipping a symbol but a dot leads to related states. -/
lemma leads_skipSymbol {symbol : Symbol} (noDot : symbol ≠ .dot := by simp) :
    LeadsFrom R start (skipSymbol symbol) := by
  intro s a s' _ success
  rw [run_skipSymbol] at success
  split at success
  · rename_i present
    cases success
    exact advancing.token present rfl (by simpa using noDot)
  · cases success
    exact advancing.refl s

/-- Skipping a keyword leads to related states. -/
lemma leads_skipKeyword (keywords : List Keyword) : LeadsFrom R start (skipKeyword keywords) := by
  intro s a s' _ success
  rw [run_skipKeyword] at success
  split at success
  · rename_i present
    obtain ⟨keyword, -, kind⟩ := checkAnyKeyword_iff.1 present
    cases success
    exact advancing.token kind
  · cases success
    exact advancing.refl s

/-- Accepting a symbol but a dot leads to related states. -/
lemma leads_acceptSymbol {symbol : Symbol} (noDot : symbol ≠ .dot := by simp) :
    LeadsFrom R start (acceptSymbol symbol) := by
  intro s token s' _ success
  obtain ⟨present, rfl, rfl⟩ := run_acceptSymbol_ok.1 success
  exact advancing.token present rfl (by simpa using noDot)

/-- Accepting a keyword leads to related states. -/
lemma leads_acceptKeyword (keyword : Keyword) : LeadsFrom R start (acceptKeyword keyword) := by
  intro s token s' _ success
  obtain ⟨present, rfl, rfl⟩ := run_acceptKeyword_ok.1 success
  exact advancing.token present

/-- Skipping keywords one after the other leads to related states. -/
lemma leads_skipAllKeywords (keywords : List Keyword) :
    LeadsFrom R start (skipAllKeywords keywords) := by
  have front (ahead : List Token) : ∀ s : ParserState, s.stream.ahead = ahead →
      R s ⟨s.stream.advanceBy (ahead.takeWhile (·.kind.isKeywordIn keywords)).length,
        s.context⟩ := by
    induction ahead with
    | nil => exact fun s _ => advancing.refl s
    | cons token ahead ih =>
      intro s same
      rw [List.takeWhile_cons]
      split
      · rename_i isKeyword
        have rest : s.advance.stream.ahead = ahead := by
          simp [ParserState.advance, TokenStream.advance, same]
        obtain ⟨keyword, isKeyword⟩ : ∃ keyword, token.kind = .keyword keyword := by
          unfold TokenKind.isKeywordIn at isKeyword
          split at isKeyword
          · exact ⟨_, ‹_›⟩
          · cases isKeyword
        exact advancing.trans (advancing.token ((kind_of_ahead_cons same).trans isKeyword))
          (ih s.advance rest)
      · exact advancing.refl s
  intro s a s' _ success
  obtain ⟨stream, same, rfl⟩ := run_ofStream_ok.1 success
  cases same
  exact front s.stream.ahead s rfl

/-- Repetition leads to related states if what is repeated does. -/
lemma Leads.list {item : Parser α} (h : Leads R item) : LeadsFrom R start (Parser.commaSeparated item) :=
  (h.commaSeparated leads_skipSymbol).leadsFrom

end Advancing

section Passing

variable [passing : Passing R]

/-- Changing other things than edits leads to related states. -/
lemma leads_modifyContext {change : Context → Context}
    (same : ∀ context, (change context).edits = context.edits) :
    LeadsFrom R start (modifyContext change) := by
  intro s a s' _ success
  cases success
  exact passing.record (same s.context)

/-- Passing a conditional leads to related states. -/
lemma leads_skipConditional (known : ∀ s, start s → s.stream.kind = .keyword .CASE) :
    LeadsFrom R start (skipGroup .conditional) := by
  intro s a s' holds success
  obtain ⟨group, rest, split, rfl⟩ := run_skipGroup_ok.1 success
  exact passing.trans (passing.group (.inr rfl) (.inr (known s holds)) split) (passing.record rfl)

/-- Passing a parenthesised group, if there is one, leads to related states. -/
lemma leads_skipParentheses : LeadsFrom R start skipParentheses := by
  intro s a s' _ success
  by_cases present : s.stream.kind = .symbol .leftParen
  · obtain ⟨group, rest, split, rfl⟩ := run_skipParentheses_of_eq present success
    exact passing.trans (passing.group (.inl rfl) (.inl present) split) (passing.record rfl)
  · rw [run_skipParentheses_of_ne present success]
    exact passing.refl s

/-- Counting a placeholder leads to related states. -/
lemma leads_placeholder (known : ∀ s, start s → s.stream.kind = .symbol .question) :
    LeadsFrom R start placeholder := by
  intro s index s' holds success
  cases success
  exact passing.trans (passing.token (known s holds)) (passing.record rfl)

end Passing

end Parser

open SqlRouting.Parser

/-! ## Trails are kept -/

/-- One state follows from another by tokens that are passed one by one. -/
def FollowsSingly (rules : ShardingRule) (s s' : ParserState) : Prop :=
  ∃ tokens : List Token, Trail rules s (tokens.map .single) s'

/-- A valid token but a dot is passed by itself. -/
lemma trail_token {rules : ShardingRule} {s : ParserState} {kind : TokenKind}
    (same : s.stream.kind = kind) (valid : kind.isBroken = false) (noDot : kind ≠ .symbol .dot) :
    Trail rules s [.single ⟨kind, s.stream.current.span⟩] s.advance := by
  refine ⟨by simpa [Passage.Readable] using ⟨valid, noDot⟩, ?_, rfl,
    by simp [Passage.edits, ParserState.advance], rfl⟩
  refine ahead_of_kind same ?_
  rintro rfl
  cases valid

instance (rules : ShardingRule) : Advancing (FollowsSingly rules) where
  refl s := ⟨[], .refl rules s⟩
  trans := by
    rintro s s₁ s' ⟨tokens, first⟩ ⟨more, second⟩
    refine ⟨tokens ++ more, ?_⟩
    rw [List.map_append]
    exact first.trans second
  token same valid noDot := ⟨[_], trail_token same valid noDot⟩

instance (rules : ShardingRule) : Passing (Follows rules) where
  refl s := ⟨[], .refl rules s⟩
  trans := by
    rintro s s₁ s' ⟨passages, first⟩ ⟨more, second⟩
    exact ⟨_, first.trans second⟩
  token same valid noDot := ⟨_, trail_token same valid noDot⟩
  group := by
    intro s brackets group rest isBrackets opens split
    have isGroup : Grammar.Group group := by
      rcases isBrackets with rfl | rfl
      · exact .inl (splitGroup_self split)
      · exact .inr (splitGroup_self split)
    obtain ⟨same, nonempty⟩ := eq_append_of_splitGroup split
    obtain ⟨first, inside, rfl⟩ := List.exists_cons_of_ne_nil nonempty
    rw [kind_of_ahead_cons same] at opens
    have readable : Passage.Readable (.group (first :: inside)) := ⟨isGroup, first, inside, rfl, opens⟩
    refine ⟨[.group (first :: inside)], List.forall_mem_singleton.2 readable, ?_,
      by simp [Passage.tokens], by simp [Passage.edits], rfl⟩
    rw [ahead_advanceBy, same]
    simp [Passage.tokens]
  record same := ⟨[], by simp, rfl, rfl, by simp [same], by rw [same]⟩

end SqlRouting
