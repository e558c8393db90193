import SqlRouting.Proofs.Expression
import SqlRouting.Proofs.Moved

/-!
# Parses side by side

Two texts are read side by side, of which one has the tokens of the other up to some place, further on
by the same number of bytes. A parser echoes another if it does the same up to that place: it succeeds
where the other does, gives the same value further on, and leaves a state that is still beside that of
the other. What the two states have collected before need not be the same, as long as whatever is
recorded keeps it alike. How the two texts go on behind the place has no influence, as long as neither
goes on with an expression.

## Main definitions

* `SqlRouting.Likeness` — a way for what two states have collected to be alike.
* `SqlRouting.Alignment` — two texts with the tokens that are left where they part.
* `SqlRouting.Twin` — two states side by side, with the tokens up to the place where they part.
* `SqlRouting.Parser.Echoes` — a parser that does what another does, side by side with it.

## Main results

* `SqlRouting.Parser.Echoes.bind` — sequences echo each other if their parts do.
* `SqlRouting.Parser.Echoes.commaSeparated` — lists echo each other if their items do.
-/

set_option autoImplicit false

namespace SqlRouting

open TokenStream

/-! ## Tokens -/

namespace TokenStream

/-- The kind of the first of some tokens, which is the end of the input if there are none. -/
def firstKind (tokens : List Token) : TokenKind :=
  (tokens.head?.map Token.kind).getD .endOfInput

/-- The kind of a stream is that of its first token. -/
lemma kind_eq_firstKind (stream : TokenStream) : stream.kind = firstKind stream.ahead := by
  cases ahead : stream.ahead with
  | nil => exact kind_of_ahead_nil ahead
  | cons token rest => exact kind_of_ahead_cons ahead

/-- Tokens further on have the placeholders of the tokens. -/
lemma placeholders_moved (d : Nat) (tokens : List Token) :
    placeholders (tokens.map (Token.moved d)) = placeholders tokens := by
  rw [placeholders, placeholders, List.countP_map]
  rfl

/-- A group is split off wherever it stands, and whatever follows it. -/
lemma splitGroup_replace {brackets : Brackets} {depth : Nat} {tokens group rest : List Token}
    (split : splitGroup? brackets depth tokens = some (group, rest)) (d : Nat) (other : List Token) :
    splitGroup? brackets depth (group.map (Token.moved d) ++ other) =
      some (group.map (Token.moved d), other) := by
  induction tokens generalizing depth group with
  | nil => cases split
  | cons token tokens ih =>
    simp only [splitGroup?] at split
    split at split
    · cases split
    · rename_i whole
      have whole' : ¬ (token.moved d).kind.isBroken = true := whole
      split at split
      · rename_i closed
        have closed' : (brackets.depthAfter depth (token.moved d).kind == 0) = true := closed
        obtain ⟨rfl, -⟩ := Prod.mk.inj (Option.some.inj split)
        rw [List.map_singleton, List.singleton_append, splitGroup?, if_neg whole']
        exact if_pos closed'
      · rename_i inside
        have inside' : ¬ (brackets.depthAfter depth (token.moved d).kind == 0) = true := inside
        obtain ⟨⟨inner, left⟩, found, same⟩ := Option.map_eq_some_iff.1 split
        obtain ⟨rfl, rfl⟩ := Prod.mk.inj same
        rw [List.map_cons, List.cons_append, splitGroup?, if_neg whole']
        exact (if_neg inside').trans (congrArg _ (ih found))

end TokenStream

/-! ## Further on in a text -/

/-- A part of a text `d` bytes further on. -/
def Span.moved (d : Nat) (span : Span) : Span :=
  ⟨span.start + d, span.stop + d⟩

/-- An expression `d` bytes further on in a text. -/
def Expression.moved (d : Nat) (expression : Expression) : Expression :=
  ⟨expression.node, expression.span.moved d⟩

/-- An edit `d` bytes further on in a text. -/
def Edit.moved (d : Nat) : Edit → Edit
  | .table span tableName written => .table (span.moved d) tableName written
  | .items start texts => .items (start + d) texts
  | .orderBy start texts => .orderBy (start + d) texts
  | .offset span value => .offset (span.moved d) value
  | .rowCount span value => .rowCount (span.moved d) value
  | .insertColumns start columns => .insertColumns (start + d) columns
  | .insertValues start form => .insertValues (start + d) form

/-- An edit that is not moved is the same. -/
@[simp] lemma Edit.moved_zero (edit : Edit) : edit.moved 0 = edit := by
  cases edit <;> rfl

/-! ## What is collected side by side -/

/-- A way for the contexts of two states to be alike, of which the other stands `d` bytes further on: what
both record keeps them alike. -/
structure Likeness (d : Nat) where
  /-- The contexts are alike. -/
  alike : Context → Context → Prop
  /-- They have the same tables. -/
  tables {c c' : Context} (h : alike c c') : c'.tables = c.tables
  /-- They have counted as many placeholders. -/
  parameters {c c' : Context} (h : alike c c') : c'.parameters = c.parameters
  /-- An edit is recorded. -/
  addEdit {c c' : Context} (h : alike c c') (edit : Edit) :
    alike (c.addEdit edit) (c'.addEdit (edit.moved d))
  /-- Conditions are recorded. -/
  addConditions {c c' : Context} (h : alike c c') (conditions : List RouteCondition) :
    alike (c.addConditions conditions) (c'.addConditions conditions)
  /-- A table is recorded. -/
  addTable {c c' : Context} (h : alike c c') (table : Table) : alike (c.addTable table) (c'.addTable table)
  /-- Placeholders are counted. -/
  passParameters {c c' : Context} (h : alike c c') (count : Nat) :
    alike (c.passParameters count) (c'.passParameters count)

/-! ## States side by side -/

/-- Two texts that are compared up to a place where they part. -/
structure Alignment where
  /-- The one text. -/
  text : String
  /-- The other text. -/
  other : String
  /-- The tokens of the one text from the place on. -/
  left : List Token
  /-- The tokens of the other text from the place on. -/
  right : List Token
  /-- How many bytes further on the tokens stand in the other text. -/
  shift : Nat
  /-- The offsets between which the same is written. -/
  within : Nat → Prop
  /-- The same is written between the offsets. -/
  slices : ∀ {start stop : Nat}, within start → within stop →
    Text.slice other (start + shift) (stop + shift) = Text.slice text start stop
  /-- The texts end together, if at all, and their ends are as far apart. -/
  ending : left = [] → right = [] ∧ within (Text.byteLength text.toList) ∧
    Text.byteLength other.toList = Text.byteLength text.toList + shift
  /-- What is collected is alike. -/
  contexts : Likeness shift

/-- Two states side by side, with the tokens `common` up to the place where they part. -/
structure Twin (al : Alignment) (common : List Token) (s t : ParserState) : Prop where
  /-- The one state is one of the one text. -/
  source : s.stream.source = al.text
  /-- The other state is one of the other text. -/
  source' : t.stream.source = al.other
  /-- The tokens of the one text. -/
  ahead : s.stream.ahead = common ++ al.left
  /-- The same tokens further on. -/
  ahead' : t.stream.ahead = common.map (Token.moved al.shift) ++ al.right
  /-- The tokens stand between the offsets. -/
  inside : ∀ token ∈ common, al.within token.span.start ∧ al.within token.span.stop
  /-- The tokens are read from behind an offset on. -/
  previous : al.within s.stream.previousEnd
  /-- The same offset further on. -/
  previous' : t.stream.previousEnd = s.stream.previousEnd + al.shift
  /-- The end of the one text is known. -/
  length : s.stream.length = Text.byteLength al.text.toList
  /-- The end of the other text is known. -/
  length' : t.stream.length = Text.byteLength al.other.toList
  /-- What is collected is alike. -/
  alike : al.contexts.alike s.context t.context

/-- Two states stand side by side. -/
def Beside (al : Alignment) (s t : ParserState) : Prop :=
  ∃ common, Twin al common s t

namespace Twin

variable {al : Alignment} {common : List Token} {token : Token} {s t s' : ParserState}

/-- The same tables are known. -/
lemma tables (h : Twin al common s t) : t.context.tables = s.context.tables :=
  al.contexts.tables h.alike

/-- As many placeholders are counted. -/
lemma parameters (h : Twin al common s t) : t.context.parameters = s.context.parameters :=
  al.contexts.parameters h.alike

/-- The current tokens are of the same kind. -/
lemma kind_eq (h : Twin al (token :: common) s t) : t.stream.kind = s.stream.kind := by
  rw [kind_of_ahead_cons h.ahead, kind_of_ahead_cons h.ahead', Token.kind_moved]

/-- The current tokens are of the same kind, unless the states stand where the texts part. -/
lemma kind_cases (h : Twin al common s t) : t.stream.kind = s.stream.kind ∨
    s.stream.kind = firstKind al.left ∧ t.stream.kind = firstKind al.right := by
  cases common with
  | nil =>
    rw [kind_eq_firstKind, kind_eq_firstKind, h.ahead, h.ahead']
    exact .inr ⟨rfl, rfl⟩
  | cons token common => exact .inl h.kind_eq

/-- The one current token stands between the offsets, and the other is the same further on. -/
lemma current (h : Twin al (token :: common) s t) : s.stream.current = token ∧
    t.stream.current = token.moved al.shift ∧ al.within token.span.start ∧ al.within token.span.stop := by
  refine ⟨?_, ?_, h.inside token List.mem_cons_self⟩
  · simp [TokenStream.current, h.ahead]
  · simp [TokenStream.current, h.ahead']

/-- The current tokens start as far apart as the texts. -/
lemma offset (h : Twin al (token :: common) s t) :
    al.within s.stream.offset ∧ t.stream.offset = s.stream.offset + al.shift := by
  obtain ⟨here, there, start, -⟩ := h.current
  rw [TokenStream.offset, TokenStream.offset, here, there]
  exact ⟨start, rfl⟩

/-- Behind the current tokens the states stand side by side. -/
lemma advance (h : Twin al (token :: common) s t) : Twin al common s.advance t.advance where
  source := h.source
  source' := h.source'
  ahead := congrArg List.tail h.ahead
  ahead' := congrArg List.tail h.ahead'
  inside := fun other mem => h.inside other (List.mem_cons_of_mem _ mem)
  previous := by
    obtain ⟨here, -, -, stop⟩ := h.current
    show al.within s.stream.current.span.stop
    rwa [here]
  previous' := by
    obtain ⟨here, there, -, -⟩ := h.current
    show t.stream.current.span.stop = s.stream.current.span.stop + al.shift
    rw [here, there]
    rfl
  length := h.length
  length' := h.length'
  alike := h.alike

/-- At the end of both texts advancing leaves the states side by side. -/
lemma advance_nil (h : Twin al [] s t) (ended : al.left = []) : Twin al [] s.advance t.advance := by
  obtain ⟨ended', within, longer⟩ := al.ending ended
  have ahead : s.stream.ahead = [] := h.ahead.trans ended
  have ahead' : t.stream.ahead = [] := h.ahead'.trans ended'
  have stop : s.stream.current.span.stop = Text.byteLength al.text.toList := by
    rw [TokenStream.current, ahead]
    exact h.length
  have stop' : t.stream.current.span.stop = Text.byteLength al.other.toList := by
    rw [TokenStream.current, ahead']
    exact h.length'
  refine { h with ahead := ?_, ahead' := ?_, previous := ?_, previous' := ?_ }
  · show s.stream.ahead.tail = al.left
    rw [ahead, ended]
    rfl
  · show t.stream.ahead.tail = al.right
    rw [ahead', ended']
    rfl
  · show al.within s.stream.current.span.stop
    rwa [stop]
  · show t.stream.current.span.stop = s.stream.current.span.stop + al.shift
    rw [stop, stop', longer]

/-- What is recorded on both sides keeps the states side by side, if it is alike. -/
lemma record {c c' : Context} (h : Twin al common s t) (alike : al.contexts.alike c c') :
    Twin al common { s with context := c } { t with context := c' } :=
  { h with alike := alike }

/-- Behind tokens in front of the place the states stand side by side. -/
lemma advanceBy {group rest : List Token} (h : Twin al (group ++ rest) s t) :
    Twin al rest { s with stream := s.stream.advanceBy group.length }
      { t with stream := t.stream.advanceBy group.length } := by
  induction group generalizing s t with
  | nil => exact h
  | cons token group ih => exact ih h.advance

/-- Where tokens are passed without passing the place, there are tokens in front of it. -/
lemma exists_append {tokens rest : List Token} (h : Twin al common s t)
    (passed : s.stream.ahead = tokens ++ rest) (reaches : al.left <:+ rest) :
    ∃ others, common = tokens ++ others := by
  obtain ⟨others, rfl⟩ := reaches
  refine ⟨others, ?_⟩
  rw [h.ahead, ← List.append_assoc] at passed
  exact List.append_cancel_right passed

end Twin

namespace Beside

variable {al : Alignment} {s t s' : ParserState}

/-- A token that is passed without passing the place is passed on both sides: it stands between the
offsets, and is the same further on. -/
lemma passed (h : Beside al s t) (reaches : al.left <:+ s.advance.stream.ahead) :
    t.stream.current = s.stream.current.moved al.shift ∧ al.within s.stream.current.span.start ∧
      al.within s.stream.current.span.stop ∧ Beside al s.advance t.advance := by
  obtain ⟨common, twin⟩ := h
  cases common with
  | nil =>
    -- nothing is passed without passing the place, unless the texts end there
    have ahead : s.stream.ahead = al.left := twin.ahead
    have suffix : al.left <:+ s.stream.ahead.tail := reaches
    rw [ahead] at suffix
    have ended : al.left = [] := by
      have shorter := suffix.length_le
      rw [List.length_tail] at shorter
      exact List.length_eq_zero_iff.1 (by omega)
    obtain ⟨ended', within, longer⟩ := al.ending ended
    have ends : s.stream.current = ⟨.endOfInput, ⟨s.stream.length, s.stream.length⟩⟩ := by
      rw [TokenStream.current, ahead, ended]
      rfl
    have ends' : t.stream.current = ⟨.endOfInput, ⟨t.stream.length, t.stream.length⟩⟩ := by
      rw [TokenStream.current, twin.ahead', ended']
      rfl
    rw [ends, ends', twin.length, twin.length', longer]
    exact ⟨rfl, within, within, [], twin.advance_nil ended⟩
  | cons token common =>
    obtain ⟨here, there, start, stop⟩ := twin.current
    rw [here, there]
    exact ⟨rfl, start, stop, common, twin.advance⟩

/-- Behind a token that is passed without passing the place, the states stand side by side, and the token
is there on both sides. -/
lemma advance {kind : TokenKind} (h : Beside al s t) (same : s.stream.kind = kind)
    (reaches : al.left <:+ s.advance.stream.ahead) :
    t.stream.kind = kind ∧ Beside al s.advance t.advance := by
  obtain ⟨there, -, -, beside⟩ := h.passed reaches
  exact ⟨(congrArg Token.kind there).trans same, beside⟩

/-- The token that is passed is written in the same way on both sides. -/
lemma text_current (h : Beside al s t) (reaches : al.left <:+ s.advance.stream.ahead) :
    t.stream.current.span.text t.stream.source = s.stream.current.span.text s.stream.source := by
  obtain ⟨there, start, stop, -⟩ := h.passed reaches
  obtain ⟨common, twin⟩ := h
  rw [twin.source, twin.source', there]
  exact al.slices start stop

/-- A token that is not there is not there on the other side, unless it is where the texts part. -/
lemma kind_ne {kind : TokenKind} (h : Beside al s t) (absent : s.stream.kind ≠ kind)
    (absent' : firstKind al.right ≠ kind) : t.stream.kind ≠ kind := by
  obtain ⟨common, twin⟩ := h
  rcases twin.kind_cases with same | ⟨-, same⟩
  · rwa [same]
  · rwa [same]

/-- Where the texts part in the one, they part in the other. -/
lemma twin_nil (h : Beside al s t) (ahead : s.stream.ahead = al.left) : Twin al [] s t := by
  obtain ⟨common, twin⟩ := h
  obtain rfl : common = [] := List.self_eq_append_left.1 (ahead.symm.trans twin.ahead)
  exact twin

/-- No keyword is there if none is there on the other side, unless it is where the texts part. -/
lemma checkAnyKeyword_eq_false {keywords : List Keyword} (h : Beside al s t)
    (absent : s.stream.checkAnyKeyword keywords = false)
    (noKeyword : (firstKind al.right).isKeywordIn keywords = false) :
    t.stream.checkAnyKeyword keywords = false := by
  obtain ⟨common, twin⟩ := h
  rw [checkAnyKeyword] at absent ⊢
  rcases twin.kind_cases with same | ⟨-, same⟩
  · rwa [same]
  · rwa [same]

/-- Both states are as many tokens in front of the place. -/
lemma remaining_add (h : Beside al s t) :
    t.stream.remaining + al.left.length = s.stream.remaining + al.right.length := by
  obtain ⟨common, twin⟩ := h
  rw [remaining, remaining, twin.ahead, twin.ahead', List.length_append, List.length_append,
    List.length_map]
  omega

end Beside

/-- Two texts with the same tokens in front of the place where they part start side by side. -/
lemma Alignment.beside_start (al : Alignment) {before : List Token} (still : al.shift = 0)
    (tokens : Lexer.tokens al.text = before ++ al.left)
    (tokens' : Lexer.tokens al.other = before ++ al.right)
    (inside : ∀ token ∈ before, al.within token.span.start ∧ al.within token.span.stop)
    (start : al.within 0) (alike : al.contexts.alike {} {}) :
    Beside al ⟨.ofText al.text, {}⟩ ⟨.ofText al.other, {}⟩ := by
  refine ⟨before, rfl, rfl, tokens, ?_, inside, start, ?_, rfl, rfl, alike⟩
  · have unmoved : before.map (Token.moved 0) = before :=
      (List.map_congr_left fun token _ => token.moved_zero).trans (List.map_id _)
    rw [still, unmoved]
    exact tokens'
  · rw [still]
    rfl

/-! ## Parsers side by side -/

namespace Parser

variable {α β : Type} {al : Alignment} {move : α → α} {move' : β → β}

/-- Side by side with `p`, from the states where `start` holds and as long as `p` does not pass the place
where the texts part, `q` succeeds with the value of `p` moved further on, and leaves a state beside that
of `p`. And `p` only moves forward. -/
structure EchoesFrom (al : Alignment) (start : ParserState → Prop) (move : α → α) (p q : Parser α) :
    Prop where
  /-- Only tokens in front are passed. -/
  forward : ∀ s a s', p.run s = .ok (a, s') → s'.stream.ahead <:+ s.stream.ahead
  /-- What `p` does, `q` does beside it. -/
  echo : ∀ s t a s', start s → Beside al s t → p.run s = .ok (a, s') →
    al.left <:+ s'.stream.ahead → ∃ t', q.run t = .ok (move a, t') ∧ Beside al s' t'

/-- Side by side with `p` from any states, `q` does the same. -/
def Echoes (al : Alignment) (move : α → α) (p q : Parser α) : Prop :=
  EchoesFrom al (fun _ => True) move p q

/-- A run only moves forward. -/
lemma suffix_of_run {records : Context → Context → Prop} {s s' : ParserState} {tokens : List Token}
    (run : Run records s tokens s') : s'.stream.ahead <:+ s.stream.ahead :=
  ⟨tokens, run.ahead_eq.symm⟩

namespace EchoesFrom

variable {start : ParserState → Prop}

/-- A parser that echoes another from any states does so from some. -/
lemma of_echoes {p q : Parser α} (h : Echoes al move p q) : EchoesFrom al start move p q :=
  ⟨h.forward, fun s t a s' _ => h.echo s t a s' trivial⟩

/-- Giving a value that is the other one moved. -/
lemma pure {a b : α} (moved : b = move a) :
    EchoesFrom al start move (pure a : Parser α) (pure b) where
  forward := by
    intro s c s' success
    obtain ⟨-, rfl⟩ := run_pure_ok.1 success
    exact List.suffix_refl _
  echo := by
    intro s t c s' _ beside success reaches
    obtain ⟨rfl, rfl⟩ := run_pure_ok.1 success
    exact ⟨t, run_pure_ok.2 ⟨moved, rfl⟩, beside⟩

/-- Sequences echo each other if their parts do, the second one for the values that the first one gives.
Whatever these are, the second one has to move forward. -/
lemma bindKnown {p q : Parser α} {f g : α → Parser β} (known : α → Prop)
    (first : EchoesFrom al start move p q)
    (knows : ∀ s t a s', Beside al s t → p.run s = .ok (a, s') → al.left <:+ s'.stream.ahead → known a)
    (moves : ∀ a s b s', (f a).run s = .ok (b, s') → s'.stream.ahead <:+ s.stream.ahead)
    (rest : ∀ a, known a → Echoes al move' (f a) (g (move a))) :
    EchoesFrom al start move' (p >>= f) (q >>= g) where
  forward := by
    intro s b s' success
    obtain ⟨a, s₁, read, last⟩ := run_bind_ok.1 success
    exact (moves _ _ _ _ last).trans (first.forward _ _ _ read)
  echo := by
    intro s t c s' holds beside success reaches
    obtain ⟨a, s₁, read, last⟩ := run_bind_ok.1 success
    have within := reaches.trans (moves _ _ _ _ last)
    obtain ⟨t₁, read', beside₁⟩ := first.echo s t a s₁ holds beside read within
    obtain ⟨t', last', beside'⟩ :=
      (rest a (knows s t a s₁ beside read within)).echo s₁ t₁ c s' trivial beside₁ last reaches
    exact ⟨t', run_bind_ok.2 ⟨_, t₁, read', last'⟩, beside'⟩

/-- Sequences echo each other if their parts do. -/
lemma bind {p q : Parser α} {f g : α → Parser β} (first : EchoesFrom al start move p q)
    (rest : ∀ a, Echoes al move' (f a) (g (move a))) :
    EchoesFrom al start move' (p >>= f) (q >>= g) :=
  .bindKnown (fun _ => True) first (fun _ _ _ _ _ _ _ => trivial) (fun a => (rest a).forward)
    fun a _ => rest a

/-- A parser that echoes another from some states does so from fewer. -/
lemma weaken {narrower : ParserState → Prop} {p q : Parser α} (h : EchoesFrom al start move p q)
    (implies : ∀ s, narrower s → start s) : EchoesFrom al narrower move p q :=
  ⟨h.forward, fun s t a s' holds => h.echo s t a s' (implies s holds)⟩

/-- Sequences that start with looking echo each other if they do for what is seen, which is known of the
state from which they go on. -/
lemma look (same : α → α → Prop) [Std.Refl same] {p q : Parser α} {value value' : ParserState → α}
    {f g : α → Parser β} (sees : Looks p value) (sees' : Looks q value')
    (alike : ∀ common s t, start s → Twin al common s t → same (value s) (value' t))
    (rest : ∀ a b, same a b → EchoesFrom al (fun s => start s ∧ value s = a) move' (f a) (g b)) :
    EchoesFrom al start move' (p >>= f) (q >>= g) where
  forward := by
    intro s b s' success
    rw [sees.run_bind] at success
    exact (rest _ _ (Std.Refl.refl _)).forward _ _ _ success
  echo := by
    intro s t b s' holds beside success reaches
    rw [sees.run_bind] at success
    rw [sees'.run_bind]
    obtain ⟨common, twin⟩ := beside
    exact (rest _ _ (alike common s t holds twin)).echo s t b s' ⟨holds, rfl⟩ ⟨common, twin⟩ success
      reaches

/-- Choices echo each other if their sides do. -/
lemma ite {c : Prop} [Decidable c] {p p' q q' : Parser α} (hp : c → EchoesFrom al start move p p')
    (hq : ¬ c → EchoesFrom al start move q q') :
    EchoesFrom al start move (if c then p else q) (if c then p' else q') := by
  by_cases holds : c
  · rw [if_pos holds, if_pos holds]
    exact hp holds
  · rw [if_neg holds, if_neg holds]
    exact hq holds

/-- A failing parser is echoed by any other. -/
lemma unexpected (expected : Expectation) (q : Parser α) :
    EchoesFrom al start move (Parser.unexpected expected) q :=
  ⟨fun _ _ _ success => absurd success run_unexpected_ne,
    fun _ _ _ _ _ _ success => absurd success run_unexpected_ne⟩

/-- A failing parser is echoed by any other. -/
lemma unsupported (construct : Construct) (span : Span) (q : Parser α) :
    EchoesFrom al start move (Parser.unsupported construct span) q :=
  ⟨fun _ _ _ success => absurd success run_unsupported_ne,
    fun _ _ _ _ _ _ success => absurd success run_unsupported_ne⟩

end EchoesFrom

/-- Each value is like itself. -/
instance : Std.Refl (@Eq α) :=
  ⟨fun _ => rfl⟩

/-- Where all values are alike, each value is like itself. -/
instance : Std.Refl (fun _ _ : α => True) :=
  ⟨fun _ => trivial⟩

/-- Where values are alike that look the same, each value is like itself. -/
instance {view : α → β} : Std.Refl (fun a b => view b = view a) :=
  ⟨fun _ => rfl⟩

/-- Where values are alike that are equal or have a property both, each value is like itself. -/
instance {holds : α → Prop} : Std.Refl (fun a b => b = a ∨ holds a ∧ holds b) :=
  ⟨fun _ => .inl rfl⟩

namespace Echoes

/-! ### Rules -/

/-- Parsers that look echo each other if what they see is the same further on. -/
lemma looks {p q : Parser α} {value value' : ParserState → α} (sees : Looks p value)
    (sees' : Looks q value')
    (moved : ∀ common s t, Twin al common s t → value' t = move (value s)) : Echoes al move p q where
  forward := by
    intro s a s' success
    cases (sees s).symm.trans success
    exact List.suffix_refl _
  echo := by
    intro s t a s' _ beside success reaches
    obtain ⟨common, twin⟩ := beside
    cases (sees s).symm.trans success
    exact ⟨t, moved common s t twin ▸ sees' t, common, twin⟩

/-- Results that need no state echo each other if they are the same. -/
lemma lift {result result' : Except ParseError α} (moved : ∀ a, result = .ok a → result' = .ok (move a)) :
    Echoes al move (liftM result : Parser α) (liftM result') where
  forward := by
    intro s a s' success
    obtain ⟨-, rfl⟩ := run_lift_ok.1 success
    exact List.suffix_refl _
  echo := by
    intro s t a s' _ beside success reaches
    obtain ⟨isValue, rfl⟩ := run_lift_ok.1 success
    exact ⟨t, run_lift_ok.2 ⟨moved a isValue, rfl⟩, beside⟩

/-! ### Steps -/

/-- The same is written from the same offset on. -/
lemma text {start : Nat} (within : al.within start) :
    Echoes al id (textFrom start) (textFrom (start + al.shift)) := by
  refine looks (looks_textFrom _) (looks_textFrom _) fun common s t twin => ?_
  rw [slice, slice, twin.source, twin.source', twin.previous', al.slices within twin.previous]
  rfl

/-- The same is written between the same offsets. -/
lemma textOf {span : Span} (start : al.within span.start) (stop : al.within span.stop) :
    Echoes al id (Parser.textOf span) (Parser.textOf (span.moved al.shift)) := by
  refine looks (looks_textOf _) (looks_textOf _) fun common s t twin => ?_
  rw [twin.source, twin.source']
  exact al.slices start stop

/-- The token read last ends at the same offset. -/
lemma previousEnd : Echoes al (· + al.shift) Parser.previousEnd Parser.previousEnd :=
  looks looks_previousEnd looks_previousEnd fun _ _ _ twin => twin.previous'

/-- Passing the current token. -/
lemma advance : Echoes al (Token.moved al.shift) Parser.advance Parser.advance where
  forward := by
    intro s a s' success
    cases success
    exact List.tail_suffix _
  echo := by
    intro s t a s' _ beside success reaches
    cases success
    obtain ⟨there, -, -, beside'⟩ := beside.passed reaches
    exact ⟨t.advance, congrArg (fun token => Except.ok (token, t.advance)) there, beside'⟩

/-- A balanced group is passed on both sides. -/
lemma skipGroup (brackets : Brackets) :
    Echoes al id (Parser.skipGroup brackets) (Parser.skipGroup brackets) where
  forward := by
    intro s a s' success
    obtain ⟨group, rest, split, rfl⟩ := run_skipGroup_ok.1 success
    rw [ahead_advanceBy]
    exact List.drop_suffix _ _
  echo := by
    intro s t a s' _ beside success reaches
    obtain ⟨group, rest, split, rfl⟩ := run_skipGroup_ok.1 success
    obtain ⟨common, twin⟩ := beside
    have passed := (eq_append_of_splitGroup split).1
    have left : (s.stream.advanceBy group.length).ahead = rest := by
      rw [ahead_advanceBy, passed, List.drop_left]
    obtain ⟨others, rfl⟩ := twin.exists_append passed (left ▸ reaches)
    have split' := splitGroup_replace split al.shift (others.map (Token.moved al.shift) ++ al.right)
    rw [← List.append_assoc, ← List.map_append, ← twin.ahead'] at split'
    refine ⟨_, run_skipGroup_ok.2 ⟨_, _, split', rfl⟩, ?_⟩
    rw [List.length_map, placeholders_moved]
    exact ⟨others, twin.advanceBy.record (al.contexts.passParameters twin.alike _)⟩

/-- Parentheses that are there are passed on both sides. -/
lemma parentheses : EchoesFrom al (fun s => s.stream.kind = .symbol .leftParen) id
    Parser.skipParentheses Parser.skipParentheses where
  forward := by
    intro s a s' success
    obtain ⟨tokens, run⟩ := (runs_skipParentheses : Runs Context.EditsOnly _).exists_run success
    exact suffix_of_run run
  echo := by
    intro s t a s' opening beside success reaches
    rw [run_skipParentheses, if_pos opening] at success
    have echo := (skipGroup .parentheses).echo s t a s' trivial beside success reaches
    have opening' : t.stream.kind = .symbol .leftParen := by
      obtain ⟨common, twin⟩ := beside
      obtain ⟨group, rest, split, rfl⟩ := run_skipGroup_ok.1 success
      obtain ⟨passed, nonempty⟩ := eq_append_of_splitGroup split
      rw [ahead_advanceBy, passed, List.drop_left] at reaches
      obtain ⟨others, rfl⟩ := twin.exists_append passed reaches
      obtain ⟨token, inner, rfl⟩ := List.exists_cons_of_ne_nil nonempty
      exact twin.kind_eq.trans opening
    rwa [run_skipParentheses, if_pos opening']

/-- Parentheses are passed on both sides, unless the other text has some where the texts part. -/
lemma skipParentheses (noOpening : firstKind al.right ≠ .symbol .leftParen) :
    Echoes al id Parser.skipParentheses Parser.skipParentheses where
  forward := (parentheses : EchoesFrom al _ _ _ _).forward
  echo := by
    intro s t a s' _ beside success reaches
    by_cases opening : s.stream.kind = .symbol .leftParen
    · exact parentheses.echo s t a s' opening beside success reaches
    · rw [run_skipParentheses, if_neg opening] at success
      cases success
      rw [run_skipParentheses, if_neg (beside.kind_ne opening noOpening)]
      exact ⟨t, rfl, beside⟩

/-- A symbol is skipped on both sides, unless the other text has it where the texts part. -/
lemma skipSymbol {symbol : Symbol} (noSymbol : firstKind al.right ≠ .symbol symbol) :
    Echoes al id (Parser.skipSymbol symbol) (Parser.skipSymbol symbol) where
  forward := by
    intro s a s' success
    rw [run_skipSymbol] at success
    split at success
    · cases success
      exact List.tail_suffix _
    · cases success
      exact List.suffix_refl _
  echo := by
    intro s t a s' _ beside success reaches
    rw [run_skipSymbol] at success ⊢
    split at success
    · rename_i present
      cases success
      obtain ⟨present', beside'⟩ := beside.advance present reaches
      exact ⟨t.advance, if_pos present', beside'⟩
    · rename_i absent
      cases success
      exact ⟨t, if_neg (beside.kind_ne absent noSymbol), beside⟩

/-- A keyword is skipped on both sides, unless the other text has one where the texts part. -/
lemma skipKeyword {keywords : List Keyword}
    (noKeyword : (firstKind al.right).isKeywordIn keywords = false) :
    Echoes al id (Parser.skipKeyword keywords) (Parser.skipKeyword keywords) where
  forward := by
    intro s a s' success
    rw [run_skipKeyword] at success
    split at success
    · cases success
      exact List.tail_suffix _
    · cases success
      exact List.suffix_refl _
  echo := by
    intro s t a s' _ beside success reaches
    rw [run_skipKeyword] at success ⊢
    split at success
    · rename_i present
      obtain ⟨keyword, known, word⟩ := checkAnyKeyword_iff.1 present
      cases success
      obtain ⟨word', beside'⟩ := beside.advance word reaches
      exact ⟨t.advance, if_pos (checkAnyKeyword_iff.2 ⟨keyword, known, word'⟩), beside'⟩
    · rename_i absent
      cases success
      have absent' := beside.checkAnyKeyword_eq_false (Bool.eq_false_iff.2 absent) noKeyword
      exact ⟨t, if_neg (Bool.eq_false_iff.1 absent'), beside⟩

/-- A symbol is accepted on both sides. -/
lemma acceptSymbol (symbol : Symbol) :
    Echoes al (Token.moved al.shift) (Parser.acceptSymbol symbol) (Parser.acceptSymbol symbol) where
  forward := by
    intro s a s' success
    obtain ⟨-, -, rfl⟩ := run_acceptSymbol_ok.1 success
    exact List.tail_suffix _
  echo := by
    intro s t a s' _ beside success reaches
    obtain ⟨present, rfl, rfl⟩ := run_acceptSymbol_ok.1 success
    obtain ⟨there, -, -, beside'⟩ := beside.passed reaches
    obtain ⟨present', -⟩ := beside.advance present reaches
    exact ⟨t.advance, run_acceptSymbol_ok.2 ⟨present', there.symm, rfl⟩, beside'⟩

/-- A keyword is accepted on both sides. -/
lemma acceptKeyword (keyword : Keyword) :
    Echoes al (Token.moved al.shift) (Parser.acceptKeyword keyword) (Parser.acceptKeyword keyword) where
  forward := by
    intro s a s' success
    obtain ⟨-, -, rfl⟩ := run_acceptKeyword_ok.1 success
    exact List.tail_suffix _
  echo := by
    intro s t a s' _ beside success reaches
    obtain ⟨present, rfl, rfl⟩ := run_acceptKeyword_ok.1 success
    obtain ⟨there, -, -, beside'⟩ := beside.passed reaches
    obtain ⟨present', -⟩ := beside.advance present reaches
    exact ⟨t.advance, run_acceptKeyword_ok.2 ⟨present', there.symm, rfl⟩, beside'⟩

/-- A name is accepted on both sides. -/
lemma acceptIdentifier : Echoes al (fun read => (read.1, read.2.moved al.shift)) Parser.acceptIdentifier
    Parser.acceptIdentifier where
  forward := by
    intro s a s' success
    obtain ⟨name, span⟩ := a
    obtain ⟨-, -, rfl⟩ := run_acceptIdentifier_ok.1 success
    exact List.tail_suffix _
  echo := by
    intro s t a s' _ beside success reaches
    obtain ⟨name, span⟩ := a
    obtain ⟨present, rfl, rfl⟩ := run_acceptIdentifier_ok.1 success
    obtain ⟨there, -, -, beside'⟩ := beside.passed reaches
    obtain ⟨present', -⟩ := beside.advance present reaches
    exact ⟨t.advance, run_acceptIdentifier_ok.2 ⟨present', congrArg Token.span there.symm, rfl⟩, beside'⟩

/-- What is recorded on both sides keeps what is collected alike. -/
lemma record {change change' : Context → Context}
    (alike : ∀ c c', al.contexts.alike c c' → al.contexts.alike (change c) (change' c')) :
    Echoes al id (modifyContext change) (modifyContext change') where
  forward := by
    intro s a s' success
    cases success
    exact List.suffix_refl _
  echo := by
    intro s t a s' _ beside success reaches
    cases success
    obtain ⟨common, twin⟩ := beside
    exact ⟨_, rfl, common, twin.record (alike _ _ twin.alike)⟩

/-- An edit is recorded on both sides. -/
lemma addEdit (edit : Edit) :
    Echoes al id (Parser.addEdit edit) (Parser.addEdit (edit.moved al.shift)) :=
  record fun _ _ alike => al.contexts.addEdit alike edit

/-- The number of placeholders that are counted is the same on both sides. -/
lemma parameters {start : ParserState → Prop} {f g : Context → Parser β}
    (rest : ∀ c c', c'.parameters = c.parameters → Echoes al move' (f c) (g c')) :
    EchoesFrom al start move' (Parser.context >>= f) (Parser.context >>= g) :=
  .look (fun c c' : Context => c'.parameters = c.parameters) looks_context looks_context
    (fun _ _ _ _ twin => twin.parameters) fun c c' same => .of_echoes (rest c c' same)

/-- A placeholder is counted on both sides. -/
lemma placeholder : Echoes al id Parser.placeholder Parser.placeholder := by
  refine .bind advance fun _ => .parameters fun c c' same => ?_
  refine .bind (record fun _ _ alike => al.contexts.passParameters alike 1) fun _ => ?_
  exact .pure same

/-! ### Repetition -/

/-- Items that are read one after the other only move forward. -/
lemma suffix_of_repeats {item item' : Parser α} {s s' : ParserState} {items : List α}
    (like : Echoes al move item item') (h : Repeats item s items s') :
    s'.stream.ahead <:+ s.stream.ahead := by
  induction h with
  | one last noComma => exact like.forward _ _ _ last
  | cons first comma rest ih => exact ih.trans ((List.tail_suffix _).trans (like.forward _ _ _ first))

/-- Items that are read one after the other are read on both sides, and more may follow behind the last
one if the other text goes on with a comma.

**Proof sketch.** Induction on the items. A comma behind an item is passed without passing the place, so
it is there on both sides. -/
lemma repeats {item item' : Parser α} {s s' t : ParserState} {items more : List α}
    {after : ParserState → Prop} (like : Echoes al move item item') (h : Repeats item s items s')
    (beside : Beside al s t) (reaches : al.left <:+ s'.stream.ahead)
    (last : ∀ t₀ b t₁, item'.run t₀ = .ok (b, t₁) → Beside al s' t₁ →
      ∃ t', Repeats item' t₀ (b :: more) t' ∧ after t') :
    ∃ t', Repeats item' t (items.map move ++ more) t' ∧ after t' := by
  induction h generalizing t with
  | @one s s' a read noComma =>
    obtain ⟨t₁, read', beside'⟩ := like.echo s t a s' trivial beside read reaches
    exact last t _ t₁ read' beside'
  | @cons s s₁ s' a items read comma rest ih =>
    have behind := reaches.trans (like.suffix_of_repeats rest)
    have within := behind.trans (List.tail_suffix _)
    obtain ⟨t₁, read', beside₁⟩ := like.echo s t a s₁ trivial beside read within
    obtain ⟨comma', beside₂⟩ := beside₁.advance comma behind
    obtain ⟨t', repeats, holds⟩ := ih beside₂ reaches last
    exact ⟨t', .cons read' comma' repeats, holds⟩

/-- Lists echo each other if their items do, unless the other text goes on with a comma where the texts
part. -/
lemma commaSeparated {records : Context → Context → Prop} {item item' : Parser α}
    (like : Echoes al move item item') (runs : Runs records item) (runs' : Runs records item')
    (noComma : firstKind al.right ≠ .symbol .comma) :
    Echoes al (List.map move) (Parser.commaSeparated item) (Parser.commaSeparated item') where
  forward := by
    intro s items s' success
    exact like.suffix_of_repeats (repeats_of_commaSeparated runs success)
  echo := by
    intro s t items s' _ beside success reaches
    have known := repeats_of_commaSeparated runs success
    obtain ⟨t', repeats, beside'⟩ := like.repeats known beside reaches
      fun t₀ b t₁ read beside₁ => ⟨t₁, .one read (beside₁.kind_ne known.noComma noComma), beside₁⟩
    rw [List.append_nil] at repeats
    exact ⟨t', commaSeparated_of_repeats runs' repeats, beside'⟩

end Echoes

end Parser

end SqlRouting
