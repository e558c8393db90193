import SqlRouting.Proofs.Position
import SqlRouting.Proofs.Query
import SqlRouting.Proofs.Trail

/-!
# States that a parse reaches

A parse that goes on has passed valid tokens only, so wherever it stands, the reading of the text can
be stopped: in front of the current token and behind the one read last. What holds of the shape of a
level at its start, and is kept by each clause that changes the shape, holds of the shapes of all
levels.

## Main definitions

* `SqlRouting.Passes` — some valid tokens are passed between two states.
* `SqlRouting.Reaches` — a state that a parse of a text can reach.

## Main results

* `SqlRouting.Reaches.boundary_previousEnd`, `Reaches.boundary_offset` — the places at a state.
* `SqlRouting.Grammar.passes_levelsUpTo` — levels pass valid tokens only.
* `SqlRouting.Grammar.shapes_levelsUpTo` — what holds of the shapes of all levels.
-/

set_option autoImplicit false

namespace SqlRouting

open TokenStream SqlRouting.Parser

/-! ## Passing valid tokens -/

/-- Some valid tokens are passed between two states. -/
def Passes (s s' : ParserState) : Prop :=
  ∃ tokens : List Token, (∀ token ∈ tokens, token.kind.isBroken = false) ∧
    s.stream.ahead = tokens ++ s'.stream.ahead ∧ s'.stream = s.stream.advanceBy tokens.length

/-- What leaves the stream passes nothing. -/
lemma passes_of_stream {s s' : ParserState} (same : s'.stream = s.stream) : Passes s s' :=
  ⟨[], by simp, by rw [same]; rfl, same⟩

/-- A trail passes valid tokens. -/
lemma Follows.passes {rules : ShardingRule} {s s' : ParserState} (h : Follows rules s s') :
    Passes s s' := by
  obtain ⟨passages, trail⟩ := h
  exact ⟨_, trail.valid, trail.ahead, trail.stream⟩

instance : Passing Passes where
  refl s := passes_of_stream rfl
  trans := by
    rintro s s₁ s' ⟨tokens, valid, ahead, stream⟩ ⟨more, valid', ahead', stream'⟩
    refine ⟨tokens ++ more, ?_, by rw [ahead, ahead', List.append_assoc], ?_⟩
    · intro token mem
      exact (List.mem_append.1 mem).elim (valid token) (valid' token)
    · rw [stream', stream, advanceBy_advanceBy, List.length_append]
  token {s _} same valid noDot :=
    have follows : Follows ⟨[]⟩ s s.advance := ⟨_, trail_token same valid noDot⟩
    follows.passes
  group {s _ group _} isBrackets opens split :=
    have follows : Follows ⟨[]⟩ s { s with stream := s.stream.advanceBy group.length } :=
      Passing.group isBrackets opens split
    follows.passes
  record _ := passes_of_stream rfl

/-- Whatever is recorded, nothing is passed. -/
lemma leads_record (change : Context → Context) : Leads Passes (modifyContext change) := by
  intro s result s' _ success
  cases success
  exact passes_of_stream rfl

instance (rules : ShardingRule) : Recording rules Passes where
  reference isOwner isDot isName recorded :=
    (Grammar.follows_reference isOwner isDot isName recorded).passes
  star isOwner isDot isStar :=
    have follows : Follows rules _ _ := Grammar.follows_star isOwner isDot isStar
    follows.passes
  namedTable := Leads.mono (fun _ _ (h : Follows rules _ _) => h.passes) Grammar.follows_namedTable
  limit style shape := Leads.mono (fun _ _ (h : Follows rules _ _) => h.passes)
    (Grammar.follows_limit style shape)

/-! ## States of a parse -/

/-- A parse of a text can reach a state: up to there it has passed valid tokens. -/
def Reaches (text : String) (s : ParserState) : Prop :=
  Passes ⟨.ofText text, {}⟩ s

namespace Reaches

variable {text : String} {s s' : ParserState}

/-- The start is reached. -/
lemma start (text : String) : Reaches text ⟨.ofText text, {}⟩ :=
  Steady.refl _

/-- A parse that reaches a state reaches those behind valid tokens. -/
lemma passes (h : Reaches text s) (h' : Passes s s') : Reaches text s' :=
  Steady.trans h h'

/-- A parse that reaches a state reaches those with another context. -/
lemma of_stream (h : Reaches text s) (same : s'.stream = s.stream) : Reaches text s' :=
  h.passes (passes_of_stream same)

/-- The text of the state. -/
lemma source_eq (h : Reaches text s) : s.stream.source = text := by
  obtain ⟨tokens, -, -, stream⟩ := h
  rw [stream, source_advanceBy]
  rfl

/-- The tokens passed so far and those left are the tokens of the text. -/
lemma exists_passed (h : Reaches text s) : ∃ passed : List Token,
    (∀ token ∈ passed, token.kind.isBroken = false) ∧
      Lexer.tokens text = passed ++ s.stream.ahead := by
  obtain ⟨passed, valid, ahead, -⟩ := h
  exact ⟨passed, valid, ahead⟩

/-- The token read last is the last one passed. -/
lemma previousEnd_eq (h : Reaches text s) : ∃ passed : List Token,
    (∀ token ∈ passed, token.kind.isBroken = false) ∧
      Lexer.tokens text = passed ++ s.stream.ahead ∧
      (passed = [] ∧ s.stream.previousEnd = 0 ∨
        ∃ before last, passed = before ++ [last] ∧ s.stream.previousEnd = last.span.stop) := by
  obtain ⟨passed, valid, ahead, stream⟩ := h
  refine ⟨passed, valid, ahead, ?_⟩
  rcases List.eq_nil_or_concat passed with rfl | ⟨before, last, rfl⟩
  · exact .inl ⟨rfl, by rw [stream]; rfl⟩
  · rw [List.concat_eq_append] at ahead stream ⊢
    refine .inr ⟨before, last, rfl, ?_⟩
    rw [List.append_assoc, List.singleton_append] at ahead
    rw [stream, TokenStream.previousEnd, previous_advanceBy ahead]

/-- The reading of the text can be stopped behind the token read last. -/
lemma boundary_previousEnd (h : Reaches text s) : Lexer.Boundary text s.stream.previousEnd := by
  obtain ⟨passed, valid, split, ⟨-, start⟩ | ⟨before, last, rfl, stop⟩⟩ := h.previousEnd_eq
  · rw [start]
    exact Lexer.boundary_zero text
  · rw [stop]
    rw [List.append_assoc, List.singleton_append] at split
    exact Lexer.boundary_stop split valid

/-- Moving on never changes the length of the text. -/
lemma length_eq (h : Reaches text s) : s.stream.length = Text.byteLength text.toList := by
  obtain ⟨tokens, -, -, stream⟩ := h
  have same (n : Nat) : ∀ stream : TokenStream, (stream.advanceBy n).length = stream.length := by
    induction n with
    | zero => exact fun _ => rfl
    | succ n ih => exact fun stream => ih stream.advance
  rw [stream, same]
  rfl

/-- The current token starts where the text ends, or the reading can be stopped in front of it. -/
lemma boundary_offset (h : Reaches text s) :
    s.stream.ahead = [] ∧ s.stream.offset = Text.byteLength text.toList ∨
      Lexer.Boundary text s.stream.offset := by
  obtain ⟨passed, valid, split⟩ := h.exists_passed
  cases ahead : s.stream.ahead with
  | nil => exact .inl ⟨rfl, by simp [TokenStream.offset, TokenStream.current, ahead, ending, h.length_eq]⟩
  | cons token rest =>
    rw [ahead] at split
    obtain ⟨front, c, left, kinds, whole, place, cuts, -⟩ := Lexer.boundary_start split valid
    refine .inr ⟨front, c :: left, kinds, whole, ?_, cuts⟩
    rw [place, TokenStream.offset, TokenStream.current, ahead]
    rfl

end Reaches

namespace Grammar

variable {env : Environment} {rules : ShardingRule} {text : String} {s s' : ParserState}

/-! ## Levels -/

/-- A derived table passes valid tokens if its levels do. -/
lemma passes_derivedTable {level : Parser PartialLevel} (passes : Leads Passes level) :
    Leads Passes (derivedTable level) := by
  refine .look looks_context fun outer => .bind (leads_record _).leadsFrom fun _ => ?_
  refine passes.bind fun read => .look looks_context fun inner => ?_
  exact .bind (leads_record _).leadsFrom fun _ => .pure _

/-- The tables of a level pass valid tokens if the levels below do. -/
lemma passes_tables {level : Parser PartialLevel} (passes : Leads Passes level)
    (below : List SelectLevel) : Leads Passes (tables rules level below) := by
  refine .bind (leads_refuseKeywords _) fun _ => .bind (leads_skipKeyword _) fun _ => .ite (fun _ => ?_)
    fun _ => .pure _
  refine .look looks_checkQueryInParentheses fun isQuery => .ite (fun isTrue => ?_) fun _ => ?_
  · refine .bind (leads_advance fun s seen => ?_) fun _ => ?_
    · have opened := seen.2.trans isTrue
      rw [Bool.and_eq_true, check_symbol] at opened
      rw [opened.1]
      exact ⟨rfl, by simp⟩
    · refine (passes_derivedTable passes).bind fun _ => .bind leads_acceptSymbol fun _ => ?_
      exact .bind leads_aliasName fun _ => .bind leads_tablesAfterDerived.leadsFrom fun _ => .pure _
  · exact .bind leads_tableReferences.leadsFrom fun _ => .pure _

/-- Each clause passes valid tokens if the levels below do. -/
lemma passes_clause {level : Parser PartialLevel} (passes : Leads Passes level)
    (known : PartialLevel) (next : SelectClause) : Leads Passes (clause env level known next) := by
  cases next with
  | selectList => exact .bind (leads_selectList _) fun _ => .pure _
  | tables => exact (passes_tables passes _).bind fun _ => .pure _
  | condition => exact .bind leads_condition fun _ => .pure _
  | grouping => exact .bind (leads_grouping _ _) fun _ => .pure _
  | groupCondition => exact (leads_refuseKeywords _).bind fun _ => .pure _
  | ordering => exact .bind (leads_ordering _) fun _ => .pure _
  | limit =>
    have limits : Recording env.rules Passes := inferInstance
    exact (limits.limit _ _).bind fun _ => .pure _
  | trailing => exact (leads_refuseKeywords _).bind fun _ => .pure _

/-- Levels pass valid tokens. -/
lemma passes_levelsUpTo (n : Nat) : Leads Passes (levelsUpTo env n) := by
  induction n with
  | zero => exact leads_unexpected _
  | succ n ih =>
    exact .bind (leads_acceptKeyword _) fun _ => .foldlM (passes_clause ih) env.dialect.clauses {}

/-! ## Repetition -/

/-- What is repeated in a parse is read at states that the parse reaches. -/
lemma reaches_of_commaSeparated {α : Type} {item : Parser α} {items : List α}
    (runs : Runs Context.EditsOnly item) (passes : Leads Passes item) (reaches : Reaches text s)
    (success : (commaSeparated item).run s = .ok (items, s')) :
    ∀ a ∈ items, ∃ t t', Reaches text t ∧ item.run t = .ok (a, t') := by
  have repeats := repeats_of_commaSeparated runs success
  clear success
  induction repeats with
  | @one s s' a last noComma =>
    intro b mem
    obtain rfl := List.mem_singleton.1 mem
    exact ⟨s, s', reaches, last⟩
  | @cons s s₁ s' a others first comma rest ih =>
    intro b mem
    rcases List.mem_cons.1 mem with rfl | mem
    · exact ⟨s, s₁, reaches, first⟩
    · have behind : Passes s₁ s₁.advance := Advancing.token comma
      exact ih ((reaches.passes (passes.related first)).passes behind) b mem

/-! ## Clauses that change the shape -/

/-- A select list adds its items to the shape, and says where the token after it starts. -/
lemma run_selectList_ok {shape shape' : ResultShape}
    (success : (selectList rules shape).run s = .ok (shape', s')) :
    ∃ (distinct : Bool) (items : List SelectItem) (s₁ : ParserState), Passes s s₁ ∧
      (commaSeparated (selectItem rules)).run s₁ = .ok (items, s') ∧
      shape' =
        { shape with
          items := shape.items ++ (if distinct then foldDistinct items else items)
          containsStar := shape.containsStar || items.any isStar
          selectListStop := s'.stream.offset } := by
  obtain ⟨distinct, s₁, skipped, success⟩ := run_bind_ok.1 success
  have skips (keywords : List Keyword) : Leads Passes (skipKeyword keywords) := leads_skipKeyword keywords
  have first := (skips _).related skipped
  cases distinct with
  | true =>
    obtain ⟨items, s₂, read, done⟩ := run_bind_ok.1 success
    cases done
    exact ⟨true, items, s₁, first, read, rfl⟩
  | false =>
    obtain ⟨_, s₂, skipped, success⟩ := run_bind_ok.1 success
    obtain ⟨items, s₃, read, done⟩ := run_bind_ok.1 success
    cases done
    exact ⟨false, items, s₂, Steady.trans first ((skips _).related skipped), read, rfl⟩

/-- A grouping, if there is one, adds its items to the shape, and says where it ends. -/
lemma run_grouping_ok {dialect : Dialect} {shape shape' : ResultShape}
    (success : (grouping dialect rules shape).run s = .ok (shape', s')) :
    (shape' = shape ∧ s' = s) ∨ ∃ keyword items s₁ s₂, s.stream.kind = .keyword keyword ∧
      Passes s.advance s₁ ∧
      (commaSeparated (orderItem rules shape)).run s₁ = .ok (items, s₂) ∧ Passes s₂ s' ∧
      shape' =
        { shape with groupBy := shape.groupBy ++ items, groupByStop := some s'.stream.previousEnd } := by
  rw [grouping, run_skipKeyword_bind] at success
  split at success
  · rename_i present
    obtain ⟨keyword, -, word⟩ := checkAnyKeyword_iff.1 present
    rw [if_pos rfl] at success
    obtain ⟨_, s₁, accepted, success⟩ := run_bind_ok.1 success
    obtain ⟨items, s₂, read, success⟩ := run_bind_ok.1 success
    obtain ⟨_, s₃, skipped, done⟩ := run_bind_ok.1 success
    cases done
    have accepts : Leads Passes (acceptKeyword .BY) := leads_acceptKeyword _
    have skips : Leads Passes (skipAllKeywords dialect.afterGroupBy) := leads_skipAllKeywords _
    exact .inr ⟨keyword, items, s₁, s₂, word, accepts.related accepted, read, skips.related skipped,
      rfl⟩
  · cases success
    exact .inl ⟨rfl, rfl⟩

/-- An ordering, if there is one, adds its items to the shape. -/
lemma run_ordering_ok {shape shape' : ResultShape}
    (success : (ordering rules shape).run s = .ok (shape', s')) :
    (shape' = shape ∧ s' = s) ∨ ∃ items s₁, Passes s s₁ ∧
      (commaSeparated (orderItem rules shape)).run s₁ = .ok (items, s') ∧
      shape' = { shape with orderBy := shape.orderBy ++ items } := by
  rw [ordering, run_skipKeyword_bind] at success
  split at success
  · rename_i present
    obtain ⟨keyword, -, word⟩ := checkAnyKeyword_iff.1 present
    rw [if_pos rfl] at success
    obtain ⟨_, s₁, accepted, success⟩ := run_bind_ok.1 success
    obtain ⟨items, s₂, read, done⟩ := run_bind_ok.1 success
    cases done
    have first : Passes s s.advance := Advancing.token word
    have accepts : Leads Passes (acceptKeyword .BY) := leads_acceptKeyword _
    exact .inr ⟨items, s₁, Steady.trans first (accepts.related accepted), read, rfl⟩
  · cases success
    exact .inl ⟨rfl, rfl⟩

/-! ## Shapes -/

/-- What holds of the shape of a level before anything is known of it, and is kept by each clause that
is read in a parse of the text. -/
structure KeepsShape (env : Environment) (text : String) (P : ResultShape → Prop) : Prop where
  /-- It holds while nothing is known. -/
  initial : P {}
  /-- A select list keeps it. -/
  selectList {s s' : ParserState} {shape shape' : ResultShape} (reaches : Reaches text s)
    (known : P shape) (success : (selectList env.rules shape).run s = .ok (shape', s')) : P shape'
  /-- A grouping keeps it. -/
  grouping {s s' : ParserState} {shape shape' : ResultShape} (reaches : Reaches text s)
    (known : P shape) (success : (grouping env.dialect env.rules shape).run s = .ok (shape', s')) :
    P shape'
  /-- An ordering keeps it. -/
  ordering {s s' : ParserState} {shape shape' : ResultShape} (reaches : Reaches text s)
    (known : P shape) (success : (ordering env.rules shape).run s = .ok (shape', s')) : P shape'
  /-- A limit keeps it. -/
  limit {shape : ResultShape} (limit : Option Limit) (known : P shape) : P { shape with limit }

/-- Two things that the clauses keep are kept together. -/
lemma KeepsShape.both {P Q R : ResultShape → Prop} (h : KeepsShape env text P)
    (h' : KeepsShape env text Q) (same : ∀ shape, R shape ↔ P shape ∧ Q shape) :
    KeepsShape env text R := by
  constructor
  case initial => exact (same _).2 ⟨h.initial, h'.initial⟩
  case selectList =>
    intro s s' shape shape' reaches known success
    obtain ⟨one, other⟩ := (same _).1 known
    exact (same _).2 ⟨h.selectList reaches one success, h'.selectList reaches other success⟩
  case grouping =>
    intro s s' shape shape' reaches known success
    obtain ⟨one, other⟩ := (same _).1 known
    exact (same _).2 ⟨h.grouping reaches one success, h'.grouping reaches other success⟩
  case ordering =>
    intro s s' shape shape' reaches known success
    obtain ⟨one, other⟩ := (same _).1 known
    exact (same _).2 ⟨h.ordering reaches one success, h'.ordering reaches other success⟩
  case limit =>
    intro shape limit known
    obtain ⟨one, other⟩ := (same _).1 known
    exact (same _).2 ⟨h.limit limit one, h'.limit limit other⟩

/-- What holds of each item to order or group by where it is read, and as the select list goes on, is kept
by the clauses. -/
lemma keepsShape_orderItems {Q : ResultShape → OrderItem → Prop}
    (grows : ∀ {shape shape' : ResultShape} {item : OrderItem}, shape.items <+: shape'.items →
      Q shape item → Q shape' item)
    (holds : ∀ {shape : ResultShape} {item : OrderItem} {s s' : ParserState}, Reaches text s →
      (orderItem env.rules shape).run s = .ok (item, s') → Q shape item) :
    KeepsShape env text fun shape => ∀ item ∈ shape.orderBy ++ shape.groupBy, Q shape item := by
  have list {shape : ResultShape} {s s' : ParserState} {items : List OrderItem} (reaches : Reaches text s)
      (read : (commaSeparated (orderItem env.rules shape)).run s = .ok (items, s')) :
      ∀ item ∈ items, Q shape item := by
    intro item mem
    obtain ⟨t, t', reached, success⟩ := reaches_of_commaSeparated (runs_orderItem shape)
      (leads_orderItem shape) reaches read item mem
    exact holds reached success
  -- a clause that leaves the select list leaves what holds of the items
  have kept (shape : ResultShape) {shape' : ResultShape} {items : List OrderItem}
      (same : shape'.items = shape.items) (known : ∀ item ∈ items, Q shape item) : ∀ item ∈ items, Q shape' item :=
    fun item mem => grows (same ▸ List.prefix_rfl) (known item mem)
  constructor
  case initial => simp
  case selectList =>
    intro s s' shape shape' _ known success
    obtain ⟨-, -, -, -, -, rfl⟩ := run_selectList_ok success
    exact fun item mem => grows (List.prefix_append _ _) (known item mem)
  case grouping =>
    intro s s' shape shape' reaches known success
    rcases run_grouping_ok success with ⟨rfl, -⟩ | ⟨keyword, items, s₁, s₂, word, behind, read, -, rfl⟩
    · exact known
    · have passes : Passes s s₁ := Steady.trans (Advancing.token word) behind
      obtain ⟨ordered, grouped⟩ := List.forall_mem_append.1 known
      refine kept shape rfl (List.forall_mem_append.2 ⟨ordered, ?_⟩)
      exact List.forall_mem_append.2 ⟨grouped, list (reaches.passes passes) read⟩
  case ordering =>
    intro s s' shape shape' reaches known success
    rcases run_ordering_ok success with ⟨rfl, -⟩ | ⟨items, s₁, passes, read, rfl⟩
    · exact known
    · obtain ⟨ordered, grouped⟩ := List.forall_mem_append.1 known
      refine kept shape rfl (List.forall_mem_append.2 ⟨?_, grouped⟩)
      exact List.forall_mem_append.2 ⟨ordered, list (reaches.passes passes) read⟩
  case limit => exact fun {shape} _ known => kept shape rfl known

/-- What holds of each item to order or group by where it is read is kept by the clauses. -/
lemma keepsShape_items {Q : OrderItem → Prop} (holds : ∀ {shape : ResultShape} {item : OrderItem}
    {s s' : ParserState}, Reaches text s → (orderItem env.rules shape).run s = .ok (item, s') → Q item) :
    KeepsShape env text fun shape => ∀ item ∈ shape.orderBy ++ shape.groupBy, Q item :=
  keepsShape_orderItems (fun _ holds => holds) holds

/-- Folding the plain items of a list makes one item of them, and keeps the others. -/
lemma mem_foldDistinct {items : List SelectItem} {item : SelectItem} (mem : item ∈ foldDistinct items) :
    (∃ labels, item = .distinct labels) ∨ item ∈ items := by
  unfold foldDistinct at mem
  dsimp only at mem
  split at mem
  · exact .inr (List.mem_filter.1 mem).1
  · rcases List.mem_cons.1 mem with rfl | mem
    · exact .inl ⟨_, rfl⟩
    · exact .inr (List.mem_filter.1 mem).1

/-- What holds of each item of a select list where it is read, and of folded items, is kept by the
clauses. -/
lemma keepsShape_selected {Q : SelectItem → Prop} (folded : ∀ labels, Q (.distinct labels))
    (holds : ∀ {item : SelectItem} {s s' : ParserState}, Reaches text s →
      (selectItem env.rules).run s = .ok (item, s') → Q item) :
    KeepsShape env text fun shape => ∀ item ∈ shape.items, Q item := by
  constructor
  case initial => simp
  case selectList =>
    intro s s' shape shape' reaches known success
    obtain ⟨distinct, added, s₁, passes, read, rfl⟩ := run_selectList_ok success
    have items : ∀ item ∈ added, Q item := by
      intro item mem
      obtain ⟨t, t', reaches', success⟩ := reaches_of_commaSeparated runs_selectItem
        leads_selectItem (reaches.passes passes) read item mem
      exact holds reaches' success
    refine List.forall_mem_append.2 ⟨known, fun item mem => ?_⟩
    split at mem
    · rcases mem_foldDistinct mem with ⟨labels, rfl⟩ | mem
      · exact folded labels
      · exact items item mem
    · exact items item mem
  case grouping =>
    intro s s' shape shape' _ known success
    rcases run_grouping_ok success with ⟨rfl, -⟩ | ⟨-, -, -, -, -, -, -, -, rfl⟩ <;> exact known
  case ordering =>
    intro s s' shape shape' _ known success
    rcases run_ordering_ok success with ⟨rfl, -⟩ | ⟨-, -, -, -, rfl⟩ <;> exact known
  case limit => exact fun _ known => known

/-- What clauses keep holds of a level and of those below it. -/
def ShapesHold (P : ResultShape → Prop) (known : PartialLevel) : Prop :=
  P known.shape ∧ ∀ level ∈ known.below, P level.shape

variable {P : ResultShape → Prop}

/-- A clause keeps what holds of the shapes of all levels, if the levels below do. -/
lemma shapes_clause (keeps : KeepsShape env text P) {level : Parser PartialLevel}
    (below : ∀ t t' known, Reaches text t → level.run t = .ok (known, t') → ShapesHold P known)
    {known known' : PartialLevel} {next : SelectClause} (reaches : Reaches text s)
    (holds : ShapesHold P known) (success : (clause env level known next).run s = .ok (known', s')) :
    ShapesHold P known' := by
  cases next with
  | selectList =>
    obtain ⟨shape, s₁, read, done⟩ := run_bind_ok.1 success
    obtain ⟨rfl, rfl⟩ := run_pure_ok.1 done
    exact ⟨keeps.selectList reaches holds.1 read, holds.2⟩
  | grouping =>
    obtain ⟨shape, s₁, read, done⟩ := run_bind_ok.1 success
    obtain ⟨rfl, rfl⟩ := run_pure_ok.1 done
    exact ⟨keeps.grouping reaches holds.1 read, holds.2⟩
  | ordering =>
    obtain ⟨shape, s₁, read, done⟩ := run_bind_ok.1 success
    obtain ⟨rfl, rfl⟩ := run_pure_ok.1 done
    exact ⟨keeps.ordering reaches holds.1 read, holds.2⟩
  | condition | groupCondition | trailing =>
    obtain ⟨_, s₁, read, done⟩ := run_bind_ok.1 success
    obtain ⟨rfl, rfl⟩ := run_pure_ok.1 done
    exact holds
  | limit =>
    obtain ⟨shape, s₁, read, done⟩ := run_bind_ok.1 success
    obtain ⟨rfl, rfl⟩ := run_pure_ok.1 done
    rcases limit_reads read with ⟨rfl, rfl⟩ | ⟨-, limit, -, -, -, -, rfl, -, -⟩
    · exact holds
    · exact ⟨keeps.limit _ holds.1, holds.2⟩
  | tables =>
    obtain ⟨lower, s₁, read, done⟩ := run_bind_ok.1 success
    obtain ⟨rfl, rfl⟩ := run_pure_ok.1 done
    rcases tables_reads read with ⟨-, -, rfl⟩ | ⟨word, ⟨sources, -, rfl⟩ |
      ⟨opening, inside, t, t', sources, aliasTokens, aliasName, inner, -, -, -, -, rfl⟩⟩
    · exact holds
    · exact holds
    · have entered : Reaches text (derivedStart s) :=
        ((reaches.passes (Advancing.token word)).passes (Advancing.token opening)).of_stream rfl
      obtain ⟨own, others⟩ := below _ _ _ entered inner
      exact ⟨holds.1, List.forall_mem_cons.2 ⟨own, others⟩⟩

/-- What clauses keep holds of the shapes of all levels.

**Proof sketch.** Induction on the bound on the tokens, which bounds the levels below, and on the
clauses. -/
lemma shapes_levelsUpTo (keeps : KeepsShape env text P) {n : Nat} : ∀ {s s' : ParserState}
    {known : PartialLevel}, Reaches text s → (levelsUpTo env n).run s = .ok (known, s') →
    ShapesHold P known := by
  induction n with
  | zero => exact fun _ success => absurd success run_unexpected_ne
  | succ n ih =>
    intro s s' known reaches success
    obtain ⟨_, s₁, accepted, rest⟩ := run_bind_ok.1 success
    obtain ⟨word, -, rfl⟩ := run_acceptKeyword_ok.1 accepted
    have opened : Reaches text s.advance ∧ ShapesHold P {} :=
      ⟨reaches.passes (Advancing.token word), keeps.initial, by simp⟩
    refine (run_foldlM_keeps (P := fun known t => Reaches text t ∧ ShapesHold P known)
      (fun next _ known known' t t' holds read => ?_) opened rest).2
    obtain ⟨reaches, holds⟩ := holds
    exact ⟨reaches.passes ((passes_clause (passes_levelsUpTo n) known next).related read),
      shapes_clause keeps (fun _ _ _ reaches => ih reaches) reaches holds read⟩

/-- What clauses keep holds of the shapes of all levels of a query. -/
lemma shapes_levels (keeps : KeepsShape env text P) {whole : SelectStatement} (reaches : Reaches text s)
    (success : (levels env).run s = .ok (whole, s')) :
    ∀ level ∈ whole.toSelectLevel :: whole.derivedTables, P level.shape := by
  obtain ⟨n, known, read, rfl⟩ := levels_run success
  exact List.forall_mem_cons.2 (shapes_levelsUpTo keeps reaches read)

end Grammar

end SqlRouting
