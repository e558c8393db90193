import SqlRouting.Proofs.Inserted
import SqlRouting.Proofs.Partition

/-!
# Where insertions stand

An accepted statement inserts text at the edges of its tokens only: columns where the token after a
select list starts, an ordering where the last token of a grouping stops, the columns of an insertion
in front of a parenthesis or behind the name of the table. So the rewritten text is the original one
with some segments in it, at most two in a query and one in an insertion.

## Main definitions

* `SqlRouting.Lexer.Edge` — a place where a token starts or stops.
* `SqlRouting.ResultShape.Marked` — the places of a shape are edges of tokens, in this order.
* `SqlRouting.Edit.Splices` — insertions stand at edges, and make the rewritten text.
* `SqlRouting.Statement.InsertsOnce` — how many insertions a statement has at most.

## Main results

* `SqlRouting.Grammar.marked_levelsUpTo` — the places of the shapes of all levels.
* `SqlRouting.Statement.splices_of_ofText` — what an accepted statement inserts, and where.
-/

set_option autoImplicit false

namespace SqlRouting

open TokenStream SqlRouting.Parser

/-! ## Edges of tokens -/

namespace Lexer

/-- A place of a text where a token starts or stops, the end of the text among the tokens. -/
def Edge (text : String) (place : Nat) : Prop :=
  ∃ token ∈ tokenize text, place = token.span.start ∨ place = token.span.stop

end Lexer

namespace Reaches

variable {text : String} {s s' : ParserState}

/-- The current token is the first one left, or the end of the text. -/
lemma current_mem (h : Reaches text s) : ∃ rest,
    s.stream.ahead ++ [Lexer.ending text] = s.stream.current :: rest := by
  unfold TokenStream.current
  cases s.stream.ahead with
  | nil =>
    refine ⟨[], ?_⟩
    rw [List.nil_append, List.headD_nil, TokenStream.ending, h.length_eq]
    rfl
  | cons token rest => exact ⟨rest ++ [Lexer.ending text], rfl⟩

/-- What is left behind the tokens passed so far is the end of all tokens. -/
lemma tokenize_eq (h : Reaches text s) : ∃ passed : List Token,
    Lexer.tokenize text = passed ++ (s.stream.ahead ++ [Lexer.ending text]) := by
  obtain ⟨passed, -, split⟩ := h.exists_passed
  exact ⟨passed, by rw [Lexer.tokenize, split, List.append_assoc]⟩

/-- The current token starts at an edge. -/
lemma edge_offset (h : Reaches text s) : Lexer.Edge text s.stream.offset := by
  obtain ⟨passed, whole⟩ := h.tokenize_eq
  obtain ⟨rest, left⟩ := h.current_mem
  exact ⟨s.stream.current, by rw [whole, left]; simp, .inl rfl⟩

/-- The token read last stops in front of the current one. -/
lemma previousEnd_le (h : Reaches text s) : s.stream.previousEnd ≤ s.stream.offset := by
  obtain ⟨rest, left⟩ := h.current_mem
  obtain ⟨passed, -, split, ⟨-, start⟩ | ⟨before, last, rfl, stop⟩⟩ := h.previousEnd_eq
  · omega
  · have ordered := (Lexer.ordered_tokenize text).1
    rw [Lexer.tokenize, split, List.append_assoc, left] at ordered
    rw [stop]
    exact (List.pairwise_append.1 ordered).2.2 last (by simp) s.stream.current (by simp)

/-- Behind a valid token, the token read last stops at an edge, which is behind the start of that
token. -/
lemma edge_previousEnd (h : Reaches text s) {kind : TokenKind} (same : s.stream.kind = kind)
    (noEnd : kind ≠ .endOfInput) (passes : Passes s.advance s') :
    Lexer.Edge text s'.stream.previousEnd ∧ s.stream.offset < s'.stream.previousEnd := by
  obtain ⟨passed, whole⟩ := h.tokenize_eq
  obtain ⟨tokens, -, ahead, stream⟩ := passes
  have first : s.stream.ahead = s.stream.current :: tokens ++ s'.stream.ahead := by
    rw [List.cons_append, ← ahead, ahead_of_kind same noEnd, ← same]
    rfl
  rw [first, List.append_assoc] at whole
  obtain ⟨front, last, split⟩ : ∃ front last, s.stream.current :: tokens = front ++ [last] :=
    ⟨_, _, (List.dropLast_append_getLast (List.cons_ne_nil _ _)).symm⟩
  have stop : s'.stream.previousEnd = last.span.stop := by
    have moved : s'.stream = s.stream.advanceBy (s.stream.current :: tokens).length := stream
    rw [split, List.append_assoc, List.singleton_append] at first
    rw [TokenStream.previousEnd, moved, split, previous_advanceBy first]
  rw [stop]
  refine ⟨⟨last, by rw [whole, split]; simp, .inr rfl⟩, ?_⟩
  have mem : s.stream.current ∈ Lexer.tokenize text := by
    rw [whole]
    simp
  have proper := Lexer.start_lt_stop mem (same.trans_ne noEnd)
  have behind := Lexer.stop_le_stop whole (by rw [split, List.getLast?_concat])
  exact Nat.lt_of_lt_of_le proper behind

/-- A parse that goes on stays where it is, or passes the current token, which is not empty. -/
lemma stays_or_passes (h : Reaches text s) (passes : Passes s s') :
    s'.stream = s.stream ∨ s.stream.offset < s'.stream.previousEnd := by
  obtain ⟨tokens, valid, ahead, stream⟩ := passes
  cases tokens with
  | nil => exact .inl stream
  | cons token tokens =>
    obtain ⟨isValid, others⟩ := List.forall_mem_cons.1 valid
    have rest : Passes s.advance s' := by
      refine ⟨tokens, others, ?_, stream⟩
      simp [ParserState.advance, TokenStream.advance, ahead]
    have noEnd : token.kind ≠ .endOfInput := by
      intro isEnd
      rw [isEnd] at isValid
      cases isValid
    exact .inr (h.edge_previousEnd (kind_of_ahead_cons ahead) noEnd rest).2

/-- Tokens are passed from left to right. -/
lemma offset_le (h : Reaches text s) (passes : Passes s s') :
    s.stream.offset ≤ s'.stream.offset := by
  rcases h.stays_or_passes passes with same | later
  · exact Nat.le_of_eq (by rw [same])
  · have := (h.passes passes).previousEnd_le
    omega

/-- The token read last never moves back. -/
lemma previousEnd_mono (h : Reaches text s) (passes : Passes s s') :
    s.stream.previousEnd ≤ s'.stream.previousEnd := by
  rcases h.stays_or_passes passes with same | later
  · exact Nat.le_of_eq (by rw [same])
  · have := h.previousEnd_le
    omega

end Reaches

/-! ## Shapes -/

/-- The places of a shape are edges of tokens, and a grouping does not end before the select list. -/
structure ResultShape.Marked (text : String) (shape : ResultShape) : Prop where
  /-- The token after the select list starts at an edge. -/
  selectList : Lexer.Edge text shape.selectListStop
  /-- The grouping ends at an edge, behind the select list. -/
  grouping : ∀ stop, shape.groupByStop = some stop →
    Lexer.Edge text stop ∧ shape.selectListStop ≤ stop

namespace Grammar

variable {env : Environment} {text : String} {s s' : ParserState} {known known' : PartialLevel}

/-- Two shapes have the same places. -/
def SameStops (shape shape' : ResultShape) : Prop :=
  shape'.selectListStop = shape.selectListStop ∧ shape'.groupByStop = shape.groupByStop

/-- A shape with the same places as one whose places are edges of tokens. -/
lemma SameStops.marked {shape shape' : ResultShape} (same : SameStops shape shape')
    (marked : ResultShape.Marked text shape) : ResultShape.Marked text shape' where
  selectList := by
    rw [same.1]
    exact marked.selectList
  grouping := by
    rw [same.1, same.2]
    exact marked.grouping

/-- Only a select list and a grouping change the places of a shape. -/
lemma sameStops_clause {level : Parser PartialLevel} {next : SelectClause}
    (noList : next ≠ .selectList) (noGrouping : next ≠ .grouping)
    (success : (clause env level known next).run s = .ok (known', s')) :
    SameStops known.shape known'.shape := by
  cases next with
  | selectList => exact absurd rfl noList
  | grouping => exact absurd rfl noGrouping
  | tables | condition | groupCondition | trailing =>
    obtain ⟨_, s₁, read, done⟩ := run_bind_ok.1 success
    obtain ⟨rfl, rfl⟩ := run_pure_ok.1 done
    exact ⟨rfl, rfl⟩
  | ordering =>
    obtain ⟨shape, s₁, read, done⟩ := run_bind_ok.1 success
    obtain ⟨rfl, rfl⟩ := run_pure_ok.1 done
    rcases run_ordering_ok read with ⟨rfl, -⟩ | ⟨items, s₁, -, -, rfl⟩
    · exact ⟨rfl, rfl⟩
    · exact ⟨rfl, rfl⟩
  | limit =>
    obtain ⟨shape, s₁, read, done⟩ := run_bind_ok.1 success
    obtain ⟨rfl, rfl⟩ := run_pure_ok.1 done
    rcases limit_reads read with ⟨rfl, rfl⟩ | ⟨-, limit, -, -, -, -, rfl, -, -⟩
    · exact ⟨rfl, rfl⟩
    · exact ⟨rfl, rfl⟩

/-- What holds of the shapes of all levels below holds after a clause. -/
lemma below_clause {P : ResultShape → Prop} {level : Parser PartialLevel} {next : SelectClause}
    (lower : ∀ t t' known, Reaches text t → level.run t = .ok (known, t') → ShapesHold P known)
    (reaches : Reaches text s) (below : ∀ inner ∈ known.below, P inner.shape)
    (success : (clause env level known next).run s = .ok (known', s')) :
    ∀ inner ∈ known'.below, P inner.shape := by
  by_cases isTables : next = .tables
  · subst isTables
    obtain ⟨lowerLevels, s₁, read, done⟩ := run_bind_ok.1 success
    obtain ⟨rfl, rfl⟩ := run_pure_ok.1 done
    rcases tables_leads Passes read with ⟨-, rfl⟩ | ⟨read, t, word, opening, inner, -, -, rfl⟩
    · exact below
    · have entered : Reaches text (derivedStart s) :=
        ((reaches.passes (Advancing.token word)).passes (Advancing.token opening)).of_stream rfl
      obtain ⟨own, others⟩ := lower _ _ _ entered inner
      exact List.forall_mem_cons.2 ⟨own, others⟩
  · rw [(clause_leads Passes isTables success).2]
    exact below

/-- Clauses other than a select list and a grouping keep the places of a shape, and what holds of the
shapes of all levels below. -/
lemma sameStops_clauses {P : ResultShape → Prop} {level : Parser PartialLevel}
    {clauses : List SelectClause} (passes : Leads Passes level)
    (lower : ∀ t t' known, Reaches text t → level.run t = .ok (known, t') → ShapesHold P known)
    (others : .selectList ∉ clauses ∧ .grouping ∉ clauses) (reaches : Reaches text s)
    (below : ∀ inner ∈ known.below, P inner.shape)
    (success : (clauses.foldlM (clause env level) known).run s = .ok (known', s')) :
    Passes s s' ∧ SameStops known.shape known'.shape ∧ ∀ inner ∈ known'.below, P inner.shape := by
  refine run_foldlM_keeps (P := fun now t => Passes s t ∧ SameStops known.shape now.shape ∧
    ∀ inner ∈ now.below, P inner.shape) (fun next mem now now' t t' holds read => ?_)
    ⟨Steady.refl _, ⟨rfl, rfl⟩, below⟩ success
  obtain ⟨passed, stops, inside⟩ := holds
  have passed' := (passes_clause passes now next).related read
  have stops' := sameStops_clause (fun isList => others.1 (isList ▸ mem))
    (fun isGrouping => others.2 (isGrouping ▸ mem)) read
  exact ⟨Steady.trans passed passed', ⟨stops'.1.trans stops.1, stops'.2.trans stops.2⟩,
    below_clause lower (reaches.passes passed) inside read⟩

/-- After a grouping, with the select list before it that stops where the token read next starts, the
places of a shape are edges of tokens. -/
lemma marked_grouping {level : Parser PartialLevel} {afterList : ParserState}
    (reaches : Reaches text afterList) (passed : Passes afterList s)
    (listStop : known.shape.selectListStop = afterList.stream.offset)
    (noGrouping : known.shape.groupByStop = none)
    (success : (clause env level known .grouping).run s = .ok (known', s')) :
    ResultShape.Marked text known'.shape := by
  have listEdge : Lexer.Edge text known.shape.selectListStop := by
    rw [listStop]
    exact reaches.edge_offset
  obtain ⟨shape, s₁, groupRead, done⟩ := run_bind_ok.1 success
  obtain ⟨rfl, rfl⟩ := run_pure_ok.1 done
  rcases run_grouping_ok groupRead with ⟨rfl, -⟩ | ⟨keyword, items, s₂, s₃, word, first, read, last, rfl⟩
  · refine ⟨listEdge, fun stop isStop => ?_⟩
    rw [noGrouping] at isStop
    cases isStop
  · have items : Leads Passes (commaSeparated (orderItem env.rules known.shape)) :=
      Leads.list (leads_orderItem _)
    obtain ⟨edge, later⟩ := (reaches.passes passed).edge_previousEnd word (by simp)
      (Steady.trans (Steady.trans first (items.related read)) last)
    refine ⟨listEdge, fun stop isStop => ?_⟩
    cases isStop
    refine ⟨edge, ?_⟩
    show known.shape.selectListStop ≤ _
    rw [listStop]
    exact Nat.le_trans (reaches.offset_le passed) (Nat.le_of_lt later)

/-- The places of the shapes of all levels are edges of tokens, if the select list is read first and the
grouping once.

**Proof sketch.** Induction on the bound on the tokens, which bounds the levels below. The select list
stops where the next token starts; a grouping that comes later passes its first word at least. -/
lemma marked_levelsUpTo (standard : env.dialect.clauses = Dialect.generic.clauses) {n : Nat} :
    ∀ {s s' : ParserState} {known : PartialLevel}, Reaches text s →
      (levelsUpTo env n).run s = .ok (known, s') → ShapesHold (ResultShape.Marked text) known := by
  induction n with
  | zero => exact fun _ success => absurd success run_unexpected_ne
  | succ n ih =>
    intro s s' known reaches success
    obtain ⟨_, s₁, accepted, rest⟩ := run_bind_ok.1 success
    obtain ⟨word, -, rfl⟩ := run_acceptKeyword_ok.1 accepted
    have passes : Leads Passes (levelsUpTo env n) := passes_levelsUpTo n
    have lower : ∀ t t' known, Reaches text t → (levelsUpTo env n).run t = .ok (known, t') →
        ShapesHold (ResultShape.Marked text) known := fun _ _ _ reaches read => ih reaches read
    -- the clauses: the select list, those up to the grouping, the grouping, those after it
    have parts : Dialect.generic.clauses = .selectList :: ([.tables, .condition] ++
        .grouping :: [.groupCondition, .ordering, .limit, .trailing]) := rfl
    rw [standard, parts, List.foldlM_cons] at rest
    obtain ⟨listed, t₁, selectRead, afterList⟩ := run_bind_ok.1 rest
    rw [List.foldlM_append] at afterList
    obtain ⟨sourced, t₂, sourcesRead, afterSources⟩ := run_bind_ok.1 afterList
    rw [List.foldlM_cons] at afterSources
    obtain ⟨grouped, t₃, groupingRead, afterGrouping⟩ := run_bind_ok.1 afterSources
    have reaches₀ : Reaches text s.advance := reaches.passes (Advancing.token word)
    have reaches₁ := reaches₀.passes ((passes_clause passes _ _).related selectRead)
    obtain ⟨shape, t, listRead, done⟩ := run_bind_ok.1 selectRead
    obtain ⟨rfl, rfl⟩ := run_pure_ok.1 done
    obtain ⟨distinct, items, t₀, -, -, rfl⟩ := run_selectList_ok listRead
    obtain ⟨passed, ⟨listStop, groupStop⟩, below⟩ := sameStops_clauses passes lower (by decide) reaches₁
      (by simp) sourcesRead
    have reaches₂ := reaches₁.passes passed
    have marked := marked_grouping reaches₁ passed listStop groupStop groupingRead
    have reaches₃ := reaches₂.passes ((passes_clause passes _ _).related groupingRead)
    obtain ⟨-, same, lowest⟩ := sameStops_clauses passes lower (by decide) reaches₃
      (below_clause lower reaches₂ below groupingRead) afterGrouping
    exact ⟨same.marked marked, lowest⟩

end Grammar

/-! ## Statements -/

namespace Edit

/-- The insertions among some edits of a text stand at edges of its tokens, and make the rewritten
text. -/
structure Splices (text : String) (edits : List Edit) : Prop where
  /-- Each insertion stands within the text, between two characters, where a token starts or stops. -/
  edge : ∀ insertion ∈ insertions edits, insertion.1 ≤ Text.byteLength text.toList ∧
    Text.Between text insertion.1 ∧ Lexer.Edge text insertion.1
  /-- Items are not inserted behind an ordering. -/
  ordered : ∀ items ∈ edits, ∀ order ∈ edits, items.kind = .items → order.kind = .orderBy →
    items.start ≤ order.start
  /-- The rewritten text is the original one with each inserted text at its place. -/
  spliced : applyInsertions text edits =
    String.ofList (interleave (insertions edits) 0 text.toList)
  /-- The inserted texts are segments of the rewritten text. -/
  segments : (segments 0 (inOrder edits)).map (·.text (applyInsertions text edits)) =
    (inOrder edits).map (·.2)
  /-- Without these segments the original text is left. -/
  deleted : withoutSegments (applyInsertions text edits) 0 (Edit.segments 0 (inOrder edits)) = text

/-- The number of edits of some kinds. -/
def countKinds (kinds : List EditKind) (edits : List Edit) : Nat :=
  edits.countP fun edit => kinds.contains edit.kind

variable {text : String} {edits : List Edit}

/-- Insertions at edges between characters make the rewritten text. -/
lemma splices_of_edge
    (edge : ∀ insertion ∈ insertions edits, Text.Between text insertion.1 ∧ Lexer.Edge text insertion.1)
    (ordered : ∀ items ∈ edits, ∀ order ∈ edits, items.kind = .items → order.kind = .orderBy →
      items.start ≤ order.start) : Splices text edits := by
  have between : ∀ insertion ∈ insertions edits, Text.Between text insertion.1 :=
    fun insertion mem => (edge insertion mem).1
  obtain ⟨texts, left⟩ := segments_applyInsertions between
  exact ⟨fun insertion mem => ⟨(between insertion mem).le_byteLength, edge insertion mem⟩, ordered,
    applyInsertions_eq between, texts, left⟩

/-- A placed insertion stands between two characters. -/
lemma Placed.between {insertion : Nat × String} (placed : Placed text insertion) :
    Text.Between text insertion.1 := by
  rcases placed.place with atEnd | boundary
  · exact ⟨text.toList, [], by simp, atEnd.symm⟩
  · exact boundary.between

/-- An edit of a kind that inserts text is an insertion. -/
lemma mem_insertions_of_kind {edit : Edit} (mem : edit ∈ edits)
    (inserts : edit.kind = .items ∨ edit.kind = .orderBy ∨ edit.kind = .insertColumns) :
    ∃ inserted, (edit.start, inserted) ∈ insertions edits := by
  have hasText : ∃ inserted, edit.insertedText? = some inserted := by
    cases edit <;> first | exact ⟨_, rfl⟩ | simp [kind] at inserts
  obtain ⟨inserted, isInserted⟩ := hasText
  exact ⟨inserted, List.mem_filterMap.2 ⟨edit, mem, by rw [isInserted]; rfl⟩⟩

/-- An edit that inserts text is of a kind that does. -/
lemma kind_of_insertedText {edit : Edit} {inserted : String} (same : edit.insertedText? = some inserted) :
    edit.kind = .items ∨ edit.kind = .orderBy ∨ edit.kind = .insertColumns := by
  cases edit <;> first | exact .inl rfl | exact .inr (.inl rfl) | exact .inr (.inr rfl) | cases same

/-- The edits of two lists are counted together. -/
lemma countKinds_append (kinds : List EditKind) (before after : List Edit) :
    countKinds kinds (before ++ after) = countKinds kinds before + countKinds kinds after :=
  List.countP_append

/-- Edits of kinds that add something are counted among the additions. -/
lemma countKinds_additions {kinds : List EditKind}
    (adding : kinds ⊆ [.items, .orderBy, .insertColumns, .insertValues]) :
    countKinds kinds (additions edits) = countKinds kinds edits := by
  rw [countKinds, additions, List.countP_filter, countKinds]
  refine List.countP_congr fun edit _ => ?_
  simp only [Bool.and_eq_true, List.contains_iff_mem, and_iff_left_iff_imp]
  exact fun mem => adding mem

/-- Edits that insert nothing are of other kinds. -/
lemma countKinds_eq_zero (nothing : insertions edits = []) {kinds : List EditKind}
    (inserting : ∀ kind ∈ kinds, kind = .items ∨ kind = .orderBy ∨ kind = .insertColumns) :
    countKinds kinds edits = 0 := by
  rw [countKinds, List.countP_eq_zero]
  intro edit mem isKind
  obtain ⟨inserted, found⟩ := mem_insertions_of_kind mem
    (inserting edit.kind (List.contains_iff_mem.1 isKind))
  rw [nothing] at found
  cases found

end Edit

namespace Statement

/-- A query inserts items and an ordering once at most, and an insertion inserts columns once at
most. -/
def InsertsOnce : Statement → Prop
  | .select query => Edit.countKinds [.items] query.context.edits ≤ 1 ∧
      Edit.countKinds [.orderBy] query.context.edits ≤ 1 ∧
      Edit.countKinds [.insertColumns] query.context.edits = 0
  | .insert insertion => Edit.countKinds [.items, .insertColumns] insertion.context.edits ≤ 1 ∧
      Edit.countKinds [.orderBy] insertion.context.edits = 0

end Statement

namespace Grammar

variable {env : Environment} {text : String}

/-- An edit of an accepted query that inserts text inserts items where the select list stops, or an
ordering where the grouping does. -/
lemma start_of_prepared {level : SelectLevel} {query : SelectStatement}
    (nothing : Edit.insertions level.context.edits = [])
    (prepared : ({ toSelectLevel := level } : SelectStatement).prepare env.metadata = .ok query)
    {edit : Edit} (mem : edit ∈ query.context.edits)
    (inserts : edit.kind = .items ∨ edit.kind = .orderBy ∨ edit.kind = .insertColumns) :
    edit.kind = .items ∧ edit.start = level.shape.selectListStop ∨
      edit.kind = .orderBy ∧ level.shape.groupByStop = some edit.start := by
  obtain ⟨fragments, orders, -, edits, isOrder⟩ := SelectStatement.prepare_edits prepared
  rw [edits] at mem
  rcases List.mem_append.1 mem with mem | mem
  · rcases List.mem_append.1 mem with mem | mem
    · obtain ⟨inserted, found⟩ := Edit.mem_insertions_of_kind mem inserts
      rw [nothing] at found
      cases found
    · split at mem
      · cases mem
      · obtain rfl := List.mem_singleton.1 mem
        exact .inl ⟨rfl, rfl⟩
  · rcases isOrder with rfl | ⟨stop, isStop, rfl⟩
    · cases mem
    · obtain rfl := List.mem_singleton.1 mem
      exact .inr ⟨rfl, isStop⟩

/-- An accepted query inserts items and an ordering once at most. -/
lemma insertsOnce_of_prepared {level : SelectLevel} {query : SelectStatement}
    (nothing : Edit.insertions level.context.edits = [])
    (prepared : ({ toSelectLevel := level } : SelectStatement).prepare env.metadata = .ok query) :
    Statement.InsertsOnce (.select query) := by
  obtain ⟨fragments, orders, -, edits, isOrder⟩ := SelectStatement.prepare_edits prepared
  have uncounted {kinds : List EditKind}
      (inserting : ∀ kind ∈ kinds, kind = .items ∨ kind = .orderBy ∨ kind = .insertColumns) :
      Edit.countKinds kinds level.context.edits = 0 := Edit.countKinds_eq_zero nothing inserting
  rw [Statement.InsertsOnce, edits]
  simp only [Edit.countKinds_append]
  rw [uncounted (by simp), uncounted (by simp), uncounted (by simp)]
  cases fragments with
  | nil => rcases isOrder with rfl | ⟨stop, -, rfl⟩ <;> simp [Edit.countKinds, Edit.kind]
  | cons fragment fragments =>
    rcases isOrder with rfl | ⟨stop, -, rfl⟩ <;> simp [Edit.countKinds, Edit.kind]

/-- What an accepted query inserts, and where. -/
lemma splices_of_query (standard : env.dialect.clauses = Dialect.generic.clauses)
    {query : SelectStatement} (success : Statement.ofText env text = .ok (.select query)) :
    Statement.InsertsOnce (.select query) ∧ Edit.Splices text query.context.edits := by
  have once : env.dialect.clauses.count .tables ≤ 1 := by rw [standard]; decide
  obtain ⟨level, passages, trail, prepared⟩ := query_trail once success
  have marked : ResultShape.Marked text level.shape := by
    obtain ⟨whole, s, read, rfl⟩ := trail.read
    obtain ⟨n, known, levelsRead, rfl⟩ := levels_run read
    exact SelectStatement.merge_shape
      (List.forall_mem_cons.2 (marked_levelsUpTo standard (Reaches.start text) levelsRead))
  refine ⟨insertsOnce_of_prepared trail.insertions prepared, Edit.splices_of_edge ?_ ?_⟩
  · intro insertion mem
    refine ⟨((placed_of_query once success).2 insertion mem).between, ?_⟩
    obtain ⟨edit, isEdit, inserts⟩ := List.mem_filterMap.1 mem
    obtain ⟨inserted, isInserted, rfl⟩ := Option.map_eq_some_iff.1 inserts
    rcases start_of_prepared trail.insertions prepared isEdit (Edit.kind_of_insertedText isInserted) with
      ⟨-, start⟩ | ⟨-, stop⟩
    · rw [start]
      exact marked.selectList
    · exact (marked.grouping _ stop).1
  · intro items isItems order isOrder itemsKind orderKind
    have first := start_of_prepared trail.insertions prepared isItems (.inl itemsKind)
    have second := start_of_prepared trail.insertions prepared isOrder (.inr (.inl orderKind))
    simp only [itemsKind, orderKind, true_and, reduceCtorEq, false_and, or_false, false_or] at first second
    rw [first]
    exact (marked.grouping _ second).2

/-- Columns are added once at most, and no ordering is. -/
lemma TargetRead.countKinds_le {table source : String} {index stop : Nat} {tokens : List Token}
    {target : Target} {added : List Edit}
    (read : TargetRead env source table index stop tokens target added) :
    Edit.countKinds [.items, .insertColumns] added ≤ 1 ∧ Edit.countKinds [.orderBy] added = 0 := by
  cases read with
  | @listed _ _ _ names opens isList closes =>
    cases missingKey? env.rules table (names.map Text.unquoted) <;> simp [Edit.countKinds, Edit.kind]
  | known isKnown => simp [Edit.countKinds, Edit.kind]
  | unknown noColumns => simp [Edit.countKinds]

/-- What an accepted insertion inserts, and where. -/
lemma splices_of_insert {insertion : InsertStatement}
    (success : Statement.ofText env text = .ok (.insert insertion)) :
    Statement.InsertsOnce (.insert insertion) ∧ Edit.Splices text insertion.context.edits := by
  obtain ⟨last, ⟨steps⟩, valid⟩ := insertion_steps success
  have once : Statement.InsertsOnce (.insert insertion) := by
    obtain ⟨tokens, added, read, -, additions⟩ := steps.additions_eq
    have counted {kinds : List EditKind}
        (adding : kinds ⊆ [.items, .orderBy, .insertColumns, .insertValues]) :
        Edit.countKinds kinds insertion.context.edits = Edit.countKinds kinds
          (if steps.assignment?.isSome then [.insertValues steps.place .set]
            else added ++ [.insertValues steps.place .values]) := by
      rw [← Edit.countKinds_additions adding, additions]
    rw [Statement.InsertsOnce, counted (by decide), counted (by decide)]
    split
    · simp [Edit.countKinds, Edit.kind]
    · rw [Edit.countKinds_append, Edit.countKinds_append]
      exact read.countKinds_le
  refine ⟨once, Edit.splices_of_edge ?_ ?_⟩
  · intro inserted mem
    refine ⟨((placed_of_insert success).2 inserted mem).between, ?_⟩
    obtain ⟨before, tokens, after, added, split, read, mem⟩ := steps.insertions_located mem
    rcases read.mem_insertions mem with ⟨front, closing, key, rfl, closes, rfl⟩ | ⟨columns, rfl⟩
    · exact ⟨closing, by rw [Lexer.tokenize, split]; simp, .inl rfl⟩
    · exact ((Reaches.start text).edge_previousEnd steps.word (by simp) steps.passes_named).1
  · intro items isItems order isOrder itemsKind orderKind
    have unordered := List.countP_eq_zero.1 once.2 order isOrder
    simp [orderKind] at unordered

end Grammar

namespace Statement

/-- The insertions of an accepted statement stand at edges of its tokens, a query has one of items and
one of an ordering at most, in this order, and an insertion one of columns. So the rewritten text is the
original one with each inserted text at its place, and without these segments it is the original text
again.

**Proof sketch.** Nothing is inserted but by the preparation of the merged query, which makes one edit of
all columns and one of the ordering, and by the columns of an insertion. The places of these edits are ends
of clauses and starts of tokens, as the reading has recorded them, so all of them are edges of tokens. Texts
at edges split the original into segments, and these are what is left without them. -/
theorem splices_of_ofText {env : Environment} {text : String} {statement : Statement}
    (standard : env.dialect.clauses = Dialect.generic.clauses)
    (success : ofText env text = .ok statement) :
    statement.InsertsOnce ∧ Edit.Splices text statement.context.edits := by
  cases statement with
  | select query => exact Grammar.splices_of_query standard success
  | insert insertion => exact Grammar.splices_of_insert success

/-- A grouping with a comment behind it, in which a character takes two bytes, and an insertion whose
columns are known, each with what is inserted. -/
theorem splices_of_grouping :
    (∃ query, ofText {} "SELECT AVG(a) FROM t GROUP BY b -- é" = .ok (.select query) ∧
      Edit.applyInsertions "SELECT AVG(a) FROM t GROUP BY b -- é" query.context.edits =
        "SELECT AVG(a) , COUNT(a) AS AVG_COUNT_0 , SUM(a) AS AVG_SUM_0 , b AS GROUP_BY_DERIVED_0 " ++
          "FROM t GROUP BY b ORDER BY b ASC  -- é" ∧
      Edit.Splices "SELECT AVG(a) FROM t GROUP BY b -- é" query.context.edits) ∧
    ∃ env insertion, env.dialect = .mysql ∧
      ofText env "INSERT INTO t VALUES (1)" = .ok (.insert insertion) ∧
      Edit.applyInsertions "INSERT INTO t VALUES (1)" insertion.context.edits =
        "INSERT INTO t(a) VALUES (1)" ∧
      Edit.Splices "INSERT INTO t VALUES (1)" insertion.context.edits := by
  constructor
  · have seen : (Grammar.query? {} "SELECT AVG(a) FROM t GROUP BY b -- é").map (fun query =>
        Edit.insertions query.context.edits) =
        some [(14, ", COUNT(a) AS AVG_COUNT_0 , SUM(a) AS AVG_SUM_0 , b AS GROUP_BY_DERIVED_0 "),
          (31, " ORDER BY b ASC ")] := by decide +kernel
    obtain ⟨query, success, same⟩ := Grammar.exists_of_query seen
    obtain ⟨-, splices⟩ := splices_of_ofText rfl success
    refine ⟨query, success, ?_, splices⟩
    have rewritten := splices.spliced
    simp only [context, same] at rewritten
    rw [rewritten]
    decide +kernel
  · let env : Environment := { dialect := .mysql, metadata := ⟨[("t", ["a"])]⟩ }
    have seen : (Grammar.insertion? env "INSERT INTO t VALUES (1)").map (fun insertion =>
        Edit.applyInsertions "INSERT INTO t VALUES (1)" insertion.context.edits) =
        some "INSERT INTO t(a) VALUES (1)" := by decide +kernel
    obtain ⟨insertion, success, same⟩ := Grammar.exists_of_insertion seen
    exact ⟨env, insertion, rfl, success, same, (splices_of_ofText rfl success).2⟩

end Statement

end SqlRouting
