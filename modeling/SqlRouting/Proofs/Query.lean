import SqlRouting.Grammar.Statement
import SqlRouting.Proofs.Level
import SqlRouting.Proofs.Scanners

/-!
# Reading queries

A text that is accepted as a query is read to its end. The levels of the query are merged and
prepared, of which the first keeps the tables of the innermost level and the conditions of all, and
the second changes neither.

## Main definitions

* `SqlRouting.SelectLevel.supplier` — the level that gives a query its shape.
* `SqlRouting.Grammar.query?` — the query that a text is accepted as.
* `SqlRouting.Grammar.QueryRead` — the readings of the levels of the query that a text writes.

## Main results

* `SqlRouting.Lexer.kind_ne_endOfInput` — no token of a text is the end of the input.
* `SqlRouting.SelectLevel.mergeAll_conditions`, `mergeAll_tables` — what merging keeps.
* `SqlRouting.SelectStatement.prepare_keeps` — preparing keeps all but the edits and the items.
* `SqlRouting.Grammar.query_read` — an accepted query has a reading, which says what it collects.
-/

set_option autoImplicit false

namespace SqlRouting

open TokenStream

/-! ## The end of the input -/

namespace Lexer

/-- No single token is the end of the input. -/
lemma scan_ne_endOfInput (c : Char) (cs : List Char) : (scan c cs).1 ≠ .endOfInput := by
  have scanned := scanner c
  generalize scan c = scans at scanned ⊢
  cases scanned with
  | symbol => simp
  | string => exact scanEnclosed_ne (by simp) (by simp [Fault.kind])
  | name => exact scanEnclosed_ne (by simp) (by simp [Fault.kind])
  | userVariable => exact scanVariable_ne (by simp) (by simp [Fault.kind])
  | number => exact scanNumber_ne (by simp)
  | word =>
    simp only [scanWord, wordKind]
    split <;> simp
  | unexpected => simp [Fault.kind]

/-- No token of a text is the end of the input. -/
lemma kind_ne_endOfInput {text : String} {token : Token} (mem : token ∈ tokens text) :
    token.kind ≠ .endOfInput := by
  unfold tokens at mem
  generalize Text.byteLength text.toList = total at mem
  generalize text.toList = cs at mem
  fun_induction tokensFrom total cs with
  | case1 cs nothing => simp at mem
  | case2 cs c rest left read ih =>
    rcases List.mem_cons.1 mem with rfl | later
    · exact scan_ne_endOfInput c rest
    · exact ih later

end Lexer

/-! ## Merging -/

namespace SelectLevel

variable (outer : SelectLevel) (below : List SelectLevel)

/-- The merged level has the conditions of all levels, from the outside in. -/
lemma mergeAll_conditions : (outer.mergeAll below).context.conditions =
    (outer :: below).flatMap (·.context.conditions) := by
  induction below generalizing outer with
  | nil => simp [mergeAll]
  | cons inner below ih => rw [mergeAll, mergeInto, List.flatMap_cons, ← ih inner]

/-- The merged level has the tables of the innermost level. -/
lemma mergeAll_tables : (outer.mergeAll below).context.tables =
    ((outer :: below).getLast (List.cons_ne_nil outer below)).context.tables := by
  induction below generalizing outer with
  | nil => rfl
  | cons inner below ih => rw [mergeAll, mergeInto, List.getLast_cons_cons, ← ih inner]

/-- The merged level has the count of the outermost level. -/
lemma mergeAll_parameters : (outer.mergeAll below).context.parameters =
    outer.context.parameters := by
  cases below <;> rfl

/-- The level that gives a query its shape: the outermost one whose select list has no star, or else the
innermost one. -/
def supplier (outer : SelectLevel) : List SelectLevel → SelectLevel
  | [] => outer
  | inner :: below => if outer.shape.containsStar then inner.supplier below else outer

/-- The level that gives the shape is one of the levels. -/
lemma supplier_mem : outer.supplier below ∈ outer :: below := by
  induction below generalizing outer with
  | nil => exact List.mem_singleton_self outer
  | cons inner below ih =>
    rw [supplier]
    split
    · exact List.mem_cons_of_mem outer (ih inner)
    · exact List.mem_cons_self

/-- The merged level has the shape of the level that gives it. -/
lemma mergeAll_shape : (outer.mergeAll below).shape = (outer.supplier below).shape := by
  induction below generalizing outer with
  | nil => rfl
  | cons inner below ih =>
    rw [mergeAll, mergeInto, ih inner, supplier]
    split <;> rfl

end SelectLevel

/-- What holds of the shapes of all levels of a query holds of the merged shape. -/
lemma SelectStatement.merge_shape {P : ResultShape → Prop} {query : SelectStatement}
    (holds : ∀ level ∈ query.toSelectLevel :: query.derivedTables, P level.shape) :
    P query.merge.shape := by
  rw [SelectStatement.merge, SelectLevel.mergeAll_shape]
  exact holds _ (SelectLevel.supplier_mem _ _)

namespace SelectLevel

/-! ## Preparing -/

/-- Two levels that collect the same but for edits, and have the same limit. -/
structure AlikeButItems (level other : SelectLevel) : Prop where
  /-- Edits aside, they collect the same. -/
  context : level.context.EditsOnly other.context
  /-- The limit is the same. -/
  limit : other.shape.limit = level.shape.limit

namespace AlikeButItems

variable {level other another : SelectLevel}

/-- Every level is like itself. -/
lemma refl (level : SelectLevel) : AlikeButItems level level :=
  ⟨⟨rfl, rfl, rfl⟩, rfl⟩

/-- A level that is like one that is like another is like the other. -/
lemma trans (h : AlikeButItems level other) (h' : AlikeButItems other another) :
    AlikeButItems level another where
  context := ⟨h'.context.tables.trans h.context.tables,
    h'.context.conditions.trans h.context.conditions,
    h'.context.parameters.trans h.context.parameters⟩
  limit := h'.limit.trans h.limit

end AlikeButItems

/-- Deriving columns to order or group by adds items only. -/
lemma deriveOrder_keeps (metadata : TableMetadata) (kind : DerivedColumn) (n : Nat)
    (level : SelectLevel) (items : List OrderItem) :
    AlikeButItems level (deriveOrder metadata kind n level items).level := by
  fun_induction deriveOrder metadata kind n level items with
  | case1 | case2 | case4 => exact .refl _
  | case3 n level item items covered rest ih => exact ih
  | case5 n level item items name named uncovered aliasName extended rest ih =>
    have pushed : AlikeButItems level extended := ⟨⟨rfl, rfl, rfl⟩, rfl⟩
    exact pushed.trans ih

/-- Adding texts to the select list is an edit. -/
lemma addFragments_keeps (level : SelectLevel) (fragments : List String) :
    AlikeButItems level (level.addFragments fragments) := by
  unfold addFragments
  split
  · exact .refl level
  · exact ⟨⟨rfl, rfl, rfl⟩, rfl⟩

/-- Deriving columns adds items and an edit only. -/
lemma deriveColumns_keeps (level : SelectLevel) (metadata : TableMetadata) :
    AlikeButItems level (level.deriveColumns metadata).level := by
  have derive (kind : DerivedColumn) (level : SelectLevel) (items : List OrderItem)
      (replace : SelectLevel → List OrderItem → SelectLevel)
      (keeps : ∀ level items, AlikeButItems level (replace level items)) :
      AlikeButItems level (replace (deriveOrder metadata kind 0 level items).level
        (deriveOrder metadata kind 0 level items).items) :=
    (deriveOrder_keeps metadata kind 0 level items).trans (keeps _ _)
  have averaged : AlikeButItems level level.withAverages.1 := ⟨⟨rfl, rfl, rfl⟩, rfl⟩
  have ordered := averaged.trans
    (derive .orderBy _ level.withAverages.1.shape.orderBy withOrderBy fun _ _ => ⟨⟨rfl, rfl, rfl⟩, rfl⟩)
  have grouped (level : SelectLevel) :=
    derive .groupBy level level.shape.groupBy withGroupBy fun _ _ => ⟨⟨rfl, rfl, rfl⟩, rfl⟩
  unfold deriveColumns
  dsimp only
  split
  · exact ordered
  · split
    · exact ordered.trans (grouped _)
    · exact (ordered.trans (grouped _)).trans (addFragments_keeps _ _)

/-- Making a grouping the ordering adds an edit only. -/
lemma deriveOrdering_keeps (level : SelectLevel) : AlikeButItems level level.deriveOrdering := by
  unfold deriveOrdering
  split
  · exact .refl level
  · dsimp only
    split
    · exact ⟨⟨rfl, rfl, rfl⟩, rfl⟩
    · exact ⟨⟨rfl, rfl, rfl⟩, rfl⟩

end SelectLevel

/-- Preparing a query keeps the tables, the conditions, the count and the limit. -/
lemma SelectStatement.prepare_keeps {query prepared : SelectStatement} {metadata : TableMetadata}
    (success : query.prepare metadata = .ok prepared) :
    query.toSelectLevel.AlikeButItems prepared.toSelectLevel := by
  unfold prepare at success
  dsimp only at success
  split at success
  · cases success
  · cases success
    exact (SelectLevel.deriveColumns_keeps _ _).trans (SelectLevel.deriveOrdering_keeps _)

namespace Grammar

open SqlRouting.Parser

variable {env : Environment} {text : String} {s s' : ParserState}

/-! ## Accepted texts -/

/-- Nothing is left of the text, except possibly a semicolon. -/
def Ended (s : ParserState) : Prop :=
  s.stream.ahead = [] ∨ ∃ token, s.stream.ahead = [token] ∧ token.kind = .symbol .semicolon

/-- Where the end of a text is read, nothing is left of it. -/
lemma finish_reads {result : Unit} (keeps : KeepsCount text s)
    (success : finish.run s = .ok (result, s')) : Ended s := by
  have nothing {t : ParserState} (mem : ∀ token ∈ t.stream.ahead, token ∈ Lexer.tokens text)
      (atEnd : t.stream.atEnd = true) : t.stream.ahead = [] := by
    cases left : t.stream.ahead with
    | nil => rfl
    | cons token rest =>
      have ended : token.kind = .endOfInput :=
        (kind_of_ahead_cons left).symm.trans (beq_iff_eq.1 atEnd)
      exact absurd ended (Lexer.kind_ne_endOfInput (mem token (by simp [left])))
  obtain ⟨-, passed, split, -⟩ := keeps
  rw [finish, run_skipSymbol_bind] at success
  split at success
  · rename_i semicolon
    rw [looks_stream.run_bind] at success
    split at success
    · -- no token of the text is the end of the input, so the end is where nothing is left
      rename_i atEnd
      have ahead := ahead_of_kind semicolon (by simp)
      have mem (token : Token) (mem : token ∈ s.advance.stream.ahead) :
          token ∈ Lexer.tokens text := by
        rw [split, ahead]
        exact List.mem_append_right _ (List.mem_cons_of_mem _ mem)
      exact .inr ⟨_, by rw [ahead, show s.stream.advance.ahead = [] from nothing mem atEnd], rfl⟩
    · exact absurd success run_unexpected_ne
  · rw [looks_stream.run_bind] at success
    split at success
    · rename_i atEnd
      exact .inl (nothing (fun token mem => by simp [split, mem]) atEnd)
    · exact absurd success run_unexpected_ne

/-- Where the end of a text may be, it is read. -/
lemma exists_finish (ended : Ended s) : ∃ s', finish.run s = .ok ((), s') := by
  have atEnd {t : ParserState} (noneLeft : t.stream.ahead = []) : t.stream.atEnd = true := by
    rw [atEnd, kind_of_ahead_nil noneLeft]
    rfl
  rw [finish, run_skipSymbol_bind]
  rcases ended with noneLeft | ⟨token, ahead, isSemicolon⟩
  · rw [if_neg (by rw [kind_of_ahead_nil noneLeft]; simp), looks_stream.run_bind, if_pos (atEnd noneLeft)]
    exact ⟨s, rfl⟩
  · have noneLeft : s.advance.stream.ahead = [] := congrArg List.tail ahead
    rw [if_pos ((kind_of_ahead_cons ahead).trans isSemicolon), looks_stream.run_bind, if_pos (atEnd noneLeft)]
    exact ⟨s.advance, rfl⟩

/-- A parse that keeps count and has nothing left has counted all placeholders of its text. -/
lemma Ended.parameters_eq (ended : Ended s) (keeps : KeepsCount text s) :
    s.context.parameters = placeholders (Lexer.tokens text) := by
  obtain ⟨-, passed, split, counted⟩ := keeps
  rcases ended with left | ⟨token, left, isSemicolon⟩
  · rw [counted, split, left, List.append_nil]
  · have plain : token.kind ≠ .symbol .question := by simp [isSemicolon]
    rw [counted, split, left, placeholders_append, placeholders_cons_of_ne plain]
    rfl

/-- A text is accepted exactly if its statement is read from the start. -/
lemma ofText_iff {statement : Statement} : Statement.ofText env text = .ok statement ↔
    ∃ s', (Grammar.statement env).run ⟨.ofText text, {}⟩ = .ok (statement, s') := by
  unfold Statement.ofText
  cases result : (Grammar.statement env).run ⟨.ofText text, {}⟩ with
  | error error => exact ⟨fun accepted => (by cases accepted), fun ⟨_, read⟩ => (by cases read)⟩
  | ok found =>
    constructor
    · intro accepted
      cases accepted
      exact ⟨found.2, rfl⟩
    · rintro ⟨s', read⟩
      cases read
      rfl

/-- An accepted text is a query or an insertion, with its end after it. -/
lemma ofText_reads {statement : Statement} (success : Statement.ofText env text = .ok statement) :
    ∃ s s', finish.run s = .ok ((), s') ∧
      ((∃ query, statement = .select query ∧
          (select env).run ⟨.ofText text, {}⟩ = .ok (query, s)) ∨
        ∃ insertion, statement = .insert insertion ∧
          (insert env).run ⟨.ofText text, {}⟩ = .ok (insertion, s)) := by
  obtain ⟨s', read⟩ := ofText_iff.1 success
  rw [Grammar.statement, (looks_checkKeyword _).run_bind] at read
  dsimp only at read
  split at read
  · rw [(looks_checkKeyword _).run_bind] at read
    obtain ⟨query, s₁, selected, rest⟩ := run_bind_ok.1 read
    rw [pure_bind] at rest
    obtain ⟨_, s₂, finished, done⟩ := run_bind_ok.1 rest
    obtain ⟨rfl, rfl⟩ := run_pure_ok.1 done
    exact ⟨s₁, s₂, finished, .inl ⟨query, rfl, selected⟩⟩
  · rw [(looks_checkKeyword _).run_bind] at read
    split at read
    · obtain ⟨insertion, s₁, inserted, rest⟩ := run_bind_ok.1 read
      rw [pure_bind] at rest
      obtain ⟨_, s₂, finished, done⟩ := run_bind_ok.1 rest
      obtain ⟨rfl, rfl⟩ := run_pure_ok.1 done
      exact ⟨s₁, s₂, finished, .inr ⟨insertion, rfl, inserted⟩⟩
    · obtain ⟨_, s₁, failed, -⟩ := run_bind_ok.1 read
      exact absurd failed run_unexpected_ne

/-- The query that a text is accepted as. -/
def query? (env : Environment) (text : String) : Option SelectStatement :=
  match Statement.ofText env text with
  | .ok (.select query) => some query
  | _ => none

/-- What is seen of the query that a text is accepted as is seen of an accepted query. -/
lemma exists_of_query {γ : Type} {part : SelectStatement → γ} {value : γ}
    (seen : (query? env text).map part = some value) :
    ∃ query, Statement.ofText env text = .ok (.select query) ∧ part query = value := by
  obtain ⟨query, isQuery, same⟩ := Option.map_eq_some_iff.1 seen
  unfold query? at isQuery
  split at isQuery
  · rename_i found accepted
    obtain rfl := Option.some.inj isQuery
    exact ⟨found, accepted, same⟩
  · cases isQuery

/-- The insertion that a text is accepted as. -/
def insertion? (env : Environment) (text : String) : Option InsertStatement :=
  match Statement.ofText env text with
  | .ok (.insert insertion) => some insertion
  | .ok (.select _) => none
  | .error _ => none

/-- What is seen of the insertion that a text is accepted as is seen of an accepted insertion. -/
lemma exists_of_insertion {γ : Type} {part : InsertStatement → γ} {value : γ}
    (seen : (insertion? env text).map part = some value) :
    ∃ insertion, Statement.ofText env text = .ok (.insert insertion) ∧ part insertion = value := by
  obtain ⟨insertion, isInsertion, same⟩ := Option.map_eq_some_iff.1 seen
  unfold insertion? at isInsertion
  split at isInsertion
  · rename_i found accepted
    obtain rfl := Option.some.inj isInsertion
    exact ⟨found, accepted, same⟩
  · cases isInsertion
  · cases isInsertion

/-! ## Levels of a query -/

/-- The readings of the levels of the query that a text writes, from the outside in. -/
def QueryRead (env : Environment) (text : String) (levels : List (List LevelEvent)) : Prop :=
  ∃ outer below s, levels = outer :: below ∧ LevelRead env ⟨.ofText text, {}⟩ outer s below ∧
    Ended s

/-- A level is passed by a run that keeps count. -/
lemma LevelRead.exists_run {events : List LevelEvent} {below : List (List LevelEvent)}
    (h : LevelRead env s events s' below) : ∃ tokens, Run Context.SameCount s tokens s' := by
  obtain ⟨tokens, run⟩ := h.2.exists_run
  exact ⟨_, (run_token h.1).trans run⟩

/-- The levels of a query are those that are read while tokens are left. -/
lemma levels_run {whole : SelectStatement} (success : (levels env).run s = .ok (whole, s')) :
    ∃ n known, (levelsUpTo env n).run s = .ok (known, s') ∧
      whole = ⟨⟨s'.context, known.shape⟩, known.below⟩ := by
  rw [levels, looks_remaining.run_bind] at success
  obtain ⟨known, s₁, read, rest⟩ := run_bind_ok.1 success
  rw [looks_context.run_bind, run_pure_ok] at rest
  obtain ⟨rfl, rfl⟩ := rest
  exact ⟨_, known, read, rfl⟩

/-- The levels of a query are read, and collect what their readings say. -/
lemma levels_read {whole : SelectStatement}
    (success : (levels env).run ⟨.ofText text, {}⟩ = .ok (whole, s)) :
    ∃ outer below, LevelRead env ⟨.ofText text, {}⟩ outer s below ∧
      List.Forall₂ Collects (whole.toSelectLevel :: whole.derivedTables) (outer :: below) ∧
      whole.context = s.context := by
  obtain ⟨n, known, read, rfl⟩ := levels_run success
  obtain ⟨outer, below, reading, collects⟩ := levelsUpTo_read read
  exact ⟨outer, below, reading, .cons (reading.collects known.shape) collects, rfl⟩

/-- Levels set the conditions that their readings say. -/
lemma conditions_of_collects {levels : List SelectLevel} {readings : List (List LevelEvent)}
    (collects : List.Forall₂ Collects levels readings) :
    levels.flatMap (·.context.conditions) = readings.flatMap LevelEvent.conditions := by
  induction collects with
  | nil => rfl
  | cons first rest ih => rw [List.flatMap_cons, List.flatMap_cons, first.2, ih]

/-- The last of some levels has the tables that the last of their readings names. -/
lemma tables_of_collects {level : SelectLevel} {levels : List SelectLevel} {reading : List LevelEvent}
    {readings : List (List LevelEvent)}
    (collects : List.Forall₂ Collects (level :: levels) (reading :: readings)) :
    ((level :: levels).getLast (List.cons_ne_nil level levels)).context.tables =
      LevelEvent.tables ((reading :: readings).getLast (List.cons_ne_nil reading readings)) := by
  induction levels generalizing level reading readings with
  | nil =>
    cases collects with
    | cons first rest =>
      cases rest
      exact first.1
  | cons next levels ih =>
    cases collects with
    | cons first rest =>
      cases rest with
      | cons second others =>
        rw [List.getLast_cons_cons, List.getLast_cons_cons]
        exact ih (.cons second others)

/-- An accepted query has a reading. Its conditions are those of all levels, its tables those of the
innermost level, and its count is that of all placeholders. -/
lemma query_read {query : SelectStatement}
    (success : Statement.ofText env text = .ok (.select query)) :
    ∃ outer below, QueryRead env text (outer :: below) ∧
      (∀ level ∈ outer :: below, EventsMean env.rules text {} level) ∧
      query.context.conditions = (outer :: below).flatMap LevelEvent.conditions ∧
      query.context.tables =
        LevelEvent.tables ((outer :: below).getLast (List.cons_ne_nil outer below)) ∧
      query.context.parameters = placeholders (Lexer.tokens text) := by
  obtain ⟨s, s', finished, ⟨_, same, selected⟩ | ⟨_, same, -⟩⟩ := ofText_reads success
  · cases same
    obtain ⟨whole, s₁, read, prepared⟩ := run_bind_ok.1 selected
    obtain ⟨success, rfl⟩ := run_lift_ok.1 prepared
    obtain ⟨outer, below, reading, collects, context⟩ := levels_read read
    obtain ⟨tokens, run⟩ := reading.exists_run
    have keeps := (KeepsCount.start text).sameCount run
    have ended := finish_reads keeps finished
    have kept := (SelectStatement.prepare_keeps success).context
    have first : KeepsCount text (ParserState.advance ⟨.ofText text, {}⟩) :=
      (KeepsCount.start text).editsOnly (run_token reading.1)
    obtain ⟨mean, meanBelow⟩ := reading.2.mean first (by simp)
    refine ⟨outer, below, ⟨outer, below, s₁, rfl, reading, ended⟩, ?_, ?_, ?_, ?_⟩
    · intro level mem
      rcases List.mem_cons.1 mem with rfl | mem
      · exact mean
      · exact meanBelow level mem
    · calc query.context.conditions
          = (whole.toSelectLevel.mergeAll whole.derivedTables).context.conditions := kept.conditions
        _ = (whole.toSelectLevel :: whole.derivedTables).flatMap (·.context.conditions) :=
          SelectLevel.mergeAll_conditions _ _
        _ = (outer :: below).flatMap LevelEvent.conditions := conditions_of_collects collects
    · calc query.context.tables
          = (whole.toSelectLevel.mergeAll whole.derivedTables).context.tables := kept.tables
        _ = ((whole.toSelectLevel :: whole.derivedTables).getLast (List.cons_ne_nil _ _)).context.tables :=
          SelectLevel.mergeAll_tables _ _
        _ = LevelEvent.tables ((outer :: below).getLast (List.cons_ne_nil outer below)) :=
          tables_of_collects collects
    · calc query.context.parameters
          = (whole.toSelectLevel.mergeAll whole.derivedTables).context.parameters := kept.parameters
        _ = s₁.context.parameters := by rw [SelectLevel.mergeAll_parameters, context]
        _ = placeholders (Lexer.tokens text) := ended.parameters_eq keeps
  · cases same

end Grammar

end SqlRouting
