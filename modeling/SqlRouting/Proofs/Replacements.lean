import Mathlib.Data.List.Pairwise
import Mathlib.Data.List.Perm.Subperm
import SqlRouting.Proofs.Layout

/-!
# What an accepted statement replaces

The names of tables and the numbers of limits are replaced before a statement is sent to a shard. The
edits of all levels of a query are laid out behind each other, wherever they are kept when the levels are
merged, and so are those of an insertion. So all of them can be applied together with what is
inserted.

## Main definitions

* `SqlRouting.Edit.Replaceable` — some edits of a text can be applied together.

## Main results

* `SqlRouting.Grammar.laid_levelsUpTo` — the edits of a level with those below it are laid out.
* `SqlRouting.Grammar.laid_insert` — so are those of an insertion.
* `SqlRouting.Statement.replaceable_of_ofText` — the edits of an accepted statement can be applied
  together.
-/

set_option autoImplicit false

namespace SqlRouting

open TokenStream SqlRouting.Parser

namespace Edit

/-- The edits of a text can be applied together: what is replaced is not empty, lies in the text and
starts and stops between characters; no two parts overlap, and nothing is inserted inside of one; and
each edit says truly what it replaces. -/
structure Replaceable (text : String) (edits : List Edit) : Prop where
  /-- What is replaced is a part of the text. -/
  proper : ∀ edit ∈ edits, edit.replaces = true → edit.start < edit.stop ∧
    edit.stop ≤ Text.byteLength text.toList ∧ Text.Between text edit.start ∧ Text.Between text edit.stop
  /-- Two parts that are replaced do not overlap. -/
  disjoint : (edits.filter replaces).Pairwise fun a b => a.stop ≤ b.start ∨ b.stop ≤ a.start
  /-- No text is inserted inside of what is replaced. -/
  outside : ∀ insertion ∈ edits, insertion.insertedText?.isSome = true →
    ∀ edit ∈ edits, edit.replaces = true → ¬ (edit.start < insertion.start ∧ insertion.start < edit.stop)
  /-- The edits say truly what they replace. -/
  faithful : ∀ edit ∈ edits, edit.Faithful text

variable {text : String} {edits : List Edit}

/-- An edit that inserts text replaces nothing. -/
lemma replaces_of_insertedText {edit : Edit} (inserts : edit.insertedText?.isSome = true) :
    edit.replaces = false := by
  cases edit <;> first | rfl | cases inserts

section WithInsertForm

variable (form : InsertForm) (edit : Edit)

/-- An edit starts at the same place, whatever the form of its values. -/
lemma start_withInsertForm : (edit.withInsertForm form).start = edit.start := by
  cases edit <;> rfl

/-- An edit stops at the same place, whatever the form of its values. -/
lemma stop_withInsertForm : (edit.withInsertForm form).stop = edit.stop := by
  cases edit <;> rfl

/-- An edit replaces the same, whatever the form of its values. -/
lemma replaces_withInsertForm : (edit.withInsertForm form).replaces = edit.replaces := by
  cases edit <;> rfl

/-- An edit stays sound, whatever the form of its values. -/
lemma Sound.withInsertForm {edit : Edit} (h : edit.Sound text) : (edit.withInsertForm form).Sound text := by
  cases edit with
  | insertValues => exact sound_of_inserts rfl
  | _ => exact h

end WithInsertForm

/-- Sound edits that are apart can be applied together. -/
lemma replaceable_of_apart (sound : ∀ edit ∈ edits, edit.Sound text) (apart : edits.Pairwise Apart) :
    Replaceable text edits where
  proper edit mem replaces :=
    ⟨(sound edit mem).proper replaces, ((sound edit mem).stops replaces).le_byteLength,
      (sound edit mem).starts replaces, (sound edit mem).stops replaces⟩
  disjoint := apart.sublist List.filter_sublist
  outside insertion isInsertion inserts edit mem replaces := by
    have inserting := replaces_of_insertedText inserts
    have different : insertion ≠ edit := by
      rintro rfl
      rw [inserting] at replaces
      cases replaces
    rintro ⟨after, before⟩
    rcases apart.forall isInsertion mem different with h | h
    · rw [stop_of_inserts inserting] at h
      omega
    · omega
  faithful edit mem := (sound edit mem).faithful

end Edit

/-- Edits that are laid out can be applied together with what is inserted at places that are noted. -/
lemma Laid.replaceable {text : String} {others edits more : List Edit} {places : List Nat}
    {s : ParserState} (h : Laid text others places s) (perm : edits.Perm (others ++ s.context.edits))
    (inserts : ∀ edit ∈ more, edit.replaces = false ∧ edit.start ∈ places) :
    Edit.Replaceable text (edits ++ more) := by
  have sound : ∀ edit ∈ edits, edit.Sound text := fun edit mem => h.sound edit (perm.mem_iff.1 mem)
  refine Edit.replaceable_of_apart (List.forall_mem_append.2 ⟨sound, fun edit mem =>
    Edit.sound_of_inserts (inserts edit mem).1⟩) (List.pairwise_append.2 ⟨?_, ?_, fun a isOld b isNew => ?_⟩)
  · exact (perm.pairwise_iff Edit.Apart.symm).2 h.apart
  · refine List.pairwise_iff_forall_sublist.2 fun sub => ?_
    obtain ⟨isFirst, rest⟩ := List.forall_mem_cons.1 fun edit mem => (inserts edit (sub.subset mem)).1
    exact Edit.apart_of_inserts isFirst (rest _ List.mem_cons_self)
  · obtain ⟨isInsertion, noted⟩ := inserts b isNew
    exact ((h.clear _ noted a (perm.mem_iff.1 isOld)).apart isInsertion).symm

/-! ## Levels of a query -/

/-- The places of a shape where text may be inserted. -/
def ResultShape.places (shape : ResultShape) : List Nat :=
  shape.selectListStop :: shape.groupByStop.toList

namespace Grammar

variable {env : Environment} {rules : ShardingRule} {text : String} {s s' : ParserState}
variable {known known' : PartialLevel}

/-- The places of a level with those below it. -/
def PartialLevel.places (known : PartialLevel) : List Nat :=
  known.shape.places ++ known.below.flatMap (·.shape.places)

variable {others : List Edit} {places : List Nat}

/-- The edits at a state and those of the levels below are laid out. -/
def LaidLevel (text : String) (others : List Edit) (places : List Nat) (known : PartialLevel)
    (s : ParserState) : Prop :=
  Laid text (others ++ SelectLevel.editsOf known.below) (known.places ++ places) s

/-- What some parser of levels reads is laid out, whatever else is recorded. -/
def LaysLevels (text : String) (level : Parser PartialLevel) : Prop :=
  ∀ {s s' : ParserState} {known : PartialLevel} (others : List Edit) (places : List Nat),
    Laid text others places s → level.run s = .ok (known, s') → LaidLevel text others places known s'

/-- A derived table is laid out behind what stands around it. -/
lemma laid_derived {level : Parser PartialLevel} (lays : LaysLevels text level) {read : PartialLevel}
    {t : ParserState} (laid : Laid text others places s) (word : s.stream.kind = .keyword .FROM)
    (opening : s.advance.stream.kind = .symbol .leftParen)
    (inner : level.run (derivedStart s) = .ok (read, t))
    (closing : t.stream.kind = .symbol .rightParen) :
    Laid text (others ++ SelectLevel.editsOf (⟨t.context, read.shape⟩ :: read.below))
      (read.places ++ places) (derivedStop s.context t) := by
  have opened : Passes s s.advance.advance :=
    Steady.trans (passes_token word rfl) (passes_token opening rfl)
  -- inside, the edits of the level around are among the others
  have entered : Laid text (others ++ s.context.edits) places (derivedStart s) := by
    refine (laid.moves opened rfl).rearrange rfl (List.Perm.subperm ?_)
    simp [derivedStart, ParserState.advance]
  have inside := lays _ _ entered inner
  let back : ParserState := ⟨t.stream, { s.context with parameters := t.context.parameters }⟩
  have left : Laid text (others ++ SelectLevel.editsOf (⟨t.context, read.shape⟩ :: read.below))
      (read.places ++ places) back := by
    refine inside.rearrange rfl (List.Perm.subperm ?_)
    simp only [SelectLevel.editsOf, List.flatMap_cons, back, List.append_assoc]
    refine (List.perm_append_left_iff others).2 (List.perm_append_comm.trans ?_)
    rw [← List.append_assoc]
    exact List.perm_append_comm.append_right t.context.edits
  exact left.moves (passes_token (s := back) closing rfl) rfl

/-- A clause keeps the layout of a level with those below it.

**Proof sketch.** Only a select list and a grouping note a place, which is the one that the parse has come
to then; only the tables of a level have levels below, whose edits are laid out before those to come. -/
lemma laid_clause {level : Parser PartialLevel} (lays : LaysLevels text level) {next : SelectClause}
    (laid : LaidLevel text others places known s)
    (success : (clause env level known next).run s = .ok (known', s')) :
    LaidLevel text others places known' s' := by
  by_cases isTables : next = .tables
  · subst isTables
    obtain ⟨below, s₁, read, done⟩ := run_bind_ok.1 success
    obtain ⟨rfl, rfl⟩ := run_pure_ok.1 done
    rcases tables_leads (Lays text) read with ⟨kept, rfl⟩ |
      ⟨read, t, word, opening, inner, closing, after, rfl⟩
    · exact kept _ _ laid
    · -- the places of the level itself stand around the derived table
      have around : Laid text others (known.shape.places ++ places) s :=
        (laid.rearrange rfl (List.Sublist.subperm (by simp))).mono fun place mem => by
          simp only [PartialLevel.places, List.mem_append] at mem ⊢
          tauto
      have derived := after _ _ (laid_derived lays around word opening inner closing)
      refine derived.mono fun place mem => ?_
      simp only [PartialLevel.places, List.flatMap_cons, List.mem_append] at mem ⊢
      tauto
  · obtain ⟨kept, below⟩ := clause_leads (Lays text) isTables success
    have laid' := kept _ _ laid
    rw [LaidLevel, below, PartialLevel.places, below]
    by_cases isList : next = .selectList
    · subst isList
      obtain ⟨shape, s₁, read, done⟩ := run_bind_ok.1 success
      obtain ⟨rfl, rfl⟩ := run_pure_ok.1 done
      obtain ⟨-, -, -, -, -, rfl⟩ := run_selectList_ok read
      -- the list stops where the next token starts
      refine (laid'.note laid'.reaches.previousEnd_le (Nat.le_refl _)).mono fun place mem => ?_
      simp only [PartialLevel.places, ResultShape.places, List.mem_append, List.mem_cons] at mem ⊢
      tauto
    · by_cases isGrouping : next = .grouping
      · subst isGrouping
        obtain ⟨shape, s₁, read, done⟩ := run_bind_ok.1 success
        obtain ⟨rfl, rfl⟩ := run_pure_ok.1 done
        rcases run_grouping_ok read with ⟨rfl, -⟩ | ⟨-, -, -, -, -, -, -, -, rfl⟩
        · exact laid'
        · -- the grouping stops where its last token does
          refine (laid'.note (Nat.le_refl _) laid'.reaches.previousEnd_le).mono fun place mem => ?_
          simp only [PartialLevel.places, ResultShape.places, List.mem_append, List.mem_cons,
            Option.toList_some] at mem ⊢
          tauto
      · obtain ⟨listStop, groupStop⟩ := sameStops_clause isList isGrouping success
        rw [ResultShape.places, listStop, groupStop]
        exact laid'

/-- The edits of a level with those below it are laid out behind what is recorded around it. -/
lemma laid_levelsUpTo (n : Nat) : LaysLevels text (levelsUpTo env n) := by
  induction n with
  | zero => exact fun _ _ _ success => absurd success run_unexpected_ne
  | succ n ih =>
    intro s s' known others places laid success
    obtain ⟨_, s₁, accepted, rest⟩ := run_bind_ok.1 success
    obtain ⟨word, -, rfl⟩ := run_acceptKeyword_ok.1 accepted
    have entered := (laid.moves (passes_token word rfl) rfl).noteStart
    refine run_foldlM_keeps (fun _ _ _ _ _ _ => laid_clause ih) ?_ rest
    simpa [LaidLevel, PartialLevel.places, ResultShape.places, SelectLevel.editsOf] using entered

/-- The edits of an accepted query can be applied together. -/
lemma replaceable_of_query {query : SelectStatement}
    (success : Statement.ofText env text = .ok (.select query)) :
    Edit.Replaceable text query.context.edits := by
  obtain ⟨s, s', finished, ⟨_, same, selected⟩ | ⟨_, same, -⟩⟩ := ofText_reads success
  · cases same
    obtain ⟨whole, s₁, read, merged⟩ := run_bind_ok.1 selected
    obtain ⟨prepared, rfl⟩ := run_lift_ok.1 merged
    obtain ⟨n, known, levelsRead, rfl⟩ := levels_run read
    have laid := laid_levelsUpTo n [] [] (.start text) levelsRead
    -- the merged shape is that of one level, so its places are among those of all levels
    have noted : ∀ place ∈ (SelectStatement.merge ⟨⟨s₁.context, known.shape⟩, known.below⟩).shape.places,
        place ∈ known.places := by
      refine SelectStatement.merge_shape (P := fun shape => ∀ place ∈ shape.places, place ∈ known.places)
        (List.forall_mem_cons.2 ⟨fun place mem => List.mem_append_left _ mem,
          fun level isLevel place mem => ?_⟩)
      exact List.mem_append_right _ (List.mem_flatMap.2 ⟨level, isLevel, mem⟩)
    have merged := SelectLevel.mergeAll_edits ⟨s₁.context, known.shape⟩ known.below
    obtain ⟨fragments, orders, -, edits, isOrder⟩ := SelectStatement.prepare_edits prepared
    rw [edits, List.append_assoc]
    refine laid.replaceable ?_ fun edit mem => ?_
    · rw [SelectStatement.merge, merged, List.nil_append]
      exact List.perm_append_comm
    · rw [List.append_nil]
      rcases List.mem_append.1 mem with mem | mem
      · split at mem
        · cases mem
        · obtain rfl := List.mem_singleton.1 mem
          exact ⟨rfl, noted _ List.mem_cons_self⟩
      · rcases isOrder with rfl | ⟨stop, isStop, rfl⟩
        · cases mem
        · obtain rfl := List.mem_singleton.1 mem
          exact ⟨rfl, noted _ (List.mem_cons_of_mem _ (by simp [isStop, Edit.start]))⟩
  · cases same

/-! ## Insertions -/

variable {table : String}

/-- A list of columns is laid out: a key that is left out is added in front of the parenthesis that
closes the list. -/
lemma lays_columnList : LeadsFrom (Lays text) (fun s => s.stream.kind = .symbol .leftParen)
    (columnList rules table) := by
  intro s target s' opening success others places laid
  rw [columnList, run_advance_bind] at success
  obtain ⟨columns, s₁, listed, rest⟩ := run_bind_ok.1 success
  obtain ⟨close, s₂, accepted, rest⟩ := run_bind_ok.1 rest
  obtain ⟨closing, rfl, rfl⟩ := run_acceptSymbol_ok.1 accepted
  have columns : Leads (Lays text) (commaSeparated (listedColumn rules table)) :=
    Leads.list (leads_listedColumn leads_expression)
  have opened := laid.moves (passes_token opening rfl) rfl
  have before := columns.related listed _ _ opened
  have closed : Passes s₁ s₁.advance := passes_token closing rfl
  split at rest
  · cases rest
    have behind := (before.reaches.edge_previousEnd closing (by simp) (Steady.refl s₁.advance)).2
    refine before.record (Steady.trans closed (passes_of_stream rfl)) rfl (List.forall_mem_singleton.2
      ⟨Edit.sound_of_inserts rfl, Nat.le_refl _, Nat.le_of_lt behind⟩) (List.pairwise_singleton ..)
  · obtain ⟨-, rfl⟩ := run_pure_ok.1 rest
    exact before.moves closed rfl

/-- The columns of an insertion are laid out. -/
lemma lays_targetColumns : Leads (Lays text) (targetColumns env table) := by
  have values (target : Target) : Leads (Lays text) (do
      addEdit (.insertValues (← offset) .values)
      return target : Parser Target) := by
    intro s target s' _ success others places laid
    cases success
    exact laid.insert rfl laid.reaches.previousEnd_le (Nat.le_refl _)
  have known (columns : List String) : Leads (Lays text) (knownColumns env.rules table columns) := by
    intro s target s' _ success others places laid
    cases success
    exact laid.insert rfl (Nat.le_refl _) laid.reaches.previousEnd_le
  refine .look (looks_checkSymbol _) fun isList => .look looks_checkQueryInParentheses fun isQuery => ?_
  refine .ite (fun isGiven => .bind (fun s target s' seen => ?_) values) fun _ => ?_
  · rw [Bool.and_eq_true] at isGiven
    exact lays_columnList s target s' (check_symbol.1 (seen.1.2.trans isGiven.1))
  · split
    · exact .bind (known _).leadsFrom values
    · exact .bind (.pure _) values

/-- Forgetting columns keeps the layout: other edits stay where they are. -/
lemma laid_forgetColumns (laid : Laid text [] places s) :
    Laid text [] places { s with context := forgetColumns s.context } := by
  have fewer : Laid text [] places
      { s with context := s.context.removeEdits [.insertColumns, .items] } :=
    laid.rearrange rfl List.filter_sublist.subperm
  have reformed {P : Edit → Prop} {edits : List Edit} (keeps : ∀ edit, P edit → P (edit.withInsertForm .set))
      (holds : ∀ edit ∈ edits, P edit) : ∀ edit ∈ edits.map (Edit.withInsertForm .set), P edit :=
    List.forall_mem_map.2 fun edit mem => keeps edit (holds edit mem)
  refine ⟨fewer.reaches, reformed (fun edit h => h.withInsertForm .set) fewer.sound, ?_, ?_, ?_, fewer.passed⟩
  · refine List.pairwise_map.2 (fewer.apart.imp fun {a b} apart => ?_)
    rwa [Edit.Apart, Edit.start_withInsertForm, Edit.start_withInsertForm, Edit.stop_withInsertForm,
      Edit.stop_withInsertForm]
  · refine reformed (fun edit h => ?_) fewer.behind
    rwa [Edit.stop_withInsertForm, Edit.replaces_withInsertForm]
  · refine fun place noted => reformed (fun edit h => ?_) (fewer.clear place noted)
    rwa [Edit.Clear, Edit.start_withInsertForm, Edit.stop_withInsertForm]

/-- Assignments keep the layout. -/
lemma laid_assignments {found : Option (Target × InsertRow)} (laid : Laid text [] places s)
    (success : (assignments env table).run s = .ok (found, s')) : Laid text [] places s' := by
  rw [assignments, run_skipKeyword_bind] at success
  split at success
  · rename_i present
    obtain ⟨keyword, -, word⟩ := checkAnyKeyword_iff.1 present
    rw [if_pos rfl, looks_previousEnd.run_bind, run_modifyContext_bind, looks_context.run_bind]
      at success
    obtain ⟨columns, s₁, listed, rest⟩ := run_bind_ok.1 success
    rw [looks_previousEnd.run_bind, looks_context.run_bind, run_pure_ok] at rest
    obtain ⟨-, rfl⟩ := rest
    have assigned : Leads (Lays text) (commaSeparated (assignment env.rules table)) :=
      Leads.list (leads_assignment leads_expression)
    exact assigned.related listed _ _ (laid_forgetColumns (laid.moves (passes_token word rfl) rfl))
  · obtain ⟨-, rfl⟩ := run_pure_ok.1 success
    exact laid

/-- The edits of an insertion are laid out. -/
lemma laid_insert {insertion : InsertStatement} {last : ParserState}
    (steps : InsertSteps env text insertion last) : Laid text [] [] last := by
  obtain ⟨present, into⟩ := steps.into
  have skips : Leads (Lays text) (skipKeyword [.INTO]) := leads_skipKeyword _
  have expressions : Leads (Lays text) (expression env.rules) := leads_expression
  have opened := skips.related into _ _ ((Laid.start text).moves (passes_token steps.word rfl) rfl)
  have named := (leads_tableFactor lays_namedTable).related steps.factor _ _ opened
  have valued := lays_targetColumns.related steps.columns _ _ named
  have listed := (leads_valueRows expressions _).related steps.values _ _ valued
  exact (leads_duplicateKeyUpdate expressions).related steps.update _ _
    (laid_assignments listed steps.assignments)

/-- The edits of an accepted insertion can be applied together. -/
lemma replaceable_of_insert {insertion : InsertStatement}
    (success : Statement.ofText env text = .ok (.insert insertion)) :
    Edit.Replaceable text insertion.context.edits := by
  obtain ⟨last, ⟨steps⟩, -⟩ := insertion_steps success
  rw [steps.context_eq]
  exact Edit.replaceable_of_apart (laid_insert steps).sound (laid_insert steps).apart

end Grammar

namespace Statement

/-- The edits of an accepted statement can be applied together: the names and numbers that are replaced
are parts of the text that do not overlap, whatever the nesting of derived tables, no text is inserted
inside of one, and each edit says truly what it replaces.

**Proof sketch.** Each edit that replaces a part of the text is recorded for a token where that is passed,
or for the name in front of a dot. The tokens of a text do not overlap, and each of them is passed once, in
one of the levels. What is inserted stands at edges of tokens. -/
theorem replaceable_of_ofText {env : Environment} {text : String} {statement : Statement}
    (success : ofText env text = .ok statement) : Edit.Replaceable text statement.context.edits := by
  cases statement with
  | select query => exact Grammar.replaceable_of_query success
  | insert insertion => exact Grammar.replaceable_of_insert success

/-- A query and the derived table in it, each with edits of its own, to which items and an ordering are
added. -/
theorem replaceable_of_derived : ∃ env query,
    ofText env "SELECT t.b FROM (SELECT * FROM s.t LIMIT 2, 9) t GROUP BY t.a LIMIT 5" =
      .ok (.select query) ∧
    query.context.edits =
      [.table ⟨7, 8⟩ "t" "t", .table ⟨58, 59⟩ "t" "t", .rowCount ⟨68, 69⟩ 5,
        .table ⟨31, 34⟩ "t" "s.t", .offset ⟨41, 42⟩ 2, .rowCount ⟨44, 45⟩ 9,
        .items 11 ["t.a AS GROUP_BY_DERIVED_0 "], .orderBy 61 ["t.a ASC"]] ∧
    Edit.Replaceable "SELECT t.b FROM (SELECT * FROM s.t LIMIT 2, 9) t GROUP BY t.a LIMIT 5"
      query.context.edits := by
  let env : Environment :=
    { rules := ⟨[{ table := "t", shardingColumns := ["a"] }]⟩, dialect := .mysql }
  have seen : (Grammar.query? env
        "SELECT t.b FROM (SELECT * FROM s.t LIMIT 2, 9) t GROUP BY t.a LIMIT 5").map (·.context.edits) =
      some [.table ⟨7, 8⟩ "t" "t", .table ⟨58, 59⟩ "t" "t", .rowCount ⟨68, 69⟩ 5,
        .table ⟨31, 34⟩ "t" "s.t", .offset ⟨41, 42⟩ 2, .rowCount ⟨44, 45⟩ 9,
        .items 11 ["t.a AS GROUP_BY_DERIVED_0 "], .orderBy 61 ["t.a ASC"]] := by decide +kernel
  obtain ⟨query, success, same⟩ := Grammar.exists_of_query seen
  exact ⟨env, query, success, same, replaceable_of_ofText success⟩

end Statement

end SqlRouting
