import SqlRouting.Grammar.TableReference
import SqlRouting.Proofs.Predicate

/-!
# Reading tables

The tables of a level are read source by source, as they are written: a table by its name, or a
group in parentheses. A named table is recorded, unless one of its name is; no source is recorded
in any other way, and no condition of a join is recorded at all.

## Main definitions

* `SqlRouting.TableSource` — a source of rows as it is written.
* `SqlRouting.Tables.withSources` — tables after some sources.
* `SqlRouting.Grammar.FactorRead` — the reading of one source with its alias.
* `SqlRouting.Grammar.JoinsRead` — the reading of the sources joined with one before.
* `SqlRouting.Grammar.ReferencesRead` — the reading of a list of sources with their joins.

## Main results

* `SqlRouting.Grammar.tableReferences_read` — a list of tables is read source by source.
* `SqlRouting.Grammar.ReferencesRead.tables_eq` — exactly the named sources are recorded.
-/

set_option autoImplicit false

namespace SqlRouting

open TokenStream

/-! ## Sources -/

/-- A source of rows, as it is written. -/
inductive TableSource
  /-- A table by its name. -/
  | named (table : Table)
  /-- A group in parentheses. -/
  | group
  /-- A derived table. -/
  | derived

/-- The table that a source names. -/
def TableSource.table? : TableSource → Option Table
  | named table => some table
  | _ => none

/-- The tables after some sources: those that the sources name are added in their order. -/
def Tables.withSources (tables : Tables) (sources : List TableSource) : Tables :=
  (sources.filterMap TableSource.table?).foldl Tables.add tables

namespace Tables

/-- No sources add no table. -/
@[simp] lemma withSources_nil (tables : Tables) : tables.withSources [] = tables := rfl

/-- A named source adds its table. -/
@[simp] lemma withSources_named (tables : Tables) (table : Table) (sources : List TableSource) :
    tables.withSources (.named table :: sources) = (tables.add table).withSources sources := rfl

/-- A group adds no table. -/
@[simp] lemma withSources_group (tables : Tables) (sources : List TableSource) :
    tables.withSources (.group :: sources) = tables.withSources sources := rfl

/-- A derived table adds no table. -/
@[simp] lemma withSources_derived (tables : Tables) (sources : List TableSource) :
    tables.withSources (.derived :: sources) = tables.withSources sources := rfl

/-- Sources after others add their tables to those of the others. -/
lemma withSources_append (tables : Tables) (before after : List TableSource) :
    tables.withSources (before ++ after) = (tables.withSources before).withSources after := by
  rw [withSources, List.filterMap_append, List.foldl_append]
  rfl

end Tables

namespace Grammar

open SqlRouting.Parser

variable {rules : ShardingRule} {s s' : ParserState}

/-! ## One source -/

/-- The tokens write the name of a table, with or without a schema in front. -/
inductive NameTokens : List Token → String → Prop
  /-- A name alone. -/
  | alone (name : String) (span : Span) : NameTokens [⟨.identifier name, span⟩] name
  /-- A name after a schema and a dot. -/
  | qualified (schema name : String) (first dot last : Span) :
      NameTokens [⟨.identifier schema, first⟩, ⟨.symbol .dot, dot⟩, ⟨.identifier name, last⟩] name

/-- The reading of one source with its alias. -/
inductive FactorRead : ParserState → TableSource → ParserState → Prop
  /-- A table by its name, which is recorded. -/
  | named {s s' : ParserState} {nameTokens aliasTokens : List Token} {name : String}
      {aliasName : Option String} (isName : NameTokens nameTokens name)
      (isAlias : AliasTokens s.stream.source aliasTokens aliasName)
      (run : Run Context.TablesOnly s (nameTokens ++ aliasTokens) s')
      (tables : s'.context.tables = s.context.tables.add ⟨Text.unquoted name, aliasName⟩) :
      FactorRead s (.named ⟨Text.unquoted name, aliasName⟩) s'
  /-- A group in parentheses. -/
  | group {s s' : ParserState} {group aliasTokens : List Token} {aliasName : Option String}
      (balanced : Group group) (isAlias : AliasTokens s.stream.source aliasTokens aliasName)
      (run : Run Context.EditsOnly s (group ++ aliasTokens) s') : FactorRead s .group s'

/-- The name of a table is passed by a run. -/
lemma tableName_reads {name : String} {stop : Nat}
    (success : tableName.run s = .ok ((name, stop), s')) :
    ∃ tokens, NameTokens tokens name ∧ Run Context.EditsOnly s tokens s' := by
  obtain ⟨⟨first, span⟩, s₁, accepted, rest⟩ := run_bind_ok.1 success
  obtain ⟨isFirst, rfl, rfl⟩ := run_acceptIdentifier_ok.1 accepted
  have owner : Run Context.EditsOnly s _ s.advance := run_token isFirst
  rw [run_skipSymbol_bind] at rest
  split at rest
  · rename_i dotted
    obtain ⟨⟨last, span⟩, s₂, accepted, done⟩ := run_bind_ok.1 rest
    obtain ⟨isLast, rfl, rfl⟩ := run_acceptIdentifier_ok.1 accepted
    obtain ⟨same, rfl⟩ := run_pure_ok.1 done
    obtain ⟨rfl, -⟩ := Prod.mk.inj same
    have dot : Run Context.EditsOnly s.advance _ s.advance.advance :=
      run_token dotted
    exact ⟨_, .qualified first last _ _ _,
      owner.trans (dot.trans (run_token isLast))⟩
  · obtain ⟨same, rfl⟩ := run_pure_ok.1 rest
    obtain ⟨rfl, -⟩ := Prod.mk.inj same
    exact ⟨_, .alone first _, owner⟩

/-- A named table is recorded with its alias. -/
lemma namedTable_read {result : Unit} (success : namedTable.run s = .ok (result, s')) :
    ∃ source, FactorRead s source s' := by
  rw [namedTable, looks_offset.run_bind] at success
  obtain ⟨⟨name, stop⟩, s₁, nameRead, rest⟩ := run_bind_ok.1 success
  obtain ⟨aliasName, s₂, aliasRead, rest⟩ := run_bind_ok.1 rest
  obtain ⟨nameTokens, isName, nameRun⟩ := tableName_reads nameRead
  obtain ⟨aliasTokens, isAlias, aliasRun⟩ := aliasName_reads aliasRead
  rw [nameRun.source_eq] at isAlias
  rw [(looks_textOf _).run_bind] at rest
  cases rest
  have run := (nameRun.trans aliasRun).mono tablesOnly_of_editsOnly
  have tables : s₂.context.tables = s.context.tables := (nameRun.trans aliasRun).tables_eq
  refine ⟨_, .named isName isAlias (run.record ⟨rfl, rfl⟩) ?_⟩
  rw [← tables]
  rfl

/-- One source is a named table or a group. -/
lemma tableFactor_read {result : Unit} (success : tableFactor.run s = .ok (result, s')) :
    ∃ source, FactorRead s source s' := by
  rw [tableFactor, looks_checkQueryInParentheses.run_bind] at success
  split at success
  · rw [looks_current.run_bind] at success
    exact absurd success run_unsupported_ne
  · rw [(looks_checkSymbol _).run_bind] at success
    split at success
    · rename_i opened
      obtain ⟨_, s₁, skipped, rest⟩ := run_bind_ok.1 success
      obtain ⟨aliasName, s₂, aliasRead, done⟩ := run_bind_ok.1 rest
      obtain ⟨-, rfl⟩ := run_pure_ok.1 done
      obtain ⟨group, _, split, rfl⟩ := run_skipParentheses_of_eq (check_symbol.1 opened) skipped
      have groupRun : Run Context.EditsOnly s group _ := .single (.group split)
      obtain ⟨aliasTokens, isAlias, aliasRun⟩ := aliasName_reads aliasRead
      rw [groupRun.source_eq] at isAlias
      exact ⟨_, .group (group_of_split (.inl rfl) split) isAlias (groupRun.trans aliasRun)⟩
    · exact namedTable_read success

/-- A source is passed by a run that records tables and edits alone, and has tokens. -/
lemma FactorRead.exists_run {source : TableSource} (h : FactorRead s source s') :
    ∃ tokens, tokens ≠ [] ∧ Run Context.TablesOnly s tokens s' := by
  cases h with
  | named isName isAlias run tables =>
    refine ⟨_, ?_, run⟩
    cases isName <;> simp
  | group balanced isAlias run =>
    exact ⟨_, by simp [balanced.ne_nil], run.mono tablesOnly_of_editsOnly⟩

/-- A source adds the table it names. -/
lemma FactorRead.tables_eq {source : TableSource} (h : FactorRead s source s') :
    s'.context.tables = s.context.tables.withSources [source] := by
  cases h with
  | named isName isAlias run tables => rw [tables, Tables.withSources_named, Tables.withSources_nil]
  | group balanced isAlias run =>
    rw [run.tables_eq, Tables.withSources_group, Tables.withSources_nil]

/-! ## Joins -/

/-- The tokens write the words in front of a joined source. -/
inductive JoinTokens : List Token → Prop
  /-- One word. -/
  | alone (word : Span) : JoinTokens [⟨.keyword .JOIN, word⟩]
  /-- A word that says which rows are joined, and the word. -/
  | matching {keyword : Keyword} (first word : Span) (isKind : keyword ∈ [Keyword.INNER, .CROSS]) :
      JoinTokens [⟨.keyword keyword, first⟩, ⟨.keyword .JOIN, word⟩]
  /-- A word that says which rows are kept, and the word. -/
  | keeping {keyword : Keyword} (first word : Span)
      (isKind : keyword ∈ [Keyword.LEFT, .RIGHT, .FULL]) :
      JoinTokens [⟨.keyword keyword, first⟩, ⟨.keyword .JOIN, word⟩]
  /-- The same with one more word between. -/
  | outer {keyword : Keyword} (first second word : Span)
      (isKind : keyword ∈ [Keyword.LEFT, .RIGHT, .FULL]) :
      JoinTokens [⟨.keyword keyword, first⟩, ⟨.keyword .OUTER, second⟩, ⟨.keyword .JOIN, word⟩]

/-- The keywords that the words in front of a joined source may start with. -/
def joinKeywords : List Keyword :=
  [.JOIN, .INNER, .CROSS, .LEFT, .RIGHT, .FULL]

/-- The tokens behind which a list of sources goes on: the word of a join, and a comma. -/
def isJoint (token : Token) : Bool :=
  token.kind == .keyword .JOIN || token.kind == .symbol .comma

/-- There is a joint among the words of a join. -/
lemma JoinTokens.countP_pos {words : List Token} (h : JoinTokens words) : 1 ≤ words.countP isJoint := by
  cases h <;> simp [isJoint]

/-- The reading of the condition of a join, of which nothing is recorded. -/
inductive JoinConditionRead (rules : ShardingRule) : ParserState → ParserState → Prop
  /-- Predicates. -/
  | predicates {s s' : ParserState} {formula : Formula} (word : s.stream.kind = .keyword .ON)
      (read : FormulaRead rules s.advance formula s') : JoinConditionRead rules s s'
  /-- Columns in parentheses. -/
  | columns {s s' : ParserState} {names : List Token} (word : s.stream.kind = .keyword .USING)
      (balanced : names = [] ∨ Group names) (run : Run Context.EditsOnly s.advance names s') :
      JoinConditionRead rules s s'
  /-- No condition. -/
  | none {s : ParserState} (noOn : s.stream.kind ≠ .keyword .ON)
      (noUsing : s.stream.kind ≠ .keyword .USING) : JoinConditionRead rules s s

/-- The reading of the sources joined with one before. -/
inductive JoinsRead (rules : ShardingRule) :
    ParserState → List TableSource → ParserState → Prop
  /-- No join follows. -/
  | nil {s : ParserState} (noJoin : ∀ k ∈ joinKeywords, s.stream.kind ≠ .keyword k) :
      JoinsRead rules s [] s
  /-- A join in front of others. -/
  | cons {s s₁ s₂ s₃ s' : ParserState} {words : List Token} {source : TableSource}
      {sources : List TableSource} (isJoin : JoinTokens words)
      (run : Run Context.EditsOnly s words s₁) (factor : FactorRead s₁ source s₂)
      (condition : JoinConditionRead rules s₂ s₃) (rest : JoinsRead rules s₃ sources s') :
      JoinsRead rules s (source :: sources) s'

/-- After some words of a join, the word that ends them is passed. -/
lemma joinWord_reads {joined : Bool} {words : List Token} {s₁ : ParserState}
    (before : Run Context.EditsOnly s words s₁)
    (isJoin : ∀ span, JoinTokens (words ++ [⟨.keyword .JOIN, span⟩]))
    (success : (do let _ ← acceptKeyword .JOIN; return true : Parser Bool).run s₁ =
      .ok (joined, s')) :
    joined = true ∧ ∃ words, JoinTokens words ∧ Run Context.EditsOnly s words s' := by
  obtain ⟨_, s₂, accepted, done⟩ := run_bind_ok.1 success
  obtain ⟨word, -, rfl⟩ := run_acceptKeyword_ok.1 accepted
  obtain ⟨rfl, rfl⟩ := run_pure_ok.1 done
  exact ⟨rfl, _, isJoin _, before.trans (run_token word)⟩

/-- The words of a join are passed if they are there, and nothing is passed otherwise. -/
lemma joinWords_reads {joined : Bool} (success : joinWords.run s = .ok (joined, s')) :
    joined = true ∧ (∃ words, JoinTokens words ∧ Run Context.EditsOnly s words s') ∨
      joined = false ∧ s' = s ∧ ∀ k ∈ joinKeywords, s.stream.kind ≠ .keyword k := by
  rw [joinWords, run_skipKeyword_bind] at success
  split at success
  · rename_i present
    obtain ⟨keyword, isJoin, word⟩ := checkAnyKeyword_iff.1 present
    obtain rfl := List.mem_singleton.1 isJoin
    obtain ⟨rfl, rfl⟩ := run_pure_ok.1 success
    exact .inl ⟨rfl, _, .alone _, run_token word⟩
  · rename_i noJoin
    rw [if_neg (by simp), run_skipKeyword_bind] at success
    split at success
    · rename_i present
      obtain ⟨keyword, isKind, word⟩ := checkAnyKeyword_iff.1 present
      have first : Run Context.EditsOnly s _ s.advance := run_token word
      exact .inl (joinWord_reads first (fun span => .matching _ span isKind) success)
    · rename_i noMatching
      rw [if_neg (by simp), run_skipKeyword_bind] at success
      split at success
      · rename_i present
        obtain ⟨keyword, isKind, word⟩ := checkAnyKeyword_iff.1 present
        have first : Run Context.EditsOnly s _ s.advance := run_token word
        rw [if_pos rfl, run_skipKeyword_bind] at success
        split at success
        · rename_i present
          obtain ⟨outer, isOuter, word'⟩ := checkAnyKeyword_iff.1 present
          obtain rfl := List.mem_singleton.1 isOuter
          have second : Run Context.EditsOnly s.advance _ s.advance.advance := run_token word'
          exact .inl (joinWord_reads (first.trans second) (fun span => .outer _ _ span isKind)
            success)
        · exact .inl (joinWord_reads first (fun span => .keeping _ span isKind) success)
      · rename_i noKeeping
        obtain ⟨rfl, rfl⟩ := run_pure_ok.1 success
        rw [checkAnyKeyword_iff] at noJoin noMatching noKeeping
        have parts : joinKeywords = [.JOIN] ++ [.INNER, .CROSS] ++ [.LEFT, .RIGHT, .FULL] := rfl
        refine .inr ⟨rfl, rfl, fun keyword mem same => ?_⟩
        rw [parts, List.mem_append, List.mem_append] at mem
        rcases mem with (mem | mem) | mem
        · exact noJoin ⟨keyword, mem, same⟩
        · exact noMatching ⟨keyword, mem, same⟩
        · exact noKeeping ⟨keyword, mem, same⟩

/-- The condition of a join is read, and nothing of it is recorded. -/
lemma joinCondition_read {result : Unit}
    (success : (joinCondition rules).run s = .ok (result, s')) : JoinConditionRead rules s s' := by
  rw [joinCondition, run_skipKeyword_bind] at success
  split at success
  · rename_i present
    obtain ⟨keyword, isOn, word⟩ := checkAnyKeyword_iff.1 present
    obtain rfl := List.mem_singleton.1 isOn
    obtain ⟨read, s₁, predicates, done⟩ := run_bind_ok.1 success
    obtain ⟨-, rfl⟩ := run_pure_ok.1 done
    obtain ⟨formula, reading, -⟩ := predicates_read predicates
    exact .predicates word reading
  · rename_i noOn
    rw [if_neg (by simp), run_skipKeyword_bind] at success
    split at success
    · rename_i present
      obtain ⟨keyword, isUsing, word⟩ := checkAnyKeyword_iff.1 present
      obtain rfl := List.mem_singleton.1 isUsing
      by_cases opened : s.advance.stream.kind = .symbol .leftParen
      · obtain ⟨group, _, split, rfl⟩ := run_skipParentheses_of_eq opened success
        exact .columns word (.inr (group_of_split (.inl rfl) split)) (.single (.group split))
      · rw [run_skipParentheses_of_ne opened success]
        exact .columns word (.inl rfl) (.refl s.advance)
    · rename_i noUsing
      obtain ⟨-, rfl⟩ := run_pure_ok.1 success
      simp only [checkAnyKeyword_iff, List.mem_singleton, exists_eq_left] at noOn noUsing
      exact .none noOn noUsing

/-- The condition of a join is passed by a run that records edits alone. -/
lemma JoinConditionRead.exists_run (h : JoinConditionRead rules s s') :
    ∃ tokens, Run Context.EditsOnly s tokens s' := by
  cases h with
  | predicates word read =>
    obtain ⟨tokens, run⟩ := read.exists_run
    exact ⟨_, (run_token word).trans run⟩
  | columns word balanced run => exact ⟨_, (run_token word).trans run⟩
  | none noOn noUsing => exact ⟨[], .refl s⟩

/-- Joined sources are read up to a token that joins no other, because there are no more of them
than tokens. -/
lemma joinsUpTo_read {n : Nat} {result : Unit} (enough : s.stream.remaining ≤ n)
    (success : (joinsUpTo rules n).run s = .ok (result, s')) :
    ∃ sources, JoinsRead rules s sources s' := by
  induction n generalizing s with
  | zero =>
    obtain ⟨-, rfl⟩ := run_pure_ok.1 success
    have ended : s.stream.ahead = [] := List.length_eq_zero_iff.1 (Nat.le_zero.1 enough)
    refine ⟨[], .nil fun keyword mem => ?_⟩
    rw [kind_of_ahead_nil ended]
    simp
  | succ n ih =>
    obtain ⟨joined, s₁, wordsRead, rest⟩ := run_bind_ok.1 success
    rcases joinWords_reads wordsRead with ⟨rfl, words, isJoin, run⟩ | ⟨rfl, rfl, noJoin⟩
    · obtain ⟨_, s₂, factorRead, rest⟩ := run_bind_ok.1 rest
      obtain ⟨_, s₃, conditionRead, rest⟩ := run_bind_ok.1 rest
      obtain ⟨source, factor⟩ := tableFactor_read factorRead
      have condition := joinCondition_read conditionRead
      obtain ⟨factorTokens, nonempty, factorRun⟩ := factor.exists_run
      obtain ⟨conditionTokens, conditionRun⟩ := condition.exists_run
      have fewer : s₃.stream.remaining ≤ n := by
        have passed := run.remaining_eq
        have passed' := factorRun.remaining_eq
        have passed'' := conditionRun.remaining_eq
        have positive := List.length_pos_iff.2 nonempty
        omega
      obtain ⟨sources, joins⟩ := ih fewer rest
      exact ⟨source :: sources, .cons isJoin run factor condition joins⟩
    · obtain ⟨-, rfl⟩ := run_pure_ok.1 rest
      exact ⟨[], .nil noJoin⟩

/-- Joined sources are read one after the other. -/
lemma joins_read {result : Unit} (success : (joins rules).run s = .ok (result, s')) :
    ∃ sources, JoinsRead rules s sources s' := by
  rw [joins, looks_remaining.run_bind] at success
  exact joinsUpTo_read (Nat.le_refl _) success

/-- Joined sources are passed by a run that records tables and edits alone, and each of them has a joint in
front of it. -/
lemma JoinsRead.exists_joints {sources : List TableSource} (h : JoinsRead rules s sources s') :
    ∃ tokens, Run Context.TablesOnly s tokens s' ∧ sources.length ≤ tokens.countP isJoint := by
  induction h with
  | nil noJoin => exact ⟨[], .refl _, Nat.zero_le _⟩
  | cons isJoin run factor condition rest ih =>
    obtain ⟨factorTokens, -, factorRun⟩ := factor.exists_run
    obtain ⟨conditionTokens, conditionRun⟩ := condition.exists_run
    obtain ⟨restTokens, restRun, fewer⟩ := ih
    refine ⟨_, (run.mono tablesOnly_of_editsOnly).trans
      (factorRun.trans ((conditionRun.mono tablesOnly_of_editsOnly).trans restRun)), ?_⟩
    have joint := isJoin.countP_pos
    simp only [List.countP_append, List.length_cons]
    omega

/-- Joined sources are passed by a run that records tables and edits alone. -/
lemma JoinsRead.exists_run {sources : List TableSource} (h : JoinsRead rules s sources s') :
    ∃ tokens, Run Context.TablesOnly s tokens s' := by
  obtain ⟨tokens, run, -⟩ := h.exists_joints
  exact ⟨tokens, run⟩

/-- Joined sources add the tables they name. -/
lemma JoinsRead.tables_eq {sources : List TableSource} (h : JoinsRead rules s sources s') :
    s'.context.tables = s.context.tables.withSources sources := by
  induction h with
  | nil noJoin => rfl
  | @cons s s₁ s₂ s₃ s' words source sources isJoin run factor condition rest ih =>
    obtain ⟨conditionTokens, conditionRun⟩ := condition.exists_run
    rw [ih, conditionRun.tables_eq, factor.tables_eq, run.tables_eq, ← Tables.withSources_append]
    rfl

/-! ## Lists of sources -/

/-- The reading of a list of sources with their joins, up to a token that is no comma. -/
inductive ReferencesRead (rules : ShardingRule) :
    ParserState → List TableSource → ParserState → Prop
  /-- The last source with its joins. -/
  | last {s s₁ s' : ParserState} {source : TableSource} {joined : List TableSource}
      (factor : FactorRead s source s₁) (joins : JoinsRead rules s₁ joined s')
      (noComma : s'.stream.kind ≠ .symbol .comma) :
      ReferencesRead rules s (source :: joined) s'
  /-- A source with its joins in front of others. -/
  | cons {s s₁ s₂ s' : ParserState} {source : TableSource} {joined sources : List TableSource}
      (factor : FactorRead s source s₁) (joins : JoinsRead rules s₁ joined s₂)
      (comma : s₂.stream.kind = .symbol .comma) (rest : ReferencesRead rules s₂.advance sources s') :
      ReferencesRead rules s (source :: (joined ++ sources)) s'

/-- A list of sources is read up to a token that is no comma, because there are no more commas than
tokens. -/
lemma referencesUpTo_read {n : Nat} {units : List Unit} (enough : s.stream.remaining ≤ n)
    (success : (commaSeparatedUpTo (do
      tableFactor
      joins rules) n).run s = .ok (units, s')) :
    ∃ sources, ReferencesRead rules s sources s' := by
  induction n generalizing s units with
  | zero =>
    obtain ⟨_, s₂, first, done⟩ := run_bind_ok.1 success
    obtain ⟨_, s₁, factorRead, joinsSuccess⟩ := run_bind_ok.1 first
    obtain ⟨source, factor⟩ := tableFactor_read factorRead
    obtain ⟨tokens, nonempty, run⟩ := factor.exists_run
    have passed := run.remaining_eq
    have positive := List.length_pos_iff.2 nonempty
    omega
  | succ n ih =>
    obtain ⟨_, s₂, first, rest⟩ := run_bind_ok.1 success
    obtain ⟨_, s₁, factorRead, joinsSuccess⟩ := run_bind_ok.1 first
    obtain ⟨source, factor⟩ := tableFactor_read factorRead
    obtain ⟨joined, joins⟩ := joins_read joinsSuccess
    rw [run_skipSymbol_bind] at rest
    split at rest
    · rename_i comma
      obtain ⟨tokens, nonempty, run⟩ := factor.exists_run
      obtain ⟨tokens', run'⟩ := joins.exists_run
      have fewer : s₂.advance.stream.remaining ≤ n := by
        have passed := run.remaining_eq
        have passed' := run'.remaining_eq
        have positive := List.length_pos_iff.2 nonempty
        have next : s₂.advance.stream.remaining ≤ s₂.stream.remaining := remaining_advance_le
        omega
      obtain ⟨others, s₃, later, done⟩ := run_bind_ok.1 rest
      obtain ⟨-, rfl⟩ := run_pure_ok.1 done
      obtain ⟨sources, references⟩ := ih fewer later
      exact ⟨_, .cons factor joins comma references⟩
    · rename_i noComma
      obtain ⟨-, rfl⟩ := run_pure_ok.1 rest
      exact ⟨_, .last factor joins noComma⟩

/-- A list of tables is read source by source. -/
lemma tableReferences_read {result : Unit}
    (success : (tableReferences rules).run s = .ok (result, s')) :
    ∃ sources, ReferencesRead rules s sources s' := by
  obtain ⟨units, s₁, read, done⟩ := run_bind_ok.1 success
  obtain ⟨-, rfl⟩ := run_pure_ok.1 done
  rw [commaSeparated, looks_remaining.run_bind] at read
  exact referencesUpTo_read (Nat.le_refl _) read

/-- A list of sources is passed by a run that records tables and edits alone, and each of them but the first
has a joint in front of it. -/
lemma ReferencesRead.exists_joints {sources : List TableSource} (h : ReferencesRead rules s sources s') :
    ∃ tokens, Run Context.TablesOnly s tokens s' ∧ sources.length ≤ tokens.countP isJoint + 1 := by
  induction h with
  | last factor joins noComma =>
    obtain ⟨tokens, -, run⟩ := factor.exists_run
    obtain ⟨tokens', run', fewer⟩ := joins.exists_joints
    refine ⟨_, run.trans run', ?_⟩
    simp only [List.countP_append, List.length_cons]
    omega
  | cons factor joins comma rest ih =>
    obtain ⟨tokens, -, run⟩ := factor.exists_run
    obtain ⟨tokens', run', fewer⟩ := joins.exists_joints
    obtain ⟨tokens'', run'', fewer'⟩ := ih
    refine ⟨_, run.trans (run'.trans ((run_token comma).trans run'')), ?_⟩
    simp only [List.countP_append, List.length_cons, List.length_append, List.countP_singleton, isJoint,
      beq_self_eq_true, Bool.or_true, if_true]
    omega

/-- A list of sources is passed by a run that records tables and edits alone. -/
lemma ReferencesRead.exists_run {sources : List TableSource}
    (h : ReferencesRead rules s sources s') : ∃ tokens, Run Context.TablesOnly s tokens s' := by
  obtain ⟨tokens, run, -⟩ := h.exists_joints
  exact ⟨tokens, run⟩

/-- A list of sources adds the tables that the sources name, and no others. -/
lemma ReferencesRead.tables_eq {sources : List TableSource}
    (h : ReferencesRead rules s sources s') :
    s'.context.tables = s.context.tables.withSources sources := by
  induction h with
  | last factor joins noComma =>
    rw [joins.tables_eq, factor.tables_eq, ← Tables.withSources_append]
    rfl
  | @cons s s₁ s₂ s' source joined sources factor joins comma rest ih =>
    have next : s₂.advance.context.tables = s₂.context.tables := rfl
    rw [ih, next, joins.tables_eq, factor.tables_eq, ← Tables.withSources_append,
      ← Tables.withSources_append]
    rfl

end Grammar

end SqlRouting
