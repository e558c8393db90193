import SqlRouting.Proofs.Reach

/-!
# Trails through levels

The levels of a query are read one inside the other, each in a context of its own. The passages of all
levels together are those of the text, and the edits of all levels together are those at the names of
these passages, in another order.

## Main definitions

* `SqlRouting.Descent` — a part of a parse with its passages, in which levels below are read.

## Main results

* `SqlRouting.Grammar.descent_levelsUpTo` — the passages of a level with those below it.
* `SqlRouting.Grammar.query_descent` — the passages of an accepted query.
-/

set_option autoImplicit false

namespace SqlRouting

open TokenStream SqlRouting.Parser

/-- The edits that some levels collect. -/
def SelectLevel.editsOf (levels : List SelectLevel) : List Edit :=
  levels.flatMap (·.context.edits)

/-- A part of a parse, in which some passages are passed and the levels below change from `below` to
`below'`. All names of the passages are marked, at some level. -/
structure Descent (rules : ShardingRule) (s : ParserState) (below : List SelectLevel)
    (passages : List Passage) (s' : ParserState) (below' : List SelectLevel) : Prop where
  /-- Each passage can be passed. -/
  readable : ∀ passage ∈ passages, passage.Readable
  /-- Their tokens come first. -/
  ahead : s.stream.ahead = passages.flatMap Passage.tokens ++ s'.stream.ahead
  /-- The stream stays in its text. -/
  source : s'.stream.source = s.stream.source
  /-- The edits at their names are recorded. -/
  names : (Edit.atNames (s'.context.edits ++ SelectLevel.editsOf below')).Perm
    (Edit.atNames (s.context.edits ++ SelectLevel.editsOf below) ++
      passages.flatMap (Passage.edits rules s.stream.source))

namespace Descent

variable {rules : ShardingRule} {s s₁ s' : ParserState} {passages more : List Passage}
variable {below below₁ below' : List SelectLevel}

/-- A trail leaves the levels below. -/
lemma of_trail (h : Trail rules s passages s') (below : List SelectLevel) :
    Descent rules s below passages s' below := by
  refine ⟨h.readable, h.ahead, h.source_eq, ?_⟩
  rw [Edit.atNames_append, Edit.atNames_append, h.names, List.append_assoc, List.append_assoc]
  exact List.perm_append_comm.append_left _

/-- A descent after a descent is a descent. -/
lemma trans (h : Descent rules s below passages s₁ below₁)
    (h' : Descent rules s₁ below₁ more s' below') :
    Descent rules s below (passages ++ more) s' below' where
  readable passage mem := (List.mem_append.1 mem).elim (h.readable passage) (h'.readable passage)
  ahead := by rw [h.ahead, h'.ahead, List.flatMap_append, List.append_assoc]
  source := h'.source.trans h.source
  names := by
    rw [List.flatMap_append, ← List.append_assoc, ← h.source]
    exact h'.names.trans (h.source ▸ h.names.append_right _)

/-- A descent in a fresh context is one in the context around it, to a level with that context. -/
lemma framed {stream : TokenStream} {fresh outer outer' : Context} {t : ParserState}
    (h : Descent rules ⟨stream, fresh⟩ [] passages t below) (isFresh : fresh.edits = [])
    (kept : outer'.edits = outer.edits) (shape : ResultShape) :
    Descent rules ⟨stream, outer⟩ [] passages ⟨t.stream, outer'⟩ (⟨t.context, shape⟩ :: below) := by
  have names := h.names
  rw [isFresh] at names
  refine ⟨h.readable, h.ahead, h.source, ?_⟩
  simp only [SelectLevel.editsOf, List.flatMap_cons, List.flatMap_nil, kept, Edit.atNames_append,
    List.append_assoc, List.nil_append] at names ⊢
  exact names.append_left _

end Descent

/-- Some descent leads from one state to another. -/
def Descends (rules : ShardingRule) (s : ParserState) (below : List SelectLevel) (s' : ParserState)
    (below' : List SelectLevel) : Prop :=
  ∃ passages, Descent rules s below passages s' below'

namespace Descends

variable {rules : ShardingRule} {s s₁ s' : ParserState} {below below₁ below' : List SelectLevel}

/-- What follows a trail leaves the levels below. -/
lemma of_follows (h : Follows rules s s') (below : List SelectLevel) :
    Descends rules s below s' below := by
  obtain ⟨passages, trail⟩ := h
  exact ⟨passages, .of_trail trail below⟩

/-- One descent after the other is a descent. -/
lemma trans (h : Descends rules s below s₁ below₁) (h' : Descends rules s₁ below₁ s' below') :
    Descends rules s below s' below' := by
  obtain ⟨passages, first⟩ := h
  obtain ⟨more, second⟩ := h'
  exact ⟨_, first.trans second⟩

end Descends

namespace Grammar

variable {env : Environment} {rules : ShardingRule} {text : String} {s s' : ParserState}

/-- The tables of a level are a descent, if there are no levels below before, and the levels of a
derived table are one. -/
lemma descends_tables {level : Parser PartialLevel} {below : List SelectLevel}
    (descends : ∀ t t' read, level.run t = .ok (read, t') → Descends rules t [] t' read.below)
    (success : (tables rules level []).run s = .ok (below, s')) : Descends rules s [] s' below := by
  rcases tables_leads (Follows rules) success with ⟨follows, rfl⟩ |
    ⟨read, t, word, opening, inner, closing, after, rfl⟩
  · exact .of_follows follows []
  · have entered : Follows rules s s.advance.advance :=
      Steady.trans (Advancing.token word) (Advancing.token opening)
    let back : ParserState := ⟨t.stream, { s.context with parameters := t.context.parameters }⟩
    have left : Follows rules back (derivedStop s.context t) := Advancing.token (s := back) closing
    have kept : back.context.edits = s.advance.advance.context.edits := rfl
    obtain ⟨passages, inside⟩ := descends _ _ _ inner
    have level : Descends rules s.advance.advance [] back (⟨t.context, read.shape⟩ :: read.below) :=
      ⟨passages, inside.framed rfl kept read.shape⟩
    exact ((Descends.of_follows entered []).trans level).trans
      (.of_follows (Steady.trans left after) _)

/-- The clauses of a level are a descent, if one of them at most reads tables. -/
lemma descends_clauses {level : Parser PartialLevel}
    (descends : ∀ t t' read, level.run t = .ok (read, t') → Descends env.rules t [] t' read.below)
    {clauses : List SelectClause} {known known' : PartialLevel}
    (once : clauses.count .tables + (if known.below = [] then 0 else 1) ≤ 1)
    (success : (clauses.foldlM (clause env level) known).run s = .ok (known', s')) :
    Descends env.rules s known.below s' known'.below := by
  induction clauses generalizing s known with
  | nil =>
    obtain ⟨rfl, rfl⟩ := run_pure_ok.1 success
    exact .of_follows (Steady.refl _) _
  | cons next clauses ih =>
    rw [List.foldlM_cons] at success
    obtain ⟨known₁, s₁, first, rest⟩ := run_bind_ok.1 success
    by_cases isTables : next = .tables
    · subst isTables
      have noneBelow : known.below = [] := by
        by_contra nonempty
        rw [List.count_cons_self, if_neg nonempty] at once
        omega
      rw [noneBelow] at once ⊢
      obtain ⟨below, s₂, read, done⟩ := run_bind_ok.1 first
      obtain ⟨rfl, rfl⟩ := run_pure_ok.1 done
      rw [noneBelow] at read
      refine (descends_tables descends read).trans (ih ?_ rest)
      rw [List.count_cons_self] at once
      split <;> simp at once ⊢ <;> omega
    · obtain ⟨follows, same⟩ := clause_leads (Follows env.rules) isTables first
      rw [List.count_cons_of_ne isTables, ← same] at once
      rw [← same]
      exact (Descends.of_follows follows _).trans (ih once rest)

/-- A level with those below it is a descent, if its tables are read once. -/
lemma descends_levelsUpTo (once : env.dialect.clauses.count .tables ≤ 1) {n : Nat}
    {known : PartialLevel} (success : (levelsUpTo env n).run s = .ok (known, s')) :
    Descends env.rules s [] s' known.below := by
  induction n generalizing s s' known with
  | zero => exact absurd success run_unexpected_ne
  | succ n ih =>
    obtain ⟨_, s₁, accepted, rest⟩ := run_bind_ok.1 success
    obtain ⟨word, -, rfl⟩ := run_acceptKeyword_ok.1 accepted
    have first : Follows env.rules s s.advance := Advancing.token word
    have clauses : Descends env.rules s.advance ({} : PartialLevel).below s' known.below :=
      descends_clauses (fun _ _ _ read => ih read) once rest
    exact (Descends.of_follows first []).trans clauses

/-! ## Additions -/

/-- Nothing is added from one state to another, nor at the levels below. -/
def AddsNothing (s : ParserState) (known : PartialLevel) (s' : ParserState) : Prop :=
  KeepsAdditions s s' ∧ ∀ inner ∈ known.below, Edit.additions inner.context.edits = []

/-- Nothing is added by a clause, if nothing is at the levels below. -/
lemma additions_clause {level : Parser PartialLevel}
    (lower : ∀ t t' read, level.run t = .ok (read, t') → AddsNothing t read t')
    {known known' : PartialLevel} {start : ParserState} {next : SelectClause}
    (before : AddsNothing start known s)
    (success : (clause env level known next).run s = .ok (known', s')) : AddsNothing start known' s' := by
  by_cases isTables : next = .tables
  · subst isTables
    obtain ⟨below, s₁, read, done⟩ := run_bind_ok.1 success
    obtain ⟨rfl, rfl⟩ := run_pure_ok.1 done
    rcases tables_leads KeepsAdditions read with ⟨kept, rfl⟩ |
      ⟨read, t, word, opening, inner, closing, after, rfl⟩
    · exact ⟨Steady.trans before.1 kept, before.2⟩
    · obtain ⟨own, others⟩ := lower _ _ _ inner
      have left : KeepsAdditions s (derivedStop s.context t) := rfl
      exact ⟨Steady.trans before.1 (Steady.trans left after), List.forall_mem_cons.2 ⟨own, others⟩⟩
  · obtain ⟨kept, same⟩ := clause_leads KeepsAdditions isTables success
    rw [AddsNothing, same]
    exact ⟨Steady.trans before.1 kept, before.2⟩

/-- Nothing is added by a level with those below it. -/
lemma additions_levelsUpTo {n : Nat} {known : PartialLevel}
    (success : (levelsUpTo env n).run s = .ok (known, s')) : AddsNothing s known s' := by
  induction n generalizing s s' known with
  | zero => exact absurd success run_unexpected_ne
  | succ n ih =>
    obtain ⟨_, s₁, accepted, rest⟩ := run_bind_ok.1 success
    obtain ⟨word, -, rfl⟩ := run_acceptKeyword_ok.1 accepted
    have opened : AddsNothing s {} s.advance := ⟨rfl, by simp⟩
    exact run_foldlM_keeps (fun _ _ _ _ _ _ => additions_clause fun _ _ _ => ih) opened rest

end Grammar

/-! ## Accepted queries -/

namespace SelectLevel

/-- Merging levels keeps all edits. -/
lemma mergeAll_edits (outer : SelectLevel) (below : List SelectLevel) :
    (outer.mergeAll below).context.edits = outer.context.edits ++ editsOf below := by
  induction below generalizing outer with
  | nil => exact (List.append_nil _).symm
  | cons inner below ih =>
    show outer.context.edits ++ (inner.mergeAll below).context.edits = _
    rw [ih]
    rfl

end SelectLevel

/-- Nothing is added to the levels of a query. -/
lemma SelectStatement.additions_merge {env : Environment} {text : String} {whole : SelectStatement}
    {s : ParserState} (read : (Grammar.levels env).run ⟨.ofText text, {}⟩ = .ok (whole, s)) :
    Edit.additions whole.merge.context.edits = [] := by
  obtain ⟨n, known, levelsRead, rfl⟩ := Grammar.levels_run read
  obtain ⟨own, below⟩ := Grammar.additions_levelsUpTo levelsRead
  have outer : Edit.additions s.context.edits = [] := own
  rw [SelectStatement.merge, SelectLevel.mergeAll_edits, Edit.additions_append, outer, List.nil_append,
    SelectLevel.editsOf, Edit.additions, List.filter_flatMap, List.flatMap_eq_nil_iff]
  exact below

/-- Nothing is inserted into the levels of a query. -/
lemma SelectStatement.insertions_merge {env : Environment} {text : String} {whole : SelectStatement}
    {s : ParserState} (read : (Grammar.levels env).run ⟨.ofText text, {}⟩ = .ok (whole, s)) :
    Edit.insertions whole.merge.context.edits = [] := by
  rw [← Edit.insertions_additions, additions_merge read]
  rfl

/-- The merged levels of the query that a text writes, before they are prepared, with the passages of
the text. -/
structure QueryTrail (env : Environment) (text : String) (level : SelectLevel)
    (passages : List Passage) : Prop where
  /-- The levels are read from the start of the text. -/
  read : ∃ whole s, (Grammar.levels env).run ⟨.ofText text, {}⟩ = .ok (whole, s) ∧
    level = whole.merge.toSelectLevel
  /-- Each passage can be passed. -/
  readable : ∀ passage ∈ passages, passage.Readable
  /-- The passages are those of the text. -/
  tokens : Lexer.tokens text = passages.flatMap Passage.tokens
  /-- All names of the passages are marked. -/
  names : (Edit.atNames level.context.edits).Perm (passages.flatMap (Passage.edits env.rules text))

/-- Nothing is inserted into an accepted query before it is prepared. -/
lemma QueryTrail.insertions {env : Environment} {text : String} {level : SelectLevel}
    {passages : List Passage} (h : QueryTrail env text level passages) :
    Edit.insertions level.context.edits = [] := by
  obtain ⟨whole, s, read, rfl⟩ := h.read
  exact SelectStatement.insertions_merge read

/-- What clauses keep holds of the shape of an accepted query. -/
lemma QueryTrail.shape {env : Environment} {text : String} {level : SelectLevel}
    {passages : List Passage} (h : QueryTrail env text level passages) {P : ResultShape → Prop}
    (keeps : Grammar.KeepsShape env text P) : P level.shape := by
  obtain ⟨whole, s, read, rfl⟩ := h.read
  exact SelectStatement.merge_shape (Grammar.shapes_levels keeps (Reaches.start text) read)

/-- The tokens of an accepted query are valid. -/
lemma QueryTrail.valid {env : Environment} {text : String} {level : SelectLevel}
    {passages : List Passage} (h : QueryTrail env text level passages) :
    ∀ token ∈ Lexer.tokens text, token.kind.isBroken = false := by
  rw [h.tokens]
  intro token mem
  obtain ⟨passage, isPassage, mem⟩ := List.mem_flatMap.1 mem
  exact Passage.valid (h.readable passage isPassage) token mem

namespace Grammar

variable {env : Environment} {text : String}

/-- An accepted query is prepared from merged levels with the passages of its text, if dialects read
tables once. -/
lemma query_trail (once : env.dialect.clauses.count .tables ≤ 1) {query : SelectStatement}
    (success : Statement.ofText env text = .ok (.select query)) :
    ∃ level passages, QueryTrail env text level passages ∧
      ({ toSelectLevel := level } : SelectStatement).prepare env.metadata = .ok query := by
  obtain ⟨s, s', finished, ⟨_, same, selected⟩ | ⟨_, same, -⟩⟩ := ofText_reads success
  · cases same
    obtain ⟨whole, s₁, read, merged⟩ := run_bind_ok.1 selected
    obtain ⟨prepared, rfl⟩ := run_lift_ok.1 merged
    obtain ⟨outer, below, reading, -⟩ := levels_read read
    obtain ⟨tokens, run⟩ := reading.exists_run
    have ended := finish_reads ((KeepsCount.start text).sameCount run) finished
    obtain ⟨n, known, readLevels, isWhole⟩ := levels_run read
    obtain ⟨passages, descent⟩ := descends_levelsUpTo once readLevels
    -- a semicolon may be left
    obtain ⟨last, readable, left, noName⟩ : ∃ last : List Passage, (∀ passage ∈ last, passage.Readable) ∧
        s₁.stream.ahead = last.flatMap Passage.tokens ∧
        last.flatMap (Passage.edits env.rules text) = [] := by
      rcases ended with nothing | ⟨token, left, isSemicolon⟩
      · exact ⟨[], by simp, nothing, rfl⟩
      · refine ⟨[.single token], ?_, by simp [left, Passage.tokens], rfl⟩
        simp [Passage.Readable, isSemicolon, TokenKind.isBroken]
    have edits : whole.merge.context.edits = s₁.context.edits ++ SelectLevel.editsOf known.below := by
      rw [isWhole]
      exact SelectLevel.mergeAll_edits _ _
    refine ⟨_, passages ++ last, ⟨⟨whole, s₁, read, rfl⟩, ?_, ?_, ?_⟩, prepared⟩
    · intro passage mem
      exact (List.mem_append.1 mem).elim (descent.readable passage) (readable passage)
    · rw [List.flatMap_append, ← left]
      exact descent.ahead
    · rw [List.flatMap_append, noName, List.append_nil, edits]
      exact descent.names
  · cases same

end Grammar

end SqlRouting
