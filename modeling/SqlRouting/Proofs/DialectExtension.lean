import SqlRouting.Proofs.Query

/-!
# The dialect of MySQL extends the standard one

Where the standard dialect stops reading a grouping, a limit or the values of an insertion, the dialect
of MySQL may go on: with words after the grouping, with a comma in a limit, and with assignments. At each
of these tokens the rest of a statement is stuck in the standard dialect, because no later clause starts
with it, no derived table is closed by it, and it does not end the input. So on a statement that the
standard dialect accepts, the dialect of MySQL never goes on, and reads the same.

## Main definitions

* `SqlRouting.Grammar.Clear` — the current token is none that the dialect of MySQL goes on with.
* `SqlRouting.Grammar.Extends` — a parser does what another does, if this stops at a clear token.

## Main results

* `SqlRouting.Grammar.extends_levelsUpTo`, `SqlRouting.Grammar.extends_insert` — levels of a query and
  insertions.
* `SqlRouting.Statement.ofText_mysql` — what the standard dialect accepts, the dialect of MySQL accepts
  as the same statement.
-/

set_option autoImplicit false

namespace SqlRouting

namespace Grammar

open SqlRouting.Parser TokenStream

/-! ## Tokens to go on with -/

/-- The dialect of MySQL goes on with a token of this kind where the standard one stops. -/
def Resumes (kind : TokenKind) : Prop :=
  kind = .symbol .comma ∨
    ∃ keyword ∈ [Keyword.WITH, .ROLLUP, .SET], kind = .keyword keyword

/-- The current token is none that the dialect of MySQL goes on with. -/
def Clear (s : ParserState) : Prop :=
  ¬ Resumes s.stream.kind

variable {α β : Type} {s s' : ParserState}

/-- A symbol other than the comma is clear. -/
lemma clear_of_symbol {symbol : Symbol} (isSymbol : s.stream.kind = .symbol symbol)
    (noComma : symbol ≠ .comma) : Clear s := by
  rintro (isComma | ⟨keyword, -, isKeyword⟩)
  · exact noComma (TokenKind.symbol.inj (isSymbol.symm.trans isComma))
  · cases isSymbol.symm.trans isKeyword

/-- A keyword that the dialect of MySQL does not go on with is clear. -/
lemma clear_of_keyword {keyword : Keyword} (isKeyword : s.stream.kind = .keyword keyword)
    (other : keyword ∉ [Keyword.WITH, .ROLLUP, .SET]) : Clear s := by
  rintro (isComma | ⟨word, mem, isWord⟩)
  · cases isKeyword.symm.trans isComma
  · exact other (TokenKind.keyword.inj (isKeyword.symm.trans isWord) ▸ mem)

/-- The end of the input is clear. -/
lemma clear_of_atEnd (atEnd : s.stream.kind = .endOfInput) : Clear s := by
  rintro (isComma | ⟨keyword, -, isKeyword⟩)
  · cases atEnd.symm.trans isComma
  · cases atEnd.symm.trans isKeyword

/-- A parser stops at a clear token only if it starts at one: at any other it fails, or does not
move. -/
def FromClear (p : Parser α) : Prop :=
  ∀ s a s', p.run s = .ok (a, s') → Clear s' → Clear s

namespace FromClear

/-- Giving a value does not move. -/
lemma pure (a : α) : FromClear (pure a) := by
  intro s b s' success clear
  obtain ⟨-, rfl⟩ := run_pure_ok.1 success
  exact clear

/-- A result that needs no state does not move. -/
lemma lift (result : Except ParseError α) : FromClear (liftM result) := by
  intro s b s' success clear
  obtain ⟨-, rfl⟩ := run_lift_ok.1 success
  exact clear

/-- A sequence starts at a clear token if its parts do. -/
lemma bind {p : Parser α} {f : α → Parser β} (first : FromClear p) (rest : ∀ a, FromClear (f a)) :
    FromClear (p >>= f) := by
  intro s b s' success clear
  obtain ⟨a, s₁, read, last⟩ := run_bind_ok.1 success
  exact first s a s₁ read (rest a s₁ b s' last clear)

/-- A failing parser stops nowhere. -/
lemma unexpected (expected : Expectation) : FromClear (@Parser.unexpected α expected) :=
  fun _ _ _ success => absurd success run_unexpected_ne

/-- A choice starts at a clear token if its sides do. -/
lemma ite {c : Prop} [Decidable c] {p q : Parser α} (hp : FromClear p) (hq : FromClear q) :
    FromClear (if c then p else q) := by
  split
  · exact hp
  · exact hq

/-- Looking does not move. -/
lemma look {p : Parser α} {value : ParserState → α} {f : α → Parser β} (looks : Looks p value)
    (rest : ∀ a, FromClear (f a)) : FromClear (p >>= f) := by
  intro s b s' success clear
  rw [looks.run_bind] at success
  exact rest _ s b s' success clear

/-- What may be there after a keyword that is clear. -/
lemma skipKeyword {keyword : Keyword} {f : Bool → Parser β}
    (other : keyword ∉ [Keyword.WITH, .ROLLUP, .SET]) (absent : FromClear (f false)) :
    FromClear (skipKeyword [keyword] >>= f) := by
  intro s b s' success clear
  rw [run_skipKeyword_bind] at success
  split at success
  · rename_i present
    obtain ⟨word, mem, isWord⟩ := checkAnyKeyword_iff.1 present
    exact clear_of_keyword isWord (List.mem_singleton.1 mem ▸ other)
  · exact absent s b s' success clear

/-- Refusing keywords does not move. -/
lemma refuseKeywords (keywords : List Keyword) : FromClear (refuseKeywords keywords) := by
  intro s _ s' success clear
  exact run_refuseKeywords_ok success ▸ clear

/-- A recorded change does not move. -/
lemma record (change : Context → Context) : FromClear (modifyContext change) := by
  intro s _ s' success clear
  cases success
  exact clear

end FromClear

/-! ## Extension -/

/-- Where `p` succeeds and stops at a clear token, `q` does the same. -/
def Extends (p q : Parser α) : Prop :=
  ∀ s a s', p.run s = .ok (a, s') → Clear s' → q.run s = .ok (a, s')

namespace Extends

/-- A parser extends itself. -/
lemma refl (p : Parser α) : Extends p p :=
  fun _ _ _ success _ => success

/-- A failing parser is extended by any other. -/
lemma unexpected (expected : Expectation) (q : Parser α) : Extends (Parser.unexpected expected) q :=
  fun _ _ _ success => absurd success run_unexpected_ne

/-- A sequence extends another if its parts do, where the rest starts at a clear token. -/
lemma bind {p q : Parser α} {f g : α → Parser β} (first : Extends p q)
    (clear : ∀ a, FromClear (f a)) (rest : ∀ a, Extends (f a) (g a)) :
    Extends (p >>= f) (q >>= g) := by
  intro s b s' success isClear
  obtain ⟨a, s₁, read, last⟩ := run_bind_ok.1 success
  have firstRead := first s a s₁ read (clear a s₁ b s' last isClear)
  exact run_bind_ok.2 ⟨a, s₁, firstRead, rest a s₁ b s' last isClear⟩

/-- A sequence extends another that starts in the same way if its rest does. -/
lemma after {p : Parser α} {f g : α → Parser β} (rest : ∀ a, Extends (f a) (g a)) :
    Extends (p >>= f) (p >>= g) := by
  intro s b s' success isClear
  obtain ⟨a, s₁, read, last⟩ := run_bind_ok.1 success
  exact run_bind_ok.2 ⟨a, s₁, read, rest a s₁ b s' last isClear⟩

/-- A choice extends another if its sides do. -/
lemma ite {c : Prop} [Decidable c] {p p' q q' : Parser α} (hp : Extends p p') (hq : Extends q q') :
    Extends (if c then p else q) (if c then p' else q') := by
  split
  · exact hp
  · exact hq

end Extends

/-! ## Groupings and limits -/

section Clauses

variable {rules : ShardingRule}

/-- At a clear token no words follow a grouping. -/
lemma takeWhile_of_clear (clear : Clear s) :
    s.stream.ahead.takeWhile (·.kind.isKeywordIn Dialect.mysql.afterGroupBy) = [] := by
  cases ahead : s.stream.ahead with
  | nil => rfl
  | cons token rest =>
    refine List.takeWhile_cons_of_neg fun isWord => clear (.inr ?_)
    have present : s.stream.checkAnyKeyword Dialect.mysql.afterGroupBy = true := by
      rw [checkAnyKeyword, kind_of_ahead_cons ahead]
      exact isWord
    obtain ⟨keyword, mem, same⟩ := checkAnyKeyword_iff.1 present
    exact ⟨keyword, List.subset_append_left [Keyword.WITH, .ROLLUP] [.SET] mem, same⟩

/-- In the standard dialect no words follow a grouping. -/
lemma takeWhile_generic (tokens : List Token) :
    tokens.takeWhile (·.kind.isKeywordIn Dialect.generic.afterGroupBy) = [] := by
  cases tokens with
  | nil => rfl
  | cons token rest =>
    refine List.takeWhile_cons_of_neg fun isWord => ?_
    cases same : token.kind <;> simp [same, TokenKind.isKeywordIn, Dialect.generic] at isWord

/-- The grouping of MySQL extends the standard one. -/
lemma extends_grouping (shape : ResultShape) :
    Extends (grouping .generic rules shape) (grouping .mysql rules shape) := by
  refine .after fun present => .ite ?_ (.refl _)
  refine .after fun _ => .after fun items s read s' success clear => ?_
  obtain ⟨_, s₁, skipped, rest⟩ := run_bind_ok.1 success
  obtain ⟨_, same, rfl⟩ := run_ofStream_ok.1 skipped
  rw [TokenStream.skipAllKeywords, takeWhile_generic] at same
  cases same
  rw [looks_previousEnd.run_bind, run_pure_ok] at rest
  obtain ⟨rfl, rfl⟩ := rest
  have noWords : s.stream.ahead.takeWhile (·.kind.isKeywordIn Dialect.mysql.afterGroupBy) = [] :=
    takeWhile_of_clear (s := s) clear
  refine run_bind_ok.2 ⟨(), s, run_ofStream_ok.2 ⟨s.stream, ?_, rfl⟩, rfl⟩
  rw [TokenStream.skipAllKeywords, noWords]
  rfl

/-- The operands of a limit of MySQL extend the standard ones. -/
lemma extends_limitOperands : Extends (limitOperands Dialect.generic.limitStyle)
    (limitOperands Dialect.mysql.limitStyle) := by
  refine .after fun first s read s' success clear => ?_
  rw [(looks_checkSymbol _).run_bind] at success ⊢
  by_cases isComma : s.stream.kind = .symbol .comma
  · -- the standard dialect does not look for a comma, and stops in front of it
    have stops : s.stream.checkAnyKeyword [.OFFSET] = false := by
      simp [checkAnyKeyword, isComma, TokenKind.isKeywordIn]
    have standard : (LimitStyle.standard == .commaSeparated) = false := rfl
    simp only [Dialect.generic, standard, Bool.false_and, Bool.false_eq_true, if_false,
      run_skipKeyword_bind, stops] at success
    obtain ⟨rfl, rfl⟩ := run_pure_ok.1 success
    exact absurd (.inl isComma) clear
  · have absent : s.stream.check (.symbol .comma) = false :=
      Bool.eq_false_iff.2 (isComma ∘ check_symbol.1)
    simp only [absent, Bool.and_false] at success ⊢
    exact success

/-- The limit of MySQL extends the standard one. -/
lemma extends_limit (shape : ResultShape) :
    Extends (limit Dialect.generic.limitStyle shape) (limit Dialect.mysql.limitStyle shape) := by
  refine .after fun start => .after fun present => .ite ?_ (.refl _)
  refine .bind extends_limitOperands (fun operands => .bind ?_ fun _ => ?_) fun _ => .refl _
  · intro s _ s' success clear
    obtain rfl := addEdits_ok.1 success
    exact clear
  · exact .look looks_previousEnd fun _ => .pure _

end Clauses

/-! ## Levels -/

section Levels

variable {rules : ShardingRule} {metadata : TableMetadata} {level level' : Parser PartialLevel}

/-- A derived table of MySQL extends the standard one, if the levels below do. -/
lemma extends_derivedTable (extended : Extends level level') :
    Extends (derivedTable level) (derivedTable level') := by
  refine .after fun outer => .after fun _ => .bind extended (fun read => ?_) fun read => .refl _
  exact .look looks_context fun inner => .bind (.record _) fun _ => .pure _

/-- Tables of MySQL are those of the standard dialect, if the levels below extend those of it: a derived
table ends at a parenthesis, which is clear. -/
lemma extends_tables (extended : Extends level level') (below : List SelectLevel) :
    Extends (tables rules level below) (tables rules level' below) := by
  refine .after fun _ => .after fun present => .ite ?_ (.refl _)
  refine .after fun isQuery => .ite (.after fun _ => ?_) (.refl _)
  intro s read s' success _
  obtain ⟨found, s₁, derived, rest⟩ := run_bind_ok.1 success
  obtain ⟨_, _, closed, -⟩ := run_bind_ok.1 rest
  have clear : Clear s₁ := clear_of_symbol (run_acceptSymbol_ok.1 closed).1 (by decide)
  exact run_bind_ok.2 ⟨found, s₁, extends_derivedTable extended s found s₁ derived clear, rest⟩

/-- A clause of MySQL extends the one of the standard dialect, if the levels below do. -/
lemma extends_clause (extended : Extends level level') (read : PartialLevel) (next : SelectClause) :
    Extends (clause ⟨.generic, rules, metadata⟩ level read next)
      (clause ⟨.mysql, rules, metadata⟩ level' read next) := by
  cases next with
  | tables => exact .bind (extends_tables extended read.below) (fun _ => .pure _) fun _ => .refl _
  | grouping => exact .bind (extends_grouping read.shape) (fun _ => .pure _) fun _ => .refl _
  | limit => exact .bind (extends_limit read.shape) (fun _ => .pure _) fun _ => .refl _
  | _ => exact .refl _

/-- Each clause behind the select list starts at a clear token, or is not there. -/
lemma fromClear_clause {env : Environment} (read : PartialLevel) {next : SelectClause}
    (behind : next ≠ .selectList) : FromClear (clause env level read next) := by
  cases next with
  | selectList => exact absurd rfl behind
  | tables =>
    refine .bind (.bind (.refuseKeywords _) fun _ => ?_) fun _ => .pure _
    exact .skipKeyword (by decide) (.pure _)
  | condition => exact .bind (.skipKeyword (by decide) (.pure _)) fun _ => .pure _
  | grouping => exact .bind (.skipKeyword (by decide) (.pure _)) fun _ => .pure _
  | groupCondition => exact .bind (.refuseKeywords _) fun _ => .pure _
  | ordering => exact .bind (.skipKeyword (by decide) (.pure _)) fun _ => .pure _
  | limit =>
    refine .bind (.look looks_offset fun _ => ?_) fun _ => .pure _
    exact .skipKeyword (by decide) (.pure _)
  | trailing => exact .bind (.refuseKeywords _) fun _ => .pure _

/-- Clauses behind the select list start at a clear token, or are not there. -/
lemma fromClear_clauses {env : Environment} {clauses : List SelectClause}
    (behind : ∀ next ∈ clauses, next ≠ .selectList) :
    ∀ read, FromClear (clauses.foldlM (clause env level) read) := by
  induction clauses with
  | nil => exact fun read => .pure read
  | cons next clauses ih =>
    obtain ⟨first, rest⟩ := List.forall_mem_cons.1 behind
    intro read
    rw [List.foldlM_cons]
    exact .bind (fromClear_clause read first) (ih rest)

/-- Clauses behind the select list extend those of the standard dialect, if the levels below do. -/
lemma extends_clauses (extended : Extends level level') {clauses : List SelectClause}
    (behind : ∀ next ∈ clauses, next ≠ .selectList) : ∀ read,
      Extends (clauses.foldlM (clause ⟨.generic, rules, metadata⟩ level) read)
        (clauses.foldlM (clause ⟨.mysql, rules, metadata⟩ level') read) := by
  induction clauses with
  | nil => exact fun read => .refl _
  | cons next clauses ih =>
    obtain ⟨_, rest⟩ := List.forall_mem_cons.1 behind
    intro read
    rw [List.foldlM_cons, List.foldlM_cons]
    exact .bind (extends_clause extended read next) (fromClear_clauses rest) (ih rest)

/-- The levels of a query of MySQL extend those of the standard dialect.

**Proof sketch.** Induction on the bound on the tokens. The select list is read in the same way, and each
clause behind it starts at a clear token or is not there. So where a level stops at a clear token, each
of its clauses did, and the dialect of MySQL did not go on with any. -/
lemma extends_levelsUpTo (n : Nat) : Extends (levelsUpTo ⟨.generic, rules, metadata⟩ n)
    (levelsUpTo ⟨.mysql, rules, metadata⟩ n) := by
  induction n with
  | zero => exact .refl _
  | succ n ih =>
    refine .after fun _ => ?_
    show Extends
      (List.foldlM (clause ⟨.generic, rules, metadata⟩ _) {} (.selectList :: [.tables, .condition,
        .grouping, .groupCondition, .ordering, .limit, .trailing]))
      (List.foldlM (clause ⟨.mysql, rules, metadata⟩ _) {} (.selectList :: [.tables, .condition,
        .grouping, .groupCondition, .ordering, .limit, .trailing]))
    rw [List.foldlM_cons, List.foldlM_cons]
    exact .bind (extends_clause ih {} .selectList) (fromClear_clauses (by decide))
      (extends_clauses ih (by decide))

/-- Queries of MySQL extend those of the standard dialect. -/
lemma extends_select : Extends (select ⟨.generic, rules, metadata⟩) (select ⟨.mysql, rules, metadata⟩) := by
  refine .bind (.after fun n => ?_) (fun _ => .lift _) fun _ => .refl _
  exact .bind (extends_levelsUpTo n) (fun _ => .look looks_context fun _ => .pure _) fun _ => .refl _

end Levels

/-! ## Insertions -/

section Insertions

variable {rules : ShardingRule} {metadata : TableMetadata}

/-- In front of a clear token there are no assignments, and in the standard dialect there are none. -/
lemma extends_assignments (table : String) :
    Extends (assignments ⟨.generic, rules, metadata⟩ table)
      (assignments ⟨.mysql, rules, metadata⟩ table) := by
  intro s found s' success clear
  rw [assignments, run_skipKeyword_bind] at success ⊢
  have noWord : s.stream.checkAnyKeyword Dialect.generic.insertKeywords = false := by
    refine Bool.eq_false_iff.2 fun present => ?_
    obtain ⟨_, mem, -⟩ := checkAnyKeyword_iff.1 present
    cases mem
  simp only [noWord] at success
  obtain ⟨rfl, rfl⟩ := run_pure_ok.1 success
  have noSet : s.stream.checkAnyKeyword Dialect.mysql.insertKeywords = false := by
    refine Bool.eq_false_iff.2 fun present => clear (.inr ?_)
    obtain ⟨keyword, mem, same⟩ := checkAnyKeyword_iff.1 present
    exact ⟨keyword, List.subset_append_right [Keyword.WITH, .ROLLUP] [.SET] mem, same⟩
  simp only [noSet]
  rfl

/-- Insertions of MySQL extend those of the standard dialect. -/
lemma extends_insert : Extends (insert ⟨.generic, rules, metadata⟩) (insert ⟨.mysql, rules, metadata⟩) := by
  refine .after fun _ => .after fun _ => .after fun _ => .after fun context => .after fun target => ?_
  refine .after fun _ => .after fun rows => .bind (extends_assignments _) (fun assigned => ?_)
    fun assigned => .ite (.unexpected _ _) (.refl _)
  refine .ite (.unexpected _) (.bind ?_ fun _ => .look looks_context fun _ => .pure _)
  exact .skipKeyword (by decide) (.pure _)

end Insertions

/-! ## Statements -/

/-- What ends a statement starts at a clear token. -/
lemma clear_of_finish {result : Unit} (success : finish.run s = .ok (result, s')) : Clear s := by
  rw [finish, run_skipSymbol_bind] at success
  split at success
  · rename_i isSemicolon
    exact clear_of_symbol isSemicolon (by decide)
  · rw [looks_stream.run_bind] at success
    split at success
    · rename_i ended
      exact clear_of_atEnd (beq_iff_eq.1 ended)
    · exact absurd success run_unexpected_ne

/-- A statement is followed by its end, so reading it stops at a clear token. -/
lemma run_finished {p q : Parser α} (extended : Extends p q) {make : α → Statement}
    {statement : Statement}
    (success : (p >>= fun a => (pure (make a) : Parser Statement) >>= fun read =>
      finish >>= fun _ => pure read).run s = .ok (statement, s')) :
    (q >>= fun a => (pure (make a) : Parser Statement) >>= fun read =>
      finish >>= fun _ => pure read).run s = .ok (statement, s') := by
  obtain ⟨a, s₁, part, rest⟩ := run_bind_ok.1 success
  have ended := rest
  rw [pure_bind] at ended
  obtain ⟨_, _, finished, -⟩ := run_bind_ok.1 ended
  exact run_bind_ok.2 ⟨a, s₁, extended s a s₁ part (clear_of_finish finished), rest⟩

end Grammar

namespace Statement

open Grammar SqlRouting.Parser

/-- What the standard dialect accepts, the dialect of MySQL accepts as the same statement.

**Proof sketch.** The dialects differ where the standard one stops: behind a grouping, in a limit, and
behind the values of an insertion. If the token there were one that MySQL goes on with, the rest of the
statement would be stuck in the standard dialect, because no clause starts with it, no derived table is
closed by it, and it does not end the input. So it is none, and MySQL stops there as well. -/
theorem ofText_mysql {rules : ShardingRule} {metadata : TableMetadata} {text : String}
    {statement : Statement} (success : ofText ⟨.generic, rules, metadata⟩ text = .ok statement) :
    ofText ⟨.mysql, rules, metadata⟩ text = .ok statement := by
  obtain ⟨s', read⟩ := ofText_iff.1 success
  refine ofText_iff.2 ⟨s', ?_⟩
  rw [Grammar.statement, (looks_checkKeyword _).run_bind] at read ⊢
  dsimp only at read ⊢
  rw [(looks_checkKeyword _).run_bind] at read ⊢
  split at read
  · rename_i isSelect
    rw [if_pos isSelect]
    exact run_finished extends_select read
  · rename_i noSelect
    rw [if_neg noSelect]
    split at read
    · rename_i isInsert
      rw [if_pos isInsert]
      exact run_finished extends_insert read
    · obtain ⟨_, _, failed, -⟩ := run_bind_ok.1 read
      exact absurd failed run_unexpected_ne

/-- A query of the standard dialect with a grouping, and with limits at two levels, is one of MySQL. -/
theorem ofText_mysql_limits : ∃ (rules : ShardingRule) (metadata : TableMetadata) (text : String)
    (query : SelectStatement), query.context.conditions = [.equal ⟨"a", "t"⟩ (.placeholder 0)] ∧
      query.shape.limit = some ⟨some (.literal 1), some (.literal 2), ⟨75, 91⟩⟩ ∧
      ofText ⟨.generic, rules, metadata⟩ text = .ok (.select query) ∧
      ofText ⟨.mysql, rules, metadata⟩ text = .ok (.select query) := by
  let rules : ShardingRule := ⟨[{ table := "t", shardingColumns := ["a"] }]⟩
  let text := "SELECT a, COUNT(*) FROM (SELECT a FROM t WHERE a = ? LIMIT 3) x GROUP BY a LIMIT 2 OFFSET 1"
  have seen : (query? ⟨.generic, rules, {}⟩ text).map (fun query =>
      (query.context.conditions, query.shape.limit)) =
      some ([.equal ⟨"a", "t"⟩ (.placeholder 0)],
        some ⟨some (.literal 1), some (.literal 2), ⟨75, 91⟩⟩) := by decide +kernel
  obtain ⟨query, success, same⟩ := exists_of_query seen
  obtain ⟨conditions, limit⟩ := Prod.mk.inj same
  exact ⟨rules, {}, text, query, conditions, limit, success, ofText_mysql success⟩

end Statement

end SqlRouting
