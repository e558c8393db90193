import SqlRouting.Proofs.Bounds
import SqlRouting.Proofs.TracedStatement

/-!
# Grammar without bounds

The repetitions of the grammar and its nested calls are defined with a bound, the number of tokens that are
left. Each of them steps past a token before it goes on, so that one less is left where it goes on, and with
no token left none goes on. So the bounds have no influence, neither on what is accepted nor on the errors:
the parsers are those that call themselves without any bound.

## Main definitions

* `SqlRouting.Grammar.level` — reads a level with those below it.
* `SqlRouting.Grammar.compositeOnce`, `predicatesOnce`, `joinsOnce`, `commaSeparatedOnce` — one turn of a
  repetition, and then what follows.
* `SqlRouting.Grammar.Unbounded` — the parsers that call themselves.

## Main results

* `SqlRouting.Parser.eq_body` — a parser that steps past a token before it calls itself needs no bound.
* `SqlRouting.Grammar.covers_levelWith` — a level is covered if the levels below are, where one token more is
  left.
* `SqlRouting.Grammar.unbounded` — the grammar calls itself without bounds.
-/

set_option autoImplicit false

namespace SqlRouting

open TokenStream

namespace Parser

variable {α β : Type} {errors : Prop} {k : Nat}

/-! ## Parsers that cover themselves -/

namespace Covers

/-- A parser that leaves the tokens as they are covers itself. -/
lemma of_rests (p : Parser α) [rests : Rests p] : Covers errors k p p :=
  of_suffix fun _ _ _ success => rests.stream_eq success ▸ List.suffix_refl _

/-- A parser whose events are in order covers itself. -/
lemma of_traced {t : Traced α} {p : Parser α} (same : t.parser = p)
    (orderly : ∀ high, t.Orderly (high + 1) 0 high) : Covers errors k p p := by
  subst same
  refine of_suffix fun s a s' success => ?_
  rw [(orderly _ s (Nat.zero_le _) (Nat.le_refl _)).ahead_eq success]
  exact List.suffix_append _ _

/-- A sequence is covered if its rest is, with as many tokens as its first part leaves. -/
lemma bind_of {p : Parser α} {f g : α → Parser β}
    (rest : ∀ {s a s'}, s.stream.remaining ≤ k → p.run s = .ok (a, s') →
      s'.stream.remaining ≤ s.stream.remaining ∧ Covers errors s'.stream.remaining (f a) (g a)) :
    Covers errors k (p >>= f) (p >>= g) := by
  intro s enough
  rw [StateT.run_bind, StateT.run_bind]
  cases read : p.run s with
  | error error => exact ⟨fun _ _ success => (by cases success), fun _ failure _ => failure⟩
  | ok result =>
    obtain ⟨a, s₁⟩ := result
    obtain ⟨fewer, covers⟩ := rest enough read
    obtain ⟨succeeds, fails⟩ := covers s₁ (Nat.le_refl _)
    refine ⟨fun b s' success => ?_, fails⟩
    obtain ⟨covered, left⟩ := succeeds b s' success
    exact ⟨covered, Nat.le_trans left fewer⟩

/-- Behind a keyword that is skipped one less is left. -/
lemma skipKeyword {keywords : List Keyword} {f g : Bool → Parser β}
    (found : Covers errors k (f true) (g true)) (other : Covers errors (k + 1) (f false) (g false)) :
    Covers errors (k + 1) (Parser.skipKeyword keywords >>= f) (Parser.skipKeyword keywords >>= g) := by
  intro s enough
  rw [run_skipKeyword_bind, run_skipKeyword_bind]
  split
  · exact found.behind enough
  · exact other s enough

/-- Behind a symbol that is skipped one less is left. -/
lemma skipSymbol {symbol : Symbol} {f g : Bool → Parser β}
    (found : Covers errors k (f true) (g true)) (other : Covers errors (k + 1) (f false) (g false)) :
    Covers errors (k + 1) (Parser.skipSymbol symbol >>= f) (Parser.skipSymbol symbol >>= g) := by
  intro s enough
  rw [run_skipSymbol_bind, run_skipSymbol_bind]
  split
  · exact found.behind enough
  · exact other s enough

/-- Loops cover each other if their steps do. -/
lemma foldlM {step step' : β → α → Parser β} (steps : ∀ b a, Covers errors k (step b a) (step' b a))
    (as : List α) (b : β) : Covers errors k (as.foldlM step b) (as.foldlM step' b) := by
  induction as generalizing b with
  | nil => exact pure b
  | cons a as ih =>
    rw [List.foldlM_cons, List.foldlM_cons]
    exact (steps b a).bind ih

/-- What covers another with its errors does the same. -/
lemma run_eq {p q : Parser α} (h : Covers True k p q) {s : ParserState} (enough : s.stream.remaining ≤ k) :
    p.run s = q.run s := by
  obtain ⟨succeeds, fails⟩ := h s enough
  cases read : p.run s with
  | ok result => exact ((succeeds _ _ read).1).symm
  | error error => exact (fails error read trivial).symm

/-- A parser that does what another does is covered with it. -/
lemma of_run_eq {p p' q : Parser α} (h : Covers errors k p' q)
    (same : ∀ s : ParserState, s.stream.remaining ≤ k → p.run s = p'.run s) : Covers errors k p q := by
  intro s enough
  rw [same s enough]
  exact h s enough

end Covers

/-! ## Calls without bounds -/

/-- A parser that calls itself only behind a token is the same without a bound on its calls.

**Proof sketch.** By induction on the number of tokens that are left, a bound is as good as any other that
they fit in: the parser steps past one before it calls itself. So the call may be made with the number of
tokens that are left there. -/
lemma eq_body {upTo : Nat → Parser α} {body : Parser α → Parser α}
    (step : ∀ n, upTo (n + 1) = body (upTo n))
    (later : ∀ {k p q}, Covers True k p q → Covers True (k + 1) (body p) (body q))
    (ends : ∀ p, Covers True 0 (body p) (upTo 0)) (base : Covers True 0 (upTo 0) (upTo 0)) :
    (remaining >>= upTo) = body (remaining >>= upTo) := by
  have same {m n : Nat} (enough : m ≤ n) : Covers True m (upTo n) (upTo m) := by
    induction m generalizing n with
    | zero =>
      cases n with
      | zero => exact base
      | succ n => exact step n ▸ ends (upTo n)
    | succ m ih =>
      cases n with
      | zero => omega
      | succ n => exact step n ▸ step m ▸ later (ih (Nat.le_of_succ_le_succ enough))
  have unbounded (n : Nat) : Covers True n (remaining >>= upTo) (upTo n) := by
    intro s enough
    have here := same enough
    have run : (remaining >>= upTo).run s = (upTo n).run s :=
      (looks_remaining.run_bind upTo s).trans (here.run_eq (Nat.le_refl _)).symm
    rw [run]
    refine ⟨fun a s' success => ⟨success, ?_⟩, fun _ failure _ => failure⟩
    exact ((here s (Nat.le_refl _)).1 a s' success).2
  funext s
  show (remaining >>= upTo).run s = (body (remaining >>= upTo)).run s
  rw [looks_remaining.run_bind]
  cases left : s.stream.remaining with
  | zero => exact ((ends _).run_eq (Nat.le_of_eq left)).symm
  | succ n => rw [step, ((later (unbounded n)).run_eq (Nat.le_of_eq left))]

end Parser

namespace Grammar

open SqlRouting.Parser

variable {α : Type} {errors : Prop} {k : Nat} {env : Environment} {rules : ShardingRule}

/-- Reads a level with those below it, and gives what is known of it. -/
def level (env : Environment) : Parser PartialLevel := do
  levelsUpTo env (← remaining)

/-- An operator with its operand, if there is one, and then `more`. -/
def compositeOnce (rules : ShardingRule) (more : Parser Unit) : Parser Unit := do
  if ← checkComposite then
    let _ ← Parser.advance
    let _ ← expression rules
    more
  else return ()

/-- A predicate, and then `more` behind a word. -/
def predicatesOnce (rules : ShardingRule) (more : Parser Predicates) : Parser Predicates := do
  let condition ← predicate rules
  if ← skipKeyword [.AND] then return .cons condition false (← more)
  else if ← skipKeyword [.OR] then return .cons condition true (← more)
  else return ⟨condition.toList, false⟩

/-- A joined table, if there is one, and then `more`. -/
def joinsOnce (rules : ShardingRule) (more : Parser Unit) : Parser Unit := do
  if ← joinWords then
    tableFactor
    joinCondition rules
    more
  else return ()

/-- An item, and then `more` behind a comma. -/
def commaSeparatedOnce (item : Parser α) (more : Parser (List α)) : Parser (List α) := do
  let first ← item
  if ← skipSymbol .comma then return first :: (← more)
  else return [first]

/-- The parsers call themselves without bounds. -/
structure Unbounded (env : Environment) : Prop where
  /-- The operands of an expression are expressions. -/
  expression (rules : ShardingRule) : expression rules = expressionWith (expression rules) rules
  /-- The levels of derived tables are levels. -/
  level : level env = levelWith env (level env)
  /-- A query is a level. -/
  levels : levels env = do
    let read ← Grammar.level env
    return { context := ← context, shape := read.shape, derivedTables := read.below }
  /-- Behind an operator with its operand there may be others. -/
  composite (rules : ShardingRule) : composite rules = compositeOnce rules (composite rules)
  /-- Behind a word there are more predicates. -/
  predicates (rules : ShardingRule) : predicates rules = predicatesOnce rules (predicates rules)
  /-- Behind a joined table there may be others. -/
  joins (rules : ShardingRule) : joins rules = joinsOnce rules (joins rules)
  /-- Behind a comma there are more items, whatever they are, as long as they leave no more tokens. -/
  commaSeparated {α : Type} {item : Parser α}
    (forward : ∀ s a s', item.run s = .ok (a, s') → s'.stream.ahead <:+ s.stream.ahead) :
    commaSeparated item = commaSeparatedOnce item (commaSeparated item)

/-! ## Where no token is left -/

section End

variable {s : ParserState}

/-- Where no token is left, the input ends. -/
lemma kind_of_none_left (spent : s.stream.remaining ≤ 0) : s.stream.kind = .endOfInput :=
  kind_of_ahead_nil (List.length_eq_zero_iff.1 (Nat.le_zero.1 spent))

/-- Where no token is left, no keyword is. -/
lemma no_keyword (spent : s.stream.remaining ≤ 0) (keywords : List Keyword) :
    s.stream.checkAnyKeyword keywords = false := by
  rw [checkAnyKeyword, kind_of_none_left spent]
  rfl

/-- Where no token is left, there is no expression. -/
lemma expressionWith_none (operand : Parser Expression) (spent : s.stream.remaining ≤ 0) :
    (expressionWith operand rules).run s = (unexpected .expression : Parser Expression).run s := by
  rw [expressionWith, looks_offset.run_bind, StateT.run_bind, primaryWith, looks_offset.run_bind,
    looks_kind.run_bind, kind_of_none_left spent]
  rfl

/-- Where no token is left, there is no level. -/
lemma levelWith_none (level : Parser PartialLevel) (spent : s.stream.remaining ≤ 0) :
    (levelWith env level).run s = (unexpected (.keyword .SELECT) : Parser PartialLevel).run s := by
  have refused : (Parser.acceptKeyword .SELECT).run s = .error (s.stream.unexpected (.keyword .SELECT)) := by
    simp [Parser.acceptKeyword, ofStream, StateT.run, TokenStream.acceptKeyword, TokenStream.checkKeyword,
      kind_of_none_left spent]
  rw [levelWith, StateT.run_bind, refused]
  rfl

/-- Where no token is left, no table is joined. -/
lemma joinWords_none (spent : s.stream.remaining ≤ 0) : joinWords.run s = .ok (false, s) := by
  rw [joinWords, run_skipKeyword_bind, if_neg (by simp [no_keyword spent]), if_neg Bool.false_ne_true,
    run_skipKeyword_bind, if_neg (by simp [no_keyword spent]), if_neg Bool.false_ne_true,
    run_skipKeyword_bind, if_neg (by simp [no_keyword spent]), if_neg Bool.false_ne_true]
  rfl

end End

/-! ## Levels -/

section Level

variable {level level' : Parser PartialLevel} (like : Covers errors k level level')

include like

/-- A derived table is covered if its level is. -/
lemma covers_derivedTable : Covers errors k (derivedTable level) (derivedTable level') := by
  refine .look looks_context fun outer => (Covers.of_rests _).bind fun _ => like.bind fun read => ?_
  exact .look looks_context fun inner => (Covers.of_rests _).bind fun _ => .pure _

/-- The tables of a level are covered if the levels below are. -/
lemma covers_tables (below : List SelectLevel) :
    Covers errors k (tables rules level below) (tables rules level' below) := by
  have skipped : Covers errors k (skipKeyword [.FROM]) (skipKeyword [.FROM]) :=
    .of_traced (Traced.parser_skipKeyword _) fun _ => .keyword _
  refine (Covers.of_rests _).bind fun _ => skipped.bind fun isFrom => .ite ?_ (.pure _)
  refine .look looks_checkQueryInParentheses fun derived => .ite ?_ ?_
  · have passed : Covers errors k advance advance := .of_suffix fun s token s' success => by
      cases success
      exact List.tail_suffix _
    have closed : Covers errors k (acceptSymbol .rightParen) (acceptSymbol .rightParen) :=
      .of_suffix fun s token s' success => by
        obtain ⟨-, -, rfl⟩ := run_acceptSymbol_ok.1 success
        exact List.tail_suffix _
    have named : Covers errors k aliasName aliasName :=
      .of_traced Traced.parser_aliasName fun _ => Traced.orderly_aliasName
    have others : Covers errors k (tablesAfterDerived rules) (tablesAfterDerived rules) :=
      .of_traced Traced.parser_tablesAfterDerived fun _ =>
        Traced.orderly_tablesAfterDerived (Nat.lt_succ_self _)
    refine passed.bind fun _ => (covers_derivedTable like).bind fun below => closed.bind fun _ => ?_
    exact named.bind fun _ => others.bind fun _ => .pure _
  · have listed : Covers errors k (tableReferences rules) (tableReferences rules) :=
      .of_traced Traced.parser_tableReferences fun _ => Traced.orderly_tableReferences (Nat.lt_succ_self _)
    exact listed.bind fun _ => .pure _

/-- A clause is covered if the levels below are. -/
lemma covers_clause (read : PartialLevel) (c : SelectClause) :
    Covers errors k (clause env level read c) (clause env level' read c) := by
  -- no clause but that of the tables reads levels, so any will do in the others
  let absent : Traced PartialLevel := Traced.still (unexpected .expression)
  have own (c : SelectClause) :
      Covers errors k (clause env absent.parser read c) (clause env absent.parser read c) :=
    .of_traced (Traced.parser_clause read c) fun _ =>
      Traced.orderly_clause (fun _ => .still _) (Nat.lt_succ_self _) read c
  cases c with
  | tables => exact (covers_tables like _).bind fun _ => .pure _
  | selectList => exact own .selectList
  | condition => exact own .condition
  | grouping => exact own .grouping
  | groupCondition => exact own .groupCondition
  | ordering => exact own .ordering
  | limit => exact own .limit
  | trailing => exact own .trailing

/-- A level is covered if the levels below are, where one token more is left. -/
lemma covers_levelWith : Covers errors (k + 1) (levelWith env level) (levelWith env level') := by
  refine .bind_of fun {s token s'} enough success => ?_
  obtain ⟨isWord, -, rfl⟩ := run_acceptKeyword_ok.1 success
  have remains := remaining_pos isWord (by simp)
  have fewer : s.advance.stream.remaining = s.stream.remaining - 1 := List.length_tail
  exact ⟨by omega, .mono (.foldlM (fun read c => covers_clause like read c) _ _) (by omega)⟩

end Level

/-! ## Loops -/

/-- Where no token is left, the sequence goes on without a keyword. -/
lemma covers_skipKeyword_none {keywords : List Keyword} {f : Bool → Parser α} {q : Parser α}
    (other : Covers errors 0 (f false) q) : Covers errors 0 (skipKeyword keywords >>= f) q :=
  .of_run_eq other fun s spent => by rw [run_skipKeyword_bind, if_neg (by simp [no_keyword spent])]

/-- An expression covers itself. -/
lemma covers_expression : Covers errors k (expression rules) (expression rules) :=
  .of_traced Traced.parser_expression fun _ => Traced.orderly_expression (Nat.lt_succ_self _)

/-- Operators are covered if those behind are, where one token more is left. -/
lemma covers_compositeOnce {more more' : Parser Unit} (like : Covers errors k more more') :
    Covers errors (k + 1) (compositeOnce rules more) (compositeOnce rules more') := by
  refine .look looks_checkComposite fun joined => .ite ?_ (.pure _)
  exact .advance fun _ => covers_expression.bind fun _ => like

/-- A predicate covers itself. -/
lemma covers_predicate : Covers errors k (predicate rules) (predicate rules) :=
  .of_traced Traced.parser_predicate fun _ => Traced.orderly_predicate (Nat.lt_succ_self _)

/-- Predicates are covered if those behind are, where one token more is left. -/
lemma covers_predicatesOnce {more more' : Parser Predicates} (like : Covers errors k more more') :
    Covers errors (k + 1) (predicatesOnce rules more) (predicatesOnce rules more') := by
  refine covers_predicate.bind fun condition => .skipKeyword (like.bind fun _ => .pure _) ?_
  exact .skipKeyword (like.bind fun _ => .pure _) (.pure _)

/-- Joined tables are covered if those behind are, where one token more is left. -/
lemma covers_joinsOnce {more more' : Parser Unit} (like : Covers errors k more more') :
    Covers errors (k + 1) (joinsOnce rules more) (joinsOnce rules more') := by
  have table {k : Nat} : Covers errors k tableFactor tableFactor :=
    .of_traced Traced.parser_tableFactor fun _ => Traced.orderly_tableFactor
  have condition {k : Nat} : Covers errors k (joinCondition rules) (joinCondition rules) :=
    .of_traced Traced.parser_joinCondition fun _ => Traced.orderly_joinCondition (Nat.lt_succ_self _)
  refine .bind_of fun {s joined s'} enough success => ?_
  rcases joinWords_reads success with ⟨rfl, words, isJoin, run⟩ | ⟨rfl, rfl, -⟩
  · have passed := run.remaining_eq
    have nonempty : 0 < words.length := by cases isJoin <;> exact Nat.succ_pos _
    exact ⟨by omega, table.bind fun _ => condition.bind fun _ => like.mono (by omega)⟩
  · exact ⟨Nat.le_refl _, .pure _⟩

/-- Lists with commas are covered if what is behind the commas is, where one token more is left. -/
lemma covers_commaSeparatedOnce {item : Parser α} {more more' : Parser (List α)}
    (own : ∀ {k}, Covers errors k item item) (like : Covers errors k more more') :
    Covers errors (k + 1) (commaSeparatedOnce item more) (commaSeparatedOnce item more') :=
  own.bind fun _ => .skipSymbol (like.bind fun _ => .pure _) (.pure _)

/-! ## The grammar -/

/-- **The grammar calls itself without bounds.** -/
lemma unbounded (env : Environment) : Unbounded env where
  expression rules :=
    @eq_body _ (expressionUpTo rules) (expressionWith · rules) (fun _ => rfl) covers_expressionWith
      (fun p => .of_run_eq (.unexpected _) fun _ spent => expressionWith_none p spent) (.unexpected _)
  level :=
    @eq_body _ (levelsUpTo env) (levelWith env) (fun _ => rfl) covers_levelWith
      (fun p => .of_run_eq (.unexpected _) fun _ spent => levelWith_none p spent) (.unexpected _)
  levels := rfl
  composite rules := by
    refine @eq_body _ (compositeUpTo (Grammar.expression rules)) (compositeOnce rules) (fun _ => rfl)
      covers_compositeOnce (fun p => .of_run_eq (.pure _) fun s spent => ?_) (.pure _)
    rw [compositeOnce, looks_checkComposite.run_bind, kind_of_none_left spent]
    rfl
  predicates rules := by
    refine @eq_body _ (predicatesUpTo rules) (predicatesOnce rules) (fun _ => rfl) covers_predicatesOnce
      (fun p => ?_) (covers_predicate.bind fun _ => .pure _)
    exact covers_predicate.bind fun _ => covers_skipKeyword_none (covers_skipKeyword_none (.pure _))
  joins rules := by
    refine @eq_body _ (joinsUpTo rules) (joinsOnce rules) (fun _ => rfl) covers_joinsOnce
      (fun p => .of_run_eq (.pure _) fun s spent => ?_) (.pure _)
    rw [joinsOnce, StateT.run_bind, joinWords_none spent]
    rfl
  commaSeparated {α item} forward := by
    have own {k : Nat} : Covers True k item item := .of_suffix forward
    refine @eq_body _ (commaSeparatedUpTo item) (commaSeparatedOnce item) (fun _ => rfl)
      (covers_commaSeparatedOnce own) (fun p => ?_) (own.bind fun _ => .pure _)
    refine own.bind fun first => .of_run_eq (.pure _) fun s spent => ?_
    rw [run_skipSymbol_bind, if_neg (by rw [kind_of_none_left spent]; simp)]
    rfl

end Grammar

end SqlRouting
