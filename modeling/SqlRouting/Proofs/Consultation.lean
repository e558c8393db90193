import Mathlib.Data.List.Find
import SqlRouting.Proofs.ConditionTables
import SqlRouting.Proofs.Count
import SqlRouting.Proofs.Derivation

/-!
# What is consulted of the configuration

The grammar consults the rules and the known columns by names of tables only. Where a statement is read,
such a name is written by a token, with or without quotation marks, or is the empty name of a table that
is not named. Two parsers run alike where states are within some names, if they consult configurations
that agree on these names. The rules of this module follow the way parsers are built, so that running
alike is seen from the text of the parsers.

## Main definitions

* `SqlRouting.Statement.names` — the names by which a statement may consult the configuration.
* `SqlRouting.ShardingRule.consulted?` — what is consulted of the rule of a table.
* `SqlRouting.Environment.AgreeOn` — two environments agree on some names.
* `SqlRouting.Parser.Within` — a state has no other names of tables than some.
* `SqlRouting.Parser.Alike` — two parsers run alike within some names.

## Main results

* `SqlRouting.Parser.Alike.bind`, `SqlRouting.Parser.Alike.commaSeparated` — sequences and lists of
  parsers that run alike.
* `SqlRouting.SelectStatement.prepare_congr` — preparing a query consults the names of its tables.
-/

set_option autoImplicit false

namespace SqlRouting

open TokenStream

/-! ## Rules and known columns -/

/-- The same rule, without the expression that computes the shard. -/
def TableRule.withoutAlgorithm (rule : TableRule) : TableRule :=
  { rule with algorithm := none }

namespace ShardingRule

/-- What is consulted of the rule of a table, if there is one: the columns that select the shard, and the
one for a generated key. -/
def consulted? (rules : ShardingRule) (table : String) : Option (List String × Option String) :=
  (rules.find? table).map fun rule => (rule.shardingColumns, rule.generateKeyColumn)

/-- Some rules and others say the same of every table in a list of names. -/
def AgreeOn (names : List String) (rules rules' : ShardingRule) : Prop :=
  ∀ name ∈ names, rules.consulted? name = rules'.consulted? name

/-- Whether there is a rule is told by what is consulted of it. -/
lemma isSome_find (rules : ShardingRule) (table : String) :
    (rules.find? table).isSome = (rules.consulted? table).isSome := by
  rw [consulted?, Option.isSome_map]

/-- Whether a column selects the shard is told by what is consulted of the rule. -/
lemma isShardingColumn_eq (rules : ShardingRule) (column table : String) :
    rules.isShardingColumn column table =
      (rules.consulted? table).any fun consulted => Text.containsName consulted.1 column := by
  rw [consulted?, isShardingColumn]
  cases rules.find? table <;> rfl

/-- The column for a generated key is told by what is consulted of the rule. -/
lemma generateKeyColumn_eq (rules : ShardingRule) (table : String) :
    rules.generateKeyColumn? table = (rules.consulted? table).bind Prod.snd := by
  rw [consulted?, generateKeyColumn?]
  cases rules.find? table <;> rfl

/-- How the shard is computed is not consulted. -/
lemma consulted_eq_of_map {rules rules' : ShardingRule}
    (same : rules.toList.map TableRule.withoutAlgorithm = rules'.toList.map TableRule.withoutAlgorithm)
    (table : String) :
    rules.consulted? table = rules'.consulted? table := by
  have ofPlain (rules : ShardingRule) : rules.consulted? table =
      ((rules.toList.map TableRule.withoutAlgorithm).find? (Text.sameName ·.table table)).map
        fun rule => (rule.shardingColumns, rule.generateKeyColumn) := by
    rw [List.find?_map, Option.map_map]
    rfl
  rw [ofPlain rules, ofPlain rules', same]

/-- The rules of other tables are not consulted. -/
lemma consulted_filter {rules : ShardingRule} {keep : TableRule → Bool} {table : String}
    (kept : ∀ rule ∈ rules.toList, Text.sameName rule.table table = true → keep rule = true) :
    ShardingRule.consulted? ⟨rules.toList.filter keep⟩ table = rules.consulted? table := by
  have same : (rules.toList.filter keep).find? (Text.sameName ·.table table) =
      rules.toList.find? (Text.sameName ·.table table) := by
    rw [List.find?_filter]
    refine List.find?_congr fun rule mem => ?_
    cases isNamed : Text.sameName rule.table table with
    | false => simp
    | true => simp [kept rule mem isNamed]
  rw [consulted?, find?, same]
  rfl

namespace AgreeOn

variable {names : List String} {rules rules' : ShardingRule} {table : String}

/-- Rules that agree on a table have a rule for it or not. -/
lemma isSome_find (agree : AgreeOn names rules rules') (mem : table ∈ names) :
    (rules.find? table).isSome = (rules'.find? table).isSome := by
  rw [ShardingRule.isSome_find, ShardingRule.isSome_find, agree table mem]

/-- Rules that agree on a table have the same sharding columns for it. -/
lemma isShardingColumn (agree : AgreeOn names rules rules') (mem : table ∈ names) (column : String) :
    rules.isShardingColumn column table = rules'.isShardingColumn column table := by
  rw [isShardingColumn_eq, isShardingColumn_eq, agree table mem]

/-- Rules that agree on a table have the same column for a generated key for it. -/
lemma generateKeyColumn (agree : AgreeOn names rules rules') (mem : table ∈ names) :
    rules.generateKeyColumn? table = rules'.generateKeyColumn? table := by
  rw [generateKeyColumn_eq, generateKeyColumn_eq, agree table mem]

end AgreeOn

end ShardingRule

/-- Two environments have the same dialect, and say the same of every table in a list of names. -/
structure Environment.AgreeOn (names : List String) (env env' : Environment) : Prop where
  /-- The dialect is the same. -/
  dialect : env.dialect = env'.dialect
  /-- The rules say the same. -/
  rules : ShardingRule.AgreeOn names env.rules env'.rules
  /-- The same columns are known. -/
  columns : ∀ name ∈ names, env.metadata.columns? name = env'.metadata.columns? name

/-- What holds of the tables and of one more holds of all of them together. -/
lemma Tables.forall_add {names : List String} {tables : Tables} {table : Table}
    (known : ∀ table ∈ tables.toList, table.name ∈ names) (added : table.name ∈ names) :
    ∀ other ∈ (tables.add table).toList, other.name ∈ names := by
  unfold add
  split
  · exact known
  · intro other mem
    rcases List.mem_append.1 mem with mem | mem
    · exact known other mem
    · exact List.mem_singleton.1 mem ▸ added

/-! ## Names of a statement -/

/-- The names of tables that a token may write: a name, as it stands and without quotation marks. -/
def TokenKind.names : TokenKind → List String
  | .identifier name => [name, Text.unquoted name]
  | _ => []

/-- The names by which a statement may consult the configuration: the empty name, and those that its
tokens may write. -/
def Statement.names (text : String) : List String :=
  "" :: (Lexer.tokens text).flatMap (·.kind.names)

/-! ## Preparing a query -/

namespace SelectLevel

variable {level : SelectLevel} {metadata metadata' : TableMetadata}

/-- All tables of a level have names in a list. -/
def TablesIn (names : List String) (level : SelectLevel) : Prop :=
  ∀ table ∈ level.context.tables.toList, table.name ∈ names

variable {names : List String}
  (agree : ∀ name ∈ names, metadata.columns? name = metadata'.columns? name)

include agree

/-- The columns of stars are looked up under the names of the tables. -/
lemma starCovers_congr (inNames : level.TablesIn names) :
    level.starCovers metadata = level.starCovers metadata' := by
  funext name owner
  unfold starCovers
  cases found : level.findTable? owner with
  | none => rfl
  | some table =>
    simp only [Option.any_some, TableMetadata.containsColumn,
      agree table.name (inNames table (Tables.mem_of_find found))]

/-- Whether a column is selected is told by the known columns of the tables. -/
lemma covers_congr (inNames : level.TablesIn names) (item : OrderItem) :
    level.covers metadata item = level.covers metadata' item := by
  have starred : level.coveredByStar metadata item = level.coveredByStar metadata' item := by
    rw [coveredByStar, starCovers_congr agree inNames, coveredByStar]
  rw [covers, covers, starred]

/-- The columns that are derived depend on the known columns of the tables alone. -/
lemma deriveOrder_congr (kind : DerivedColumn) (n : Nat) (items : List OrderItem)
    (inNames : level.TablesIn names) :
    deriveOrder metadata kind n level items = deriveOrder metadata' kind n level items := by
  induction items generalizing n level with
  | nil => rfl
  | cons item items ih =>
    have pushed (name aliasName : String) :
        (level.pushItem (.ofDerived name aliasName)).TablesIn names := inNames
    simp only [deriveOrder, covers_congr agree inNames, ih _ inNames, ih _ (pushed _ _)]

/-- All that is derived for a level depends on the known columns of its tables alone. -/
lemma deriveColumns_congr (inNames : level.TablesIn names) :
    level.deriveColumns metadata = level.deriveColumns metadata' := by
  have ordered : level.orderColumns metadata = level.orderColumns metadata' :=
    deriveOrder_congr agree _ _ _ inNames
  obtain ⟨selected, columns⟩ := level.withOrderColumns_eq metadata'
  have stays : (level.withOrderColumns metadata').TablesIn names := by
    rw [columns]
    exact inNames
  have grouped := deriveOrder_congr agree .groupBy 0 (level.withOrderColumns metadata').shape.groupBy stays
  simp only [withOrderColumns, orderColumns] at ordered grouped
  simp only [deriveColumns, ordered, grouped]

end SelectLevel

/-- Preparing a query consults the known columns of its tables alone. -/
lemma SelectStatement.prepare_congr {statement : SelectStatement} {metadata metadata' : TableMetadata}
    {names : List String} (agree : ∀ name ∈ names, metadata.columns? name = metadata'.columns? name)
    (inNames : statement.toSelectLevel.TablesIn names) :
    statement.prepare metadata = statement.prepare metadata' := by
  rw [prepare, prepare, SelectLevel.deriveColumns_congr agree inNames]

/-! ## Parsers that run alike -/

namespace Parser

variable {α β : Type} {names : List String} {s s' : ParserState}

/-- The names that the tokens left may write, and those of the tables, are in a list. -/
structure Within (names : List String) (s : ParserState) : Prop where
  /-- The names that the tokens left may write. -/
  ahead : ∀ token ∈ s.stream.ahead, ∀ name ∈ token.kind.names, name ∈ names
  /-- The names of the tables. -/
  tables : ∀ table ∈ s.context.tables.toList, table.name ∈ names

/-- A statement is read within its names. -/
lemma within_start (text : String) : Within (Statement.names text) ⟨.ofText text, {}⟩ where
  ahead token mem name isName :=
    List.mem_cons_of_mem _ (List.mem_flatMap.2 ⟨token, mem, isName⟩)
  tables := by simp

/-- The name of the current token is in the list. -/
lemma Within.current (h : Within names s) : ∀ name ∈ s.stream.kind.names, name ∈ names := by
  cases ahead : s.stream.ahead with
  | nil =>
    rw [kind_of_ahead_nil ahead]
    simp [TokenKind.names]
  | cons token rest =>
    rw [kind_of_ahead_cons ahead]
    exact h.ahead token (by rw [ahead]; exact List.mem_cons_self)

/-- Within some names, `p` and `q` run alike; and where they succeed, they stay within the names and
give a value with the property `holds`. -/
def Alike (names : List String) (holds : α → Prop) (p q : Parser α) : Prop :=
  ∀ s, Within names s → p.run s = q.run s ∧
    ∀ a s', p.run s = .ok (a, s') → Within names s' ∧ holds a

namespace Alike

variable {holds : α → Prop} {holds' : β → Prop}

/-- A property of the value may be forgotten. -/
lemma mono {p q : Parser α} {weaker : α → Prop} (h : Alike names holds p q)
    (implies : ∀ a, holds a → weaker a) : Alike names weaker p q := by
  intro s within
  obtain ⟨same, keeps⟩ := h s within
  refine ⟨same, fun a s' success => ?_⟩
  obtain ⟨within', value⟩ := keeps a s' success
  exact ⟨within', implies a value⟩

/-- Giving a value with the property. -/
lemma pure {a : α} (value : holds a) : Alike names holds (pure a) (pure a) := by
  intro s within
  refine ⟨rfl, fun b s' success => ?_⟩
  obtain ⟨rfl, rfl⟩ := run_pure_ok.1 success
  exact ⟨within, value⟩

/-- Sequences run alike if their parts do. -/
lemma bind {p q : Parser α} {f g : α → Parser β} (first : Alike names holds p q)
    (rest : ∀ a, holds a → Alike names holds' (f a) (g a)) :
    Alike names holds' (p >>= f) (q >>= g) := by
  intro s within
  obtain ⟨same, keeps⟩ := first s within
  constructor
  · rw [StateT.run_bind, StateT.run_bind, ← same]
    cases read : p.run s with
    | error error => rfl
    | ok result =>
      obtain ⟨a, s₁⟩ := result
      obtain ⟨within₁, value⟩ := keeps a s₁ read
      exact (rest a value s₁ within₁).1
  · intro b s' success
    obtain ⟨a, s₁, read, last⟩ := run_bind_ok.1 success
    obtain ⟨within₁, value⟩ := keeps a s₁ read
    exact (rest a value s₁ within₁).2 b s' last

/-- Choices run alike if their sides do. -/
lemma ite {c : Prop} [Decidable c] {p p' q q' : Parser α} (hp : Alike names holds p p')
    (hq : Alike names holds q q') :
    Alike names holds (if c then p else q) (if c then p' else q') := by
  split
  · exact hp
  · exact hq

/-- Looking at something that has the property within the names. -/
lemma look {p : Parser α} {value : ParserState → α} (looks : Looks p value)
    (seen : ∀ s, Within names s → holds (value s)) : Alike names holds p p := by
  intro s within
  refine ⟨rfl, fun a s' success => ?_⟩
  rw [looks s] at success
  cases success
  exact ⟨within, seen s within⟩

/-- Looking. -/
lemma looks {p : Parser α} {value : ParserState → α} (looks : Looks p value) :
    Alike names (fun _ => True) p p :=
  look looks fun _ _ => trivial

/-- Looking at the kind of the current token. -/
lemma kind : Alike names (fun kind => ∀ name ∈ kind.names, name ∈ names) kind kind :=
  look looks_kind fun _ within => within.current

/-- Looking at what was collected. -/
lemma context :
    Alike names (fun context => ∀ table ∈ context.tables.toList, table.name ∈ names) context context :=
  look looks_context fun _ within => within.tables

/-- A parser runs like itself if it passes tokens and keeps the tables. -/
lemma runs {p : Parser α} (runs : Runs Context.ConditionsOnly p) :
    Alike names (fun _ => True) p p := by
  intro s within
  refine ⟨rfl, fun a s' success => ⟨?_, trivial⟩⟩
  obtain ⟨tokens, run⟩ := runs.exists_run success
  refine ⟨fun token mem => within.ahead token ?_, ?_⟩
  · rw [run.ahead_eq]
    exact List.mem_append_right _ mem
  · rw [run.tables_eq_of_conditionsOnly]
    exact within.tables

/-- A parser that records edits at most runs like itself. -/
lemma edits {p : Parser α} (runs : Runs Context.EditsOnly p) : Alike names (fun _ => True) p p :=
  .runs (runs.mono conditionsOnly_of_editsOnly)

/-- Failing in the same way. -/
lemma unexpected (expected : Expectation) :
    Alike names holds (Parser.unexpected expected) (Parser.unexpected expected) :=
  fun _ _ => ⟨rfl, fun _ _ success => absurd success run_unexpected_ne⟩

/-- Failing in the same way. -/
lemma unsupported (construct : Construct) (span : Span) :
    Alike names holds (Parser.unsupported construct span) (Parser.unsupported construct span) :=
  fun _ _ => ⟨rfl, fun _ _ success => absurd success run_unsupported_ne⟩

/-- Passing the current token. -/
lemma advance : Alike names (fun _ => True) advance advance := by
  intro s within
  refine ⟨rfl, fun token s' success => ?_⟩
  cases success
  exact ⟨⟨fun token mem => within.ahead token (List.mem_of_mem_tail mem), within.tables⟩, trivial⟩

/-- Changing the context, with no other names of tables. -/
lemma record {change : Context → Context}
    (tables : ∀ context : Context, (∀ table ∈ context.tables.toList, table.name ∈ names) →
      ∀ table ∈ (change context).tables.toList, table.name ∈ names) :
    Alike names (fun _ => True) (modifyContext change) (modifyContext change) := by
  intro s within
  refine ⟨rfl, fun _ s' success => ?_⟩
  cases success
  exact ⟨⟨within.ahead, tables _ within.tables⟩, trivial⟩

/-- Changing the context, but not its tables. -/
lemma recordPlain {change : Context → Context}
    (tables : ∀ context, (change context).tables = context.tables) :
    Alike names (fun _ => True) (modifyContext change) (modifyContext change) :=
  record fun context inNames => tables context ▸ inNames

/-- Recording an edit. -/
lemma addEdit (edit : Edit) : Alike names (fun _ => True) (addEdit edit) (addEdit edit) :=
  recordPlain fun _ => rfl

/-- Counting a placeholder. -/
lemma placeholder : Alike names (fun _ => True) placeholder placeholder := by
  intro s within
  refine ⟨rfl, fun index s' success => ?_⟩
  cases success
  exact ⟨⟨fun token mem => within.ahead token (List.mem_of_mem_tail mem), within.tables⟩, trivial⟩

/-- Passing a group. -/
lemma skipGroup (brackets : Brackets) :
    Alike names (fun _ => True) (skipGroup brackets) (skipGroup brackets) := by
  refine runs fun s _ s' _ success => ?_
  obtain ⟨group, rest, split, rfl⟩ := run_skipGroup_ok.1 success
  exact ⟨group, .single (.group split)⟩

/-- Lists run alike if their items do. -/
lemma commaSeparated {p q : Parser α} (item : Alike names holds p q) :
    Alike names (fun items => ∀ a ∈ items, holds a) (commaSeparated p) (commaSeparated q) := by
  have upTo (n : Nat) : Alike names (fun items => ∀ a ∈ items, holds a)
      (commaSeparatedUpTo p n) (commaSeparatedUpTo q n) := by
    induction n with
    | zero => exact item.bind fun a value => .pure (by simpa using value)
    | succ n ih =>
      refine item.bind fun a value => ?_
      refine (edits (runs_skipSymbol (by decide))).bind fun more _ => .ite ?_ ?_
      · exact ih.bind fun others values => .pure (by simpa using ⟨value, values⟩)
      · exact .pure (by simpa using value)
  exact (looks looks_remaining).bind fun n _ => upTo n

end Alike

end Parser

end SqlRouting
