import SqlRouting.Proofs.Assignments

/-!
# Updates of rows that are already there

Behind its values an insertion may say how to update rows that are already there. No sharding column is
updated, so the rows stay where they are. The updates set no condition: all that is recorded of them are
edits at the owners of their references.

## Main definitions

* `SqlRouting.Grammar.UpdatePart` — the tokens that write the updates.
* `SqlRouting.AddsNames` — only edits at names are recorded between two states.

## Main results

* `SqlRouting.Grammar.duplicateKeyUpdate_read` — the tokens that the updates of an insertion are read
  from.
* `SqlRouting.Grammar.duplicateKeyUpdate_edits` — what is recorded of them.
-/

set_option autoImplicit false

namespace SqlRouting

open TokenStream SqlRouting.Parser

/-! ## Edits at names alone -/

/-- Only edits at the names of tables are recorded between two states. -/
def AddsNames (s s' : ParserState) : Prop :=
  ∃ marks, s'.context.edits = s.context.edits ++ marks ∧ Edit.atNames marks = marks

/-- Where no edit is recorded, only edits at names are. -/
lemma addsNames_of_eq {s s' : ParserState} (same : s'.context.edits = s.context.edits) :
    AddsNames s s' :=
  ⟨[], same.trans (List.append_nil _).symm, rfl⟩

instance : Passing AddsNames where
  refl _ := addsNames_of_eq rfl
  trans := by
    rintro s s₁ s' ⟨marks, first, names⟩ ⟨more, second, names'⟩
    refine ⟨marks ++ more, ?_, ?_⟩
    · rw [second, first, List.append_assoc]
    · rw [Edit.atNames_append, names, names']
  token _ _ _ := addsNames_of_eq rfl
  group _ _ _ := addsNames_of_eq rfl
  record same := addsNames_of_eq same

instance (rules : ShardingRule) : Referring rules AddsNames where
  reference := by
    intro s s' owner _ _ _ _ recorded
    unfold Grammar.recordOwner at recorded
    split at recorded
    · cases recorded
      exact ⟨[_], rfl, rfl⟩
    · obtain ⟨-, rfl⟩ := run_pure_ok.1 recorded
      exact addsNames_of_eq rfl

namespace Grammar

variable {env : Environment} {rules : ShardingRule} {text table : String} {s s' : ParserState}

/-! ## The updates -/

/-- The tokens write the update of a column of `table` that is no sharding column, where `index`
placeholders come before them. -/
structure UpdateTokens (rules : ShardingRule) (table source : String) (index : Nat) (tokens : List Token)
    (setting : Setting) : Prop where
  /-- The tokens write an assignment. -/
  written : SettingTokens source index tokens setting
  /-- The column that is assigned to is no sharding column. -/
  noSharding : rules.isShardingColumn (setting.column table).name (setting.column table).tableName = false

/-- The tokens write updates of columns of `table` behind the words for them, or nothing, where `index`
placeholders come before them. -/
inductive UpdatePart (rules : ShardingRule) (table source : String) (index : Nat) :
    List Token → List Setting → Prop
  /-- Nothing. -/
  | missing : UpdatePart rules table source index [] []
  /-- The words with updates behind them. -/
  | updates {on duplicate key word : Token} {list : List Token} {settings : List Setting}
      (isOn : on.kind = .keyword .ON) (isDuplicate : duplicate.kind = .keyword .DUPLICATE)
      (isKey : key.kind = .keyword .KEY) (isWord : word.kind = .keyword .UPDATE)
      (isList : Separated (UpdateTokens rules table source) index list settings) :
      UpdatePart rules table source index (on :: duplicate :: key :: word :: list) settings

/-- No sharding column is updated. -/
lemma UpdatePart.noSharding {index : Nat} {tokens : List Token} {settings : List Setting}
    (part : UpdatePart rules table text index tokens settings) : ∀ setting ∈ settings,
      rules.isShardingColumn (setting.column table).name (setting.column table).tableName = false := by
  cases part with
  | missing => simp
  | updates isOn isDuplicate isKey isWord isList =>
    intro setting mem
    obtain ⟨_, _, _, -, isUpdate⟩ := isList.located setting mem
    exact isUpdate.noSharding

/-- An update is written by its tokens, and sets no condition. -/
lemma lists_update : Lists (update rules table) (fun source => UpdateTokens rules table source)
    (fun _ => ()) fun _ => [] := by
  intro s _ s' success
  obtain ⟨target, s₁, targetRead, rest⟩ := run_bind_ok.1 success
  obtain ⟨column, _, named, rest⟩ := run_bind_ok.1 rest
  obtain ⟨names, rfl⟩ := run_lift_ok.1 named
  obtain ⟨left, name, isName, rfl, run⟩ := exists_name targetRead names
  split at rest
  · obtain ⟨_, _, refused, -⟩ := run_bind_ok.1 rest
    exact absurd refused run_unsupported_ne
  · rename_i noSharding
    obtain ⟨sign, s₂, accepted, rest⟩ := run_bind_ok.1 rest
    obtain ⟨isSign, rfl, rfl⟩ := run_acceptSymbol_ok.1 accepted
    obtain ⟨expression, s₃, valueRead, rest⟩ := run_bind_ok.1 rest
    obtain ⟨-, rfl⟩ := run_pure_ok.1 rest
    obtain ⟨right, value, isValue, rfl, run', kept⟩ := lists_expression _ _ _ valueRead
    have first : Run Context.EditsOnly s _ s₁.advance := run.trans (run_token isSign)
    have counted : s₁.advance.context.parameters = s.context.parameters + placeholders left :=
      run.counts
    rw [first.source_eq, counted] at isValue
    refine ⟨_, ⟨name, value⟩, ⟨.intro isName rfl isValue, Bool.eq_false_iff.2 noSharding⟩, rfl,
      (run.mono conditionsOnly_of_editsOnly).trans ((run_token isSign).trans run'), ?_⟩
    rw [kept]
    exact congrArg (· ++ []) run.conditions_eq_of_editsOnly

/-- Updates are written by their tokens, if there are any. -/
lemma duplicateKeyUpdate_read {result : Unit}
    (success : (duplicateKeyUpdate rules table).run s = .ok (result, s')) : ∃ tokens settings,
      UpdatePart rules table s.stream.source s.context.parameters tokens settings ∧
        Run Context.ConditionsOnly s tokens s' := by
  rw [duplicateKeyUpdate, run_skipKeyword_bind] at success
  split at success
  · rename_i present
    obtain ⟨keyword, known, isOn⟩ := checkAnyKeyword_iff.1 present
    obtain rfl := List.mem_singleton.1 known
    rw [if_pos rfl] at success
    obtain ⟨_, _, accepted, rest⟩ := run_bind_ok.1 success
    obtain ⟨isDuplicate, rfl, rfl⟩ := run_acceptKeyword_ok.1 accepted
    obtain ⟨_, _, accepted, rest⟩ := run_bind_ok.1 rest
    obtain ⟨isKey, rfl, rfl⟩ := run_acceptKeyword_ok.1 accepted
    obtain ⟨_, _, accepted, rest⟩ := run_bind_ok.1 rest
    obtain ⟨isWord, rfl, rfl⟩ := run_acceptKeyword_ok.1 accepted
    obtain ⟨_, _, listed, rest⟩ := run_bind_ok.1 rest
    obtain ⟨-, rfl⟩ := run_pure_ok.1 rest
    obtain ⟨list, settings, isList, -, run, -⟩ := lists_update.commaSeparated _ _ _ listed
    refine ⟨_, settings, ?_, (run_token isOn).trans ((run_token isDuplicate).trans
      ((run_token isKey).trans ((run_token isWord).trans run)))⟩
    exact .updates rfl rfl rfl rfl isList
  · obtain ⟨-, rfl⟩ := run_pure_ok.1 success
    exact ⟨[], [], .missing, .refl _⟩

/-- Without the word for updates nothing is read of them. -/
lemma run_duplicateKeyUpdate (absent : s.stream.kind ≠ .keyword .ON) :
    (duplicateKeyUpdate rules table).run s = .ok ((), s) := by
  have noWord : ¬ s.stream.checkAnyKeyword [.ON] = true := by
    rw [checkAnyKeyword_iff]
    rintro ⟨keyword, known, same⟩
    exact absent (List.mem_singleton.1 known ▸ same)
  rw [duplicateKeyUpdate, run_skipKeyword_bind, if_neg noWord]
  rfl

/-- What is recorded of updates are edits at names within their tokens. -/
lemma duplicateKeyUpdate_edits {result : Unit} {tokens : List Token}
    (success : (duplicateKeyUpdate rules table).run s = .ok (result, s'))
    (ahead : s.stream.ahead = tokens ++ s'.stream.ahead) : ∃ marks,
      s'.context.edits = s.context.edits ++ marks ∧ ∀ mark ∈ marks, mark.Within tokens := by
  obtain ⟨passages, trail⟩ :=
    (leads_duplicateKeyUpdate (leads_expression (R := Follows rules))).related success
  obtain ⟨marks, edits, names⟩ :=
    (leads_duplicateKeyUpdate (leads_expression (R := AddsNames))).related success
  refine ⟨marks, edits, fun mark mem => ?_⟩
  -- the edits at names are those of the passages
  have isMarks : marks = passages.flatMap (Passage.edits rules s.stream.source) := by
    have atNames := trail.names
    rw [edits, Edit.atNames_append, names] at atNames
    exact List.append_cancel_left atNames
  obtain rfl : passages.flatMap Passage.tokens = tokens :=
    List.append_cancel_right (trail.ahead.symm.trans ahead)
  rw [isMarks] at mem
  obtain ⟨passage, isPassage, mem⟩ := List.mem_flatMap.1 mem
  obtain ⟨span, name, written, rfl, ⟨first, isFirst, start⟩, last, isLast, stop⟩ :=
    Passage.mem_edits mem
  exact ⟨span, name, written, rfl, ⟨first, List.mem_flatMap.2 ⟨passage, isPassage, isFirst⟩, start⟩,
    last, List.mem_flatMap.2 ⟨passage, isPassage, isLast⟩, stop⟩

end Grammar

end SqlRouting
