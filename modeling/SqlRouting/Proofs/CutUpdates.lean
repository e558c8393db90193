import SqlRouting.Proofs.Excision
import SqlRouting.Proofs.Relisting
import SqlRouting.Proofs.Updates
import SqlRouting.Proofs.ValueForms

/-!
# Insertions without their updates

The updates at the end of an insertion are cut off its text. What is left is an insertion of the same rows
into the same columns: in front of the updates it is read as before, and there nothing is known of what
follows. All that the updates add are edits at names within them, and their placeholders.

## Main definitions

* `SqlRouting.Alignment.upTo` — a text beside the same text without a part, up to the part.
* `SqlRouting.InsertStatement.withUpdates` — an insertion with what is recorded of updates.

## Main results

* `SqlRouting.Grammar.InsertSteps.exists_assigned` — without its updates an insertion is read as before.
* `SqlRouting.InsertStatement.updates_cut` — the updates of an accepted insertion can be cut off.
-/

set_option autoImplicit false

namespace SqlRouting

open TokenStream SqlRouting.Parser

/-! ## Up to a part that is cut off -/

/-- Contexts are alike if they are equal. -/
def Likeness.equal : Likeness 0 where
  alike c c' := c' = c
  tables h := congrArg Context.tables h
  parameters h := congrArg Context.parameters h
  addEdit h edit := by rw [Edit.moved_zero, h]
  addConditions h _ := by rw [h]
  addTable h _ := by rw [h]
  passParameters h _ := by rw [h]

namespace Alignment

variable {text short : String} {place d : Nat} {before part after : List Token}

/-- A text beside the same text without a part, up to the part. -/
def upTo (g : Lexer.Grown short text place d before part after) (nonempty : part ≠ []) : Alignment where
  text := text
  other := short
  left := part ++ after.map (Token.moved d)
  right := after
  shift := 0
  within := (· ≤ place)
  slices := fun start stop => (g.slice_before start stop).symm
  ending := fun empty => absurd (List.append_eq_nil_iff.1 empty).1 nonempty
  contexts := .equal

/-- The texts start side by side. -/
lemma beside_upTo (g : Lexer.Grown short text place d before part after) (nonempty : part ≠ []) :
    Beside (Alignment.upTo g nonempty) ⟨.ofText text, {}⟩ ⟨.ofText short, {}⟩ := by
  refine beside_start (Alignment.upTo g nonempty) rfl g.tokens_grown g.tokens (fun token mem => ?_)
    (Nat.zero_le _) rfl
  obtain ⟨proper, stop⟩ := g.before token mem
  exact ⟨Nat.le_trans (Nat.le_of_lt proper) stop, stop⟩

end Alignment

/-- An insertion with updates behind it, of which edits and a number of placeholders are recorded. -/
def InsertStatement.withUpdates (insertion : InsertStatement) (marks : List Edit) (count : Nat) :
    InsertStatement :=
  { insertion with
    context := { insertion.context with
      edits := insertion.context.edits ++ marks
      parameters := insertion.context.parameters + count } }

namespace Grammar

variable {env : Environment} {text short : String} {place d : Nat} {before part after : List Token}
  {insertion : InsertStatement} {last : ParserState}

/-- Two texts part at the word for updates, where the other one ends. -/
structure Ending (al : Alignment) : Prop where
  /-- The one text goes on with the word. -/
  left : firstKind al.left = .keyword .ON
  /-- The other text ends. -/
  right : firstKind al.right = .endOfInput ∨ firstKind al.right = .symbol .semicolon

namespace Ending

variable {al : Alignment}

/-- No expression goes on there. -/
lemma closed (h : Ending al) : Closed al := by
  refine ⟨by simp [h.left, Stops], ?_⟩
  rcases h.right with same | same <;> simp [same, Stops]

/-- No table goes on there. -/
lemma tabled (h : Ending al) : Tabled al := by
  refine ⟨by simp [h.left, EndsTable], ?_⟩
  rcases h.right with same | same <;> simp [same, EndsTable]

/-- No list goes on there. -/
lemma noComma (h : Ending al) : firstKind al.right ≠ .symbol .comma := by
  rcases h.right with same | same <;> simp [same]

/-- The other text goes on with no keyword. -/
lemma noKeyword (h : Ending al) (keywords : List Keyword) :
    (firstKind al.right).isKeywordIn keywords = false := by
  rcases h.right with same | same <;> rw [same] <;> rfl

end Ending

/-- Beside the values of an insertion the same rows and assignments are read in the text without its
updates. -/
lemma InsertSteps.exists_values (steps : InsertSteps env text insertion last)
    (g : Lexer.Grown short text place d before part after) (nonempty : part ≠ [])
    (ending : Ending (Alignment.upTo g nonempty))
    (reaches : (Alignment.upTo g nonempty).left <:+ steps.assigned.stream.ahead) {t : ParserState}
    (beside : Beside (Alignment.upTo g nonempty) steps.valued t) : ∃ listed' assigned',
      (valueRows env.rules steps.target.columns).run t = .ok (steps.rows, listed') ∧
      (Grammar.assignments env steps.tableName).run listed' = .ok (steps.assignment?, assigned') ∧
      Beside (Alignment.upTo g nonempty) steps.assigned assigned' := by
  set al := Alignment.upTo g nonempty
  have rows : Echoes al (List.map (InsertRow.moved al.shift)) (valueRows env.rules steps.target.columns)
      (valueRows env.rules steps.target.columns) :=
    echoes_valueRows ending.closed ending.noComma (ending.noKeyword _) (targetColumns_reads steps.columns).2
  have sets : Echoes al (Option.map (Prod.map id (InsertRow.moved al.shift)))
      (Grammar.assignments env steps.tableName) (Grammar.assignments env steps.tableName) :=
    echoes_assignments ending.closed ending.noComma (ending.noKeyword _)
      fun c c' same => congrArg forgetColumns same
  obtain ⟨listed', values', besideListed⟩ := rows.echo _ _ _ _ trivial beside steps.values
    (reaches.trans (sets.forward _ _ _ steps.assignments))
  obtain ⟨assigned', assignments', besideAssigned⟩ :=
    sets.echo _ _ _ _ trivial besideListed steps.assignments reaches
  -- what is not moved is the same
  have sameRows : steps.rows.map (InsertRow.moved al.shift) = steps.rows := List.map_id _
  have sameSet : steps.assignment?.map (Prod.map id (InsertRow.moved al.shift)) = steps.assignment? :=
    Option.map_id'
  rw [sameRows] at values'
  rw [sameSet] at assignments'
  exact ⟨listed', assigned', values', assignments', besideAssigned⟩

/-- Beside an insertion the text without its updates is read up to them, and the same is collected and
given.

**Proof sketch.** The place where the texts part is not passed in front of the updates. So each part is
read in both texts side by side, and gives the same since the texts do not differ there. -/
lemma InsertSteps.exists_assigned (steps : InsertSteps env text insertion last)
    (g : Lexer.Grown short text place d before part after) (nonempty : part ≠ [])
    (ending : Ending (Alignment.upTo g nonempty))
    (ahead : steps.assigned.stream.ahead = part ++ after.map (Token.moved d))
    (valued : ∃ token rest, steps.valued.stream.ahead = token :: rest ∧
      steps.assigned.stream.ahead <:+ rest) :
    ∃ assigned', assigned'.stream.ahead = after ∧ assigned'.context = steps.assigned.context ∧
      ∀ last', (duplicateKeyUpdate env.rules steps.tableName).run assigned' = .ok ((), last') →
        Nonempty (InsertSteps env short { insertion with context := last'.context } last') := by
  set al := Alignment.upTo g nonempty
  have isLeft : al.left = steps.assigned.stream.ahead := ahead.symm
  have inside : Inside al steps.valued := by rwa [Inside, isLeft]
  have atAssigned : al.left <:+ steps.assigned.stream.ahead := isLeft ▸ List.suffix_refl _
  have atValued : al.left <:+ steps.valued.stream.ahead := by
    obtain ⟨token, rest, whole, behind⟩ := valued
    rw [isLeft, whole]
    exact behind.trans (List.suffix_cons _ _)
  obtain ⟨⟨_, targetRun⟩, -⟩ := targetColumns_reads steps.columns
  -- the parts, one after the other
  obtain ⟨opened', named', word', into', factor', besideNamed⟩ := steps.exists_named ending.tabled
    (Alignment.beside_upTo g nonempty) (atValued.trans (suffix_of_run targetRun))
  have table' : named'.context.tables.firstName?.getD "" = steps.tableName := by
    obtain ⟨_, twin⟩ := besideNamed
    rw [twin.tables]
    rfl
  obtain ⟨valued', columns', besideValued⟩ := exists_targetColumns ending.closed ending.tabled
    ending.noComma besideNamed steps.columns inside
  obtain ⟨_, refused', -⟩ := (echoes_refuseQuery ending.closed ending.tabled).echo _ _ _ _ trivial
    besideValued steps.refused atValued
  obtain rfl := run_refuseQuery_ok refused'
  obtain ⟨listed', assigned', values', assignments', besideAssigned⟩ :=
    steps.exists_values g nonempty ending atAssigned besideValued
  have twin := besideAssigned.twin_nil isLeft.symm
  refine ⟨assigned', twin.ahead', twin.alike, fun last' update' => ⟨?_⟩⟩
  exact
    { opened := opened'
      named := named'
      valued := _
      listed := listed'
      assigned := assigned'
      target := steps.target
      rows := steps.rows
      assignment? := steps.assignment?
      word := word'
      into := into'
      factor := factor'
      columns := table' ▸ columns'
      refused := refused'
      values := values'
      assignments := table' ▸ assignments'
      nonempty := steps.nonempty
      update := table' ▸ update'
      result := congrArg (fun kept : InsertStatement => { kept with context := last'.context })
        steps.result }

/-- An insertion without its updates is accepted, and collects what is collected in front of them. -/
lemma InsertSteps.accepted_without (steps : InsertSteps env text insertion last)
    (g : Lexer.Grown short text place d before part after) (nonempty : part ≠ [])
    (ending : Ending (Alignment.upTo g nonempty))
    (ahead : steps.assigned.stream.ahead = part ++ after.map (Token.moved d))
    (ended : after = [] ∨ ∃ token, after = [token] ∧ token.kind = .symbol .semicolon)
    (valued : ∃ token rest, steps.valued.stream.ahead = token :: rest ∧
      steps.assigned.stream.ahead <:+ rest) :
    Statement.ofText env short = .ok (.insert { insertion with context := steps.assigned.context }) := by
  obtain ⟨assigned', isAfter, same, reads⟩ := steps.exists_assigned g nonempty ending ahead valued
  have absent : assigned'.stream.kind ≠ .keyword .ON := by
    have right : assigned'.stream.kind = firstKind (Alignment.upTo g nonempty).right := by
      rw [kind_eq_firstKind, isAfter]
      rfl
    rw [right]
    rcases ending.right with same | same <;> simp [same]
  obtain ⟨last', finished⟩ := exists_finish (s := assigned') (by rwa [Ended, isAfter])
  obtain ⟨steps'⟩ := reads assigned' (run_duplicateKeyUpdate absent)
  rw [← same]
  exact steps'.accepted finished

/-- All that is recorded of the updates of an insertion are edits at names within them and their
placeholders. -/
lemma InsertSteps.updates_recorded (steps : InsertSteps env text insertion last)
    (ahead : steps.assigned.stream.ahead = part ++ last.stream.ahead) : ∃ marks,
      insertion =
        ({ insertion with context := steps.assigned.context } : InsertStatement).withUpdates marks
          (placeholders part) ∧ ∀ mark ∈ marks, mark.Within part := by
  obtain ⟨marks, edits, within⟩ := duplicateKeyUpdate_edits steps.update ahead
  obtain ⟨tokens, run⟩ := runs_duplicateKeyUpdate.exists_run steps.update
  obtain rfl : part = tokens := List.append_cancel_right (ahead.symm.trans run.ahead_eq)
  refine ⟨marks, ?_, within⟩
  have context : insertion.context =
      { steps.assigned.context with
        edits := steps.assigned.context.edits ++ marks
        parameters := steps.assigned.context.parameters + placeholders part } := by
    rw [steps.context_eq, ← edits, ← run.counts]
    dsimp only
    rw [← run.tables_eq, ← run.conditions_eq_of_editsOnly]
  rw [InsertStatement.withUpdates, ← context]

/-- The updates of an insertion can be cut off its text, and nothing is lost but what is recorded of
them. -/
lemma InsertSteps.exists_short (steps : InsertSteps env text insertion last)
    (valid : ∀ token ∈ Lexer.tokens text, token.kind.isBroken = false) (ended : Ended last)
    {front others : List Token} {on : Token} (isOn : on.kind = .keyword .ON)
    (split : Lexer.tokens text = front ++ (on :: others ++ last.stream.ahead))
    (ahead : steps.assigned.stream.ahead = on :: others ++ last.stream.ahead)
    (valued : ∃ token rest, steps.valued.stream.ahead = token :: rest ∧
      steps.assigned.stream.ahead <:+ rest)
    (ends : Lexer.EndsAt text (on :: others) last.stream.ahead place) : ∃ short marks,
      Statement.ofText env (Text.without text on.span.start place) = .ok (.insert short) ∧
        insertion = short.withUpdates marks (placeholders (on :: others)) ∧
        ∀ mark ∈ marks, mark.Within (on :: others) := by
  have semicolon : ∀ token ∈ last.stream.ahead.head?, token.kind = .symbol .semicolon := by
    rcases ended with noneLeft | ⟨token, left, isSemicolon⟩
    · simp [noneLeft]
    · simpa [left] using isSemicolon
  obtain ⟨d, more, after, leaves, g⟩ := Lexer.grown_of_without split valid semicolon ends
  have ended' : after = [] ∨ ∃ token, after = [token] ∧ token.kind = .symbol .semicolon := by
    rcases leaves with noneLeft | kinds
    · exact .inl noneLeft
    rcases ended with noneLeft | ⟨token, left, isSemicolon⟩
    · exact .inl (by simpa [noneLeft] using kinds)
    · rw [left] at kinds
      obtain ⟨token', rfl, same⟩ := List.map_eq_singleton_iff.1 kinds
      exact .inr ⟨token', rfl, same.trans isSemicolon⟩
  have ending : Ending (Alignment.upTo g (List.cons_ne_nil on more)) := by
    refine ⟨isOn, ?_⟩
    rcases ended' with rfl | ⟨token, rfl, isSemicolon⟩
    · exact .inl rfl
    · exact .inr isSemicolon
  have behind : steps.assigned.stream.ahead = on :: more ++ after.map (Token.moved d) :=
    ahead.trans (List.append_cancel_left (split.symm.trans g.tokens_grown))
  obtain ⟨marks, same, within⟩ := steps.updates_recorded ahead
  exact ⟨_, marks, steps.accepted_without g _ ending behind ended' valued, same, within⟩

/-- In a dialect without words for assignments the values end with a closing parenthesis. -/
lemma ValueSection.exists_closing {table : String} {columns : List Column}
    {front values sets : List Token} {reads : List ReadRow} {settings : List Setting}
    (noWords : env.dialect.insertKeywords = [])
    (read : ValueSection env text table insertion columns front values sets reads settings) :
    ∃ rest closing, values ++ sets = rest ++ [closing] ∧ closing.kind = .symbol .rightParen := by
  obtain ⟨word, isFirst, -⟩ := read.mark
  cases read.setPart with
  | assignments isWord known isList => simp [noWords] at known
  | missing =>
    cases read.rowsPart with
    | missing => cases isFirst
    | @rows word list _ isWord isList =>
      obtain ⟨before, part, _, _, rfl, isRow, -⟩ := isList.exists_last
      cases isRow with
      | @values opening closing inner _ _ _ _ _ closes =>
        exact ⟨word :: before ++ opening :: inner, closing, by simp, closes⟩
      | set isWord known assigned => cases known

end Grammar

/-! ## Accepted insertions -/

namespace InsertStatement

open Grammar

/-- An accepted insertion is read up to its end in its parts: the table, the columns, the values, and the
updates of rows that are already there, if there are any. No sharding column is updated. Where the updates
are cut off the text, it is accepted as well, as an insertion of the same tables, columns, rows, key and
conditions, with the same edits and placeholders, but for edits at names within the updates and the
placeholders there.

**Proof sketch.** The insertion is read in its parts, of which the updates are the last one, so the tokens
of the shorter text are those in front of the word `ON`, with what ends the statement. Two runs, on the text
and on the shorter one, stay beside each other up to there. The updates set no conditions and add no tables,
and each edit that they record is at a name within them. An update of a sharding column is refused where it
is read. -/
theorem updates_cut {env : Environment} {text : String} {insertion : InsertStatement}
    (success : Statement.ofText env text = .ok (.insert insertion)) :
    ∃ head given values sets part behind stop target added reads settings updates,
      Lexer.tokens text = head ++ given ++ (values ++ sets) ++ (part ++ behind) ∧
      HeadTokens text head (insertion.tableName?.getD "") ∧
      TargetRead env text (insertion.tableName?.getD "") (placeholders head) stop given target added ∧
      ValueSection env text (insertion.tableName?.getD "") insertion target.columns (head ++ given) values
        sets reads settings ∧
      UpdatePart env.rules (insertion.tableName?.getD "") text
        (placeholders (head ++ given ++ (values ++ sets))) part updates ∧
      (behind = [] ∨ ∃ token, behind = [token] ∧ token.kind = .symbol .semicolon) ∧
      (∀ column ∈ updates.map (Setting.column (insertion.tableName?.getD "")),
        env.rules.isShardingColumn column.name column.tableName = false) ∧
      ∀ on others place, part = on :: others → Lexer.EndsAt text part behind place →
        ∃ short marks, Statement.ofText env (Text.without text on.span.start place) =
            .ok (.insert short) ∧
          insertion = short.withUpdates marks (placeholders part) ∧ ∀ mark ∈ marks, mark.Within part := by
  obtain ⟨-, -, valid⟩ := insertion_steps success
  obtain ⟨last, _, finished, ⟨_, same, -⟩ | ⟨_, same, inserted⟩⟩ := ofText_reads success
  · cases same
  cases same
  obtain ⟨steps⟩ := insert_steps inserted
  obtain ⟨-, keeps, -⟩ := insert_reads inserted
  have ended := finish_reads keeps finished
  obtain ⟨head, given, values, sets, added, reads, settings, split, valued, isHead, isTarget, read⟩ :=
    steps.section_read
  obtain ⟨part, updates, isPart, run⟩ := duplicateKeyUpdate_read steps.update
  obtain ⟨source, passed, isPassed, counted⟩ := steps.keeps_assigned
  obtain rfl : head ++ given ++ (values ++ sets) = passed :=
    List.append_cancel_right (split.symm.trans isPassed)
  rw [source, counted] at isPart
  have ahead := run.ahead_eq
  rw [ahead] at split
  rw [steps.tableName_eq]
  refine ⟨head, given, values, sets, part, last.stream.ahead, _, _, added, reads, settings, updates, split,
    isHead, isTarget, read, isPart, ended, ?_, ?_⟩
  · exact List.forall_mem_map.2 isPart.noSharding
  · rintro on others place rfl ends
    have isOn : on.kind = .keyword .ON := by
      cases isPart
      assumption
    refine steps.exists_short valid ended isOn split ahead ?_ ends
    obtain ⟨word, isFirst, -⟩ := read.mark
    obtain ⟨rest, whole⟩ := List.head?_eq_some_iff.1 isFirst
    exact ⟨word, rest ++ steps.assigned.stream.ahead, by rw [valued, whole]; rfl, List.suffix_append _ _⟩

/-- The updates of one row are cut off: with them a reference and a placeholder are gone. -/
theorem updates_cut_one : ∃ (env : Environment) (insertion short : InsertStatement) (mark : Edit),
    Statement.ofText env "INSERT INTO t (a, b) VALUES (1, ?) ON DUPLICATE KEY UPDATE b = t.b + ?" =
        .ok (.insert insertion) ∧
      Statement.ofText env "INSERT INTO t (a, b) VALUES (1, ?) " = .ok (.insert short) ∧
      insertion = short.withUpdates [mark] 1 ∧ short.context.conditions = [.equal ⟨"a", "t"⟩ (.number "1")] ∧
      mark = .table ⟨63, 64⟩ "t" "t" := by
  let env : Environment := { rules := ⟨[{ table := "t", shardingColumns := ["a"] }]⟩ }
  let text := "INSERT INTO t (a, b) VALUES (1, ?) ON DUPLICATE KEY UPDATE b = t.b + ?"
  let cut := "INSERT INTO t (a, b) VALUES (1, ?) "
  have seen : (insertion? env text).map (fun insertion =>
      (insertion.context.edits, insertion.context.parameters)) =
      some ([.table ⟨12, 13⟩ "t" "t", .insertValues 21 .values, .table ⟨63, 64⟩ "t" "t"], 2) := by
    decide +kernel
  have seen' : (insertion? env cut).map (fun insertion =>
      (insertion.context.edits, insertion.context.parameters, insertion.context.conditions)) =
      some ([.table ⟨12, 13⟩ "t" "t", .insertValues 21 .values], 1,
        [.equal ⟨"a", "t"⟩ (.number "1")]) := by
    decide +kernel
  obtain ⟨insertion, success, same⟩ := exists_of_insertion seen
  obtain ⟨edits, parameters⟩ := Prod.mk.inj same
  obtain ⟨short, success', same'⟩ := exists_of_insertion seen'
  simp only [Prod.mk.injEq] at same'
  obtain ⟨edits', parameters', conditions'⟩ := same'
  obtain ⟨head, given, values, sets, part, behind, _, _, _, _, _, _, split, -, -, read, isPart, ended, -,
    isCut⟩ := updates_cut success
  have starts : ∀ token ∈ Lexer.tokens text, token.kind = .keyword .ON → token.span.start = 35 := by
    decide +kernel
  have final : ∀ token ∈ (Lexer.tokens text).getLast?, token.kind = .symbol .question := by
    decide +kernel
  cases isPart with
  | missing =>
    -- the text would end with the values or with a semicolon
    rcases ended with rfl | ⟨token, rfl, isSemicolon⟩
    · obtain ⟨rest, closing, whole, closes⟩ := read.exists_closing rfl
      have ends := final closing (by simp [split, whole])
      rw [closes] at ends
      cases ends
    · have ends := final token (by simp [split])
      rw [isSemicolon] at ends
      cases ends
  | @updates on duplicate key word list _ isOn =>
    have start : on.span.start = 35 := starts on (by simp [split]) isOn
    obtain ⟨short', marks, accepted, rest, -⟩ := isCut on _ _ rfl .whole
    have isShort : Text.without text 35 (Text.byteLength text.toList) = cut := by decide +kernel
    rw [start, isShort, success'] at accepted
    obtain rfl : short = short' := by simpa using accepted
    rw [rest] at edits parameters
    obtain rfl : marks = [.table ⟨63, 64⟩ "t" "t"] := by
      have behind : short.context.edits ++ marks = _ := edits
      rw [edits'] at behind
      exact (List.append_right_inj [_, _]).1 behind
    have count : placeholders (on :: duplicate :: key :: word :: list) = 1 := by
      have total : short.context.parameters + _ = 2 := parameters
      omega
    exact ⟨env, insertion, short, _, success, success', count ▸ rest, conditions', rfl⟩

end InsertStatement

end SqlRouting
