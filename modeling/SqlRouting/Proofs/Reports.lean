import Mathlib.Data.List.Nodup
import Mathlib.Data.Option.Basic
import SqlRouting.Report
import SqlRouting.Rule.Configuration
import SqlRouting.Proofs.Inserted
import SqlRouting.Proofs.JsonText

/-!
# Reports are read back

A report is read back part by part: each part is an object whose fields are looked up by their keys, or
an array of parts. This tells everything of a report as long as no key of an object is repeated. The mark
of inserted values repeats the key of its kind, so this fails exactly for the reports on insertions.

## Main definitions

* `SqlRouting.Json.Distinct` — no object in a value repeats a key.
* `SqlRouting.Json.get?` — the value of a field that is given once.
* `SqlRouting.Edit.ofJson?` — the edit that a value tells.
* `SqlRouting.Report.ofJson?` — the report that a value tells.

## Main results

* `SqlRouting.Report.distinct_iff` — a report repeats no key exactly if no values are marked in it.
* `SqlRouting.Report.ofJson?_toJson`, `Report.ofJson?_eq_none` — which reports are recovered from values.
* `SqlRouting.Statement.report_recovered_unless_insertion` — what is read from the report on an accepted
  statement.
* `SqlRouting.Statement.report_of_insertion_repeats` — a report that repeats a key.
-/

set_option autoImplicit false

namespace SqlRouting

/-! ## Keys of objects -/

namespace Json

/-- No object in a value repeats a key. -/
inductive Distinct {τ : Type} : Json τ → Prop
  /-- A missing value. -/
  | null : Distinct .null
  /-- A truth value. -/
  | boolean (value : Bool) : Distinct (.boolean value)
  /-- A number. -/
  | number (literal : String) : Distinct (.number literal)
  /-- A string. -/
  | string (value : τ) : Distinct (.string value)
  /-- An array, if this holds of its elements. -/
  | array {elements : List (Json τ)} (each : ∀ element ∈ elements, Distinct element) :
      Distinct (.array elements)
  /-- An object without repeated keys, if this holds of its values. -/
  | object {fields : List (τ × Json τ)} (keys : (fields.map Prod.fst).Nodup)
      (each : ∀ field ∈ fields, Distinct field.2) : Distinct (.object fields)

section Map

variable {τ σ : Type} {f : τ → σ} {value : Json τ}

/-- The keys of an object with a function applied to its strings. -/
lemma keys_mapFields (fields : List (τ × Json τ)) :
    (mapFields f fields).map Prod.fst = (fields.map Prod.fst).map f := by
  rw [mapFields_eq, List.map_map, List.map_map]
  rfl

/-- Keys that are different stay different, if a function keeps all strings apart. -/
lemma Distinct.map (h : value.Distinct) (injective : Function.Injective f) : (value.map f).Distinct := by
  induction h with
  | null => exact .null
  | boolean value => exact .boolean value
  | number literal => exact .number literal
  | string value => exact .string (f value)
  | array _ ih =>
    rw [Json.map, mapElements_eq]
    exact .array (List.forall_mem_map.2 ih)
  | object keys _ ih =>
    refine .object ?_ ?_
    · rw [keys_mapFields]
      exact keys.map injective
    · rw [mapFields_eq]
      exact List.forall_mem_map.2 ih

/-- Keys that are different behind a function are different before. -/
lemma Distinct.of_map {mapped : Json σ} (h : mapped.Distinct) (same : mapped = value.map f) :
    value.Distinct := by
  -- the value has the constructor of the mapped one, on which the induction is
  induction h generalizing value with
  | array _ ih =>
    cases value with
    | array elements =>
      rw [Json.map, mapElements_eq] at same
      obtain rfl := Json.array.inj same
      exact .array fun element mem => ih _ (List.mem_map_of_mem mem) rfl
    | _ => cases same
  | object keys _ ih =>
    cases value with
    | object fields =>
      rw [Json.map] at same
      obtain rfl := Json.object.inj same
      rw [keys_mapFields] at keys
      refine .object (keys.of_map f) fun field mem => ih (f field.1, field.2.map f) ?_ rfl
      rw [mapFields_eq]
      exact List.mem_map.2 ⟨field, mem, rfl⟩
    | _ => cases same
  | _ =>
    cases value with
    | null => exact .null
    | boolean value => exact .boolean value
    | number literal => exact .number literal
    | string value => exact .string value
    | _ => cases same

end Map

section Parts

variable {τ α : Type} {elements : List (Json τ)} {fields : List (τ × Json τ)} {as : List α}
variable {write : α → Json τ}

/-- No object in an array repeats a key exactly if none in its elements does. -/
@[simp] lemma distinct_array : (array elements).Distinct ↔ ∀ element ∈ elements, element.Distinct :=
  ⟨fun | .array each => each, .array⟩

/-- No object in an object repeats a key exactly if the object does not, and none in its values does. -/
@[simp] lemma distinct_object : (object fields).Distinct ↔
    (fields.map Prod.fst).Nodup ∧ ∀ field ∈ fields, field.2.Distinct :=
  ⟨fun | .object keys each => ⟨keys, each⟩, fun h => .object h.1 h.2⟩

/-- A string has no keys. -/
@[simp] lemma distinct_string (value : τ) : (string value).Distinct :=
  .string value

/-- A number has no keys. -/
@[simp] lemma distinct_ofNat (n : Nat) : (ofNat n : Json τ).Distinct :=
  .number _

/-- No object in the array of some values repeats a key exactly if none in these values does. -/
@[simp] lemma distinct_ofList : (ofList write as).Distinct ↔ ∀ a ∈ as, (write a).Distinct :=
  distinct_array.trans List.forall_mem_map

/-- No object in a value that may be missing repeats a key, if none in any such value does. -/
@[simp] lemma distinct_ofOption {found : Option α} (each : ∀ a, (write a).Distinct) :
    (ofOption write found).Distinct := by
  cases found with
  | none => exact .null
  | some a => exact each a

/-- The numbers of an array are those of its elements. -/
@[simp] lemma proper_array : (array elements).Proper ↔ ∀ element ∈ elements, element.Proper :=
  ⟨fun | .array each => each, .array⟩

/-- The numbers of an object are those of its values. -/
@[simp] lemma proper_object : (object fields).Proper ↔ ∀ field ∈ fields, field.2.Proper :=
  ⟨fun | .object each => each, .object⟩

/-- A string has no numbers. -/
@[simp] lemma proper_string (value : τ) : (string value).Proper :=
  .string value

/-- A number is written by a numeral. -/
@[simp] lemma proper_ofNat (n : Nat) : (ofNat n : Json τ).Proper :=
  .numeral n

/-- The numbers of the array of some values are those of these values. -/
@[simp] lemma proper_ofList : (ofList write as).Proper ↔ ∀ a ∈ as, (write a).Proper :=
  proper_array.trans List.forall_mem_map

/-- The numbers of a value that may be missing are numerals, if those of any such value are. -/
@[simp] lemma proper_ofOption {found : Option α} (each : ∀ a, (write a).Proper) :
    (ofOption write found).Proper := by
  cases found with
  | none => exact .null
  | some a => exact each a

end Parts

/-! ## Looking into a value -/

/-- The value of the field `name` of an object, if it is given once. -/
def get? (name : String) : Read → Option Read
  | .object fields => (RuleConfiguration.field? fields name).join
  | _ => none

/-- The number that a numeral writes. -/
def nat? : Read → Option Nat
  | .number literal => Text.decimal? literal
  | _ => none

/-- What `read` makes of the elements of an array. -/
def list? {α : Type} (read : Read → Option α) : Read → Option (List α)
  | .array elements => elements.mapM read
  | _ => none

end Json

open Json (Read get? nat? list? mapElements mapElements_eq)
open RuleConfiguration (text? texts? optionalText?)

/-! ## Reading reports -/

/-- The table that a value tells. -/
def Table.ofJson? (value : Read) : Option Table := do
  return ⟨← text? (← get? "name" value), ← optionalText? (← get? "alias" value)⟩

/-- The column that a value tells. -/
def Column.ofJson? (value : Read) : Option Column := do
  return ⟨← text? (← get? "name" value), ← text? (← get? "table_name" value)⟩

/-- The value of a condition that a value tells under the name of its kind. -/
def RoutingValue.ofJson? : Read → Option RoutingValue
  | .object [(some "number", value)] => (text? value).map .number
  | .object [(some "text", value)] => (text? value).map .text
  | .object [(some "placeholder", value)] => (nat? value).map .placeholder
  | _ => none

/-- How a condition restricts its column, by its word. -/
def ConditionOperator.ofWord? : String → Option ConditionOperator
  | "equal" => some .equal
  | "in" => some .within
  | "between" => some .between
  | _ => none

/-- The condition that a value tells. -/
def RouteCondition.ofJson? (value : Read) : Option RouteCondition := do
  return {
    column := ← Column.ofJson? (← get? "column" value)
    operator := ← ConditionOperator.ofWord? (← text? (← get? "operator" value))
    values := ← list? RoutingValue.ofJson? (← get? "values" value) }

/-- The span that a value tells. -/
def Span.ofJson? (value : Read) : Option Span := do
  return ⟨← nat? (← get? "start" value), ← nat? (← get? "end" value)⟩

/-- The form of inserted values, by its word. -/
def InsertForm.ofWord? : String → Option InsertForm
  | "values" => some .values
  | "set" => some .set
  | _ => none

/-- The edit that a value tells: the kind comes first, and says which fields there are. -/
def Edit.ofJson? (value : Read) : Option Edit := do
  match ← text? (← get? "kind" value) with
  | "table" =>
    return .table (← Span.ofJson? (← get? "span" value)) (← text? (← get? "table_name" value))
      (← text? (← get? "original_literals" value))
  | "items" =>
    return .items (← nat? (← get? "start_index" value)) (← texts? (← get? "items" value))
  | "order_by" =>
    return .orderBy (← nat? (← get? "start_index" value)) (← texts? (← get? "items" value))
  | "offset" =>
    return .offset (← Span.ofJson? (← get? "span" value)) (← nat? (← get? "offset" value))
  | "row_count" =>
    return .rowCount (← Span.ofJson? (← get? "span" value)) (← nat? (← get? "row_count" value))
  | "insert_column" =>
    return .insertColumns (← nat? (← get? "start_index" value)) (← texts? (← get? "columns" value))
  -- no report gets here: where this kind is written, the key is there twice
  | "insert_values" =>
    return .insertValues (← nat? (← get? "start_index" value))
      (← InsertForm.ofWord? (← text? (← get? "kind" value)))
  | _ => none

/-- The report that a value tells. -/
def Report.ofJson? (value : Read) : Option Report := do
  return {
    statement := ← text? (← get? "statement" value)
    tables := ⟨← list? Table.ofJson? (← get? "tables" value)⟩
    conditions := ← list? RouteCondition.ofJson? (← get? "route_conditions" value)
    edits := ← list? Edit.ofJson? (← get? "tokens" value)
    parameters := ← nat? (← get? "parameters_count" value)
    edited := ← text? (← get? "rewritten_sql" value) }

/-! ## What is recovered -/

namespace Json

/-- A number is recovered from its numeral. -/
lemma nat?_ofNat (n : Nat) : nat? ((ofNat n).map some) = some n :=
  Text.decimal?_toString n

/-- A list is recovered from the array of its values, if each of its elements is from its own. -/
lemma list?_ofList {α : Type} {read : Read → Option α} {write : α → Json String} {as : List α}
    (each : ∀ a ∈ as, read ((write a).map some) = some a) :
    list? read ((ofList write as).map some) = some as := by
  show (mapElements some (as.map write)).mapM read = some as
  rw [mapElements_eq, List.map_map]
  induction as with
  | nil => rfl
  | cons a as ih =>
    obtain ⟨first, others⟩ := List.forall_mem_cons.1 each
    rw [List.map_cons, List.mapM_cons, ih others, Function.comp_apply, first]
    rfl

/-- An array of which one element is not understood is not understood. -/
lemma list?_eq_none {α : Type} {read : Read → Option α} {elements : List Read}
    (fails : ∃ element ∈ elements, read element = none) : list? read (.array elements) = none := by
  show elements.mapM read = none
  induction elements with
  | nil => simp at fails
  | cons first others ih =>
    rw [List.mapM_cons]
    cases told : read first with
    | none => rfl
    | some a =>
      rw [List.exists_mem_cons_iff, told] at fails
      rw [ih (fails.resolve_left (by simp))]
      rfl

/-- Texts are recovered from the array of them. -/
lemma texts?_ofTexts (texts : List String) : texts? ((ofTexts texts).map some) = some texts :=
  list?_ofList fun _ _ => rfl

end Json

/-- A span is recovered from its value. -/
lemma Span.ofJson?_toJson (span : Span) : Span.ofJson? (span.toJson.map some) = some span := by
  simp [Span.ofJson?, Span.toJson, Json.map, Json.mapFields, get?, RuleConfiguration.field?, Json.nat?_ofNat]

/-- A table is recovered from its value. -/
lemma Table.ofJson?_toJson (table : Table) : Table.ofJson? (table.toJson.map some) = some table := by
  rcases table with ⟨name, _ | aliasName⟩ <;>
  simp [Table.ofJson?, Table.toJson, Json.map, Json.mapFields, get?, RuleConfiguration.field?, text?,
    optionalText?, Json.ofOption]

/-- A column is recovered from its value. -/
lemma Column.ofJson?_toJson (column : Column) : Column.ofJson? (column.toJson.map some) = some column := by
  simp [Column.ofJson?, Column.toJson, Json.map, Json.mapFields, get?, RuleConfiguration.field?, text?]

/-- A value of a condition is recovered from its value. -/
lemma RoutingValue.ofJson?_toJson (value : RoutingValue) :
    RoutingValue.ofJson? (value.toJson.map some) = some value := by
  cases value with
  | number | text => rfl
  | placeholder index =>
    show (nat? ((Json.ofNat index).map some)).map RoutingValue.placeholder = _
    rw [Json.nat?_ofNat, Option.map_some]

/-- A condition is recovered from its value. -/
lemma RouteCondition.ofJson?_toJson (condition : RouteCondition) :
    RouteCondition.ofJson? (condition.toJson.map some) = some condition := by
  have word (operator : ConditionOperator) : ConditionOperator.ofWord? operator.word = some operator := by
    cases operator <;> rfl
  have values : list? RoutingValue.ofJson? ((Json.ofList RoutingValue.toJson condition.values).map some) =
      some condition.values := Json.list?_ofList fun value _ => value.ofJson?_toJson
  simp [RouteCondition.ofJson?, RouteCondition.toJson, Json.map, Json.mapFields, get?,
    RuleConfiguration.field?, text?, word, values, Column.ofJson?_toJson]

/-- An edit is recovered from its value if it is not the mark of inserted values. -/
lemma Edit.ofJson?_toJson {edit : Edit} (noValues : edit.kind ≠ .insertValues) :
    Edit.ofJson? (edit.toJson.map some) = some edit := by
  cases edit with
  | insertValues => exact absurd rfl noValues
  | _ =>
    simp [Edit.ofJson?, Edit.toJson, Edit.fields, Edit.kind, EditKind.word, Json.map, Json.mapFields, get?,
      RuleConfiguration.field?, text?, Span.ofJson?_toJson, Json.nat?_ofNat, Json.texts?_ofTexts]

/-- The mark of inserted values is not recovered from its value, in which a key is repeated. -/
lemma Edit.ofJson?_insertValues (start : Nat) (form : InsertForm) :
    Edit.ofJson? ((Edit.insertValues start form).toJson.map some) = none := by
  simp [Edit.ofJson?, Edit.toJson, Edit.fields, Edit.kind, Json.map, Json.mapFields, get?,
    RuleConfiguration.field?]

namespace Report

variable {report : Report}

/-- A report is recovered from its value if it has no mark of inserted values. -/
lemma ofJson?_toJson (noValues : ∀ edit ∈ report.edits, edit.kind ≠ .insertValues) :
    ofJson? (report.toJson.map some) = some report := by
  have tables : list? Table.ofJson? ((Json.ofList Table.toJson report.tables.toList).map some) =
      some report.tables.toList := Json.list?_ofList fun table _ => table.ofJson?_toJson
  have conditions :
      list? RouteCondition.ofJson? ((Json.ofList RouteCondition.toJson report.conditions).map some) =
        some report.conditions := Json.list?_ofList fun condition _ => condition.ofJson?_toJson
  have edits : list? Edit.ofJson? ((Json.ofList Edit.toJson report.edits).map some) = some report.edits :=
    Json.list?_ofList fun edit mem => Edit.ofJson?_toJson (noValues edit mem)
  simp [ofJson?, toJson, Json.map, Json.mapFields, get?, RuleConfiguration.field?, text?, tables, conditions,
    edits, Json.nat?_ofNat]

/-- A report with a mark of inserted values is not recovered from its value. -/
lemma ofJson?_eq_none (marked : ∃ edit ∈ report.edits, edit.kind = .insertValues) :
    ofJson? (report.toJson.map some) = none := by
  have fails : list? Edit.ofJson? (.array (mapElements some (report.edits.map Edit.toJson))) = none := by
    obtain ⟨edit, mem, isMark⟩ := marked
    refine Json.list?_eq_none ⟨edit.toJson.map some, ?_, ?_⟩
    · rw [mapElements_eq, List.map_map]
      exact List.mem_map.2 ⟨edit, mem, rfl⟩
    · cases edit with
      | insertValues start form => exact Edit.ofJson?_insertValues start form
      | _ => cases isMark
  simp [ofJson?, toJson, Json.map, Json.mapFields, get?, RuleConfiguration.field?, Json.ofList, fails]

/-- All numbers of a report are numerals. -/
lemma proper_toJson (report : Report) : report.toJson.Proper := by
  have edits (edit : Edit) : edit.toJson.Proper := by
    cases edit <;> simp [Edit.toJson, Edit.fields, Span.toJson, Json.ofTexts]
  have values (value : RoutingValue) : value.toJson.Proper := by
    cases value <;> simp [RoutingValue.toJson]
  simp [toJson, Table.toJson, RouteCondition.toJson, Column.toJson, edits, values]

/-- No key is repeated in a report if and only if it has no mark of inserted values. -/
lemma distinct_iff : report.toJson.Distinct ↔ ∀ edit ∈ report.edits, edit.kind ≠ .insertValues := by
  have edits (edit : Edit) : edit.toJson.Distinct ↔ edit.kind ≠ .insertValues := by
    cases edit <;> simp [Edit.toJson, Edit.fields, Edit.kind, Span.toJson, Json.ofTexts]
  have values (value : RoutingValue) : value.toJson.Distinct := by
    cases value <;> simp [RoutingValue.toJson]
  simp [toJson, Table.toJson, RouteCondition.toJson, Column.toJson, edits, values]

end Report

/-! ## Marks of inserted values -/

namespace Grammar

open SqlRouting.Parser

variable {env : Environment} {text : String}

/-- No edit of an accepted query marks inserted values. -/
lemma noValues_of_query {query : SelectStatement}
    (success : Statement.ofText env text = .ok (.select query)) :
    ∀ edit ∈ query.context.edits, edit.kind ≠ .insertValues := by
  obtain ⟨s, s', -, ⟨_, same, selected⟩ | ⟨_, same, -⟩⟩ := ofText_reads success
  · cases same
    obtain ⟨whole, s₁, read, merged⟩ := run_bind_ok.1 selected
    obtain ⟨prepared, rfl⟩ := run_lift_ok.1 merged
    obtain ⟨fragments, orders, -, edits, isOrder⟩ := SelectStatement.prepare_edits prepared
    rw [edits]
    intro edit mem isMark
    rcases List.mem_append.1 mem with mem | mem
    · rcases List.mem_append.1 mem with mem | mem
      · have added : edit ∈ Edit.additions whole.merge.context.edits :=
          List.mem_filter.2 ⟨mem, by rw [isMark]; rfl⟩
        rw [SelectStatement.additions_merge read] at added
        cases added
      · split at mem
        · cases mem
        · obtain rfl := List.mem_singleton.1 mem
          cases isMark
    · rcases isOrder with rfl | ⟨stop, -, rfl⟩
      · cases mem
      · obtain rfl := List.mem_singleton.1 mem
        cases isMark
  · cases same

/-- An edit of an accepted insertion marks its values. -/
lemma marked_of_insertion {insertion : InsertStatement}
    (success : Statement.ofText env text = .ok (.insert insertion)) :
    ∃ edit ∈ insertion.context.edits, edit.kind = .insertValues := by
  obtain ⟨last, ⟨steps⟩, -⟩ := insertion_steps success
  obtain ⟨tokens, added, -, -, additions⟩ := steps.additions_eq
  have mark : ∃ form, .insertValues steps.place form ∈ Edit.additions insertion.context.edits := by
    rw [additions]
    split
    · exact ⟨.set, List.mem_singleton_self _⟩
    · exact ⟨.values, by simp⟩
  obtain ⟨form, mem⟩ := mark
  exact ⟨_, (List.mem_filter.1 mem).1, rfl⟩

end Grammar

/-! ## Reports on statements -/

namespace Statement

variable {env : Environment} {text : String} {statement : Statement}

/-- The report on an accepted statement is read as a value, and each edit is recovered from its element,
but for the mark of inserted values. So the whole report on a query is recovered, and no object in it
repeats a key; in the report on an insertion an object does, and this report is not recovered.

**Proof sketch.** What is written is read back as the value that was written, whether compact or pretty,
since every string is escaped and every number has its digits. From the value each part of the report is
read on its own, and put together again. The mark of inserted values is the one object with a key twice; a
query records none, and an insertion records one. -/
theorem report_recovered_unless_insertion (success : ofText env text = .ok statement) : ∃ value elements,
    Json.read? (Report.ofStatement text statement).toJson.compact = some value ∧
    Json.read? (Report.ofStatement text statement).toJson.pretty = some value ∧
    get? "tokens" value = some (.array elements) ∧
    elements.map Edit.ofJson? = statement.context.edits.map (fun edit =>
      if edit.kind = .insertValues then none else some edit) ∧
    match statement with
    | .select _ => value.Distinct ∧ Report.ofJson? value = some (Report.ofStatement text statement)
    | .insert _ => ¬ value.Distinct ∧ Report.ofJson? value = none := by
  have proper := Report.proper_toJson (Report.ofStatement text statement)
  refine ⟨_, _, Json.read?_compact proper, Json.read?_pretty proper, rfl, ?_, ?_⟩
  · rw [mapElements_eq, List.map_map, List.map_map]
    refine List.map_congr_left fun edit _ => ?_
    split
    · cases edit with
      | insertValues start form => exact Edit.ofJson?_insertValues start form
      | _ => contradiction
    · rename_i noValues
      exact Edit.ofJson?_toJson noValues
  · cases statement with
    | select query =>
      have noValues := Grammar.noValues_of_query success
      exact ⟨(Report.distinct_iff.2 noValues).map (Option.some_injective _), Report.ofJson?_toJson noValues⟩
    | insert insertion =>
      obtain ⟨edit, mem, isMark⟩ := Grammar.marked_of_insertion success
      -- keys that are apart when they are read were apart when they were written
      refine ⟨fun distinct => ?_, Report.ofJson?_eq_none ⟨edit, mem, isMark⟩⟩
      exact Report.distinct_iff.1 (distinct.of_map rfl) edit mem isMark

/-- The report on a query with a quotation mark among its values is recovered. -/
theorem report_recovered_quoted : ∃ env query value,
    ofText env "SELECT b FROM t x WHERE a = '\"' LIMIT 5" = .ok (.select query) ∧
    Json.read? (Report.ofStatement "SELECT b FROM t x WHERE a = '\"' LIMIT 5"
      (.select query)).toJson.compact = some value ∧
    value.Distinct ∧
    Report.ofJson? value = some {
      statement := "select"
      tables := ⟨[⟨"t", some "x"⟩]⟩
      conditions := [⟨⟨"a", "t"⟩, .equal, [.text "\""]⟩]
      edits := [.table ⟨14, 15⟩ "t" "t", .rowCount ⟨38, 39⟩ 5]
      parameters := 0
      edited := "SELECT b FROM t x WHERE a = '\"' LIMIT 5" } := by
  let env : Environment := { rules := ⟨[{ table := "t", shardingColumns := ["a"] }]⟩ }
  let text := "SELECT b FROM t x WHERE a = '\"' LIMIT 5"
  have seen : (Grammar.query? env text).map (fun query => Report.ofStatement text (.select query)) = some {
      statement := "select"
      tables := ⟨[⟨"t", some "x"⟩]⟩
      conditions := [⟨⟨"a", "t"⟩, .equal, [.text "\""]⟩]
      edits := [.table ⟨14, 15⟩ "t" "t", .rowCount ⟨38, 39⟩ 5]
      parameters := 0
      edited := text } := by decide +kernel
  obtain ⟨query, success, same⟩ := Grammar.exists_of_query seen
  obtain ⟨value, _, read, -, -, -, distinct, recovered⟩ := report_recovered_unless_insertion success
  exact ⟨env, query, value, success, read, distinct, recovered.trans (congrArg some same)⟩

/-- In the report on an insertion the mark of its values has two kinds. -/
theorem report_of_insertion_repeats : ∃ env insertion value,
    ofText env "INSERT INTO t (a) VALUES (1)" = .ok (.insert insertion) ∧
    insertion.context.edits = [.table ⟨12, 13⟩ "t" "t", .insertValues 18 .values] ∧
    (Edit.insertValues 18 .values).toJson.compact =
      "\x7b\"kind\":\"insert_values\",\"start_index\":18,\"kind\":\"values\"\x7d" ∧
    Json.read? (Report.ofStatement "INSERT INTO t (a) VALUES (1)" (.insert insertion)).toJson.compact =
      some value ∧
    ¬ value.Distinct := by
  have seen : (Grammar.insertion? {} "INSERT INTO t (a) VALUES (1)").map (·.context.edits) =
      some [.table ⟨12, 13⟩ "t" "t", .insertValues 18 .values] := by decide +kernel
  obtain ⟨insertion, success, same⟩ := Grammar.exists_of_insertion seen
  have mem : Edit.insertValues 18 .values ∈ insertion.context.edits := by simp [same]
  refine ⟨{}, insertion, _, success, same, by decide +kernel, Json.read?_compact (Report.proper_toJson _),
    fun distinct => ?_⟩
  exact Report.distinct_iff.1 (distinct.of_map rfl) _ mem rfl

end Statement

end SqlRouting
