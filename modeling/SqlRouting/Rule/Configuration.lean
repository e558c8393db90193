import SqlRouting.Json.Reader
import SqlRouting.Rule.Basic
import SqlRouting.Rule.Metadata

/-!
# Rule documents

Rules are configured by a JSON document with an object for each table. Either object may be given
as an array of its fields in their order, where fields at the end may be left out. Fields that are
not known are ignored; a known field is given at most once.

## Main definitions

* `SqlRouting.TableConfiguration` — what is configured for one table.
* `SqlRouting.RuleConfiguration` — what is configured for all tables.
* `SqlRouting.RuleConfiguration.ofText` — the configuration that a document gives.
* `SqlRouting.RuleConfiguration.build` — the rules and known columns of a configuration.
-/

set_option autoImplicit false

namespace SqlRouting

/-! ## Configurations -/

/-- What is configured for one table. -/
structure TableConfiguration where
  /-- The name of the table. -/
  name : String
  /-- The columns whose values select the shard. -/
  shardingColumns : List String := []
  /-- The expression that computes the shard. -/
  algorithmExpression : Option String := none
  /-- The column that is filled with a generated key. -/
  generateKeyColumn : Option String := none
  /-- The known columns in order of declaration. -/
  columns : List String := []
deriving DecidableEq, Repr

/-- What is configured for all tables. -/
structure RuleConfiguration where
  /-- The configurations of the tables. -/
  tables : List TableConfiguration := []
deriving DecidableEq, Repr

/-- Why there are no rules. -/
inductive RuleError
  /-- The document is not a configuration. -/
  | malformed
  /-- A table is configured a second time. -/
  | duplicateTable (name : String)
deriving DecidableEq, Repr

/-- An error in words. -/
def RuleError.message : RuleError → String
  | .malformed => "Invalid rule configuration: the document is malformed"
  | .duplicateTable name => "Table '" ++ name ++ "' is configured more than once"

/-! ## Reading a document -/

namespace RuleConfiguration

open Json (Read)

/-- The text of a string. -/
def text? : Read → Option String
  | .string text => text
  | _ => none

/-- The texts of an array of strings. -/
def texts? : Read → Option (List String)
  | .array elements => elements.mapM text?
  | _ => none

/-- The text of a string, or nothing for the null value. -/
def optionalText? : Read → Option (Option String)
  | .null => some none
  | value => (text? value).map some

/-- The value of the field `name`, if there is one; `none` if it is given twice. -/
def field? (fields : List (Option String × Read)) (name : String) : Option (Option Read) :=
  match fields.filter (·.1 == some name) with
  | [] => some none
  | [(_, value)] => some (some value)
  | _ => none

/-- The values of the fields `names` of an object, or of an array in their place. -/
def fields? (names : List String) : Read → Option (List (Option Read))
  | .object fields =>
    if fields.all (·.1.isSome) then names.mapM (field? fields) else none
  | .array elements =>
    if elements.length ≤ names.length then
      some (elements.map some ++ List.replicate (names.length - elements.length) none)
    else none
  | _ => none

/-- What `read` makes of the value of a field, or `absent` if it is not given. -/
def fieldOr? {α : Type} (absent : α) (read : Read → Option α) : Option Read → Option α
  | none => some absent
  | some value => read value

/-- The configuration of one table. -/
def table? (value : Read) : Option TableConfiguration := do
  match ← fields? ["name", "sharding_columns", "algorithm_expression", "generate_key_column",
      "columns"] value with
  | [some name, shardingColumns, algorithmExpression, generateKeyColumn, columns] =>
    return {
      name := ← text? name
      shardingColumns := ← fieldOr? [] texts? shardingColumns
      algorithmExpression := ← fieldOr? none optionalText? algorithmExpression
      generateKeyColumn := ← fieldOr? none optionalText? generateKeyColumn
      columns := ← fieldOr? [] texts? columns }
  | _ => none

/-- The configurations of an array of tables. -/
def tables? : Read → Option (List TableConfiguration)
  | .array elements => elements.mapM table?
  | _ => none

/-- The configuration that a value gives. -/
def ofValue? (value : Read) : Option RuleConfiguration := do
  match ← fields? ["tables"] value with
  | [tables] => return ⟨← fieldOr? [] tables? tables⟩
  | _ => none

/-- The configuration that a document gives. -/
def ofText (document : String) : Except RuleError RuleConfiguration :=
  match (Json.read? document).bind ofValue? with
  | some configuration => .ok configuration
  | none => .error .malformed

/-! ## Building the rules -/

/-- Adds one table to the rules and known columns built so far. -/
def addTable (built : ShardingRule × TableMetadata) (table : TableConfiguration) :
    Except RuleError (ShardingRule × TableMetadata) :=
  if (built.1.find? table.name).isSome then .error (.duplicateTable table.name)
  else
    let rule : TableRule :=
      { table := table.name
        shardingColumns := table.shardingColumns
        algorithm := table.algorithmExpression
        generateKeyColumn := table.generateKeyColumn }
    let metadata :=
      if table.columns.isEmpty then built.2 else built.2.insert table.name table.columns
    .ok (built.1.add rule, metadata)

/-- The rules and known columns of a configuration. Without columns, nothing is known about a
table. -/
def build (configuration : RuleConfiguration) : Except RuleError (ShardingRule × TableMetadata) :=
  configuration.tables.foldlM addTable ({}, {})

end RuleConfiguration

end SqlRouting
