import SqlRouting.Proofs.Descent

/-!
# Merging the levels of a query

A query is merged from the inside out, and each level overwrites part of what the levels below it
made. Told from the outside, the merged query has the tables of the innermost level, the count of
the outermost one, the edits and the conditions of all levels one after the other, and the whole
shape of a single level.

## Main definitions

* `SqlRouting.SelectStatement.levels` — the levels of a query, from the outside in.
* `SqlRouting.SelectStatement.innermost` — the level below which there is no derived table.

## Main results

* `SqlRouting.SelectLevel.supplier_eq` — the level that gives the shape, found by a search.
* `SqlRouting.SelectStatement.merge_eq` — the merged query in closed form.
-/

set_option autoImplicit false

namespace SqlRouting

namespace SelectLevel

/-- A level is made of the parts of its context and its shape. -/
lemma eq_mk {level : SelectLevel} {tables : Tables} {conditions : List RouteCondition}
    {edits : List Edit} {parameters : Nat} {shape : ResultShape}
    (hasTables : level.context.tables = tables) (hasConditions : level.context.conditions = conditions)
    (hasEdits : level.context.edits = edits) (counts : level.context.parameters = parameters)
    (hasShape : level.shape = shape) : level = ⟨⟨tables, conditions, edits, parameters⟩, shape⟩ := by
  subst hasTables hasConditions hasEdits counts hasShape
  rfl

variable (outer : SelectLevel) (below : List SelectLevel)

/-- The level that gives a query its shape is the first one above the innermost whose select list
has no star, and the innermost one if there is none. -/
lemma supplier_eq : outer.supplier below =
    ((outer :: below).dropLast.find? fun level => !level.shape.containsStar).getD
      ((outer :: below).getLast (List.cons_ne_nil outer below)) := by
  induction below generalizing outer with
  | nil => rfl
  | cons inner below ih =>
    rw [supplier, List.dropLast_cons_cons, List.getLast_cons_cons, List.find?_cons]
    cases outer.shape.containsStar with
    | true => exact ih inner
    | false => rfl

end SelectLevel

namespace SelectStatement

variable (statement : SelectStatement)

/-- The levels of a query, from the outside in. -/
def levels : List SelectLevel :=
  statement.toSelectLevel :: statement.derivedTables

/-- The level of a query below which there is no derived table. -/
def innermost : SelectLevel :=
  statement.levels.getLast (List.cons_ne_nil _ _)

/-- The merged query has no derived table, the tables of the innermost level, the count of the
outermost level, and the edits and conditions of all levels from the outside in. Its select list,
grouping, ordering and limit, with the places at which the list and the grouping stop, are all those
of one level: the outermost one above the innermost whose select list has no star, or the innermost
one if there is none.

**Proof sketch.** Induction on the levels from the outside in. Each step adds the conditions and the edits
of the level below, takes its tables, and keeps the count; it takes its shape only while the shape above has
a star. -/
theorem merge_eq : statement.merge =
    { context :=
        { tables := statement.innermost.context.tables
          conditions := statement.levels.flatMap (·.context.conditions)
          edits := statement.levels.flatMap (·.context.edits)
          parameters := statement.context.parameters }
      shape :=
        ((statement.levels.dropLast.find? fun level => !level.shape.containsStar).getD
          statement.innermost).shape
      derivedTables := [] } := by
  have edits := statement.mergeAll_edits statement.derivedTables
  have others : statement.context.edits ++ SelectLevel.editsOf statement.derivedTables =
    statement.levels.flatMap (·.context.edits) := by
    rw [levels, List.flatMap_cons, SelectLevel.editsOf]
  have shape := statement.mergeAll_shape statement.derivedTables
  rw [SelectLevel.supplier_eq] at shape
  exact congrArg (fun level => ({ toSelectLevel := level } : SelectStatement))
    (SelectLevel.eq_mk (statement.mergeAll_tables _) (statement.mergeAll_conditions _)
      (edits.trans others) (statement.mergeAll_parameters _) shape)

end SelectStatement

end SqlRouting
