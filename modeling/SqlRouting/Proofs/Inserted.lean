import SqlRouting.Proofs.Count
import SqlRouting.Proofs.Derivation
import SqlRouting.Proofs.Descent
import SqlRouting.Proofs.Extract
import SqlRouting.Proofs.Parts
import SqlRouting.Proofs.Splice

/-!
# What statements insert

Reading a query inserts nothing; preparing it inserts columns behind the select list and an ordering
behind the grouping. An insertion inserts the column for a generated key in front of the parenthesis
that closes its list of columns, or the whole list behind the name of its table. All of these places
are found where the parse has stood, and what is inserted there is set apart from the text around it.

## Main definitions

* `SqlRouting.OrderItem.written` — how an item to order or group by is written where it is inserted.
* `SqlRouting.Fragment` — the texts of columns that preparing a level inserts.
* `SqlRouting.Edit.Placed` — an insertion that is set apart from the text around it.

## Main results

* `SqlRouting.SelectStatement.prepare_edits` — what preparing a query inserts.
* `SqlRouting.Grammar.placed_of_ofText` — all insertions of an accepted statement are placed.
* `SqlRouting.Edit.Placed.fits` — a placed insertion fits if it leaves nothing open.
-/

set_option autoImplicit false

namespace SqlRouting

open TokenStream SqlRouting.Parser

/-! ## Preparing -/

/-- How an item to order or group by is written where it is inserted. -/
def OrderItem.written (item : OrderItem) : String :=
  (item.qualifiedName?.or (item.index.map toString)).getD ""

/-- The texts of columns that preparing a level inserts. -/
inductive Fragment (level : SelectLevel) : String → Prop
  /-- A count or a sum for an average. -/
  | average {call helper : Aggregate} {n : Nat} (mem : .aggregate call ∈ level.shape.items)
      (isAverage : call.function = .avg) (isHelper : helper ∈ call.averageHelpers n) :
      Fragment level helper.fragment
  /-- A column to order or group by. -/
  | column {item : OrderItem} {kind : DerivedColumn} {n : Nat}
      (mem : item ∈ level.shape.orderBy ++ level.shape.groupBy) :
      Fragment level (item.written ++ " AS " ++ kind.aliasAt n ++ " ")

/-- The texts that averages insert are those of their counts and sums. -/
lemma mem_deriveAverages {n : Nat} {items : List SelectItem} {text : String}
    (mem : text ∈ (deriveAverages n items).fragments) : ∃ call helper n,
      .aggregate call ∈ items ∧ call.function = .avg ∧ helper ∈ Aggregate.averageHelpers call n ∧
        text = helper.fragment := by
  induction items generalizing n with
  | nil => cases mem
  | cons item items ih =>
    have later {n : Nat} (mem : text ∈ (deriveAverages n items).fragments) : ∃ call helper n,
        .aggregate call ∈ item :: items ∧ call.function = .avg ∧
          helper ∈ Aggregate.averageHelpers call n ∧ text = helper.fragment := by
      obtain ⟨call, helper, n, isItem, rest⟩ := ih mem
      exact ⟨call, helper, n, List.mem_cons_of_mem _ isItem, rest⟩
    cases item with
    | aggregate call =>
      rw [deriveAverages] at mem
      split at mem
      · rename_i isAverage
        split at mem
        · rcases List.mem_append.1 mem with mem | mem
          · obtain ⟨helper, isHelper, rfl⟩ := List.mem_map.1 mem
            exact ⟨call, helper, n, List.mem_cons_self, beq_iff_eq.1 isAverage, isHelper, rfl⟩
          · exact later mem
        · exact later mem
      · exact later mem
    | _ => exact later mem

/-- Deriving columns to order or group by inserts them as the items are written, and changes no item but
for its alias. -/
lemma deriveOrder_inserts (metadata : TableMetadata) (kind : DerivedColumn) (n : Nat)
    (level : SelectLevel) (items : List OrderItem) :
    (∀ text ∈ (deriveOrder metadata kind n level items).fragments, ∃ item ∈ items, ∃ n,
      text = item.written ++ " AS " ++ kind.aliasAt n ++ " ") ∧
      (deriveOrder metadata kind n level items).items.map (fun item => { item with aliasName := none }) =
        items.map fun item => { item with aliasName := none } := by
  fun_induction deriveOrder metadata kind n level items with
  | case1 | case2 | case4 => exact ⟨by simp, rfl⟩
  | case3 n level item items covered rest ih =>
    refine ⟨fun text mem => ?_, by simp [ih.2, rest]⟩
    obtain ⟨found, isItem, same⟩ := ih.1 text mem
    exact ⟨found, List.mem_cons_of_mem _ isItem, same⟩
  | case5 n level item items name named uncovered aliasName extended rest ih =>
    refine ⟨fun text mem => ?_, by simp [ih.2, rest]⟩
    rcases List.mem_cons.1 mem with rfl | mem
    · exact ⟨item, List.mem_cons_self, n, by rw [OrderItem.written, named]; rfl⟩
    · obtain ⟨found, isItem, same⟩ := ih.1 text mem
      exact ⟨found, List.mem_cons_of_mem _ isItem, same⟩

namespace SelectLevel

variable {level : SelectLevel} {metadata : TableMetadata}

/-- Items that differ in their aliases alone are written alike in an ordering. -/
lemma orderByText_map_eq {items others : List OrderItem}
    (same : items.map (fun item => { item with aliasName := none }) =
      others.map fun item => { item with aliasName := none }) :
    items.map OrderItem.orderByText = others.map OrderItem.orderByText := by
  have texts := congrArg (List.map OrderItem.orderByText) same
  rw [List.map_map, List.map_map] at texts
  exact texts

/-- Adding texts to the select list is an edit at its end, if there are any. -/
lemma edits_addFragments (level : SelectLevel) (fragments : List String) :
    (level.addFragments fragments).context.edits = level.context.edits ++
      if fragments.isEmpty then [] else [.items level.shape.selectListStop fragments] := by
  unfold addFragments
  split
  · rw [List.append_nil]
  · rfl

/-- What deriving the columns of a level inserts, and what it leaves of the shape.

**Proof sketch.** The averages come first and change items of the select list alone; what is derived to
order by changes the select list and the aliases of the items, so the same items are grouped by. -/
lemma deriveColumns_edits (success : (level.deriveColumns metadata).failure = none) :
    ∃ fragments, (∀ text ∈ fragments, Fragment level text) ∧
      (level.deriveColumns metadata).level.context.edits = level.context.edits ++
        (if fragments.isEmpty then [] else [.items level.shape.selectListStop fragments]) ∧
      (level.deriveColumns metadata).level.shape.groupByStop = level.shape.groupByStop ∧
      (level.deriveColumns metadata).level.shape.groupBy.map OrderItem.orderByText =
        level.shape.groupBy.map OrderItem.orderByText := by
  obtain ⟨-, -, last_eq⟩ := deriveColumns_steps success
  obtain ⟨_, second_eq⟩ := level.withOrderColumns_eq metadata
  obtain ⟨_, third_eq⟩ := level.withGroupColumns_eq metadata
  obtain ⟨ordered, -⟩ := deriveOrder_inserts metadata .orderBy 0 level.withAverages.1
    level.withAverages.1.shape.orderBy
  obtain ⟨grouped, aliases⟩ := deriveOrder_inserts metadata .groupBy 0 (level.withOrderColumns metadata)
    (level.withOrderColumns metadata).shape.groupBy
  have groupBy : (level.withOrderColumns metadata).shape.groupBy = level.shape.groupBy := by
    rw [second_eq]
  rw [last_eq, third_eq]
  refine ⟨_, ?_, edits_addFragments _ _, by rw [shape_addFragments], ?_⟩
  · intro text mem
    rcases List.mem_append.1 mem with mem | mem
    · rcases List.mem_append.1 mem with mem | mem
      · obtain ⟨call, helper, n, isItem, isAverage, isHelper, rfl⟩ := mem_deriveAverages mem
        exact .average isItem isAverage isHelper
      · obtain ⟨item, isItem, n, rfl⟩ := ordered text mem
        exact .column (List.mem_append_left _ isItem)
    · obtain ⟨item, isItem, n, rfl⟩ := grouped text mem
      rw [groupBy] at isItem
      exact .column (List.mem_append_right _ isItem)
  · rw [shape_addFragments, ← groupBy]
    exact orderByText_map_eq aliases

end SelectLevel

/-- What preparing a query inserts: columns at the end of the select list, if there are any to insert,
and behind the grouping an ordering by the same items, if there was none. -/
lemma SelectStatement.prepare_edits {query prepared : SelectStatement} {metadata : TableMetadata}
    (success : query.prepare metadata = .ok prepared) :
    ∃ fragments orders, (∀ text ∈ fragments, Fragment query.toSelectLevel text) ∧
      prepared.context.edits = query.context.edits ++
        (if fragments.isEmpty then [] else [.items query.shape.selectListStop fragments]) ++ orders ∧
      (orders = [] ∨ ∃ stop, query.shape.groupByStop = some stop ∧
        orders = [.orderBy stop (query.shape.groupBy.map OrderItem.orderByText)]) := by
  obtain ⟨derived, rfl⟩ := prepare_ok success
  obtain ⟨fragments, isFragment, edits, stop, items⟩ := SelectLevel.deriveColumns_edits derived
  generalize (query.toSelectLevel.deriveColumns metadata).level = derived at edits stop items ⊢
  refine ⟨fragments, ?_⟩
  dsimp only
  rw [← edits, ← items, ← stop]
  unfold SelectLevel.deriveOrdering
  split
  · exact ⟨[], isFragment, (List.append_nil _).symm, .inl rfl⟩
  · cases groupByStop : derived.shape.groupByStop with
    | none => exact ⟨[], isFragment, (List.append_nil _).symm, .inl rfl⟩
    | some stop => exact ⟨_, isFragment, rfl, .inr ⟨stop, rfl, rfl⟩⟩

/-! ## Places -/

namespace Edit

/-- An insertion is set apart from the text around it: it stands at the end of the text or where the
reading of the text can be stopped, starts with a separator, and ends with one or is followed by one. -/
structure Placed (text : String) (insertion : Nat × String) : Prop where
  /-- It stands at the end, or where the reading can be stopped. -/
  place : insertion.1 = Text.byteLength text.toList ∨ Lexer.Boundary text insertion.1
  /-- It starts with a separator. -/
  starts : ∃ c cs, insertion.2.toList = c :: cs ∧ Lexer.isSeparator c = true
  /-- A separator stands between it and what follows. -/
  ends : (∃ front d, insertion.2.toList = front ++ [d] ∧ Lexer.isSeparator d = true) ∨
    ∀ front rest, text.toList = front ++ rest → Text.byteLength front = insertion.1 → Lexer.Apart rest

/-- A placed insertion fits if it leaves nothing open, and neither does the text if it stands at the
end. -/
lemma Placed.fits {text : String} {insertion : Nat × String} (placed : Placed text insertion)
    (clear : Lexer.Whole text ∨ insertion.1 < Text.byteLength text.toList)
    (closed : Lexer.Closed insertion.2.toList) : Fits text insertion := by
  refine ⟨?_, placed.starts, closed, placed.ends⟩
  rcases placed.place with atEnd | boundary
  · rcases clear with isWhole | before
    · rw [atEnd]
      exact Lexer.boundary_end isWhole
    · omega
  · exact boundary

/-- Items are placed wherever they may stand, if there are some and each ends with a blank. -/
lemma placed_items {text : String} {place : Nat} {items : List String} (any : items ≠ [])
    (blank : ∀ item ∈ items, ∃ front, item.toList = front ++ [' '])
    (isPlace : place = Text.byteLength text.toList ∨ Lexer.Boundary text place) :
    Placed text (place, String.join (items.map (", " ++ ·))) := by
  refine ⟨isPlace, ?_, .inl ?_⟩
  · obtain ⟨first, rest, rfl⟩ := List.exists_cons_of_ne_nil any
    refine ⟨',', ' ' :: first.toList ++ (rest.map (", " ++ ·)).flatMap String.toList, ?_, rfl⟩
    rw [String.toList_join, List.map_cons, List.flatMap_cons]
    exact congrArg (· ++ (rest.map (", " ++ ·)).flatMap String.toList) String.toList_append
  · obtain ⟨init, last, rfl⟩ := List.eq_nil_or_concat items |>.resolve_left any
    rw [List.concat_eq_append] at blank ⊢
    obtain ⟨front, isBlank⟩ := blank last (by simp)
    refine ⟨(init.map (", " ++ ·)).flatMap String.toList ++ (", ".toList ++ front), ' ', ?_, rfl⟩
    rw [String.toList_join, List.map_append, List.flatMap_append, List.map_singleton,
      List.flatMap_singleton, String.toList_append, isBlank]
    simp

/-- An ordering is placed wherever the reading can be stopped. -/
lemma placed_orderBy {text : String} {place : Nat} (boundary : Lexer.Boundary text place)
    (items : List String) :
    Placed text (place, " ORDER BY " ++ String.intercalate ", " items ++ " ") := by
  refine ⟨.inr boundary, ⟨' ', _, by rw [String.toList_append, String.toList_append]; rfl, rfl⟩, .inl ?_⟩
  exact ⟨(" ORDER BY " ++ String.intercalate ", " items).toList, ' ', String.toList_append, rfl⟩

end Edit

/-- The text of a column ends with a blank. -/
lemma Fragment.blank {level : SelectLevel} {text : String} (h : Fragment level text) :
    ∃ front, text.toList = front ++ [' '] := by
  cases h with
  | average | column => exact ⟨_, String.toList_append⟩

/-! ## Queries -/

/-- The places where a level is prepared: the end of the select list, which may be that of the text,
and the end of the grouping. -/
structure ResultShape.Stops (text : String) (shape : ResultShape) : Prop where
  /-- The end of the select list. -/
  selectList : shape.selectListStop = Text.byteLength text.toList ∨
    Lexer.Boundary text shape.selectListStop
  /-- The end of the grouping. -/
  grouping : ∀ stop, shape.groupByStop = some stop → Lexer.Boundary text stop

namespace Grammar

variable {env : Environment} {text : String}

/-- Clauses are stopped where the reading can be stopped. -/
lemma keepsShape_stops : KeepsShape env text (ResultShape.Stops text) where
  initial := ⟨.inr (Lexer.boundary_zero text), by simp⟩
  selectList {s s' shape shape'} reaches known success := by
    have passes : Leads Passes (selectList env.rules shape) := leads_selectList shape
    have reaches' := reaches.passes (passes.related success)
    obtain ⟨distinct, items, s₁, -, -, rfl⟩ := run_selectList_ok success
    refine ⟨?_, known.grouping⟩
    rcases reaches'.boundary_offset with ⟨-, atEnd⟩ | boundary
    · exact .inl atEnd
    · exact .inr boundary
  grouping {s s' shape shape'} reaches known success := by
    have passes : Leads Passes (grouping env.dialect env.rules shape) := leads_grouping _ shape
    have reaches' := reaches.passes (passes.related success)
    rcases run_grouping_ok success with ⟨rfl, -⟩ | ⟨keyword, items, s₁, s₂, -, -, -, -, rfl⟩
    · exact known
    · refine ⟨known.selectList, fun stop same => ?_⟩
      cases same
      exact reaches'.boundary_previousEnd
  ordering {s s' shape shape'} reaches known success := by
    rcases run_ordering_ok success with ⟨rfl, -⟩ | ⟨items, s₁, -, -, rfl⟩
    · exact known
    · exact ⟨known.selectList, known.grouping⟩
  limit limit known := ⟨known.selectList, known.grouping⟩

/-- What an accepted query inserts is placed, and its tokens are valid. -/
lemma placed_of_query (once : env.dialect.clauses.count .tables ≤ 1) {query : SelectStatement}
    (success : Statement.ofText env text = .ok (.select query)) :
    (∀ token ∈ Lexer.tokens text, token.kind.isBroken = false) ∧
      ∀ insertion ∈ Edit.insertions query.context.edits, Edit.Placed text insertion := by
  obtain ⟨level, passages, trail, prepared⟩ := query_trail once success
  obtain ⟨fragments, orders, isFragment, edits, isOrder⟩ := SelectStatement.prepare_edits prepared
  have stops := trail.shape keepsShape_stops
  refine ⟨trail.valid, ?_⟩
  rw [edits, Edit.insertions_append, Edit.insertions_append, trail.insertions, List.nil_append]
  intro insertion mem
  rcases List.mem_append.1 mem with mem | mem
  · cases fragments with
    | nil => cases mem
    | cons first rest =>
      obtain rfl := List.mem_singleton.1 mem
      exact Edit.placed_items (by simp) (fun item isItem => (isFragment item isItem).blank)
        stops.selectList
  · rcases isOrder with rfl | ⟨stop, isStop, rfl⟩
    · cases mem
    · obtain rfl := List.mem_singleton.1 mem
      exact Edit.placed_orderBy (stops.grouping stop isStop) _

end Grammar

/-! ## Insertions -/

namespace Edit

variable {text : String}

/-- A column is placed in front of a closing parenthesis. -/
lemma placed_column {before after : List Token} {closing : Token}
    (split : Lexer.tokens text = before ++ closing :: after)
    (valid : ∀ token ∈ before, token.kind.isBroken = false)
    (closes : closing.kind = .symbol .rightParen) (key : String) :
    Placed text (closing.span.start, String.join ([key].map (", " ++ ·))) := by
  obtain ⟨front, c, rest, kinds, whole, place, cuts, read⟩ := Lexer.boundary_start split valid
  rw [closes] at read
  obtain rfl := Lexer.eq_of_scan_rightParen read
  refine ⟨.inr ⟨front, ')' :: rest, kinds, whole, place, cuts⟩, ⟨',', ' ' :: key.toList, ?_, rfl⟩, .inr ?_⟩
  · rw [String.toList_join, List.map_singleton, List.flatMap_singleton, String.toList_append]
    rfl
  · intro front' rest' whole' place'
    rw [← (Text.split_unique (whole.symm.trans whole') (place.trans place'.symm)).2]
    exact Lexer.apart_cons rfl rest

/-- A list of columns is placed wherever the reading can be stopped. -/
lemma placed_columns {place : Nat} (boundary : Lexer.Boundary text place) (columns : List String) :
    Placed text (place, "(" ++ String.intercalate ", " columns ++ ")") := by
  refine ⟨.inr boundary, ⟨'(', (String.intercalate ", " columns).toList ++ [')'], ?_, rfl⟩,
    .inl ⟨'(' :: (String.intercalate ", " columns).toList, ')', ?_, rfl⟩⟩
  all_goals
    simp only [String.toList_append]
    rfl

end Edit

namespace Grammar

variable {env : Environment} {text : String}

/-- What an accepted insertion inserts is placed, and its tokens are valid. -/
lemma placed_of_insert {insertion : InsertStatement}
    (success : Statement.ofText env text = .ok (.insert insertion)) :
    (∀ token ∈ Lexer.tokens text, token.kind.isBroken = false) ∧
      ∀ placed ∈ Edit.insertions insertion.context.edits, Edit.Placed text placed := by
  obtain ⟨last, ⟨steps⟩, valid⟩ := insertion_steps success
  refine ⟨valid, fun placed mem => ?_⟩
  obtain ⟨before, tokens, after, added, split, read, mem⟩ := steps.insertions_located mem
  rcases read.mem_insertions mem with ⟨front, closing, key, rfl, closes, rfl⟩ | ⟨columns, rfl⟩
  · rw [List.append_assoc, List.append_assoc, List.singleton_append, ← List.append_assoc] at split
    refine Edit.placed_column split (fun token isBefore => valid token ?_) closes key
    rw [split]
    exact List.mem_append_left _ isBefore
  · exact Edit.placed_columns steps.reaches_named.boundary_previousEnd columns

/-- What an accepted statement inserts is placed, and its tokens are valid. -/
lemma placed_of_ofText (once : env.dialect.clauses.count .tables ≤ 1) {statement : Statement}
    (success : Statement.ofText env text = .ok statement) :
    (∀ token ∈ Lexer.tokens text, token.kind.isBroken = false) ∧
      ∀ insertion ∈ Edit.insertions statement.context.edits, Edit.Placed text insertion := by
  cases statement with
  | select query => exact placed_of_query once success
  | insert insertion => exact placed_of_insert success

end Grammar

end SqlRouting
