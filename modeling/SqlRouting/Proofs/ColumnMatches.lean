import SqlRouting.Proofs.Faults
import SqlRouting.Proofs.SelectLists

/-!
# Matches of columns

A column that an item to order or group by names is derived unless the select list is found to have it. In
a list without stars and without folded columns it is found under an alias, or by a text that is compared
without quotation marks and blanks, ignoring case.

What is found by its text need not be the column: a string literal reads like a name without its quotation
marks. But if the names are made of the characters of words, and the expression that is found starts with
a name, it is a reference to the same column, name by name.

## Main definitions

* `SqlRouting.SelectItem.RefersTo` — an item of a select list is a reference to a column.
* `SqlRouting.OrderItem.FoundIn` — how an item to order or group by is found in a select list.

## Main results

* `SqlRouting.Grammar.reference_of_sameText` — what reads like a reference and starts with a name is one.
* `SqlRouting.SelectStatement.columns_matched` — what is found instead of a derived column.
* `SqlRouting.SelectStatement.literal_matched` — a string literal is taken for a column.
-/

set_option autoImplicit false

namespace SqlRouting

open Text

/-! ## Texts that read like a reference -/

/-- The tokens of an item of a select list are a reference to a column, by its names, and maybe an alias. -/
def SelectItem.RefersTo (text : String) (item : SelectItem) (tokens : List Token) (names : List String) :
    Prop :=
  ∃ part named, tokens = part ++ named ∧ Grammar.referenceNames? text part = some names ∧
    Grammar.AliasTokens text named item.aliasName

namespace Grammar

open Lexer

variable {text : String} {tokens : List Token} {raw : List Char} {names : List String}

/-- The names of a reference, with the dots between them, have characters of words and dots. -/
lemma mem_dotted (areNames : ∀ name ∈ names, IsName name) {c : Char}
    (mem : c ∈ (".".intercalate names).toList) : c = '.' ∨ isWordCharacter c = true := by
  induction names with
  | nil => simp at mem
  | cons name names ih =>
    obtain ⟨isName, others⟩ := List.forall_mem_cons.1 areNames
    cases names with
    | nil => exact .inr (isName c (by simpa using mem))
    | cons next names =>
      rw [String.intercalate_cons_cons, String.toList_append, String.toList_append, List.mem_append,
        List.mem_append] at mem
      rcases mem with (mem | mem) | mem
      · exact .inr (isName c mem)
      · exact .inl (by simpa using mem)
      · exact ih others mem

/-- A reference is compared as it is written by its names. -/
lemma stripped_dotted (areNames : ∀ name ∈ names, IsName name) :
    withoutBlanks (unquoted (".".intercalate names)) = ".".intercalate names := by
  rw [withoutBlanks_unquoted, stripped_eq_self, String.ofList_toList]
  intro c mem
  rcases mem_dotted areNames mem with rfl | inWord
  · decide +kernel
  · exact plain_of_isWordCharacter inWord

/-- Tokens that are written without marks have no operator and no parenthesis. -/
lemma not_compound (extract : Extract text tokens raw) (unmarked : ∀ c ∈ raw, isMark c = false) :
    ¬ Compound tokens := by
  rintro ⟨token, mem, isMark⟩
  have cuts : Cuts (raw ++ []) (tokens.map Token.kind) [] := by simpa using extract.cuts
  obtain ⟨pieces, arePieces, -⟩ := cuts.exists_pieces unmarked
  obtain ⟨i, bound, same⟩ := List.mem_iff_getElem.1 (List.mem_map_of_mem (f := Token.kind) mem)
  have piece := arePieces.get (arePieces.length_eq ▸ bound) bound
  obtain ⟨noOperator, noParenthesis⟩ := piece.cut.plain_kind piece.unmarked
  rw [List.get_eq_getElem, same] at noOperator noParenthesis
  rcases isMark with joins | opens
  · simp [noOperator] at joins
  · exact noParenthesis opens

/-- **What reads like a reference and starts with a name is a reference to the same column.**

**Proof sketch.** The text has no marks, since the names of the reference have none. So the expression goes
on with neither an operator nor parentheses after a name, and is a reference itself; and references that
read the same have the same names. -/
lemma reference_of_sameText {selected : SelectItem}
    (valid : ∀ token ∈ Lexer.tokens text, token.kind.isBroken = false)
    (written : selected.WrittenBy text tokens) (starts : StartsWithName tokens)
    (noStar : ∀ owner, selected ≠ .star owner) (nonempty : names ≠ [])
    (areNames : ∀ name ∈ names, IsName name) (same : ResultShape.SameText (".".intercalate names) selected) :
    ∃ names', selected.RefersTo text tokens names' ∧
      ((∀ name ∈ names', IsName name) → List.Forall₂ (fun a b => sameName a b = true) names' names) := by
  obtain ⟨name, span, rest, rfl⟩ := starts
  generalize whole : (⟨.identifier name, span⟩ :: rest : List Token) = tokens at written
  cases written with
  | star => cases whole
  | ownStar => exact absurd rfl (noStar _)
  | aggregate => cases whole
  | @plain part named raw aliasName extract reference renamed =>
    have first : StartsWithName part := by
      obtain ⟨token, _, isFirst, -⟩ := extract.slice_eq
      obtain ⟨others, rfl⟩ := List.head?_eq_some_iff.1 isFirst
      obtain rfl := (List.cons.inj whole).1
      exact ⟨_, _, others, rfl⟩
    rw [ResultShape.SameText, stripped_dotted areNames] at same
    simp only [SelectItem.expression, unquoted_unquoted, withoutBlanks_unquoted, String.toList_ofList] at same
    have unmarked : ∀ c ∈ raw, isMark c = false := by
      intro c mem
      rw [← Bool.not_eq_true]
      intro mark
      obtain ⟨noLetter, noWord, noDot, noQuote, noBlank⟩ := noLetter_of_isMark mark
      have left : c ∈ (String.ofList (stripped raw)).toList := by
        rw [String.toList_ofList]
        exact mem_stripped.2 ⟨mem, noQuote, noBlank⟩
      rcases mem_dotted areNames (mem_of_sameName same noLetter left) with isDot | inWord
      · exact noDot isDot
      · rw [noWord] at inWord
        cases inWord
    obtain ⟨names', named'⟩ := (reference first).resolve_right (not_compound extract unmarked)
    refine ⟨names', ⟨part, named, rfl, named', renamed⟩, fun areNames' => ?_⟩
    have own := stripped_reference extract valid unmarked named' areNames'
    exact sameName_of_dotted (ne_nil_of_referenceNames named') nonempty areNames' areNames
      (sameName_trans (sameName_symm own) same)

end Grammar

/-! ## Items that are found -/

open Grammar in
/-- **How an item to order or group by is found** in a select list, where `list` are the tokens of the list
and `part` those of the item. -/
inductive OrderItem.FoundIn (text : String) (list part : List Token) (items : List SelectItem)
    (item : OrderItem) : Prop
  /-- Its name is the alias of an item. -/
  | sameAlias {name aliasName : String} {selected : SelectItem} (named : item.qualifiedName? = some name)
      (mem : selected ∈ items) (given : selected.aliasName = some aliasName)
      (same : sameName aliasName (unquoted name) = true)
  /-- Its name reads like the text of an item. If it is a reference by names of word characters, and the
  expression that is found starts with a name, then that is a reference by the same names, unless it has
  names of other characters. -/
  | sameText {name : String} {selected : SelectItem} {before tokens after : List Token}
      (named : item.qualifiedName? = some name) (mem : selected ∈ items)
      (same : ResultShape.SameText name selected) (place : list = before ++ tokens ++ after)
      (written : selected.WrittenBy text tokens)
      (reference : ∀ names, referenceNames? text part = some names →
        (∀ name ∈ names, Lexer.IsName name) → StartsWithName tokens →
        ∃ names', selected.RefersTo text tokens names' ∧ ((∀ name ∈ names', Lexer.IsName name) →
          List.Forall₂ (fun a b => sameName a b = true) names' names)) :
      FoundIn text list part items item

namespace SelectLevel

variable {level extended : SelectLevel} {metadata : TableMetadata} {item : OrderItem}

/-- In a list without stars and without folded columns, an item is selected by an alias or by a text. -/
lemma found_of_satisfies (h : extended.Extends level) (noStar : ∀ owner, .star owner ∉ level.shape.items)
    (noFold : ∀ labels, .distinct labels ∉ level.shape.items) (noIndex : item.index = none)
    (resolved : item.aliasName = item.qualifiedName?.bind level.shape.aliasOf?)
    (has : extended.Satisfies metadata item) :
    ∃ name, item.qualifiedName? = some name ∧ ∃ selected ∈ level.shape.items,
      (∃ aliasName, selected.aliasName = some aliasName ∧ sameName aliasName (unquoted name) = true) ∨
        ResultShape.SameText name selected := by
  cases has with
  | position indexed => exact absurd noIndex indexed
  | bareStar mem => exact absurd (h.mem_star_iff.1 mem) (noStar none)
  | ownStar _ star =>
    obtain ⟨owner, _, mem, -⟩ := star
    exact absurd (h.mem_star_iff.1 mem) (noStar owner)
  | knownColumn _ _ mem => exact absurd (h.mem_star_iff.1 mem) (noStar _)
  | label _ folded =>
    obtain ⟨labels, mem, -⟩ := folded
    exact absurd (h.mem_distinct_iff.1 mem) (noFold labels)
  | sameAlias renamed _ =>
    rw [resolved, Option.bind_eq_some_iff] at renamed
    obtain ⟨name, named, found⟩ := renamed
    rcases ResultShape.aliasOf_some found with ⟨selected, mem, same, -⟩ | ⟨-, selected, mem, rest⟩
    · exact ⟨name, named, selected, mem, .inr same⟩
    · exact ⟨name, named, selected, mem, .inl rest⟩
  | @sameText name _ named mem unnamed same =>
    rcases h.mem_cases mem with ⟨text, aliasName, rfl⟩ | ⟨original, k, isOriginal, rfl⟩
    · cases unnamed
    · rw [SelectItem.expression_completed] at same
      exact ⟨name, named, original, isOriginal, .inr (sameName_stripped same)⟩

end SelectLevel

namespace SelectStatement

open Grammar

/-- **What is found instead of a derived column.** In an accepted query without stars and without folded
columns, each item with a name for which no column is derived is found in the select list of its level.

**Proof sketch.** When the item had its turn it was selected by an alias or by a text. Its alias was looked up
in the select list that was read; and derived columns have aliases, so that none of them is found by its
text. -/
theorem columns_matched {env : Environment} {text : String} {query : SelectStatement}
    (first : env.dialect.SelectsFirst) (success : Statement.ofText env text = .ok (.select query))
    (noStar : ∀ owner, .star owner ∉ query.shape.items)
    (noFold : ∀ labels, .distinct labels ∉ query.shape.items) :
    ∃ (level : SelectLevel) (orders groups : List (Option String)) (list : List Token),
      query.PreparedFrom env text level orders groups ∧ level.shape.ListedBy text list ∧
      ∀ item, (item, none) ∈ level.shape.orderBy.zip orders ++ level.shape.groupBy.zip groups →
        item.qualifiedName? ≠ none →
        ∃ part, item.ResolvedBy text level.shape part ∧ item.FoundIn text list part level.shape.items := by
  obtain ⟨level, orders, groups, prepared⟩ := exists_preparedFrom first success
  obtain ⟨list, listed⟩ := prepared.resolved.listed
  have stars (owner : Option String) : .star owner ∉ level.shape.items :=
    mt prepared.extends_level.1.mem_star_iff.2 (noStar owner)
  have folds (labels : List String) : .distinct labels ∉ level.shape.items :=
    mt prepared.extends_level.1.mem_distinct_iff.2 (noFold labels)
  refine ⟨level, orders, groups, list, prepared, listed, fun item mem isNamed => ?_⟩
  obtain ⟨part, extended, resolved, goesOn, added⟩ := prepared.turn mem
  obtain ⟨name, named, selected, isSelected, found⟩ := SelectLevel.found_of_satisfies goesOn stars folds
    (resolved.unplaced isNamed) resolved.resolved (added.1 rfl)
  refine ⟨part, resolved, ?_⟩
  rcases found with ⟨aliasName, given, same⟩ | same
  · exact .sameAlias named isSelected given same
  · obtain ⟨before, tokens, after, place, written⟩ :=
      listed.located isSelected fun labels same => folds labels (same ▸ isSelected)
    refine .sameText named isSelected same place written fun names isReference areNames starts => ?_
    obtain rfl := Option.some.inj (named.symm.trans (resolved.named names isReference areNames))
    exact reference_of_sameText (Statement.valid_of_ofText success) written starts
      (fun owner same => stars owner (same ▸ isSelected)) (ne_nil_of_referenceNames isReference) areNames same

/-- A column that is written in another way, and an item that is ordered by its alias: both are found. -/
theorem columns_matched_quoted : ∃ (query : SelectStatement) (level : SelectLevel)
    (orders groups : List (Option String)) (list : List Token),
    Statement.ofText {} "SELECT T.\"B\", f(x) AS c FROM t ORDER BY t.b, C" = .ok (.select query) ∧
      Edit.insertions query.context.edits = [] ∧
      query.shape.orderBy.map (·.qualifiedName?) = [some "t.b", some "C"] ∧
      query.PreparedFrom {} "SELECT T.\"B\", f(x) AS c FROM t ORDER BY t.b, C" level orders groups ∧
      ∀ item, (item, none) ∈ level.shape.orderBy.zip orders ++ level.shape.groupBy.zip groups →
        item.qualifiedName? ≠ none → ∃ part,
          item.FoundIn "SELECT T.\"B\", f(x) AS c FROM t ORDER BY t.b, C" list part level.shape.items := by
  let text := "SELECT T.\"B\", f(x) AS c FROM t ORDER BY t.b, C"
  have seen : (query? {} text).map (fun query => (Edit.insertions query.context.edits, query.shape.items,
      query.shape.orderBy.map (·.qualifiedName?))) =
      some ([], [.plain "T.B" none false, .plain "f(x)" (some "c") false], [some "t.b", some "C"]) := by
    decide +kernel
  obtain ⟨query, success, same⟩ := exists_of_query seen
  simp only [Prod.mk.injEq] at same
  obtain ⟨nothing, items, names⟩ := same
  have first : Dialect.generic.SelectsFirst := ⟨_, rfl, by decide⟩
  obtain ⟨level, orders, groups, list, prepared, -, found⟩ := columns_matched first success
    (by simp [items]) (by simp [items])
  refine ⟨query, level, orders, groups, list, success, nothing, names, prepared, fun item mem isNamed => ?_⟩
  obtain ⟨part, -, isFound⟩ := found item mem isNamed
  exact ⟨part, isFound⟩

/-- **A string literal is taken for a column.** No column is derived for the name `a`, which is neither an
alias nor a reference in the select list. -/
theorem literal_matched : ∃ query : SelectStatement,
    Statement.ofText {} "SELECT 'a' FROM t ORDER BY a" = .ok (.select query) ∧
      query.shape.items = [.plain "a" none false] ∧
      query.shape.orderBy.map (·.qualifiedName?) = [some "a"] ∧
      Edit.insertions query.context.edits = [] ∧
      (Lexer.tokens "SELECT 'a' FROM t ORDER BY a").map Token.kind =
        [.keyword .SELECT, .string "a", .keyword .FROM, .identifier "t", .keyword .ORDER, .keyword .BY,
          .identifier "a"] ∧
      ∀ span, referenceNames? "SELECT 'a' FROM t ORDER BY a" [⟨.string "a", span⟩] = none ∧
        referenceNames? "SELECT 'a' FROM t ORDER BY a" [⟨.identifier "a", span⟩] = some ["a"] := by
  let text := "SELECT 'a' FROM t ORDER BY a"
  have seen : (query? {} text).map (fun query => (Edit.insertions query.context.edits, query.shape.items,
      query.shape.orderBy.map (·.qualifiedName?))) = some ([], [.plain "a" none false], [some "a"]) := by
    decide +kernel
  obtain ⟨query, success, same⟩ := exists_of_query seen
  simp only [Prod.mk.injEq] at same
  obtain ⟨nothing, items, names⟩ := same
  exact ⟨query, success, items, names, nothing, by decide +kernel, fun span => ⟨rfl, rfl⟩⟩

end SelectStatement

end SqlRouting
