import SqlRouting.Proofs.DerivedColumns
import SqlRouting.Proofs.Edges
import SqlRouting.Proofs.References

/-!
# Select lists

A select list is a list of items with commas between them, and each item is read from tokens of its own. A
plain item keeps the text of its expression, so what it selects is known from these tokens: an expression
that starts with a name is a reference to a column, unless it goes on with an operator or with parentheses.

Items to order and group by are looked up in the select list. In a dialect that reads the select list
before anything else, what is known of it then is all of it.

## Main definitions

* `SqlRouting.SelectItem.WrittenBy` — the tokens of an item of a select list.
* `SqlRouting.ResultShape.ListedBy` — the tokens of a select list.
* `SqlRouting.ResultShape.SameText` — an item of a select list reads like an expression.
* `SqlRouting.OrderItem.ResolvedBy` — what an item to order or group by has from its tokens and from the
  select list.
* `SqlRouting.Dialect.SelectsFirst` — the select list is read first, and once.
* `SqlRouting.SelectStatement.PreparedFrom` — what an accepted query is prepared from.

## Main results

* `SqlRouting.Grammar.expression_of_name` — the tokens of an expression that starts with a name.
* `SqlRouting.Grammar.selectItem_written` — the tokens that an item is read from write it.
* `SqlRouting.Grammar.resolved_levelsUpTo` — items are looked up in the select list of their level.
* `SqlRouting.SelectStatement.exists_preparedFrom` — an accepted query is prepared from such a level.
-/

set_option autoImplicit false

namespace SqlRouting

namespace Grammar

open SqlRouting.Parser TokenStream

/-! ## Expressions that start with a name -/

/-- There is an operator or a parenthesis among the tokens. -/
def Compound (tokens : List Token) : Prop :=
  ∃ token ∈ tokens, token.kind.isComposite = true ∨ token.kind = .symbol .leftParen

/-- The tokens are a reference to a column, or there is more than that. -/
def ReferenceOrMore (source : String) (tokens : List Token) : Prop :=
  (∃ names, referenceNames? source tokens = some names) ∨ Compound tokens

/-- What ends with an operator or a parenthesis has one. -/
lemma Compound.prepend {tokens : List Token} (h : Compound tokens) (front : List Token) :
    Compound (front ++ tokens) := by
  obtain ⟨token, mem, isMark⟩ := h
  exact ⟨token, List.mem_append_right _ mem, isMark⟩

section Parts

variable {operand : Parser Expression} {rules : ShardingRule} {s s₁ s' : ParserState} {start : Nat}
  {node node' : ExpressionNode} {name : String}

/-- Operators with their operands are passed if there are any. -/
lemma compositeWith_passes (reads : Reads operand) {result : Unit}
    (success : (compositeWith operand).run s = .ok (result, s')) :
    ∃ tokens, Run Context.EditsOnly s tokens s' ∧ (tokens = [] ∨ Compound tokens) := by
  by_cases isComposite : s.stream.kind.isComposite = true
  · obtain ⟨token, tokens, joins, -, run⟩ := compositeWith_reads_cons reads isComposite success
    exact ⟨_, run, .inr ⟨token, List.mem_cons_self, .inl joins⟩⟩
  · rw [compositeWith, looks_remaining.run_bind,
      run_compositeUpTo (Bool.eq_false_iff.2 isComposite)] at success
    cases success
    exact ⟨[], .refl s, .inl rfl⟩

/-- After an owner and a dot comes the name of a column, and maybe operators. -/
lemma qualifiedWith_passes (reads : Reads operand) {owner : String} {span : Span}
    (success : (qualifiedWith operand rules owner span).run s = .ok (node, s')) :
    ∃ column rest, namesColumn column.kind = true ∧ Run Context.EditsOnly s (column :: rest) s' ∧
      (rest = [] ∨ Compound rest) := by
  obtain ⟨name, s₁, named, afterName⟩ := run_bind_ok.1 success
  obtain ⟨rfl, isName, -⟩ := run_columnName_ok named
  obtain ⟨plain, notEnd⟩ := ne_of_namesColumn isName
  rw [run_advance_bind] at afterName
  obtain ⟨_, s₂, recorded, afterEdit⟩ := run_bind_ok.1 afterName
  have passed := (run_token rfl plain notEnd).trans (recordOwner_run recorded).1
  rw [looks_checkComposite.run_bind] at afterEdit
  split at afterEdit
  · obtain ⟨_, s₃, composed, rest⟩ := run_bind_ok.1 afterEdit
    rw [(looks_textFrom _).run_bind, run_pure_ok] at rest
    obtain ⟨-, rfl⟩ := rest
    obtain ⟨tokens, run, operators⟩ := compositeWith_passes reads composed
    exact ⟨_, tokens, isName, passed.trans run, operators⟩
  · obtain ⟨-, rfl⟩ := run_pure_ok.1 afterEdit
    exact ⟨_, [], isName, passed, .inl rfl⟩

/-- What names a column writes its name, or is a star. -/
lemma columnName_or_composite (source : String) {column : Token}
    (isName : namesColumn column.kind = true) :
    (∃ name, columnName? source column = some name) ∨ column.kind.isComposite = true := by
  unfold columnName?
  unfold namesColumn at isName
  split at isName
  · rename_i name same
    exact .inl ⟨name, by rw [same]⟩
  · rename_i keyword same
    exact .inl ⟨_, by rw [same]⟩
  · rename_i symbol same
    rw [same, beq_iff_eq.1 isName]
    exact .inr rfl
  · cases isName

/-- A name is a reference, or the owner of the reference that goes on after it. -/
lemma referenceWith_passes (reads : Reads operand) (isName : s.stream.kind = .identifier name)
    (success : (referenceWith operand rules start (.bare name)).run s.advance = .ok (node, s')) :
    ∃ tokens, Run Context.EditsOnly s tokens s' ∧ ReferenceOrMore s.stream.source tokens := by
  have first : Run Context.EditsOnly s _ s.advance := run_token isName
  rw [referenceWith, (looks_checkSymbol _).run_bind] at success
  split at success
  · rename_i dotted
    rw [check_symbol] at dotted
    rw [run_advance_bind] at success
    obtain ⟨column, rest, isColumn, run, more⟩ := qualifiedWith_passes reads success
    refine ⟨_, first.trans ((run_token dotted).trans run), ?_⟩
    rcases more with rfl | operators
    · rcases columnName_or_composite s.stream.source isColumn with ⟨named, isSome⟩ | star
      · exact .inl ⟨[name, named], by simp [referenceNames?, isSome]⟩
      · exact .inr ⟨column, by simp, .inl star⟩
    · exact .inr (operators.prepend [_, _, column])
  · obtain ⟨-, rfl⟩ := run_pure_ok.1 success
    exact ⟨_, first, .inl ⟨[name], rfl⟩⟩

/-- Arguments are in parentheses. -/
lemma argumentsAfter_passes (success : (argumentsAfter start node).run s = .ok (node', s')) :
    ∃ tokens, Run Context.EditsOnly s tokens s' ∧ (tokens = [] ∨ Compound tokens) := by
  rw [argumentsAfter, (looks_checkSymbol _).run_bind] at success
  split at success
  · rename_i called
    rw [Bool.and_eq_true, check_symbol] at called
    obtain ⟨_, s₁, skipped, rest⟩ := run_bind_ok.1 success
    rw [(looks_textFrom _).run_bind, run_pure_ok] at rest
    obtain ⟨-, rfl⟩ := rest
    obtain ⟨group, _, split, rfl⟩ := run_skipParentheses_of_eq called.1 skipped
    obtain ⟨span, inner, rfl⟩ := group_starts called.1 (by simp) split
    exact ⟨_, .single (.group split), .inr ⟨_, List.mem_cons_self, .inr rfl⟩⟩
  · obtain ⟨-, rfl⟩ := run_pure_ok.1 success
    exact ⟨[], .refl s, .inl rfl⟩

/-- Operators are passed if there are any. -/
lemma operatorsWith_passes (reads : Reads operand)
    (success : (operatorsWith operand start node).run s = .ok (node', s')) :
    ∃ tokens, Run Context.EditsOnly s tokens s' ∧ (tokens = [] ∨ Compound tokens) := by
  rw [operatorsWith, looks_checkComposite.run_bind] at success
  split at success
  · obtain ⟨_, s₁, composed, rest⟩ := run_bind_ok.1 success
    rw [(looks_textFrom _).run_bind, run_pure_ok] at rest
    obtain ⟨-, rfl⟩ := rest
    exact compositeWith_passes reads composed
  · obtain ⟨-, rfl⟩ := run_pure_ok.1 success
    exact ⟨[], .refl s, .inl rfl⟩

/-- What comes after a reference makes it more than a reference. -/
lemma ReferenceOrMore.append {source : String} {tokens more : List Token}
    (h : ReferenceOrMore source tokens) (after : more = [] ∨ Compound more) :
    ReferenceOrMore source (tokens ++ more) := by
  rcases after with rfl | compound
  · rwa [List.append_nil]
  · exact .inr (compound.prepend tokens)

end Parts

variable {rules : ShardingRule} {text : String} {s s' : ParserState} {e : Expression}

/-- **The tokens of an expression that starts with a name** are a reference to a column, unless an operator
or a parenthesis is among them. -/
lemma expression_of_name {name : String} (isName : s.stream.kind = .identifier name)
    (success : (expression rules).run s = .ok (e, s')) :
    ∃ tokens, Run Context.EditsOnly s tokens s' ∧ ReferenceOrMore s.stream.source tokens := by
  rw [expression, looks_remaining.run_bind] at success
  generalize s.stream.remaining = n at success
  cases n with
  | zero => exact absurd success run_unexpected_ne
  | succ n =>
    have reads : Reads (expressionUpTo rules n) :=
      fun _ _ _ read => (expressionUpTo_writes read).exists_operand
    rw [expressionUpTo, expressionWith, looks_offset.run_bind] at success
    obtain ⟨_, s₁, primary, success⟩ := run_bind_ok.1 success
    obtain ⟨_, s₂, reference, success⟩ := run_bind_ok.1 success
    obtain ⟨_, s₃, arguments, success⟩ := run_bind_ok.1 success
    obtain ⟨_, s₄, operators, success⟩ := run_bind_ok.1 success
    rw [looks_previousEnd.run_bind, run_pure_ok] at success
    obtain ⟨-, rfl⟩ := success
    rw [primaryWith, looks_offset.run_bind, looks_kind.run_bind, isName] at primary
    obtain ⟨rfl, rfl⟩ := run_pure_ok.1 primary
    obtain ⟨tokens, run, isReference⟩ := referenceWith_passes reads isName reference
    obtain ⟨called, run', afterCall⟩ := argumentsAfter_passes arguments
    obtain ⟨joined, run'', afterOperators⟩ := operatorsWith_passes reads operators
    exact ⟨_, (run.trans run').trans run'', (isReference.append afterCall).append afterOperators⟩

end Grammar

/-! ## Items of select lists -/

/-- The tokens start with a name. -/
def StartsWithName (tokens : List Token) : Prop :=
  ∃ name span rest, tokens = ⟨.identifier name, span⟩ :: rest

open Grammar in
/-- An item of a select list is written by some tokens of the text, those of its alias included. -/
inductive SelectItem.WrittenBy (text : String) : List Token → SelectItem → Prop
  /-- A star. -/
  | star (span : Span) : WrittenBy text [⟨.symbol .star, span⟩] (.star none)
  /-- A star after an owner and a dot. -/
  | ownStar (owner : String) (span dot star : Span) :
      WrittenBy text [⟨.identifier owner, span⟩, ⟨.symbol .dot, dot⟩, ⟨.symbol .star, star⟩]
        (.star (some (Text.unquoted owner)))
  /-- The name of an aggregate function with its arguments. -/
  | aggregate {keyword : Keyword} {span : Span} {function : AggregateFunction} {arguments named : List Token}
      {raw : List Char} {aliasName : Option String} (called : aggregateFunction? keyword = some function)
      (group : Group arguments) (extract : Lexer.Extract text arguments raw)
      (renamed : AliasTokens text named aliasName) :
      WrittenBy text (⟨.keyword keyword, span⟩ :: arguments ++ named)
        (.aggregate ⟨function, Text.unquoted (String.ofList raw), aliasName, []⟩)
  /-- Any other expression, which is a reference or more than that if it starts with a name. -/
  | plain {part named : List Token} {raw : List Char} {aliasName : Option String}
      (extract : Lexer.Extract text part raw) (reference : StartsWithName part → ReferenceOrMore text part)
      (renamed : AliasTokens text named aliasName) :
      WrittenBy text (part ++ named) (.plain (Text.unquoted (String.ofList raw)) aliasName false)

namespace Grammar

open SqlRouting.Parser TokenStream

variable {rules : ShardingRule} {text : String} {s s' : ParserState}

/-- An alias is passed after what it renames. -/
lemma aliasName_written {part : List Token} {name : Option String} {s₁ : ParserState}
    (reaches : Reaches text s) (before : Run Context.EditsOnly s part s₁)
    (success : aliasName.run s₁ = .ok (name, s')) :
    ∃ named, AliasTokens text named name ∧ Run Context.EditsOnly s (part ++ named) s' := by
  obtain ⟨named, isAlias, run⟩ := aliasName_reads success
  rw [before.source_eq, reaches.source_eq] at isAlias
  exact ⟨named, isAlias, before.trans run⟩

/-- A plain item is written by its expression and its alias. -/
lemma plainItem_written {item : SelectItem} (reaches : Reaches text s)
    (success : (plainItem rules).run s = .ok (item, s')) :
    ∃ tokens, item.WrittenBy text tokens ∧ Run Context.EditsOnly s tokens s' := by
  obtain ⟨e, s₁, read, rest⟩ := run_bind_ok.1 success
  rw [(looks_textOf _).run_bind] at rest
  obtain ⟨name, s₂, renamed, done⟩ := run_bind_ok.1 rest
  obtain ⟨rfl, rfl⟩ := run_pure_ok.1 done
  obtain ⟨part, operand, run⟩ := reads_expression _ _ _ read
  obtain ⟨span, -⟩ := expression_text read
  have passes : Passes s s₁ := Leads.related leads_expression read
  obtain ⟨raw, first, last, extract, -, -, -, -, slice⟩ :=
    reaches.exists_extract passes run.ahead_eq operand.ne_nil
  obtain ⟨named, isAlias, whole⟩ := aliasName_written reaches run renamed
  refine ⟨_, ?_, whole⟩
  rw [span, Span.text, run.source_eq, reaches.source_eq, slice]
  refine .plain extract ?_ isAlias
  rintro ⟨name, nameSpan, others, rfl⟩
  have isName : s.stream.kind = .identifier name := kind_of_ahead_cons run.ahead_eq
  obtain ⟨tokens, run', isReference⟩ := expression_of_name isName read
  rw [reaches.source_eq] at isReference
  rwa [List.append_cancel_right (run.ahead_eq.symm.trans run'.ahead_eq)]

/-- An aggregate call is written by its name, its arguments and its alias; with an operator after it, it is
the first part of an expression. -/
lemma aggregateItem_written {function : AggregateFunction} {keyword : Keyword} {item : SelectItem}
    (reaches : Reaches text s) (word : s.stream.kind = .keyword keyword)
    (opened : s.advance.stream.kind = .symbol .leftParen)
    (called : aggregateFunction? keyword = some function)
    (success : (aggregateItem rules function).run s = .ok (item, s')) :
    ∃ tokens, item.WrittenBy text tokens ∧ Run Context.EditsOnly s tokens s' := by
  rw [aggregateItem, looks_offset.run_bind, run_advance_bind, looks_offset.run_bind] at success
  obtain ⟨_, s₁, skipped, success⟩ := run_bind_ok.1 success
  have reaches' : Reaches text s.advance := reaches.passes (Advancing.token word)
  have leads : Leads Passes skipParentheses := leads_skipParentheses
  have passes := leads.related skipped
  obtain ⟨arguments, _, split, rfl⟩ := run_skipParentheses_of_eq opened skipped
  have first : Run Context.EditsOnly s _ s.advance := run_token word
  have run : Run Context.EditsOnly s.advance arguments _ := .single (.group split)
  have balanced := group_of_split (.inl rfl) split
  rw [(looks_textFrom _).run_bind, looks_checkComposite.run_bind] at success
  split at success
  · obtain ⟨_, s₂, composed, success⟩ := run_bind_ok.1 success
    rw [(looks_textFrom _).run_bind] at success
    obtain ⟨name, s₃, renamed, done⟩ := run_bind_ok.1 success
    obtain ⟨rfl, rfl⟩ := run_pure_ok.1 done
    obtain ⟨operators, run'⟩ := runs_composite.exists_run composed
    have whole := first.trans (run.trans run')
    have passes' : Passes s s₂ := Steady.trans (Advancing.token word)
      (Steady.trans passes (Leads.related leads_composite composed))
    obtain ⟨raw, _, _, extract, -, -, -, -, slice⟩ :=
      reaches.exists_extract passes' whole.ahead_eq (by simp)
    obtain ⟨named, isAlias, last⟩ := aliasName_written reaches whole renamed
    refine ⟨_, ?_, last⟩
    rw [TokenStream.slice, whole.source_eq, reaches.source_eq, slice, extract.trimmed_eq]
    refine .plain extract ?_ isAlias
    rintro ⟨_, _, _, starts⟩
    cases starts
  · obtain ⟨name, s₂, renamed, done⟩ := run_bind_ok.1 success
    obtain ⟨rfl, rfl⟩ := run_pure_ok.1 done
    obtain ⟨raw, _, _, extract, -, -, -, -, slice⟩ :=
      reaches'.exists_extract passes run.ahead_eq (eq_append_of_splitGroup split).2
    obtain ⟨named, isAlias, last⟩ := aliasName_written reaches (first.trans run) renamed
    refine ⟨_, ?_, last⟩
    rw [TokenStream.slice, run.source_eq, reaches'.source_eq, slice, extract.trimmed_eq]
    exact .aggregate called balanced extract isAlias

/-- **The tokens that an item of a select list is read from** write it. -/
lemma selectItem_written {item : SelectItem} (reaches : Reaches text s)
    (success : (selectItem rules).run s = .ok (item, s')) :
    ∃ tokens, item.WrittenBy text tokens ∧ Run Context.EditsOnly s tokens s' := by
  rw [selectItem, run_skipSymbol_bind] at success
  split at success
  · rename_i star
    rw [if_pos rfl] at success
    obtain ⟨rfl, rfl⟩ := run_pure_ok.1 success
    exact ⟨_, .star _, run_token star⟩
  · rw [if_neg (by simp)] at success
    obtain ⟨owner, s₁, starred, item⟩ := run_bind_ok.1 success
    obtain ⟨rfl, isStar⟩ := run_starOwner_ok starred
    split at item
    · obtain ⟨isOwner, isDot, isStar⟩ := isStar _ rfl
      rw [run_advance_bind, run_advance_bind, run_advance_bind] at item
      obtain ⟨rfl, rfl⟩ := run_pure_ok.1 item
      have first : Run Context.EditsOnly s₁ _ s₁.advance := run_token isOwner
      have second : Run Context.EditsOnly s₁.advance _ s₁.advance.advance := run_token isDot
      exact ⟨_, .ownStar _ _ _ _, first.trans (second.trans (run_token isStar))⟩
    · obtain ⟨found, s₂, called, last⟩ := run_bind_ok.1 item
      obtain ⟨rfl, -⟩ := run_calledAggregate_ok called
      split at last
      · obtain ⟨keyword, word, opened, named⟩ := run_calledAggregate_some called
        exact aggregateItem_written reaches word opened named last
      · exact plainItem_written reaches last

end Grammar

/-! ## Lists of items -/

open Grammar in
/-- The select list of a shape is written by some tokens of the text, up to where the list stops; the
plain items of a list without repetitions are folded. -/
structure ResultShape.ListedBy (text : String) (shape : ResultShape) (list : List Token) : Prop where
  /-- The tokens stand in front of the token where the list stops. -/
  place : ∃ before stop after, Lexer.tokenize text = before ++ list ++ stop :: after ∧
    shape.selectListStop = stop.span.start
  /-- They are the items, with commas between them. -/
  items : ∃ index read,
    Separated (fun _ tokens item => SelectItem.WrittenBy text tokens item) index list read ∧
      (shape.items = read ∨ shape.items = foldDistinct read)

open Grammar in
/-- Each item of a select list that is not folded is written by some tokens of the list. -/
lemma ResultShape.ListedBy.located {text : String} {shape : ResultShape} {list : List Token}
    (h : shape.ListedBy text list) {item : SelectItem} (mem : item ∈ shape.items)
    (single : ∀ labels, item ≠ .distinct labels) : ∃ before tokens after,
      list = before ++ tokens ++ after ∧ item.WrittenBy text tokens := by
  obtain ⟨index, read, separated, isRead⟩ := h.items
  have mem' : item ∈ read := by
    rcases isRead with same | folded
    · rwa [same] at mem
    · rw [folded] at mem
      exact (mem_foldDistinct mem).resolve_left fun ⟨labels, same⟩ => single labels same
  exact separated.located item mem'

namespace Grammar

open SqlRouting.Parser TokenStream

variable {env : Environment} {rules : ShardingRule} {text : String} {s s' : ParserState}

/-- A list of items is written by its tokens. -/
lemma selectItems_written {items : List SelectItem} (reaches : Reaches text s)
    (success : (commaSeparated (selectItem rules)).run s = .ok (items, s')) :
    ∃ index list, Separated (fun _ tokens item => SelectItem.WrittenBy text tokens item) index list items ∧
      Run Context.EditsOnly s list s' := by
  have repeats := repeats_of_commaSeparated runs_selectItem success
  clear success
  suffices ∀ index, ∃ list,
      Separated (fun _ tokens item => SelectItem.WrittenBy text tokens item) index list items ∧
        Run Context.EditsOnly s list s' from ⟨0, this 0⟩
  induction repeats with
  | one last =>
    intro index
    obtain ⟨tokens, written, run⟩ := selectItem_written reaches last
    exact ⟨tokens, .one written, run⟩
  | cons first comma _ ih =>
    intro index
    obtain ⟨tokens, written, run⟩ := selectItem_written reaches first
    have passes : Passes _ _ := Steady.trans (Leads.related leads_selectItem first) (Advancing.token comma)
    obtain ⟨list, separated, run'⟩ := ih (reaches.passes passes) (index + placeholders tokens)
    exact ⟨_, .cons written rfl separated, run.trans ((run_token comma).trans run')⟩

/-- A select list that is read before anything else is known is written by its tokens. -/
lemma selectList_listed {shape : ResultShape} (reaches : Reaches text s)
    (success : (selectList rules {}).run s = .ok (shape, s')) : ∃ list, shape.ListedBy text list := by
  obtain ⟨distinct, items, s₁, passes, read, rfl⟩ := run_selectList_ok success
  have reaches₁ := reaches.passes passes
  obtain ⟨index, list, separated, run⟩ := selectItems_written reaches₁ read
  have leads : Leads Passes (commaSeparated (selectItem rules)) := Leads.list leads_selectItem
  have reaches' := reaches₁.passes (leads.related read)
  obtain ⟨before, whole⟩ := reaches₁.tokenize_eq
  obtain ⟨after, left⟩ := reaches'.current_mem
  refine ⟨list, ⟨before, s'.stream.current, after, ?_, rfl⟩, index, items, separated, ?_⟩
  · rw [whole, run.ahead_eq, List.append_assoc, left, List.append_assoc]
  · cases distinct with
    | true => exact .inr rfl
    | false => exact .inl rfl

end Grammar

/-! ## Looking up an alias -/

namespace ResultShape

open Text

/-- An item of a select list has the text of an expression, but for quotation marks, blanks and case. -/
def SameText (expression : String) (selected : SelectItem) : Prop :=
  sameName (withoutBlanks (unquoted selected.expression)) (withoutBlanks (unquoted expression)) = true

/-- An alias that is found is that of an item with the same text, or the expression is the alias of an item
itself. -/
lemma aliasOf_some {shape : ResultShape} {expression name : String}
    (found : shape.aliasOf? expression = some name) :
    (∃ selected ∈ shape.items, SameText expression selected ∧ selected.aliasName = some name) ∨
      name = unquoted expression ∧ ∃ selected ∈ shape.items, ∃ aliasName,
        selected.aliasName = some aliasName ∧ sameName aliasName (unquoted expression) = true := by
  rw [aliasOf?] at found
  split at found
  · cases found
  · generalize shape.items = items at found ⊢
    induction items with
    | nil => cases found
    | cons item items ih =>
      rw [findAlias?] at found
      split at found
      · rename_i same
        exact .inl ⟨item, List.mem_cons_self, sameName_symm same, found⟩
      · split at found
        · rename_i isAlias
          obtain ⟨aliasName, given, same⟩ := (Option.any_eq_true _ _).1 isAlias
          cases found
          exact .inr ⟨rfl, item, List.mem_cons_self, aliasName, given, sameName_symm same⟩
        · rcases ih found with ⟨selected, mem, rest⟩ | ⟨isName, selected, mem, rest⟩
          · exact .inl ⟨selected, List.mem_cons_of_mem _ mem, rest⟩
          · exact .inr ⟨isName, selected, List.mem_cons_of_mem _ mem, rest⟩

/-- Where the select list has no star, and no alias is found, there is an item with the same text that has
no alias, or the expression is no alias at all. -/
lemma aliasOf_none {shape : ResultShape} {expression : String} (noStar : shape.containsStar = false)
    (notFound : shape.aliasOf? expression = none) :
    (∃ selected ∈ shape.items, SameText expression selected ∧ selected.aliasName = none) ∨
      ∀ selected ∈ shape.items, ∀ aliasName, selected.aliasName = some aliasName →
        ¬ sameName aliasName (unquoted expression) = true := by
  rw [aliasOf?, noStar, if_neg (by simp)] at notFound
  generalize shape.items = items at notFound ⊢
  induction items with
  | nil => exact .inr (by simp)
  | cons item items ih =>
    rw [findAlias?] at notFound
    split at notFound
    · rename_i same
      exact .inl ⟨item, List.mem_cons_self, sameName_symm same, notFound⟩
    · split at notFound
      · cases notFound
      · rename_i noAlias
        rcases ih notFound with ⟨selected, mem, rest⟩ | others
        · exact .inl ⟨selected, List.mem_cons_of_mem _ mem, rest⟩
        · refine .inr (List.forall_mem_cons.2 ⟨fun aliasName given same => noAlias ?_, others⟩)
          rw [given]
          exact sameName_symm same

end ResultShape

/-! ## Items to order and group by -/

open Grammar in
/-- What an item to order or group by has from its tokens and from the select list. -/
structure OrderItem.ResolvedBy (text : String) (shape : ResultShape) (item : OrderItem) (part : List Token) :
    Prop where
  /-- The item is read from the tokens. -/
  read : ∃ raw, item.ReadFrom text part raw
  /-- A reference gives the item its names. -/
  named : ∀ names, referenceNames? text part = some names → (∀ name ∈ names, Lexer.IsName name) →
    item.qualifiedName? = some (".".intercalate names)
  /-- With a name the item has no position. -/
  unplaced : item.qualifiedName? ≠ none → item.index = none
  /-- Its alias is looked up under its name. -/
  resolved : item.aliasName = item.qualifiedName?.bind shape.aliasOf?

/-- Only the select list matters for what an item has. -/
lemma OrderItem.ResolvedBy.of_items {text : String} {shape shape' : ResultShape} {item : OrderItem}
    {part : List Token} (h : item.ResolvedBy text shape part) (sameItems : shape'.items = shape.items)
    (sameStar : shape'.containsStar = shape.containsStar) : item.ResolvedBy text shape' part where
  read := h.read
  named := h.named
  unplaced := h.unplaced
  resolved := by
    have same : shape'.aliasOf? = shape.aliasOf? := by
      funext expression
      rw [ResultShape.aliasOf?, ResultShape.aliasOf?, sameItems, sameStar]
    rw [same]
    exact h.resolved

namespace Grammar

open SqlRouting.Parser TokenStream

variable {env : Environment} {rules : ShardingRule} {text : String} {s s' : ParserState}

/-- A reference whose names are made of the characters of words is a lone shape. -/
lemma lone_of_referenceNames {part : List Token} {names : List String}
    (named : referenceNames? text part = some names) (areNames : ∀ name ∈ names, Lexer.IsName name)
    (index : Nat) :
    (∃ name, names = [name] ∧ Lone text index part (.bare name)) ∨
      ∃ owner name, names = [owner, name] ∧ Lone text index part (.qualified owner name) := by
  unfold referenceNames? at named
  split at named
  · cases named
    exact .inl ⟨_, rfl, .bare _ _⟩
  · rename_i owner span dot column
    obtain ⟨name, isColumn, rfl⟩ := Option.map_eq_some_iff.1 named
    refine .inr ⟨owner, name, rfl, .qualified _ _ _ _ _ isColumn ?_⟩
    rintro rfl
    have noWord : Lexer.isWordCharacter '*' = false := by decide +kernel
    have inWord := areNames "*" (by simp) '*' (by decide)
    rw [noWord] at inWord
    cases inWord
  · cases named

/-- The item that an expression gives has its name, and its alias is looked up under that name. -/
lemma itemOf_resolved {shape : ResultShape} {direction : OrderDirection} {span : Span}
    {node : ExpressionNode} {item : OrderItem} (success : itemOf shape direction span node = .ok item) :
    (∀ name, node = .bare name → item.qualifiedName? = some name) ∧
      (∀ owner name, node = .qualified owner name → item.qualifiedName? = some (owner ++ "." ++ name)) ∧
      (item.qualifiedName? ≠ none → item.index = none) ∧
      item.aliasName = item.qualifiedName?.bind shape.aliasOf? := by
  cases node with
  | number literal =>
    rw [itemOf] at success
    split at success
    · cases success
      exact ⟨by simp, by simp, fun named => absurd rfl named, rfl⟩
    · cases success
  | bare name =>
    cases success
    exact ⟨by simp [OrderItem.qualifiedName?], by simp, fun _ => rfl, rfl⟩
  | qualified owner name =>
    cases success
    exact ⟨by simp, by simp [OrderItem.qualifiedName?], fun _ => rfl, rfl⟩
  | other source =>
    cases success
    refine ⟨by simp, by simp, fun _ => rfl, ?_⟩
    show shape.aliasOf? source = shape.aliasOf? (Text.unquoted source)
    rw [ResultShape.aliasOf?, ResultShape.aliasOf?, unquoted_unquoted]
  | text | placeholder => cases success

/-- An item to order or group by has its names from its tokens, and its alias from the select list. -/
lemma orderItem_resolved {shape : ResultShape} {item : OrderItem} (reaches : Reaches text s)
    (success : (orderItem rules shape).run s = .ok (item, s')) :
    ∃ part, item.ResolvedBy text shape part := by
  obtain ⟨part, raw, isRead, direction, span, node, count, written, made⟩ := orderItem_reads reaches success
  obtain ⟨bare, qualified, unplaced, resolved⟩ := itemOf_resolved made
  refine ⟨part, ⟨raw, isRead⟩, fun names named areNames => ?_, unplaced, resolved⟩
  rcases lone_of_referenceNames named areNames count with ⟨name, rfl, lone⟩ | ⟨owner, name, rfl, lone⟩
  · rw [String.intercalate_singleton]
    exact bare name (written.eq_of_lone lone)
  · rw [String.intercalate_cons_cons, String.intercalate_singleton]
    exact qualified owner name (written.eq_of_lone lone)

end Grammar

/-! ## Levels -/

/-- The select list is read first, and only then. -/
def Dialect.SelectsFirst (dialect : Dialect) : Prop :=
  ∃ clauses, dialect.clauses = .selectList :: clauses ∧ .selectList ∉ clauses

/-- The select list of a shape is written by some tokens, and the items to order and group by are looked up
in it. -/
structure ResultShape.Resolved (text : String) (shape : ResultShape) : Prop where
  /-- The select list is written by tokens. -/
  listed : ∃ list, shape.ListedBy text list
  /-- The items are looked up in it. -/
  items : ∀ item ∈ shape.orderBy ++ shape.groupBy, ∃ part, item.ResolvedBy text shape part

/-- With the same select list, items that are looked up in it may be added. -/
lemma ResultShape.Resolved.grow {text : String} {shape shape' : ResultShape} (h : shape.Resolved text)
    (sameItems : shape'.items = shape.items) (sameStar : shape'.containsStar = shape.containsStar)
    (sameStop : shape'.selectListStop = shape.selectListStop)
    (added : ∀ item ∈ shape'.orderBy ++ shape'.groupBy,
      item ∈ shape.orderBy ++ shape.groupBy ∨ ∃ part, item.ResolvedBy text shape part) :
    shape'.Resolved text where
  listed := by
    obtain ⟨list, place, items⟩ := h.listed
    exact ⟨list, by rwa [sameStop], by rwa [sameItems]⟩
  items item mem := by
    obtain ⟨part, isResolved⟩ := (added item mem).elim (h.items item) id
    exact ⟨part, isResolved.of_items sameItems sameStar⟩

namespace Grammar

open SqlRouting.Parser

variable {env : Environment} {text : String} {s s' : ParserState} {known known' : PartialLevel}

/-- Items that are read after the select list are looked up in it. -/
lemma orderItems_resolved {shape : ResultShape} {items : List OrderItem} (reaches : Reaches text s)
    (success : (commaSeparated (orderItem env.rules shape)).run s = .ok (items, s')) :
    ∀ item ∈ items, ∃ part, item.ResolvedBy text shape part := by
  intro item mem
  obtain ⟨t, t', reached, read⟩ := reaches_of_commaSeparated (runs_orderItem shape)
    (leads_orderItem shape) reaches success item mem
  exact orderItem_resolved reached read

/-- Clauses after the select list keep it, and look up their items in it.

**Proof sketch.** A case for each clause: the ordering and the grouping add items, which are looked up in
the shape at that time, and no other clause changes what is said here. -/
lemma resolved_clause {level : Parser PartialLevel} {next : SelectClause} (noList : next ≠ .selectList)
    (reaches : Reaches text s) (resolved : ResultShape.Resolved text known.shape)
    (success : (clause env level known next).run s = .ok (known', s')) :
    ResultShape.Resolved text known'.shape := by
  cases next with
  | selectList => exact absurd rfl noList
  | tables | condition | groupCondition | trailing =>
    obtain ⟨_, s₁, read, done⟩ := run_bind_ok.1 success
    obtain ⟨rfl, rfl⟩ := run_pure_ok.1 done
    exact resolved
  | limit =>
    obtain ⟨shape, s₁, read, done⟩ := run_bind_ok.1 success
    obtain ⟨rfl, rfl⟩ := run_pure_ok.1 done
    rcases limit_reads read with ⟨rfl, rfl⟩ | ⟨-, limit, -, -, -, -, rfl, -, -⟩
    · exact resolved
    · exact resolved.grow rfl rfl rfl fun item mem => .inl mem
  | grouping =>
    obtain ⟨shape, s₁, read, done⟩ := run_bind_ok.1 success
    obtain ⟨rfl, rfl⟩ := run_pure_ok.1 done
    rcases run_grouping_ok read with ⟨rfl, -⟩ | ⟨keyword, added, t, t', word, behind, listRead, -, rfl⟩
    · exact resolved
    · have passes : Passes s t := Steady.trans (Advancing.token word) behind
      have new := orderItems_resolved (reaches.passes passes) listRead
      refine resolved.grow rfl rfl rfl fun item mem => ?_
      rw [← List.append_assoc, List.mem_append] at mem
      exact mem.imp id (new item)
  | ordering =>
    obtain ⟨shape, s₁, read, done⟩ := run_bind_ok.1 success
    obtain ⟨rfl, rfl⟩ := run_pure_ok.1 done
    rcases run_ordering_ok read with ⟨rfl, -⟩ | ⟨added, t, passes, listRead, rfl⟩
    · exact resolved
    · have new := orderItems_resolved (reaches.passes passes) listRead
      refine resolved.grow rfl rfl rfl fun item mem => ?_
      rw [List.mem_append, List.mem_append] at mem
      rcases mem with (mem | mem) | mem
      · exact .inl (List.mem_append_left _ mem)
      · exact .inr (new item mem)
      · exact .inl (List.mem_append_right _ mem)

/-- Items are looked up in the whole select list of their level, at each level, if select lists are read
first.

**Proof sketch.** Induction on the bound on the tokens, which bounds the levels below. The first clause of a
level reads its select list, and the others keep what is known of it. -/
lemma resolved_levelsUpTo (first : env.dialect.SelectsFirst) {n : Nat} :
    ∀ {s s' : ParserState} {known : PartialLevel}, Reaches text s →
      (levelsUpTo env n).run s = .ok (known, s') → ShapesHold (ResultShape.Resolved text) known := by
  induction n with
  | zero => exact fun _ success => absurd success run_unexpected_ne
  | succ n ih =>
    intro s s' known reaches success
    obtain ⟨_, s₁, accepted, rest⟩ := run_bind_ok.1 success
    obtain ⟨word, -, rfl⟩ := run_acceptKeyword_ok.1 accepted
    obtain ⟨clauses, isFirst, noList⟩ := first
    rw [isFirst, List.foldlM_cons] at rest
    obtain ⟨listed, t, selectRead, afterList⟩ := run_bind_ok.1 rest
    have passes : Leads Passes (levelsUpTo env n) := passes_levelsUpTo n
    have reaches₀ : Reaches text s.advance := reaches.passes (Advancing.token word)
    have reaches₁ := reaches₀.passes ((passes_clause passes _ _).related selectRead)
    obtain ⟨shape, t, listRead, done⟩ := run_bind_ok.1 selectRead
    obtain ⟨rfl, rfl⟩ := run_pure_ok.1 done
    have start : ResultShape.Resolved text shape := by
      refine ⟨selectList_listed reaches₀ listRead, ?_⟩
      obtain ⟨-, -, -, -, -, rfl⟩ := run_selectList_ok listRead
      simp
    refine (run_foldlM_keeps (P := fun now t => Reaches text t ∧ ShapesHold (ResultShape.Resolved text) now)
      (fun next mem now now' t t' holds read => ?_) ⟨reaches₁, start, by simp⟩ afterList).2
    obtain ⟨reached, own, below⟩ := holds
    have lower : ∀ t t' known, Reaches text t → (levelsUpTo env n).run t = .ok (known, t') →
        ShapesHold (ResultShape.Resolved text) known := fun _ _ _ reaches read => ih reaches read
    exact ⟨reached.passes ((passes_clause passes now next).related read),
      resolved_clause (fun isList => noList (isList ▸ mem)) reached own read,
      below_clause lower reached below read⟩

end Grammar

namespace SelectStatement

open Grammar SqlRouting.Parser

/-- **What an accepted query is prepared from**: a level whose items to order and group by are looked up in
its select list, and for which columns are derived under the names `orders` and `groups`. -/
structure PreparedFrom (env : Environment) (text : String) (query : SelectStatement) (level : SelectLevel)
    (orders groups : List (Option String)) : Prop where
  /-- The query is the prepared level. -/
  prepared : ({ toSelectLevel := level } : SelectStatement).prepare env.metadata = .ok query
  /-- The items of the level are looked up in its select list. -/
  resolved : level.shape.Resolved text
  /-- The columns that the level lacks are derived. -/
  derives : level.Derives env.metadata orders groups (level.deriveColumns env.metadata).level

variable {env : Environment} {text : String} {query : SelectStatement}

/-- An accepted query is prepared from a level. -/
lemma exists_preparedFrom (first : env.dialect.SelectsFirst)
    (success : Statement.ofText env text = .ok (.select query)) :
    ∃ level orders groups, query.PreparedFrom env text level orders groups := by
  obtain ⟨s, s', -, ⟨_, same, selected⟩ | ⟨_, same, -⟩⟩ := ofText_reads success
  · cases same
    obtain ⟨whole, s₁, read, prepared⟩ := run_bind_ok.1 selected
    obtain ⟨isPrepared, rfl⟩ := run_lift_ok.1 prepared
    obtain ⟨n, known, levelsRead, rfl⟩ := levels_run read
    obtain ⟨own, below⟩ := resolved_levelsUpTo first (Reaches.start text) levelsRead
    obtain ⟨derived, -⟩ := prepare_ok isPrepared
    obtain ⟨orders, groups, derives⟩ := SelectLevel.derives_of_success derived
    exact ⟨_, orders, groups, isPrepared, merge_shape (List.forall_mem_cons.2 ⟨own, below⟩), derives⟩
  · cases same

namespace PreparedFrom

variable {level : SelectLevel} {orders groups : List (Option String)}

/-- The select list of an accepted query goes on with derived columns, which are no stars. -/
lemma extends_level (h : query.PreparedFrom env text level orders groups) :
    query.toSelectLevel.Extends level ∧ query.shape.containsStar = level.shape.containsStar := by
  obtain ⟨-, rfl⟩ := prepare_ok h.prepared
  have same : (level.deriveColumns env.metadata).level.deriveOrdering.shape.items =
      (level.deriveColumns env.metadata).level.shape.items ∧
      (level.deriveColumns env.metadata).level.deriveOrdering.shape.containsStar =
        (level.deriveColumns env.metadata).level.shape.containsStar := by
    unfold SelectLevel.deriveOrdering
    split
    · exact ⟨rfl, rfl⟩
    · split <;> exact ⟨rfl, rfl⟩
  refine ⟨⟨OrderItem.columns level.shape.orderBy orders ++ OrderItem.columns level.shape.groupBy groups, ?_,
    List.forall_mem_append.2 ⟨OrderItem.ofDerived_of_mem_columns, OrderItem.ofDerived_of_mem_columns⟩⟩, ?_⟩
  · exact same.1.trans (by rw [h.derives.shape, List.append_assoc])
  · exact same.2.trans (by rw [h.derives.shape])

/-- An item to order or group by is looked up in the select list, and a column is added for it exactly if it
is not selected when it has its turn. -/
lemma turn (h : query.PreparedFrom env text level orders groups) {item : OrderItem} {added : Option String}
    (mem : (item, added) ∈ level.shape.orderBy.zip orders ++ level.shape.groupBy.zip groups) :
    ∃ (part : List Token) (extended : SelectLevel), item.ResolvedBy text level.shape part ∧
      extended.Extends level ∧ (added = none ↔ extended.Satisfies env.metadata item) := by
  have isItem : item ∈ level.shape.orderBy ++ level.shape.groupBy :=
    List.mem_append.2 ((List.mem_append.1 mem).imp (fun mem => (List.of_mem_zip mem).1)
      fun mem => (List.of_mem_zip mem).1)
  obtain ⟨part, resolved⟩ := h.resolved.items item isItem
  obtain ⟨extended, goesOn, added⟩ := h.derives.added_iff mem
  exact ⟨part, extended, resolved, goesOn, added⟩

end PreparedFrom

end SelectStatement

end SqlRouting
