import SqlRouting.Proofs.Inserted

/-!
# Names in front of a dot

A name in front of a dot is the owner of a column or of a star, or the schema of a table. In an accepted
query an owner is marked by an edit exactly where a reference to a column is read as such, and there is a
rule for a table of this name. Whether the name is an alias is not asked, the owner of a star in the
select list is passed without a mark, and so is everything in a group.

## Main definitions

* `SqlRouting.Edit.covers` — whether an edit is at a name that a token is a part of.
* `SqlRouting.Passage.Covers` — how edits cover a name in front of a dot.

## Main results

* `SqlRouting.SelectStatement.qualifiers_marked` — how the edits of a query cover names in front of dots.
* `SqlRouting.SelectStatement.owners_mismarked` — owners of stars and in groups are not marked, and an
  alias may be.
-/

set_option autoImplicit false

namespace SqlRouting

open TokenStream

/-- Whether an edit is at a name that `token` is a part of. -/
def Edit.covers (token : Token) : Edit → Bool
  | .table span _ _ => span.start ≤ token.span.start && token.span.stop ≤ span.stop
  | _ => false

/-- Only edits at names of tables cover anything. -/
lemma Edit.countP_covers_atNames (token : Token) (edits : List Edit) :
    (atNames edits).countP (covers token) = edits.countP (covers token) := by
  rw [atNames, List.countP_filter]
  refine List.countP_congr fun edit _ => ?_
  cases edit <;> simp [covers, kind]

namespace Passage

variable {rules : ShardingRule} {source : String} {passage : Passage} {owner dot : Token}

/-! ## Names in passages -/

/-- A passage starts with no dot. -/
lemma starts (readable : passage.Readable) :
    ∃ first rest, passage.tokens = first :: rest ∧ first.kind ≠ .symbol .dot := by
  have ofName {token : Token} (isName : token.name?.isSome = true) : token.kind ≠ .symbol .dot := by
    intro isDot
    rw [Token.name?, isDot] at isName
    cases isName
  cases passage with
  | single token => exact ⟨token, [], rfl, readable.2⟩
  | reference owner dot column => exact ⟨owner, [dot, column], rfl, ofName readable.1⟩
  | star owner dot mark => exact ⟨owner, [dot, mark], rfl, ofName readable.1⟩
  | source name => exact ⟨name, [], rfl, ofName readable⟩
  | schemaSource schema dot name => exact ⟨schema, [dot, name], rfl, ofName readable.1⟩
  | group tokens =>
    obtain ⟨-, first, rest, rfl, opens | opens⟩ := readable
    all_goals exact ⟨first, rest, rfl, by simp [opens]⟩

/-- A token and the dot after it are in one passage.

**Proof sketch.** Induction on the passages. The token is in the first one or in the others; if it is
the last of the first one, the dot starts another, which no passage does. -/
lemma exists_of_dot {passages : List Passage} (readable : ∀ passage ∈ passages, passage.Readable)
    {before after : List Token} (isDot : dot.kind = .symbol .dot)
    (split : passages.flatMap tokens = before ++ owner :: dot :: after) :
    ∃ front passage back start rest, passages = front ++ passage :: back ∧
      before = front.flatMap tokens ++ start ∧ passage.tokens = start ++ owner :: dot :: rest := by
  induction passages generalizing before with
  | nil => simp at split
  | cons first others ih =>
    obtain ⟨-, readableOthers⟩ := List.forall_mem_cons.1 readable
    have later {before' : List Token} (whole : before = first.tokens ++ before')
        (split' : others.flatMap tokens = before' ++ owner :: dot :: after) :
        ∃ front passage back start rest, first :: others = front ++ passage :: back ∧
          before = front.flatMap tokens ++ start ∧ passage.tokens = start ++ owner :: dot :: rest := by
      obtain ⟨front, passage, back, start, rest, rfl, rfl, inside⟩ := ih readableOthers split'
      exact ⟨first :: front, passage, back, start, rest, rfl, by rw [whole, List.flatMap_cons,
        List.append_assoc], inside⟩
    rw [List.flatMap_cons] at split
    rcases List.append_eq_append_iff.1 split with ⟨before', whole, split'⟩ | ⟨last, inside, split'⟩
    · exact later whole split'
    · match last with
      | [] =>
        have whole : before = first.tokens ++ [] := by rw [inside, List.append_nil, List.append_nil]
        exact later whole split'.symm
      | [token] =>
        obtain ⟨-, split'⟩ := List.cons.inj split'
        cases others with
        | nil => cases split'
        | cons next others =>
          obtain ⟨head, tail, starts, noDot⟩ := starts (readableOthers next List.mem_cons_self)
          rw [List.flatMap_cons, starts] at split'
          rw [← (List.cons.inj split').1, isDot] at noDot
          exact absurd rfl noDot
      | token :: token' :: rest =>
        obtain ⟨sameOwner, split'⟩ := List.cons.inj split'
        obtain ⟨sameDot, -⟩ := List.cons.inj split'
        exact ⟨[], first, others, before, rest, rfl, rfl, by rw [inside, sameOwner, sameDot]⟩

/-! ## Edits that cover names -/

/-- Edits of a passage behind a token do not cover it. -/
lemma not_covers_after {edit : Edit} {token : Token} (proper : token.span.start < token.span.stop)
    (later : ∀ other ∈ passage.tokens, token.span.stop ≤ other.span.start)
    (mem : edit ∈ passage.edits rules source) : edit.covers token = false := by
  obtain ⟨span, name, written, rfl, ⟨other, isOther, start⟩, -⟩ := mem_edits mem
  have far := later other isOther
  have beyond : ¬ span.start ≤ token.span.start := by omega
  simp [Edit.covers, beyond]

/-- Edits of a passage in front of a token do not cover it. -/
lemma not_covers_before {edit : Edit} {token : Token} (proper : token.span.start < token.span.stop)
    (earlier : ∀ other ∈ passage.tokens,
      other.span.start < other.span.stop ∧ other.span.stop ≤ token.span.start)
    (mem : edit ∈ passage.edits rules source) : edit.covers token = false := by
  obtain ⟨span, name, written, rfl, -, other, isOther, stop⟩ := mem_edits mem
  obtain ⟨properOther, far⟩ := earlier other isOther
  have short : ¬ token.span.stop ≤ span.stop := by omega
  simp [Edit.covers, short]

/-- How edits cover a name in front of a dot: the owner of a reference is covered by one edit if there is a
rule for it, the schema of a table by one, and the owner of a star or a name within a group by none. -/
inductive Covers (rules : ShardingRule) (edits : List Edit) (owner dot : Token) : Passage → Prop
  /-- The owner of a reference is covered if there is a rule for it. -/
  | reference {column : Token} (count : edits.countP (Edit.covers owner) =
      if (rules.find? (owner.name?.getD "")).isSome then 1 else 0) :
      Covers rules edits owner dot (.reference owner dot column)
  /-- The owner of a star is not covered. -/
  | star {mark : Token} (count : edits.countP (Edit.covers owner) = 0) :
      Covers rules edits owner dot (.star owner dot mark)
  /-- The schema of a table is covered with the name of the table. -/
  | schema {name : Token} (count : edits.countP (Edit.covers owner) = 1) :
      Covers rules edits owner dot (.schemaSource owner dot name)
  /-- Within a group nothing is covered. -/
  | group {start rest : List Token} (count : edits.countP (Edit.covers owner) = 0) :
      Covers rules edits owner dot (.group (start ++ owner :: dot :: rest))

/-- A name and a dot among three tokens, the second of which is a dot, are the first two of them. -/
lemma first_of_three {a b c : Token} {start rest : List Token} (isDot : b.kind = .symbol .dot)
    (isName : owner.name?.isSome = true) (same : [a, b, c] = start ++ owner :: dot :: rest) :
    owner = a ∧ dot = b := by
  rcases start with - | ⟨x, - | ⟨y, start⟩⟩
  · cases same
    exact ⟨rfl, rfl⟩
  · cases same
    rw [Token.name?, isDot] at isName
    cases isName
  · have length := congrArg List.length same
    simp only [List.length_append, List.length_cons, List.length_nil] at length
    omega

/-- The edits of its own passage cover a name in front of a dot as it is read. -/
lemma covers_own {start rest : List Token} (readable : passage.Readable)
    (inside : passage.tokens = start ++ owner :: dot :: rest) (isName : owner.name?.isSome = true)
    (ordered : passage.tokens.Pairwise fun a b => a.span.stop ≤ b.span.start)
    (proper : ∀ token ∈ passage.tokens, token.span.start < token.span.stop) :
    Covers rules (passage.edits rules source) owner dot passage := by
  cases passage with
  | single token | source token =>
    have length := congrArg List.length inside
    simp only [tokens, List.length_append, List.length_cons, List.length_nil] at length
    omega
  | star first second mark =>
    obtain ⟨rfl, rfl⟩ := first_of_three readable.2.1 isName inside
    exact .star rfl
  | group tokens =>
    obtain rfl : tokens = start ++ owner :: dot :: rest := inside
    exact .group rfl
  | reference first second column =>
    obtain ⟨rfl, rfl⟩ := first_of_three readable.2.1 isName inside
    have before : owner.span.stop ≤ dot.span.start :=
      (List.pairwise_cons.1 ordered).1 dot (by simp)
    refine .reference ?_
    simp only [edits]
    split
    · simp [Edit.covers, before]
    · rfl
  | schemaSource first second name =>
    obtain ⟨rfl, rfl⟩ := first_of_three readable.2.1 isName inside
    have before : owner.span.stop ≤ name.span.start :=
      (List.pairwise_cons.1 ordered).1 name (by simp)
    have properName := proper name (by simp [tokens])
    have within : owner.span.stop ≤ name.span.stop := by omega
    refine .schema ?_
    simp [edits, nameEdit, Edit.covers, within]

/-- How edits cover a name depends on their number only. -/
lemma Covers.of_count {edits edits' : List Edit} (h : Covers rules edits owner dot passage)
    (same : edits'.countP (Edit.covers owner) = edits.countP (Edit.covers owner)) :
    Covers rules edits' owner dot passage := by
  cases h with
  | reference count => exact .reference (same.trans count)
  | star count => exact .star (same.trans count)
  | schema count => exact .schema (same.trans count)
  | group count => exact .group (same.trans count)

/-- Tokens that stand apart from a token cover it by no edits. -/
lemma countP_covers_eq_zero {passages : List Passage} {token : Token}
    (apart : ∀ passage ∈ passages, ∀ edit ∈ passage.edits rules source, edit.covers token = false) :
    (passages.flatMap (Passage.edits rules source)).countP (Edit.covers token) = 0 := by
  rw [List.countP_eq_zero]
  intro edit mem
  obtain ⟨passage, isPassage, mem⟩ := List.mem_flatMap.1 mem
  simp [apart passage isPassage edit mem]

/-- The edits of passages in order cover a name in front of a dot as the edits of its own passage do.

**Proof sketch.** An edit of a passage is at a name between the start of its first token and the end of
its last one, and the tokens stand one after the other. -/
lemma countP_covers_eq {front back : List Passage}
    (ordered : ((front ++ passage :: back).flatMap tokens).Pairwise fun a b =>
      a.span.stop ≤ b.span.start)
    (proper : ∀ token ∈ (front ++ passage :: back).flatMap tokens, token.span.start < token.span.stop)
    {token : Token} {start rest : List Token} (inside : passage.tokens = start ++ token :: rest) :
    ((front ++ passage :: back).flatMap (Passage.edits rules source)).countP (Edit.covers token) =
      (passage.edits rules source).countP (Edit.covers token) := by
  have isProper := proper token (by simp [inside])
  simp only [List.flatMap_append, List.flatMap_cons, List.pairwise_append, List.mem_append] at ordered proper
  obtain ⟨-, ⟨-, -, behind⟩, before⟩ := ordered
  have isMember : token ∈ passage.tokens := by simp [inside]
  have earlier : (front.flatMap (Passage.edits rules source)).countP (Edit.covers token) = 0 := by
    refine countP_covers_eq_zero fun other isOther edit mem => ?_
    refine not_covers_before isProper (fun first isFirst => ?_) mem
    have isFront := List.mem_flatMap.2 ⟨other, isOther, isFirst⟩
    exact ⟨proper first (.inl isFront), before first isFront token (.inl isMember)⟩
  have later : (back.flatMap (Passage.edits rules source)).countP (Edit.covers token) = 0 := by
    refine countP_covers_eq_zero fun other isOther edit mem => ?_
    refine not_covers_after isProper (fun last isLast => ?_) mem
    exact behind token isMember last (List.mem_flatMap.2 ⟨other, isOther, isLast⟩)
  rw [List.flatMap_append, List.flatMap_cons, List.countP_append, List.countP_append, earlier, later]
  omega

end Passage

namespace SelectStatement

open Grammar

/-- In an accepted query, a name in front of a dot is the owner of a reference to a column, the owner of a
star in the select list, the schema of a table, or within a group. An owner of a reference is covered by
one edit if there is a rule for it, and by none otherwise; the schema of a table is covered by one; and the
others by none, whatever rules and tables there are.

**Proof sketch.** The parse passes the text in passages and marks the names of each. Preparing the query
marks no more of them, and no passage marks a name in another one. -/
theorem qualifiers_marked {env : Environment} {text : String} {query : SelectStatement}
    (once : env.dialect.clauses.count .tables ≤ 1)
    (success : Statement.ofText env text = .ok (.select query)) :
    ∃ passages : List Passage, (∀ passage ∈ passages, passage.Readable) ∧
      Lexer.tokens text = passages.flatMap Passage.tokens ∧
      (Edit.atNames query.context.edits).Perm (passages.flatMap (Passage.edits env.rules text)) ∧
      ∀ before owner dot after, Lexer.tokens text = before ++ owner :: dot :: after →
        owner.name?.isSome = true → dot.kind = .symbol .dot →
        ∃ front passage back start rest, passages = front ++ passage :: back ∧
          before = front.flatMap Passage.tokens ++ start ∧
          passage.tokens = start ++ owner :: dot :: rest ∧
          Passage.Covers env.rules query.context.edits owner dot passage := by
  obtain ⟨level, passages, trail, prepared⟩ := query_trail once success
  obtain ⟨fragments, orders, -, edits, isOrder⟩ := prepare_edits prepared
  have names : Edit.atNames query.context.edits = Edit.atNames level.context.edits := by
    have items : Edit.atNames (if fragments.isEmpty then []
        else [.items level.shape.selectListStop fragments]) = [] := by
      split <;> rfl
    have ordering : Edit.atNames orders = [] := by
      rcases isOrder with rfl | ⟨stop, -, rfl⟩ <;> rfl
    rw [edits, Edit.atNames_append, Edit.atNames_append, items, ordering, List.append_nil,
      List.append_nil]
  have marked := trail.names
  rw [← names] at marked
  refine ⟨passages, trail.readable, trail.tokens, marked, ?_⟩
  intro before owner dot after split isName isDot
  rw [trail.tokens] at split
  obtain ⟨front, passage, back, start, rest, rfl, rfl, inside⟩ :=
    Passage.exists_of_dot trail.readable isDot split
  refine ⟨front, passage, back, start, rest, rfl, rfl, inside, ?_⟩
  obtain ⟨_, first⟩ := Lexer.firstTokens_of_valid (Nat.le_refl _) trail.valid
  have ordered := first.ordered
  have proper : ∀ token ∈ Lexer.tokens text, token.span.start < token.span.stop :=
    fun token mem => (first.within token mem).2.1
  change (Lexer.tokens text).Pairwise _ at ordered
  rw [trail.tokens] at ordered proper
  have own : Passage.Covers env.rules (passage.edits env.rules text) owner dot passage :=
    Passage.covers_own (trail.readable passage (by simp)) inside isName (ordered.sublist (by simp))
      fun token mem => proper token (by simp [mem])
  refine own.of_count ?_
  rw [← Edit.countP_covers_atNames, marked.countP_eq, Passage.countP_covers_eq ordered proper inside]

/-- The text is accepted as a query with some tables, in which a name in front of a dot is covered by
`count` edits. -/
def OwnerCovered (env : Environment) (text : String) (owner dot : Token) (tables : Tables)
    (count : Nat) : Prop :=
  ∃ query, Statement.ofText env text = .ok (.select query) ∧ query.context.tables = tables ∧
    [owner, dot] <:+: Lexer.tokens text ∧ query.context.edits.countP (Edit.covers owner) = count

/-- The owner of a selected column is covered by one edit, as there is a rule for it. -/
theorem qualifiers_marked_reference :
    ∃ (env : Environment) (text : String) (query : SelectStatement) (owner dot column : Token)
        (passage : Passage),
      Statement.ofText env text = .ok (.select query) ∧
        [owner, dot, column] <:+: Lexer.tokens text ∧
        query.context.tables = ⟨[⟨"t_order", none⟩]⟩ ∧
        Passage.Covers env.rules query.context.edits owner dot passage ∧
        query.context.edits.countP (Edit.covers owner) = 1 := by
  let env : Environment := { rules := ⟨[{ table := "t_order", shardingColumns := ["user_id"] }]⟩ }
  let text := "SELECT T_ORDER.a FROM t_order"
  let owner : Token := ⟨.identifier "T_ORDER", ⟨7, 14⟩⟩
  let dot : Token := ⟨.symbol .dot, ⟨14, 15⟩⟩
  let column : Token := ⟨.identifier "a", ⟨15, 16⟩⟩
  let before : List Token := [⟨.keyword .SELECT, ⟨0, 6⟩⟩]
  let after : List Token := [⟨.keyword .FROM, ⟨17, 21⟩⟩, ⟨.identifier "t_order", ⟨22, 29⟩⟩]
  have seen : (query? env text).map (fun query => (query.context.tables,
      query.context.edits.countP (Edit.covers owner))) = some (⟨[⟨"t_order", none⟩]⟩, 1) := by
    decide +kernel
  have split : Lexer.tokens text = before ++ owner :: dot :: column :: after := by
    decide +kernel
  obtain ⟨query, success, same⟩ := exists_of_query seen
  obtain ⟨tables, count⟩ := Prod.mk.inj same
  obtain ⟨passages, -, -, -, marked⟩ := qualifiers_marked (by decide) success
  obtain ⟨_, passage, _, _, _, -, -, -, covers⟩ := marked _ owner dot _ split rfl rfl
  exact ⟨env, text, query, owner, dot, column, passage, success, ⟨before, after, split.symm⟩, tables,
    covers, count⟩

/-- The owner of a star and an owner in the group of a call are not covered, though the table that they
name has a rule and no alias; and an alias is covered that is the name of a table with a rule. -/
theorem owners_mismarked :
    ∃ env : Environment, (env.rules.find? "t_order").isSome = true ∧
      OwnerCovered env "SELECT t_order.* FROM t_order"
        ⟨.identifier "t_order", ⟨7, 14⟩⟩ ⟨.symbol .dot, ⟨14, 15⟩⟩ ⟨[⟨"t_order", none⟩]⟩ 0 ∧
      OwnerCovered env "SELECT COUNT(t_order.a) FROM t_order"
        ⟨.identifier "t_order", ⟨13, 20⟩⟩ ⟨.symbol .dot, ⟨20, 21⟩⟩ ⟨[⟨"t_order", none⟩]⟩ 0 ∧
      OwnerCovered env "SELECT t_order.a FROM u t_order"
        ⟨.identifier "t_order", ⟨7, 14⟩⟩ ⟨.symbol .dot, ⟨14, 15⟩⟩ ⟨[⟨"u", some "t_order"⟩]⟩ 1 := by
  let env : Environment := { rules := ⟨[{ table := "t_order", shardingColumns := ["user_id"] }]⟩ }
  have covered {text : String} {owner dot : Token} {tables : Tables} {count : Nat}
      (stands : [owner, dot] <:+: Lexer.tokens text)
      (seen : (query? env text).map (fun query => (query.context.tables,
        query.context.edits.countP (Edit.covers owner))) = some (tables, count)) :
      OwnerCovered env text owner dot tables count := by
    obtain ⟨query, success, same⟩ := exists_of_query seen
    obtain ⟨isTables, counted⟩ := Prod.mk.inj same
    exact ⟨query, success, isTables, stands, counted⟩
  refine ⟨env, by decide +kernel, covered ?_ ?_, covered ?_ ?_, covered ?_ ?_⟩ <;> decide +kernel

end SelectStatement

end SqlRouting
