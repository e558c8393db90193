import SqlRouting.Proofs.Edges

/-!
# The layout of edits

An edit marks a part of the text that is replaced, or a place where text is inserted. While a statement
is read from left to right, edits are recorded at the tokens that are passed, so each of them lies behind
those that are there already, and nothing is inserted inside of what is replaced. This is kept by every
parser that passes tokens and records edits at them, whatever the levels around it have recorded.

## Main definitions

* `SqlRouting.Edit.Apart` — two edits change parts of the text that do not overlap.
* `SqlRouting.Edit.Sound` — an edit that replaces says truly what it replaces.
* `SqlRouting.Laid` — the edits at a state of a parse are laid out behind each other.
* `SqlRouting.Lays` — a step that keeps the layout.

## Main results

* `SqlRouting.Laid.record`, `SqlRouting.Laid.insert` — edits that may be added.
* `SqlRouting.Grammar.lays_limit`, `lays_namedTable`, `lays_reference` — what records edits keeps the
  layout.
-/

set_option autoImplicit false

namespace SqlRouting

open TokenStream SqlRouting.Parser

/-! ## Edits and parts of the text -/

namespace Edit

/-- Whether an edit marks a part of the text that is replaced. -/
def replaces (edit : Edit) : Bool :=
  [EditKind.table, .offset, .rowCount].contains edit.kind

/-- Where the part of the text ends that an edit changes. An edit that inserts text ends where it
starts. -/
def stop : Edit → Nat
  | .table span _ _ => span.stop
  | .offset span _ => span.stop
  | .rowCount span _ => span.stop
  | edit => edit.start

/-- Two edits change parts of the text that do not overlap; nothing is inserted inside of what is
replaced. -/
def Apart (a b : Edit) : Prop :=
  a.stop ≤ b.start ∨ b.stop ≤ a.start

/-- A place is not inside of the part of the text that an edit changes. -/
def Clear (place : Nat) (edit : Edit) : Prop :=
  place ≤ edit.start ∨ edit.stop ≤ place

/-- An edit says truly what it replaces: the text of a name, or a decimal numeral with its value. -/
def Faithful (text : String) : Edit → Prop
  | .table span _ written => written = span.text text
  | .offset span value => Text.decimal? (span.text text) = some value
  | .rowCount span value => Text.decimal? (span.text text) = some value
  | _ => True

/-- What an edit replaces is not empty, stands between characters, and is what the edit says. -/
structure Sound (text : String) (edit : Edit) : Prop where
  /-- It is not empty. -/
  proper : edit.replaces = true → edit.start < edit.stop
  /-- It starts between characters. -/
  starts : edit.replaces = true → Text.Between text edit.start
  /-- It stops between characters. -/
  stops : edit.replaces = true → Text.Between text edit.stop
  /-- It is what the edit says. -/
  faithful : edit.Faithful text

variable {a b edit : Edit} {place : Nat} {text : String}

/-- It does not matter which of two edits comes first. -/
lemma Apart.symm (h : Apart a b) : Apart b a :=
  h.elim .inr .inl

instance : Std.Symm Apart :=
  ⟨fun _ _ => Apart.symm⟩

/-- An edit that replaces nothing ends where it starts. -/
lemma stop_of_inserts (inserts : edit.replaces = false) : edit.stop = edit.start := by
  cases edit with
  | items | orderBy | insertColumns | insertValues => rfl
  | _ => cases inserts

/-- An edit that replaces nothing is sound. -/
lemma sound_of_inserts (inserts : edit.replaces = false) : edit.Sound text := by
  refine ⟨by simp [inserts], by simp [inserts], by simp [inserts], ?_⟩
  cases edit with
  | items | orderBy | insertColumns | insertValues => trivial
  | _ => cases inserts

/-- Two edits that replace nothing are apart. -/
lemma apart_of_inserts (ha : a.replaces = false) (hb : b.replaces = false) : Apart a b := by
  unfold Apart
  rw [stop_of_inserts ha, stop_of_inserts hb]
  exact Nat.le_total _ _

/-- No place is inside of an edit that replaces nothing. -/
lemma clear_of_inserts (inserts : edit.replaces = false) : edit.Clear place := by
  unfold Clear
  rw [stop_of_inserts inserts]
  exact Nat.le_total _ _

/-- An edit that inserts text at a clear place is apart from what is replaced. -/
lemma Clear.apart (h : b.Clear a.start) (inserts : a.replaces = false) : Apart a b := by
  unfold Apart
  rw [stop_of_inserts inserts]
  exact h

end Edit

/-! ## Places at a state -/

namespace Reaches

variable {text : String} {s : ParserState}

/-- The current token starts between characters. -/
lemma between_offset (h : Reaches text s) : Text.Between text s.stream.offset := by
  rcases h.boundary_offset with ⟨-, atEnd⟩ | boundary
  · exact ⟨text.toList, [], (List.append_nil _).symm, atEnd.symm⟩
  · exact boundary.between

/-- The token read last stops between characters. -/
lemma between_previousEnd (h : Reaches text s) : Text.Between text s.stream.previousEnd :=
  h.boundary_previousEnd.between

end Reaches

/-! ## Edits at tokens -/

namespace Edit

/-- An edit is sound, and is made at the tokens that are passed between two states. -/
structure MadeBetween (text : String) (s s' : ParserState) (edit : Edit) : Prop where
  /-- It is sound. -/
  sound : edit.Sound text
  /-- It starts at the first of these tokens, or later. -/
  first : s.stream.offset ≤ edit.start
  /-- It stops at the last of them, or before. -/
  last : edit.stop ≤ s'.stream.previousEnd

variable {text : String} {s s₁ s' : ParserState} {a b edit : Edit}

/-- An edit at some of the tokens that are passed is one at all of them. -/
lemma MadeBetween.mono {t t' : ParserState} (h : edit.MadeBetween text t t')
    (first : s.stream.offset ≤ t.stream.offset) (last : t'.stream.previousEnd ≤ s'.stream.previousEnd) :
    edit.MadeBetween text s s' :=
  ⟨h.sound, Nat.le_trans first h.first, Nat.le_trans h.last last⟩

/-- Edits at different tokens are apart. -/
lemma MadeBetween.apart (ha : a.MadeBetween text s s₁) (hb : b.MadeBetween text s₁ s')
    (reaches : Reaches text s₁) : Apart a b :=
  .inl (Nat.le_trans ha.last (Nat.le_trans reaches.previousEnd_le hb.first))

end Edit

/-! ## Layouts -/

/-- The edits that are recorded at a state of a parse of a text, and `others` that were recorded on the
way, are sound and apart. All of them end before the current token, and those that replace something
even before the end of the token read last. None of `places`, which are passed too, is inside of what is
replaced. -/
structure Laid (text : String) (others : List Edit) (places : List Nat) (s : ParserState) : Prop where
  /-- The parse reaches the state. -/
  reaches : Reaches text s
  /-- The edits are sound. -/
  sound : ∀ edit ∈ others ++ s.context.edits, edit.Sound text
  /-- They are apart. -/
  apart : (others ++ s.context.edits).Pairwise Edit.Apart
  /-- They are passed. -/
  behind : ∀ edit ∈ others ++ s.context.edits, edit.stop ≤ s.stream.offset ∧
    (edit.replaces = true → edit.stop ≤ s.stream.previousEnd)
  /-- No place is inside of one. -/
  clear : ∀ place ∈ places, ∀ edit ∈ others ++ s.context.edits, edit.Clear place
  /-- The places are passed. -/
  passed : ∀ place ∈ places, place ≤ s.stream.offset

namespace Laid

variable {text : String} {others others' added : List Edit} {places places' : List Nat} {edit : Edit}
variable {s s' : ParserState}

/-- At the start nothing is recorded. -/
lemma start (text : String) : Laid text [] [] ⟨.ofText text, {}⟩ :=
  ⟨.start text, by simp, by simp, by simp, by simp, by simp⟩

/-- Edits at tokens that are passed may be added, if they are apart. -/
lemma record (h : Laid text others places s) (passes : Passes s s')
    (edits : s'.context.edits = s.context.edits ++ added)
    (made : ∀ edit ∈ added, edit.MadeBetween text s s') (apart : added.Pairwise Edit.Apart) :
    Laid text others places s' := by
  have reaches := h.reaches.passes passes
  have offset := h.reaches.offset_le passes
  have previous := h.reaches.previousEnd_mono passes
  have order := reaches.previousEnd_le
  have whole : others ++ s'.context.edits = (others ++ s.context.edits) ++ added := by
    rw [edits, List.append_assoc]
  constructor
  case reaches => exact reaches
  case passed => exact fun place mem => Nat.le_trans (h.passed place mem) offset
  all_goals rw [whole]
  case sound => exact List.forall_mem_append.2 ⟨h.sound, fun edit mem => (made edit mem).sound⟩
  case apart =>
    refine List.pairwise_append.2 ⟨h.apart, apart, fun a isOld b isNew => .inl ?_⟩
    exact Nat.le_trans (h.behind a isOld).1 (made b isNew).first
  case behind =>
    refine List.forall_mem_append.2 ⟨fun edit mem => ?_, fun edit mem => ?_⟩
    · obtain ⟨before, last⟩ := h.behind edit mem
      exact ⟨Nat.le_trans before offset, fun replaces => Nat.le_trans (last replaces) previous⟩
    · have last := (made edit mem).last
      exact ⟨Nat.le_trans last order, fun _ => last⟩
  case clear =>
    refine fun place isPlace => List.forall_mem_append.2 ⟨h.clear place isPlace, fun edit mem => .inl ?_⟩
    exact Nat.le_trans (h.passed place isPlace) (made edit mem).first

/-- Moving on without recording an edit keeps the layout. -/
lemma moves (h : Laid text others places s) (passes : Passes s s')
    (same : s'.context.edits = s.context.edits) : Laid text others places s' :=
  h.record passes (by rw [same, List.append_nil]) (by simp) .nil

/-- Where the parse stands, a place is not inside of any edit. -/
lemma clear_here (h : Laid text others places s) {place : Nat} (low : s.stream.previousEnd ≤ place)
    (mem : edit ∈ others ++ s.context.edits) : edit.Clear place := by
  cases replaces : edit.replaces with
  | true => exact .inr (Nat.le_trans ((h.behind edit mem).2 replaces) low)
  | false => exact Edit.clear_of_inserts replaces

/-- Text may be inserted where the parse stands. -/
lemma insert (h : Laid text others places s) (inserts : edit.replaces = false)
    (low : s.stream.previousEnd ≤ edit.start) (high : edit.start ≤ s.stream.offset) :
    Laid text others places { s with context := s.context.addEdit edit } := by
  have whole : others ++ (s.context.addEdit edit).edits = (others ++ s.context.edits) ++ [edit] :=
    (List.append_assoc ..).symm
  constructor
  case reaches => exact h.reaches.of_stream rfl
  case passed => exact h.passed
  all_goals
    dsimp only
    rw [whole]
  case sound =>
    exact List.forall_mem_append.2 ⟨h.sound, List.forall_mem_singleton.2 (Edit.sound_of_inserts inserts)⟩
  case apart =>
    refine List.pairwise_append.2 ⟨h.apart, List.pairwise_singleton .., fun a isOld b isNew => ?_⟩
    obtain rfl := List.mem_singleton.1 isNew
    exact ((h.clear_here low isOld).apart inserts).symm
  case behind =>
    refine List.forall_mem_append.2 ⟨h.behind, List.forall_mem_singleton.2 ⟨?_, by simp [inserts]⟩⟩
    rwa [Edit.stop_of_inserts inserts]
  case clear =>
    exact fun place mem => List.forall_mem_append.2 ⟨h.clear place mem,
      List.forall_mem_singleton.2 (Edit.clear_of_inserts inserts)⟩

/-- A place where the parse stands may be noted. -/
lemma note (h : Laid text others places s) {place : Nat} (low : s.stream.previousEnd ≤ place)
    (high : place ≤ s.stream.offset) : Laid text others (place :: places) s :=
  ⟨h.reaches, h.sound, h.apart, h.behind,
    List.forall_mem_cons.2 ⟨fun _ mem => h.clear_here low mem, h.clear⟩,
    List.forall_mem_cons.2 ⟨high, h.passed⟩⟩

/-- Nothing is replaced around the start of the text. -/
lemma noteStart (h : Laid text others places s) : Laid text others (0 :: places) s :=
  ⟨h.reaches, h.sound, h.apart, h.behind,
    List.forall_mem_cons.2 ⟨fun _ _ => .inl (Nat.zero_le _), h.clear⟩,
    List.forall_mem_cons.2 ⟨Nat.zero_le _, h.passed⟩⟩

/-- Places may be forgotten. -/
lemma mono (h : Laid text others places s) (sub : ∀ place ∈ places', place ∈ places) :
    Laid text others places' s :=
  ⟨h.reaches, h.sound, h.apart, h.behind, fun place mem => h.clear place (sub place mem),
    fun place mem => h.passed place (sub place mem)⟩

/-- Edits may be forgotten, and it does not matter in which order they are listed, or where. -/
lemma rearrange (h : Laid text others places s) (stream : s'.stream = s.stream)
    (sub : (others' ++ s'.context.edits).Subperm (others ++ s.context.edits)) :
    Laid text others' places s' := by
  obtain ⟨listed, perm, sublist⟩ := sub
  have mem {edit : Edit} (mem : edit ∈ others' ++ s'.context.edits) :
      edit ∈ others ++ s.context.edits := sublist.subset (perm.mem_iff.2 mem)
  constructor
  case reaches => exact h.reaches.of_stream stream
  case sound => exact fun edit isEdit => h.sound edit (mem isEdit)
  case apart => exact (perm.pairwise_iff Edit.Apart.symm).1 (h.apart.sublist sublist)
  case behind =>
    rw [stream]
    exact fun edit isEdit => h.behind edit (mem isEdit)
  case clear => exact fun place isPlace edit isEdit => h.clear place isPlace edit (mem isEdit)
  case passed =>
    rw [stream]
    exact h.passed

end Laid

/-- The layout of edits is kept from one state to another, whatever else is recorded. -/
def Lays (text : String) (s s' : ParserState) : Prop :=
  ∀ others places, Laid text others places s → Laid text others places s'

/-- Some valid tokens are passed between two states, and no edit is recorded. -/
def PassesSilently (s s' : ParserState) : Prop :=
  Passes s s' ∧ s'.context.edits = s.context.edits

instance : Passing PassesSilently where
  refl s := ⟨Steady.refl s, rfl⟩
  trans first second := ⟨Steady.trans first.1 second.1, second.2.trans first.2⟩
  token same valid noDot := ⟨Advancing.token same valid noDot, rfl⟩
  group isBrackets opens split := ⟨Passing.group isBrackets opens split, rfl⟩
  record same := ⟨passes_of_stream rfl, same⟩

/-- Passing tokens without recording an edit keeps the layout. -/
lemma PassesSilently.lays {text : String} {s s' : ParserState} (h : PassesSilently s s') :
    Lays text s s' :=
  fun _ _ laid => laid.moves h.1 h.2

instance (text : String) : Passing (Lays text) where
  refl _ := fun _ _ laid => laid
  trans first second := fun others places laid => second others places (first others places laid)
  token same valid noDot :=
    have silent : PassesSilently _ _ := Advancing.token same valid noDot
    silent.lays
  group isBrackets opens split :=
    have silent : PassesSilently _ _ := Passing.group isBrackets opens split
    silent.lays
  record same :=
    have silent : PassesSilently _ _ := Passing.record same
    silent.lays

namespace Grammar

variable {text : String} {rules : ShardingRule} {s s' : ParserState}

/-! ## What records edits -/

/-- A step past any valid token passes it. -/
lemma passes_token {kind : TokenKind} (same : s.stream.kind = kind) (valid : kind.isBroken = false) :
    Passes s s.advance := by
  refine ⟨[⟨kind, s.stream.current.span⟩], List.forall_mem_singleton.2 valid, ahead_of_kind same ?_, rfl⟩
  rintro rfl
  cases valid

/-- An owner is marked from its start up to the dot. -/
lemma lays_reference {owner : String} {result : Unit}
    (isOwner : s.stream.kind = .identifier owner) (isDot : s.advance.stream.kind = .symbol .dot)
    (isName : namesColumn s.advance.advance.stream.kind = true)
    (recorded : (recordOwner rules owner ⟨s.stream.offset, s.advance.stream.offset⟩).run
      s.advance.advance.advance = .ok (result, s')) : Lays text s s' := by
  intro others places laid
  have first : Passes s s.advance := passes_token isOwner rfl
  have second : Passes s.advance s.advance.advance := passes_token isDot rfl
  have third : Passes s.advance.advance s.advance.advance.advance :=
    passes_token rfl (Passage.valid_of_namesColumn isName)
  have passes : Passes s s.advance.advance.advance := Steady.trans first (Steady.trans second third)
  have atDot := laid.reaches.passes first
  have before := (laid.reaches.edge_previousEnd isOwner (by simp) (Steady.refl s.advance)).2
  have after := (atDot.edge_previousEnd isDot (by simp) third).2
  unfold recordOwner at recorded
  split at recorded
  · cases recorded
    refine laid.record (Steady.trans passes (passes_of_stream rfl)) rfl
      (List.forall_mem_singleton.2 ⟨?_, Nat.le_refl _, Nat.le_of_lt after⟩) (List.pairwise_singleton ..)
    refine ⟨fun _ => Nat.lt_of_lt_of_le before atDot.previousEnd_le,
      fun _ => laid.reaches.between_offset, fun _ => atDot.between_offset, ?_⟩
    show Span.text _ s.stream.source = _
    rw [laid.reaches.source_eq]
  · obtain ⟨-, rfl⟩ := run_pure_ok.1 recorded
    exact laid.moves passes rfl

/-- The name of a table is not empty, and stops where its last token does. -/
lemma tableName_proper {name : String} {stop : Nat} (reaches : Reaches text s)
    (success : tableName.run s = .ok ((name, stop), s')) :
    PassesSilently s s' ∧ s'.stream.previousEnd = stop ∧ s.stream.offset < stop := by
  obtain ⟨passage, last, readable, ahead, stream, context, -, stops, edits⟩ := tableName_passes ⟨[]⟩ success
  have passes : Passes s s' := ⟨passage.tokens, Passage.valid readable, ahead, stream⟩
  refine ⟨⟨passes, by rw [context]⟩, stops, stops ▸ (reaches.stays_or_passes passes).resolve_left ?_⟩
  intro stays
  rw [stays] at ahead
  have empty : passage.tokens = [] := by simpa using ahead
  cases passage <;> simp [Passage.tokens, Passage.edits] at empty edits

/-- A named table is marked from the start of its schema up to the end of its name. -/
lemma lays_namedTable : Leads (Lays text) namedTable := by
  intro s result s' _ success others places laid
  rw [namedTable, looks_offset.run_bind] at success
  obtain ⟨⟨name, stop⟩, s₁, named, success⟩ := run_bind_ok.1 success
  obtain ⟨aliasName, s₂, aliased, success⟩ := run_bind_ok.1 success
  rw [(looks_textOf _).run_bind] at success
  cases success
  obtain ⟨⟨first, unmarked⟩, stops, proper⟩ := tableName_proper laid.reaches named
  obtain ⟨second, same⟩ := (leads_aliasName (R := PassesSilently)).related aliased
  have atName := laid.reaches.passes first
  have passes : Passes s s₂ := Steady.trans first second
  let edit : Edit := .table ⟨s.stream.offset, stop⟩ (Text.unquoted name)
    (Span.text ⟨s.stream.offset, stop⟩ s₂.stream.source)
  have edits : s₂.context.edits ++ [edit] = s.context.edits ++ [edit] := by rw [same, unmarked]
  refine laid.record (Steady.trans passes (passes_of_stream rfl)) edits (List.forall_mem_singleton.2
    ⟨⟨fun _ => proper, fun _ => laid.reaches.between_offset, fun _ => ?_, ?_⟩, Nat.le_refl _, ?_⟩)
    (List.pairwise_singleton ..)
  · show Text.Between text stop
    rw [← stops]
    exact atName.between_previousEnd
  · show Span.text _ _ = Span.text _ _
    rw [(laid.reaches.passes passes).source_eq]
  · show stop ≤ s₂.stream.previousEnd
    rw [← stops]
    exact atName.previousEnd_mono second

/-! ## Limits -/

/-- What is written at a number is its literal. -/
lemma text_number {literal : String} (reaches : Reaches text s) (isNumber : s.stream.kind = .number literal) :
    s.stream.current.span.text text = literal := by
  obtain ⟨passed, valid, split⟩ := reaches.exists_passed
  rw [ahead_of_kind isNumber (by simp)] at split
  obtain ⟨raw, cut, written⟩ := Lexer.exists_cut split valid rfl
  exact written.trans cut.eq_literal

/-- An operand of a limit is the current token. Where it is a number, an edit is made at it. -/
lemma limitValue_made {operand : LimitValue × Span} {make : Span → Nat → Edit}
    (isNumber : make = .offset ∨ make = .rowCount) (reaches : Reaches text s)
    (success : limitValue.run s = .ok (operand, s')) :
    PassesSilently s s' ∧ ∀ edit ∈ limitEdit make operand, edit.MadeBetween text s s' := by
  refine ⟨leads_limitValue.related success, ?_⟩
  rw [limitValue, looks_current.run_bind] at success
  split at success
  · rename_i literal same
    have number : s.stream.kind = .number literal := same
    have token : Passes s s.advance := passes_token number rfl
    have proper := (reaches.edge_previousEnd number (by simp) (Steady.refl s.advance)).2
    rw [run_advance_bind] at success
    split at success
    · rename_i value fits
      obtain ⟨rfl, rfl⟩ := run_pure_ok.1 success
      refine List.forall_mem_singleton.2 ?_
      have between := (reaches.passes token).between_previousEnd
      have written : Text.decimal? (s.stream.current.span.text text) = some value := by
        rw [text_number reaches number]
        exact (Option.filter_eq_some_iff.1 fits).1
      rcases isNumber with rfl | rfl
      all_goals exact ⟨⟨fun _ => proper, fun _ => reaches.between_offset, fun _ => between, written⟩,
        Nat.le_refl _, Nat.le_refl _⟩
    · cases success
  · obtain ⟨index, s₁, read, done⟩ := run_bind_ok.1 success
    obtain ⟨rfl, -⟩ := run_pure_ok.1 done
    simp [limitEdit]
  · exact absurd success run_unexpected_ne

/-- An operand gives one edit at most. -/
lemma pairwise_limitEdit (make : Span → Nat → Edit) (operand : LimitValue × Span) :
    (limitEdit make operand).Pairwise Edit.Apart := by
  rcases operand with ⟨value | index, span⟩
  · exact List.pairwise_singleton ..
  · exact .nil

/-- The edits of two operands, one behind the other, are made at their tokens and are apart. -/
lemma twoOperands_made {first second : LimitValue × Span} {make make' : Span → Nat → Edit}
    {s₁ t : ParserState} (reaches : Reaches text s) (isNumber : make = .offset ∨ make = .rowCount)
    (isNumber' : make' = .offset ∨ make' = .rowCount) (firstRead : limitValue.run s = .ok (first, s₁))
    (between : PassesSilently s₁ t) (secondRead : limitValue.run t = .ok (second, s')) :
    PassesSilently s s' ∧
      (∀ edit ∈ limitEdit make first ++ limitEdit make' second, edit.MadeBetween text s s') ∧
      (limitEdit make first ++ limitEdit make' second).Pairwise Edit.Apart := by
  obtain ⟨silent, made⟩ := limitValue_made isNumber reaches firstRead
  have reaches₁ := reaches.passes silent.1
  have later := reaches₁.passes between.1
  obtain ⟨silent', made'⟩ := limitValue_made isNumber' later secondRead
  have rest : PassesSilently s₁ s' := Steady.trans between silent'
  refine ⟨Steady.trans silent rest, List.forall_mem_append.2 ⟨fun edit mem => ?_, fun edit mem => ?_⟩,
    List.pairwise_append.2 ⟨pairwise_limitEdit make first, pairwise_limitEdit make' second,
      fun a isFirst b isSecond => ?_⟩⟩
  · exact (made edit mem).mono (Nat.le_refl _) (reaches₁.previousEnd_mono rest.1)
  · refine (made' edit mem).mono ?_ (Nat.le_refl _)
    exact Nat.le_trans (reaches.offset_le silent.1) (reaches₁.offset_le between.1)
  · exact (made a isFirst).apart ((made' b isSecond).mono (reaches₁.offset_le between.1) (Nat.le_refl _))
      reaches₁

/-- The edits of the operands of a limit are made at their tokens and are apart, in either order. -/
lemma limitOperands_made {style : LimitStyle} {operands : Option (LimitValue × Span) × LimitValue × Span}
    (reaches : Reaches text s) (success : (limitOperands style).run s = .ok (operands, s')) :
    PassesSilently s s' ∧ (∀ edit ∈ limitEdits operands, edit.MadeBetween text s s') ∧
      (limitEdits operands).Pairwise Edit.Apart := by
  obtain ⟨first, s₁, firstRead, rest⟩ := run_bind_ok.1 success
  rw [(looks_checkSymbol _).run_bind] at rest
  split at rest
  · rename_i separated
    rw [Bool.and_eq_true, check_symbol] at separated
    rw [run_advance_bind] at rest
    obtain ⟨second, s₂, secondRead, done⟩ := run_bind_ok.1 rest
    obtain ⟨rfl, rfl⟩ := run_pure_ok.1 done
    have between : PassesSilently s₁ s₁.advance := Advancing.token separated.2
    have whole : limitEdits (some first, second) = limitEdit .offset first ++ limitEdit .rowCount second := by
      simp [limitEdits]
    rw [whole]
    exact twoOperands_made reaches (.inl rfl) (.inr rfl) firstRead between secondRead
  · rw [run_skipKeyword_bind] at rest
    split at rest
    · rename_i present
      obtain ⟨keyword, -, word⟩ := checkAnyKeyword_iff.1 present
      obtain ⟨second, s₂, secondRead, done⟩ := run_bind_ok.1 rest
      obtain ⟨rfl, rfl⟩ := run_pure_ok.1 done
      have between : PassesSilently s₁ s₁.advance := Advancing.token word
      -- the number of rows to skip stands behind the number of rows here
      have swapped : (limitEdits (some second, first)).Perm
          (limitEdit .rowCount first ++ limitEdit .offset second) := by
        simpa [limitEdits] using List.perm_append_comm
      obtain ⟨silent, made, apart⟩ :=
        twoOperands_made reaches (.inr rfl) (.inl rfl) firstRead between secondRead
      exact ⟨silent, fun edit mem => made edit (swapped.mem_iff.1 mem),
        (swapped.pairwise_iff Edit.Apart.symm).2 apart⟩
    · obtain ⟨rfl, rfl⟩ := run_pure_ok.1 rest
      obtain ⟨silent, made⟩ := limitValue_made (.inr rfl) reaches firstRead
      exact ⟨silent, made, pairwise_limitEdit _ first⟩

/-- The numbers of a limit are marked. -/
lemma lays_limit (style : LimitStyle) (shape : ResultShape) : Leads (Lays text) (limit style shape) := by
  intro s shape' s' _ success others places laid
  rw [limit, looks_offset.run_bind, run_skipKeyword_bind] at success
  split at success
  · rename_i present
    obtain ⟨keyword, -, word⟩ := checkAnyKeyword_iff.1 present
    obtain ⟨operands, s₁, read, rest⟩ := run_bind_ok.1 success
    obtain ⟨_, s₂, edited, rest⟩ := run_bind_ok.1 rest
    rw [looks_previousEnd.run_bind, run_pure_ok] at rest
    obtain ⟨-, rfl⟩ := rest
    have token : PassesSilently s s.advance := Advancing.token word
    have entered := laid.moves token.1 token.2
    obtain ⟨silent, made, apart⟩ := limitOperands_made entered.reaches read
    obtain rfl := addEdits_ok.1 edited
    refine entered.record (Steady.trans silent.1 (passes_of_stream rfl)) ?_ (fun edit mem => ?_) apart
    · exact congrArg (· ++ limitEdits operands) silent.2
    · exact (made edit mem).mono (Nat.le_refl _) (Nat.le_refl _)
  · obtain ⟨-, rfl⟩ := run_pure_ok.1 success
    exact laid

/-- A star with its owner is passed without an edit. -/
lemma lays_star {owner : String} (isOwner : s.stream.kind = .identifier owner)
    (isDot : s.advance.stream.kind = .symbol .dot)
    (isStar : s.advance.advance.stream.kind = .symbol .star) :
    Lays text s s.advance.advance.advance := by
  have passes : Passes s s.advance.advance.advance :=
    Steady.trans (passes_token isOwner rfl) (Steady.trans (passes_token isDot rfl) (passes_token isStar rfl))
  have silent : PassesSilently s s.advance.advance.advance := ⟨passes, rfl⟩
  exact silent.lays

instance (text : String) (rules : ShardingRule) : Recording rules (Lays text) where
  reference := lays_reference
  star := lays_star
  namedTable := lays_namedTable
  limit := lays_limit

end Grammar

end SqlRouting
