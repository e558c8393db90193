import SqlRouting.Proofs.Extract
import SqlRouting.Proofs.Segments

/-!
# Tokens around an insertion

A text that is inserted where the reading of another can be stopped leaves the tokens in front of it
where they are, and moves those behind it by its own length. What is written between two places stays
the same on either side.

## Main definitions

* `SqlRouting.Token.moved` — a token further on in a text.
* `SqlRouting.Lexer.Plain` — a name that is read as one token by itself, which stands for it.
* `SqlRouting.Lexer.Grown` — a text with another inserted, and the tokens of both.

## Main results

* `SqlRouting.Text.slice_before`, `SqlRouting.Text.slice_behind` — what is written on either side of an
  insertion.
* `SqlRouting.Lexer.grown_of_tokens`, `SqlRouting.Lexer.grown_of_cuts` — the tokens of a text with an
  insertion.
* `SqlRouting.Lexer.Plain.word` — a name that stands for itself is a word.
-/

set_option autoImplicit false

namespace SqlRouting

/-- A token `d` bytes further on in a text. -/
def Token.moved (d : Nat) (token : Token) : Token :=
  ⟨token.kind, ⟨token.span.start + d, token.span.stop + d⟩⟩

/-- A token is of the same kind wherever it stands. -/
@[simp] lemma Token.kind_moved (d : Nat) (token : Token) : (token.moved d).kind = token.kind := rfl

/-- A token that is not moved is the same. -/
@[simp] lemma Token.moved_zero (token : Token) : token.moved 0 = token := rfl

/-! ## Bytes -/

namespace Text

variable {front rest cs : List Char} {n : Nat}

/-- Dropping bytes of the front of a text keeps the rest. -/
lemma dropBytes_of_le (within : n ≤ byteLength front) (rest : List Char) :
    dropBytes? n (front ++ rest) = (dropBytes? n front).map (· ++ rest) := by
  induction front generalizing n with
  | nil =>
    obtain rfl : n = 0 := Nat.le_zero.1 within
    simp [dropBytes?]
  | cons c front ih =>
    cases n with
    | zero => simp [dropBytes?]
    | succ n =>
      simp only [List.cons_append, dropBytes?]
      split
      · rw [byteLength] at within
        exact ih (by omega)
      · rfl

/-- Taking bytes of the front of a text takes nothing of the rest. -/
lemma takeBytes_of_le (within : n ≤ byteLength front) (rest : List Char) :
    takeBytes? n (front ++ rest) = takeBytes? n front := by
  induction front generalizing n with
  | nil =>
    obtain rfl : n = 0 := Nat.le_zero.1 within
    simp [takeBytes?]
  | cons c front ih =>
    cases n with
    | zero => simp [takeBytes?]
    | succ n =>
      simp only [List.cons_append, takeBytes?]
      split
      · rw [byteLength] at within
        rw [ih (by omega)]
      · rfl

/-- Dropping bytes leaves a text that is shorter by them. -/
lemma byteLength_of_dropBytes (dropped : dropBytes? n cs = some rest) :
    byteLength cs = n + byteLength rest := by
  induction cs generalizing n with
  | nil =>
    cases n with
    | zero => cases dropped; rfl
    | succ n => cases dropped
  | cons c cs ih =>
    cases n with
    | zero =>
      cases dropped
      exact (Nat.zero_add _).symm
    | succ n =>
      rw [dropBytes?] at dropped
      split at dropped
      · have left := ih dropped
        rw [byteLength]
        omega
      · cases dropped

/-- Dropping more bytes than the front of a text has drops the rest of them from what follows. -/
lemma dropBytes_add (front rest : List Char) (n : Nat) :
    dropBytes? (byteLength front + n) (front ++ rest) = dropBytes? n rest := by
  induction front with
  | nil => rw [byteLength, Nat.zero_add, List.nil_append]
  | cons c front ih =>
    obtain ⟨m, same⟩ := Nat.exists_eq_add_one.2
      (Nat.add_pos_left (byteLength_cons_pos c front) n)
    rw [same, List.cons_append, dropBytes?, ← same, byteLength, if_pos (by omega)]
    rw [Nat.add_assoc, Nat.add_sub_cancel_left, ih]

variable {text other : String} {front' rest' : List Char} {start stop d : Nat}

/-- What is written within the front of a text does not depend on what follows. -/
lemma slice_before (whole : text.toList = front ++ rest) (whole' : other.toList = front ++ rest')
    (isStart : start ≤ byteLength front) (isStop : stop ≤ byteLength front) :
    slice other start stop = slice text start stop := by
  unfold slice
  split
  · rw [whole, whole', dropBytes_of_le isStart, dropBytes_of_le isStart]
    cases dropped : dropBytes? start front with
    | none => rfl
    | some left =>
      have shorter := byteLength_of_dropBytes dropped
      have within : stop - start ≤ byteLength left := by omega
      simp only [Option.map_some, Option.bind_some, takeBytes_of_le within]
  · rfl

/-- What is written behind the front of a text is written as far behind another one. -/
lemma slice_behind (whole : text.toList = front ++ rest) (whole' : other.toList = front' ++ rest)
    (longer : byteLength front' = byteLength front + d) (isStart : byteLength front ≤ start) :
    slice other (start + d) (stop + d) = slice text start stop := by
  obtain ⟨m, rfl⟩ := Nat.exists_eq_add_of_le isStart
  have place : byteLength front + m + d = byteLength front' + m := by omega
  have size : stop + d - (byteLength front + m + d) = stop - (byteLength front + m) := by omega
  unfold slice
  rw [size, place, whole, whole', dropBytes_add, dropBytes_add]
  by_cases ordered : byteLength front + m ≤ stop
  · rw [if_pos ordered, if_pos (by omega)]
  · rw [if_neg ordered, if_neg (by omega)]

end Text

/-! ## Tokens -/

namespace Lexer

open Text

variable {cs front rest other : List Char} {kinds more : List TokenKind} {total d : Nat}

/-- The tokens that cuts give are moved with the text. -/
lemma Cuts.tokensFrom_moved (cuts : Cuts cs kinds rest) (bound : byteLength cs ≤ total) :
    ∃ front, tokensFrom total cs = front ++ tokensFrom total rest ∧
      tokensFrom (total + d) cs = front.map (Token.moved d) ++ tokensFrom (total + d) rest := by
  induction cuts with
  | refl cs => exact ⟨[], rfl, rfl⟩
  | @cut cs middle rest kinds more first others ih =>
    obtain ⟨c, taken, rfl⟩ := first.exists_front
    have longer := byteLength_append (c :: taken) middle
    obtain ⟨front, later, later'⟩ := ih (by omega)
    rcases first.kinds_cases with rfl | ⟨kind, rfl, -⟩
    · exact ⟨front, first.tokensFrom_trivia.trans later, first.tokensFrom_trivia.trans later'⟩
    · refine ⟨⟨kind, _⟩ :: front, first.tokensFrom_token.trans (congrArg _ later), ?_⟩
      have start := Nat.sub_add_comm (m := d) bound
      have stop := Nat.sub_add_comm (m := d) (by omega : byteLength middle ≤ total)
      rw [first.tokensFrom_token, later', start, stop]
      rfl

/-- Valid tokens of a text are moved with it. -/
lemma tokensFrom_moved (valid : ∀ token ∈ tokensFrom total cs, token.kind.isBroken = false)
    (bound : byteLength cs ≤ total) :
    tokensFrom (total + d) cs = (tokensFrom total cs).map (Token.moved d) := by
  obtain ⟨rest, cuts, ended, -, -⟩ := cuts_of_tokens (List.append_nil _).symm valid
  have ended' : tokensFrom (total + d) rest = [] := by
    rw [← List.map_eq_nil_iff (f := Token.kind), map_kind_tokensFrom, ← map_kind_tokensFrom total,
      ended]
    rfl
  obtain ⟨front, before, moved⟩ := cuts.tokensFrom_moved (d := d) bound
  rw [moved, before, ended, ended', List.append_nil, List.append_nil]

/-- The tokens that cuts give stand where they are in a text that goes on with something else.

**Proof sketch.** Induction on the cuts. The tokens behind the first cut stand behind the `k` bytes in
front of the text and those of the cut. -/
lemma Cuts.tokensFrom_replace (cuts : Cuts (front ++ rest) kinds rest) (divided : Divided front other)
    (k : Nat) :
    ∃ before, tokensFrom (k + byteLength (front ++ rest)) (front ++ rest) =
        before ++ tokensFrom (k + byteLength (front ++ rest)) rest ∧
      tokensFrom (k + byteLength (front ++ other)) (front ++ other) =
        before ++ tokensFrom (k + byteLength (front ++ other)) other := by
  generalize whole : front ++ rest = cs at cuts
  induction cuts generalizing front k with
  | refl cs =>
    obtain rfl : front = [] := by simpa using whole
    exact ⟨[], rfl, rfl⟩
  | @cut cs middle rest kinds more first others ih =>
    obtain ⟨c, taken, rfl⟩ := first.exists_front
    obtain ⟨between, rfl⟩ := others.suffix
    obtain rfl : front = (c :: taken) ++ between := by
      rw [← List.append_assoc] at whole
      exact List.append_cancel_right whole
    obtain ⟨before, later, later'⟩ := ih divided.behind (k + byteLength (c :: taken)) rfl
    have again := first.replace_divided divided
    have size (last : List Char) : k + byteLength ((c :: taken) ++ between ++ last) =
        k + byteLength (c :: taken) + byteLength (between ++ last) := by
      rw [List.append_assoc, byteLength_append, Nat.add_assoc]
    rw [size other, ← List.append_assoc (c :: taken), size rest, List.append_assoc, List.append_assoc]
    rcases first.kinds_cases with rfl | ⟨kind, rfl, -⟩
    · exact ⟨before, first.tokensFrom_trivia.trans later, again.tokensFrom_trivia.trans later'⟩
    · refine ⟨⟨kind, ⟨k, k + byteLength (c :: taken)⟩⟩ :: before, ?_, ?_⟩
      · rw [first.tokensFrom_token, later, byteLength_append (c :: taken)]
        simp only [List.cons_append, List.cons.injEq, Token.mk.injEq, Span.mk.injEq, and_true, true_and]
        omega
      · rw [again.tokensFrom_token, later', byteLength_append (c :: taken)]
        simp only [List.cons_append, List.cons.injEq, Token.mk.injEq, Span.mk.injEq, and_true, true_and]
        omega

/-- The tokens of some cuts are those of another text that starts like the first and goes on with something
else. -/
lemma Cuts.tokens_replace {text grown : String} {before after : List Token}
    (whole : text.toList = front ++ rest) (whole' : grown.toList = front ++ other)
    (split : tokens text = before ++ after) (cuts : Cuts text.toList (before.map Token.kind) rest)
    (divided : Divided front other) :
    tokens text = before ++ tokensFrom (byteLength text.toList) rest ∧
      tokens grown = before ++ tokensFrom (byteLength grown.toList) other ∧
      ∀ token ∈ before, token.span.start < token.span.stop ∧ token.span.stop ≤ byteLength front := by
  obtain ⟨found, first⟩ := cuts.firstTokens (Nat.le_refl _)
  have same : before ++ after = found ++ tokensFrom (byteLength text.toList) rest := by
    rw [← split, tokens, first.tokens]
  have lengths : before.length = found.length := by
    rw [← List.length_map (f := Token.kind), ← first.kinds, List.length_map]
  obtain ⟨rfl, -⟩ := List.append_inj same lengths
  have start : Cuts (front ++ rest) (before.map Token.kind) rest := whole ▸ cuts
  obtain ⟨front', here, there⟩ := start.tokensFrom_replace divided 0
  simp only [Nat.zero_add, ← whole, ← whole'] at here there
  obtain rfl : before = front' := List.append_cancel_right (first.tokens.symm.trans here)
  refine ⟨here, there, fun token mem => ?_⟩
  obtain ⟨-, proper, stop⟩ := first.within token mem
  rw [whole, byteLength_append, Nat.add_sub_cancel] at stop
  exact ⟨proper, stop⟩

/-- The text `grown` is `text` with something of `d` bytes inserted at `place`: the tokens `before` are
those in front of it, `inserted` are its own, and `after` are those behind it. -/
structure Grown (text grown : String) (place d : Nat) (before inserted after : List Token) : Prop where
  /-- The tokens of the text. -/
  tokens : tokens text = before ++ after
  /-- The tokens with those of the insertion. -/
  tokens_grown : Lexer.tokens grown = before ++ (inserted ++ after.map (Token.moved d))
  /-- The tokens in front of the insertion stand in front of its place. -/
  before : ∀ token ∈ before, token.span.start < token.span.stop ∧ token.span.stop ≤ place
  /-- The tokens behind the insertion stand behind its place. -/
  after : ∀ token ∈ after, place ≤ token.span.start ∧ token.span.start < token.span.stop
  /-- What is written in front of the place stays. -/
  slice_before : ∀ {start stop : Nat}, start ≤ place → stop ≤ place →
    slice grown start stop = slice text start stop
  /-- What is written behind the place moves. -/
  slice_behind : ∀ {start stop : Nat}, place ≤ start →
    slice grown (start + d) (stop + d) = slice text start stop
  /-- The place stands within the text. -/
  within : place ≤ byteLength text.toList
  /-- The text grows by what is inserted. -/
  length : byteLength grown.toList = byteLength text.toList + d

/-- A text with `piece` inserted where the tokens of another are those in front of the place and those
behind it, and where they go on with those of `piece` instead. -/
lemma grown_of_tokens {text grown : String} {piece : List Char} {before inserted : List Token}
    (whole : text.toList = front ++ rest) (whole' : grown.toList = front ++ (piece ++ rest))
    (split : tokens text = before ++ tokensFrom (byteLength text.toList) rest)
    (split' : tokens grown = before ++ (inserted ++ tokensFrom (byteLength grown.toList) rest))
    (within : ∀ token ∈ before,
      token.span.start < token.span.stop ∧ token.span.stop ≤ byteLength front)
    (valid : ∀ token ∈ tokensFrom (byteLength text.toList) rest, token.kind.isBroken = false) :
    Grown text grown (byteLength front) (byteLength piece) before inserted
      (tokensFrom (byteLength text.toList) rest) := by
  have size : byteLength text.toList = byteLength front + byteLength rest := by
    rw [whole, byteLength_append]
  have size' : byteLength grown.toList = byteLength text.toList + byteLength piece := by
    rw [whole', byteLength_append, byteLength_append, size]
    omega
  have bound : byteLength rest ≤ byteLength text.toList := by
    rw [size]
    exact Nat.le_add_left _ _
  obtain ⟨_, behind⟩ := firstTokens_of_valid bound valid
  refine ⟨split, ?_, within, ?_, ?_, ?_, ?_, size'⟩
  · rw [split', size', tokensFrom_moved valid bound]
  · intro token mem
    obtain ⟨start, proper, -⟩ := behind.within token mem
    exact ⟨by omega, proper⟩
  · intro start stop isStart isStop
    exact Text.slice_before whole whole' isStart isStop
  · intro start stop isStart
    rw [← List.append_assoc] at whole'
    exact Text.slice_behind whole whole' (byteLength_append front piece) isStart
  · rw [size]
    exact Nat.le_add_right _ _

/-- A text that is inserted where the reading of another was stopped, starts with a separator and is cut
off what follows, leaves the tokens of the other as they are. -/
lemma grown_of_cuts {text grown : String} {piece : List Char} {before after : List Token}
    (whole : text.toList = front ++ rest) (whole' : grown.toList = front ++ (piece ++ rest))
    (split : tokens text = before ++ after) (cuts : Cuts text.toList (before.map Token.kind) rest)
    (apart : Apart (piece ++ rest)) (own : Cuts (piece ++ rest) more rest)
    (valid : ∀ token ∈ tokens text, token.kind.isBroken = false) :
    ∃ inserted, inserted.map Token.kind = more ∧
      Grown text grown (byteLength front) (byteLength piece) before inserted after := by
  obtain ⟨here, there, within⟩ := cuts.tokens_replace whole whole' split (.inl apart.detached)
  obtain rfl : after = tokensFrom (byteLength text.toList) rest :=
    List.append_cancel_left (split.symm.trans here)
  -- the tokens of the insertion
  have bound : byteLength (piece ++ rest) ≤ byteLength grown.toList := by
    rw [whole', byteLength_append front]
    exact Nat.le_add_left _ _
  obtain ⟨inserted, second⟩ := own.firstTokens bound
  refine ⟨inserted, second.kinds, grown_of_tokens whole whole' split ?_ within fun token mem => ?_⟩
  · rw [there, second.tokens]
  · refine valid token ?_
    rw [split]
    exact List.mem_append_right _ mem

/-! ## Names -/

/-- The name is read as one token by itself, which is the name. -/
def Plain (name : String) : Prop :=
  (tokens name).map Token.kind = [.identifier name]

instance (name : String) : Decidable (Plain name) :=
  inferInstanceAs (Decidable (_ = _))

/-- The value of enclosed text is shorter than what is read for it. -/
lemma length_value_of_enclosed {closing : Char} {escapes : Bool} {value : List Char}
    (read : enclosed? closing escapes cs = some (value, rest)) : value.length < cs.length := by
  obtain ⟨written, rfl, encloses⟩ := exists_encloses read
  clear read
  refine Nat.lt_of_lt_of_le ?_ (List.sublist_append_left written rest).length_le
  induction encloses with
  | close => exact Nat.one_pos
  | doubled _ ih | escaped _ _ _ ih | plain _ _ _ ih =>
    simp only [List.length_cons]
    omega

/-- A token that is a name is a word, or longer than its name. -/
lemma scan_identifier {c : Char} {name : String} (read : (scan c cs).1 = .identifier name) :
    scan c cs = scanWord c cs ∧ isWordStart c = true ∨ name.toList.length ≤ cs.length := by
  have scanned := scanner c
  generalize scan c = scans at scanned read ⊢
  cases scanned with
  | symbol => cases read
  | string => exact absurd read (scanEnclosed_ne (by simp) (by simp [Fault.kind]))
  | name =>
    unfold scanEnclosed at read
    split at read
    · rename_i value rest isValue
      rw [← TokenKind.identifier.inj read, String.toList_ofList]
      exact .inr (Nat.le_of_lt (length_value_of_enclosed isValue))
    · cases read
  | userVariable => exact absurd read (scanVariable_ne (by simp) (by simp [Fault.kind]))
  | number => exact absurd read (scanNumber_ne (by simp))
  | word isWord => exact .inl ⟨rfl, isWord⟩
  | unexpected => cases read

/-- No character of a word is a quotation mark. -/
lemma noQuote {c : Char} (inWord : isWordCharacter c = true ∨ isWordStart c = true) :
    isQuotationMark c = false := by
  rw [← Bool.not_eq_true]
  intro isQuote
  simp only [isQuotationMark, Bool.or_eq_true, beq_iff_eq] at isQuote
  revert inWord
  rcases isQuote with (((rfl | rfl) | rfl) | rfl) | rfl <;> decide +kernel

/-- A name that stands for itself is a word, without quotation marks.

**Proof sketch.** The token of the name is a word, because the value of a quoted name is shorter than the
text; and the word is the whole text, because it is as long. -/
lemma Plain.word {name : String} (plain : Plain name) :
    Word name.toList ∧ wordKind name = .identifier name ∧
      ∀ c ∈ name.toList, Text.isQuotationMark c = false := by
  obtain ⟨token, rest, same, kind, noKinds⟩ := List.map_eq_cons_iff.1 plain
  obtain rfl := List.map_eq_nil_iff.1 noKinds
  obtain ⟨c, left, trivia, starts, -, again⟩ := cuts_of_token same
  rw [tokensFrom_of_cons (skipTrivia_token starts)] at again
  obtain ⟨rfl, -⟩ := List.cons.inj again
  obtain ⟨skipped, whole⟩ := trivia.suffix
  have longer := congrArg List.length whole
  simp only [List.length_append, List.length_cons] at longer
  rcases scan_identifier kind with ⟨isWord, isStart⟩ | short
  · have taken := List.takeWhile_prefix (p := isWordCharacter) (l := left)
    have named : name.toList = c :: left.takeWhile isWordCharacter := by
      rw [isWord, scanWord] at kind
      unfold wordKind at kind
      dsimp only at kind
      split at kind
      · cases kind
      · rw [← TokenKind.identifier.inj kind, String.toList_ofList]
    have shorter := taken.length_le
    rw [named, List.length_cons] at longer
    have all : left.takeWhile isWordCharacter = left := taken.eq_of_length (by omega)
    have inWord := List.takeWhile_eq_self_iff.1 all
    rw [all] at named
    have cut : Cut name.toList [.identifier name] [] := by
      rw [named]
      refine .token starts ?_ rfl
      rw [← kind, isWord, scanWord, List.dropWhile_eq_nil_iff.2 inWord]
    have letters : ∀ d ∈ name.toList, isQuotationMark d = false := by
      rw [named]
      exact List.forall_mem_cons.2 ⟨noQuote (.inr isStart), fun d mem => noQuote (.inl (inWord d mem))⟩
    obtain ⟨word, same⟩ := word_of_cut cut (.inr ⟨⟨name, rfl⟩, letters⟩)
    rw [String.ofList_toList] at same
    exact ⟨word, same.symm, letters⟩
  · omega

/-- Such a name stays as it is without quotation marks. -/
lemma Plain.unquoted {name : String} (plain : Plain name) : Text.unquoted name = name := by
  obtain ⟨-, -, letters⟩ := plain.word
  have kept : name.toList.filter (fun c => !Text.isQuotationMark c) = name.toList :=
    List.filter_eq_self.2 fun c mem => by rw [letters c mem]; rfl
  rw [Text.unquoted, kept, String.ofList_toList]

/-- Names with commas between are read as such, where no word goes on behind them. -/
lemma cuts_names {names : List String} (any : names ≠ []) (plain : ∀ name ∈ names, Plain name)
    (ends : startsWith isWordCharacter rest = false) :
    Cuts (List.intercalate [',', ' '] (names.map String.toList) ++ rest)
      ((names.map TokenKind.identifier).intersperse (.symbol .comma)) rest := by
  induction names with
  | nil => exact absurd rfl any
  | cons name names ih =>
    obtain ⟨isPlain, others⟩ := List.forall_mem_cons.1 plain
    obtain ⟨word, kind, -⟩ := isPlain.word
    rw [← String.ofList_toList (s := name)] at kind
    have first (more : List Char) (ends : startsWith isWordCharacter more = false) :
        Cut (name.toList ++ more) [.identifier name] more := by
      have cut := word.cut more ends
      rwa [kind, String.ofList_toList] at cut
    cases names with
    | nil =>
      rw [List.map_singleton, List.map_singleton, List.intercalate_singleton,
        List.intersperse_singleton]
      exact .single (first rest ends)
    | cons next names =>
      have comma (more : List Char) : Cut (',' :: more) [.symbol .comma] more := .token rfl rfl rfl
      have blank (more : List Char) : Cut (' ' :: more) [] more := .blank (by decide +kernel)
      have noWord (more : List Char) : startsWith isWordCharacter (',' :: more) = false :=
        show isWordCharacter ',' = false by decide +kernel
      rw [List.map_cons, List.map_cons, List.intercalate_cons_cons, List.append_assoc,
        List.append_assoc, List.map_cons, List.map_cons, List.intersperse_cons_cons]
      exact .cut (first _ (noWord _)) (.cut (comma _) (.cut (blank _) (ih (by simp) others)))

end Lexer

/-! ## Texts that grow -/

namespace Edit

open Lexer

variable {text : String} {edits : List Edit} {before after : List Token}

/-- A single insertion is put at its place. -/
lemma toList_applyInsertions {place : Nat} {inserted : String} {front rest : List Char}
    (single : insertions edits = [(place, inserted)]) (whole : text.toList = front ++ rest)
    (isPlace : Text.byteLength front = place) :
    (applyInsertions text edits).toList = front ++ (inserted.toList ++ rest) := by
  have split : text.toList = [] ++ (front ++ rest) := whole
  have spliced : (splice text (Text.byteLength []) [(place, inserted)]).toList = _ :=
    toList_splice_cons [] split isPlace
  have behind := toList_splice_nil whole
  rw [isPlace] at behind
  rw [behind] at spliced
  rw [applyInsertions, single, List.mergeSort_singleton]
  exact spliced

/-- A text with a name inserted in front of a closing parenthesis, behind a comma. -/
lemma grown_of_item {closing : Token} {key : String}
    (split : tokens text = before ++ closing :: after)
    (valid : ∀ token ∈ tokens text, token.kind.isBroken = false)
    (closes : closing.kind = .symbol .rightParen) (plain : Plain key)
    (single : insertions edits = [(closing.span.start, String.join ([key].map (", " ++ ·)))]) :
    ∃ inserted d, inserted.map Token.kind = [.symbol .comma, .identifier key] ∧
      Grown text (applyInsertions text edits) closing.span.start d before inserted
        (closing :: after) := by
  have validBefore : ∀ token ∈ before, token.kind.isBroken = false := by
    intro token mem
    refine valid token ?_
    rw [split]
    exact List.mem_append_left _ mem
  obtain ⟨left, cuts, same, -, -⟩ := cuts_of_tokens split validBefore
  obtain ⟨c, rest, trivia, starts, start, again⟩ := cuts_of_token same
  rw [tokensFrom_of_cons (skipTrivia_token starts)] at again
  have isClosing : (scan c rest).1 = .symbol .rightParen := by
    rw [← closes, ← (List.cons.inj again).1]
  obtain rfl := eq_of_scan_rightParen isClosing
  have front := cuts.trans trivia
  rw [List.append_nil] at front
  obtain ⟨chars, whole⟩ := front.suffix
  have place : Text.byteLength chars = closing.span.start := by
    rw [start, ← whole, Text.byteLength_append, Nat.add_sub_cancel]
  have isItem : (String.join ([key].map (", " ++ ·))).toList = ',' :: ' ' :: key.toList := by
    rw [String.toList_join, List.map_singleton, List.flatMap_singleton, String.toList_append]
    rfl
  have grown := toList_applyInsertions single whole.symm place
  rw [isItem] at grown
  have noWord : startsWith isWordCharacter (')' :: rest) = false :=
    show isWordCharacter ')' = false by decide +kernel
  have name := cuts_names (List.cons_ne_nil key []) (by simpa using plain) noWord
  rw [List.map_singleton, List.map_singleton, List.intercalate_singleton,
    List.intersperse_singleton] at name
  have own : Cuts (',' :: ' ' :: key.toList ++ ')' :: rest) [.symbol .comma, .identifier key]
      (')' :: rest) :=
    .cut (.token rfl rfl rfl) (.cut (.blank (by decide +kernel)) name)
  obtain ⟨inserted, kinds, isGrown⟩ :=
    grown_of_cuts whole.symm grown split front (apart_cons rfl _) own valid
  rw [place] at isGrown
  exact ⟨inserted, _, kinds, isGrown⟩

/-- A text with a list of names in parentheses inserted behind a token. -/
lemma grown_of_columns {last : Token} {columns : List String}
    (split : tokens text = (before ++ [last]) ++ after)
    (valid : ∀ token ∈ tokens text, token.kind.isBroken = false) (any : columns ≠ [])
    (plain : ∀ name ∈ columns, Plain name)
    (single : insertions edits =
      [(last.span.stop, "(" ++ String.intercalate ", " columns ++ ")")]) :
    ∃ inserted d, inserted.map Token.kind = .symbol .leftParen ::
        ((columns.map TokenKind.identifier).intersperse (.symbol .comma) ++ [.symbol .rightParen]) ∧
      Grown text (applyInsertions text edits) last.span.stop d (before ++ [last]) inserted after := by
  have validBefore : ∀ token ∈ before ++ [last], token.kind.isBroken = false := by
    intro token mem
    refine valid token ?_
    rw [split]
    exact List.mem_append_left _ mem
  obtain ⟨rest, front, -, -, stops⟩ := cuts_of_tokens split validBefore
  obtain ⟨chars, whole⟩ := front.suffix
  have place : Text.byteLength chars = last.span.stop := by
    rw [stops last (by simp), ← whole, Text.byteLength_append, Nat.add_sub_cancel]
  have isList : ("(" ++ String.intercalate ", " columns ++ ")").toList =
      '(' :: (List.intercalate [',', ' '] (columns.map String.toList) ++ [')']) := by
    rw [String.toList_append, String.toList_append, String.toList_intercalate]
    rfl
  have grown := toList_applyInsertions single whole.symm place
  rw [isList] at grown
  have noWord : startsWith isWordCharacter (')' :: rest) = false :=
    show isWordCharacter ')' = false by decide +kernel
  have names := cuts_names any plain noWord
  have own : Cuts ('(' :: (List.intercalate [',', ' '] (columns.map String.toList) ++ [')']) ++ rest)
      (.symbol .leftParen ::
        ((columns.map TokenKind.identifier).intersperse (.symbol .comma) ++ [.symbol .rightParen]))
      rest := by
    rw [List.cons_append, List.append_assoc]
    exact .cut (.token rfl rfl rfl) (names.trans (.single (.token rfl rfl rfl)))
  obtain ⟨inserted, kinds, isGrown⟩ :=
    grown_of_cuts whole.symm grown split front (apart_cons rfl _) own valid
  rw [place] at isGrown
  exact ⟨inserted, _, kinds, isGrown⟩

end Edit

end SqlRouting
