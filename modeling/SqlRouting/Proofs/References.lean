import SqlRouting.Proofs.Copies

/-!
# References to columns

A reference to a column is a name, or two of them with a dot between them. Two spellings of one reference
may differ in case, in quotation marks and in blanks, so what is compared is the text without quotation
marks and blanks, ignoring case. Different references may become equal in this way, and so may a reference
and other text, but not if all names are made of the characters of words: then the text has no comment, no
group and no operator, and it has the names of the reference.

## Main definitions

* `SqlRouting.Text.stripped` — a text without quotation marks and blanks.
* `SqlRouting.Lexer.IsName` — a name that is made of the characters of words.
* `SqlRouting.Grammar.referenceNames?` — the names that the tokens of a reference write.

## Main results

* `SqlRouting.Lexer.Cuts.exists_pieces` — a text is put together from what is written by its tokens.
* `SqlRouting.Grammar.stripped_reference` — what is left of the text of a reference.
* `SqlRouting.Grammar.sameName_of_dotted` — references that read the same have the same names.
-/

set_option autoImplicit false

namespace SqlRouting

/-! ## Case -/

namespace Text

/-- The code point of a capital is 32 less than that of its small letter. -/
lemma toNat_toLower (c : Char) :
    c.toLower.toNat = if 65 ≤ c.toNat ∧ c.toNat ≤ 90 then c.toNat + 32 else c.toNat := by
  by_cases capital : c.val ≥ 'A'.val ∧ c.val ≤ 'Z'.val
  · have moved : c.toLower.val = c.val + ('a'.val - 'A'.val) := congrArg Char.val (dif_pos capital)
    have most : c.toNat ≤ 90 := UInt32.le_iff_toNat_le.1 capital.2
    rw [if_pos ⟨UInt32.le_iff_toNat_le.1 capital.1, most⟩, Char.toNat, moved, UInt32.toNat_add]
    show (c.toNat + 32) % 2 ^ 32 = c.toNat + 32
    omega
  · have same : c.toLower = c := dif_neg capital
    simp only [ge_iff_le, UInt32.le_iff_toNat_le] at capital
    rw [same, if_neg (by exact capital)]

/-- The code point of a small letter is 32 more than that of its capital. -/
lemma toNat_toUpper (c : Char) :
    c.toUpper.toNat = if 97 ≤ c.toNat ∧ c.toNat ≤ 122 then c.toNat - 32 else c.toNat := by
  by_cases small : 'a'.val ≤ c.val ∧ c.val ≤ 'z'.val
  · have moved : c.toUpper.val = c.val + ('A'.val - 'a'.val) := by
      delta Char.toUpper
      rw [dif_pos small]
    have least : 97 ≤ c.toNat := UInt32.le_iff_toNat_le.1 small.1
    have most : c.toNat ≤ 122 := UInt32.le_iff_toNat_le.1 small.2
    rw [if_pos ⟨least, most⟩, Char.toNat, moved, UInt32.toNat_add]
    show (c.toNat + 4294967264) % 2 ^ 32 = c.toNat - 32
    omega
  · have same : c.toUpper = c := dif_neg small
    simp only [UInt32.le_iff_toNat_le] at small
    rw [same, if_neg (by exact small)]

/-- Characters with the same capital have the same small letter. -/
lemma toLower_toUpper (c : Char) : c.toUpper.toLower = c.toLower := by
  rw [← Char.toNat_inj, toNat_toLower, toNat_toUpper, toNat_toLower]
  grind

/-- A small letter is its own small letter. -/
lemma toLower_toLower (c : Char) : c.toLower.toLower = c.toLower := by
  rw [← Char.toNat_inj, toNat_toLower, toNat_toLower]
  grind

/-- What has the small letter of a character that is no letter is that character. -/
lemma eq_of_toLower_eq {c d : Char} (same : c.toLower = d.toLower) (noLetter : d.isAlpha = false) :
    c = d := by
  have points := congrArg Char.toNat same
  rw [toNat_toLower, toNat_toLower] at points
  have range : ¬ (65 ≤ d.toNat ∧ d.toNat ≤ 90) ∧ ¬ (97 ≤ d.toNat ∧ d.toNat ≤ 122) := by
    have neither : (decide (d.val ≥ 'A'.val ∧ d.val ≤ 'Z'.val) ||
      (decide (d.val ≥ 'a'.val) && decide (d.val ≤ 'z'.val))) = false := noLetter
    simp only [← Bool.not_eq_true, Bool.or_eq_true, not_or, Bool.and_eq_true, decide_eq_true_eq,
      UInt32.le_iff_toNat_le, ge_iff_le] at neither
    exact neither
  rw [← Char.toNat_inj]
  grind

/-- Names that are the same have the same characters, letters apart. -/
lemma mem_of_sameName {a b : String} (same : sameName a b = true) {c : Char}
    (noLetter : c.isAlpha = false) (mem : c ∈ a.toList) : c ∈ b.toList := by
  have small : c.toLower ∈ b.toList.map Char.toLower := by
    rw [← sameName_iff.1 same]
    exact List.mem_map_of_mem mem
  obtain ⟨d, isMember, lower⟩ := List.mem_map.1 small
  rwa [← eq_of_toLower_eq lower noLetter]

/-! ## Stripped text -/

/-- A text without quotation marks and blanks. -/
def stripped (cs : List Char) : List Char :=
  (cs.filter fun c => !isQuotationMark c).filter fun c => !isBlank c

/-- Dropping quotation marks and then blanks strips a text. -/
lemma withoutBlanks_unquoted (text : String) :
    withoutBlanks (unquoted text) = String.ofList (stripped text.toList) := by
  rw [withoutBlanks, unquoted, String.toList_ofList, stripped]

/-- A text is stripped piece by piece. -/
lemma stripped_append (front rest : List Char) :
    stripped (front ++ rest) = stripped front ++ stripped rest := by
  rw [stripped, List.filter_append, List.filter_append]
  rfl

/-- Quotation marks and blanks are no letters. -/
lemma noLetter_of_stripped {c : Char} (left : isQuotationMark c = true ∨ isBlank c = true) :
    c.isAlpha = false := by
  rcases left with isQuote | blank
  · simp only [isQuotationMark, Bool.or_eq_true, beq_iff_eq] at isQuote
    rcases isQuote with (((rfl | rfl) | rfl) | rfl) | rfl <;> decide +kernel
  · have stops : Lexer.Stops Char.isAlpha := Lexer.stops_of (by decide +kernel)
    exact stops c (by rw [Lexer.isBreak, blank, Bool.or_true])

/-- What no letter has, a letter has in neither case. -/
lemma eq_toLower {p : Char → Bool} (noLetter : ∀ c, p c = true → c.isAlpha = false) (c : Char) :
    p c.toLower = p c := by
  by_cases letter : c.isAlpha = false
  · rw [eq_of_toLower_eq (toLower_toLower c) letter]
  · have small : c.toLower.isAlpha ≠ false := fun isNone =>
      letter (by rwa [← eq_of_toLower_eq (toLower_toLower c).symm isNone] at isNone)
    rw [Bool.eq_false_iff.2 (letter ∘ noLetter c), Bool.eq_false_iff.2 (small ∘ noLetter c.toLower)]

/-- What is left of a text does not depend on case. -/
lemma stripped_map_toLower (cs : List Char) :
    stripped (cs.map Char.toLower) = (stripped cs).map Char.toLower := by
  have quote (c : Char) : isQuotationMark c.toLower = isQuotationMark c :=
    eq_toLower (fun _ isQuote => noLetter_of_stripped (.inl isQuote)) c
  have blank (c : Char) : isBlank c.toLower = isBlank c :=
    eq_toLower (fun _ isBlank => noLetter_of_stripped (.inr isBlank)) c
  simp only [stripped, List.filter_map, Function.comp_def, quote, blank]

/-- Names that are the same are the same without quotation marks and blanks. -/
lemma sameName_stripped {a b : String} (same : sameName a b = true) :
    sameName (withoutBlanks (unquoted a)) (withoutBlanks (unquoted b)) = true := by
  rw [withoutBlanks_unquoted, withoutBlanks_unquoted, sameName_iff, String.toList_ofList,
    String.toList_ofList, ← stripped_map_toLower, ← stripped_map_toLower, sameName_iff.1 same]

/-- What is left of a text is what is neither a quotation mark nor a blank. -/
lemma mem_stripped {cs : List Char} {c : Char} :
    c ∈ stripped cs ↔ c ∈ cs ∧ isQuotationMark c = false ∧ isBlank c = false := by
  simp only [stripped, List.mem_filter, Bool.not_eq_true', and_assoc]

/-- A text without quotation marks and blanks is left as it is. -/
lemma stripped_eq_self {cs : List Char} (plain : ∀ c ∈ cs, isQuotationMark c = false ∧ isBlank c = false) :
    stripped cs = cs := by
  rw [stripped, List.filter_filter, List.filter_eq_self]
  intro c mem
  simp [plain c mem]

end Text

/-! ## Names -/

namespace Lexer

open Text

/-- The name is made of the characters of words. -/
def IsName (name : String) : Prop :=
  ∀ c ∈ name.toList, isWordCharacter c = true

/-- Whether a comment, a group or an operator may start with a character. -/
def isMark (c : Char) : Bool :=
  ['#', '-', '/', '(', '+', '*', '%', '&', '|', '^'].contains c

/-- The characters of words are no quotation marks and no blanks. -/
lemma plain_of_isWordCharacter {c : Char} (inWord : isWordCharacter c = true) :
    isQuotationMark c = false ∧ isBlank c = false := by
  constructor
  · rw [← Bool.not_eq_true]
    intro isQuote
    simp only [isQuotationMark, Bool.or_eq_true, beq_iff_eq] at isQuote
    revert inWord
    rcases isQuote with (((rfl | rfl) | rfl) | rfl) | rfl <;> decide +kernel
  · rw [← Bool.not_eq_true]
    intro blank
    have noWord := stops_isWordCharacter c (by rw [isBreak, blank, Bool.or_true])
    rw [inWord] at noWord
    cases noWord

/-- Nothing is left out of a name. -/
lemma IsName.stripped_eq {name : String} (isName : IsName name) : stripped name.toList = name.toList :=
  stripped_eq_self fun c mem => plain_of_isWordCharacter (isName c mem)

/-- Marks are no letters, and no characters of words. -/
lemma noLetter_of_isMark {c : Char} (mark : isMark c = true) :
    c.isAlpha = false ∧ isWordCharacter c = false ∧ c ≠ '.' ∧ isQuotationMark c = false ∧
      isBlank c = false := by
  simp only [isMark, List.contains_eq_mem, List.mem_cons, List.not_mem_nil, or_false,
    decide_eq_true_eq] at mark
  rcases mark with rfl | rfl | rfl | rfl | rfl | rfl | rfl | rfl | rfl | rfl <;> decide +kernel

/-! ## Pieces of tokens -/

/-- The value of an enclosed name is what is written, but for quotation marks. -/
lemma filter_of_enclosed {closing : Char} (isQuote : isQuotationMark closing = true)
    {cs value rest : List Char} (read : enclosed? closing false cs = some (value, rest)) :
    (cs.filter fun c => !isQuotationMark c) =
      (value.filter fun c => !isQuotationMark c) ++ rest.filter fun c => !isQuotationMark c := by
  obtain ⟨written, rfl, encloses⟩ := exists_encloses read
  clear read
  rw [List.filter_append, List.append_cancel_right_eq]
  induction encloses with
  | close => simp [isQuote]
  | doubled _ ih => simpa [isQuote] using ih
  | escaped _ escape => simp at escape
  | plain _ _ _ ih => rw [List.filter_cons, List.filter_cons, ih]

/-- A name is a word, or stands between quotation marks. -/
lemma scan_identifier_eq {c : Char} {cs rest : List Char} {name : String}
    (read : scan c cs = (.identifier name, rest)) :
    scanWord c cs = (.identifier name, rest) ∨ isQuotationMark c = true ∧ ∃ closing,
      isQuotationMark closing = true ∧ enclosed? closing false cs = some (name.toList, rest) := by
  have scanned := scanner c
  generalize scan c = scans at scanned read
  have isName : (scans cs).1 = .identifier name := congrArg Prod.fst read
  cases scanned with
  | symbol => cases read
  | string => exact absurd isName (scanEnclosed_ne (by simp) (by simp [Fault.kind]))
  | @name closing _ opens closes _ =>
    refine .inr ⟨opens, closing, closes, ?_⟩
    unfold scanEnclosed at read
    split at read
    · cases read
      rw [String.toList_ofList]
      assumption
    · cases read
  | userVariable => exact absurd isName (scanVariable_ne (by simp) (by simp [Fault.kind]))
  | number => exact absurd isName (scanNumber_ne (by simp))
  | word => exact .inl read
  | unexpected => cases read

/-- A name is what is written, but for quotation marks. -/
lemma Cut.stripped_name {raw : List Char} {name : String} (cut : Cut raw [.identifier name] []) :
    stripped raw = stripped name.toList := by
  have same : (raw.filter fun c => !isQuotationMark c) =
      name.toList.filter fun c => !isQuotationMark c := by
    cases cut with
    | @token c cs _ _ starts read valid =>
      rcases scan_identifier_eq read with isWord | ⟨isQuote, closing, isClosing, value⟩
      · obtain ⟨isKind, -⟩ := scanWord_whole isWord
        unfold wordKind at isKind
        split at isKind
        · cases isKind
        · rw [TokenKind.identifier.inj isKind, String.toList_ofList]
      · rw [List.filter_cons_of_neg (by simp [isQuote]), filter_of_enclosed isClosing value]
        exact List.append_nil _
  rw [stripped, same, stripped]

/-- What has no marks is no operator and opens no group. -/
lemma Cut.plain_kind {raw : List Char} {kind : TokenKind} (cut : Cut raw [kind] [])
    (unmarked : ∀ c ∈ raw, isMark c = false) : kind.isComposite = false ∧ kind ≠ .symbol .leftParen := by
  have noSymbol (plain : ∀ symbol, kind ≠ .symbol symbol) :
      kind.isComposite = false ∧ kind ≠ .symbol .leftParen := by
    refine ⟨?_, plain _⟩
    cases kind with
    | symbol symbol => exact absurd rfl (plain symbol)
    | _ => rfl
  cases cut with
  | @token c cs _ _ starts read valid =>
    have first := unmarked c List.mem_cons_self
    have isKind : (scan c cs).1 = kind := by rw [read]
    cases scanCase c with
    | symbol found =>
      obtain ⟨symbol, rest, isSymbol, same⟩ := found cs
      rw [same] at isKind
      cases isKind
      unfold scanSymbol? at isSymbol
      split at isSymbol <;> cases isSymbol <;>
        first | exact absurd first (by decide) | exact ⟨rfl, by simp⟩
    | quoted _ noWord => exact noSymbol (isKind ▸ (noWord cs).1)
    | other noWord => exact noSymbol (isKind ▸ (noWord cs).1)
    | word same =>
      rw [same, scanWord] at isKind
      refine noSymbol fun symbol isSymbol => ?_
      rw [isSymbol] at isKind
      unfold wordKind at isKind
      dsimp only at isKind
      split at isKind <;> cases isKind

/-- A blank is all that stands between tokens without marks. -/
lemma Cut.stripped_trivia {front rest : List Char} (cut : Cut (front ++ rest) [] rest)
    (unmarked : ∀ c ∈ front, isMark c = false) : stripped front = [] := by
  have starts {c : Char} {left : List Char} (same : c :: left = front ++ rest) (shorter : rest <:+ left)
      (mark : isMark c = true) : stripped front = [] := by
    cases front with
    | nil =>
      have longer := congrArg List.length same
      have bound := shorter.length_le
      simp only [List.length_cons, List.nil_append] at longer
      omega
    | cons d front =>
      have first := unmarked d List.mem_cons_self
      rw [← (List.cons.inj same).1, mark] at first
      cases first
  generalize whole : front ++ rest = cs at cut starts
  cases cut with
  | @blank c cs blank =>
    obtain rfl : front = [c] := (List.append_left_inj rest).1 whole
    refine List.eq_nil_iff_forall_not_mem.2 fun d mem => ?_
    obtain ⟨isBlank, -, noBlank⟩ := mem_stripped.1 mem
    rw [List.mem_singleton.1 isBlank, blank] at noBlank
    cases noBlank
  | hash closed => exact starts rfl (suffix_of_afterLine closed) rfl
  | hyphens closed =>
    exact starts rfl ((suffix_of_afterLine closed).trans (List.suffix_cons _ _)) rfl
  | block closed =>
    exact starts rfl ((suffix_of_afterBlock closed).1.trans (List.suffix_cons _ _)) rfl

/-- What is written by a token without marks. -/
structure PlainPiece (raw : List Char) (kind : TokenKind) : Prop where
  /-- The token is cut off by itself. -/
  cut : Cut raw [kind] []
  /-- It has no marks. -/
  unmarked : ∀ c ∈ raw, isMark c = false

/-- **A text without marks is put together from what is written by its tokens**, but for blanks between
them.

**Proof sketch.** By induction on the cuts: each takes a blank or a token off the text. -/
lemma Cuts.exists_pieces {front rest : List Char} {kinds : List TokenKind}
    (cuts : Cuts (front ++ rest) kinds rest) (unmarked : ∀ c ∈ front, isMark c = false) :
    ∃ pieces, List.Forall₂ PlainPiece pieces kinds ∧ stripped front = pieces.flatMap stripped := by
  generalize whole : front ++ rest = cs at cuts
  induction cuts generalizing front with
  | refl =>
    obtain rfl := List.append_left_eq_self.1 whole
    exact ⟨[], .nil, rfl⟩
  | @cut cs middle rest kinds more first others ih =>
    obtain ⟨taken, rfl⟩ := first.suffix
    obtain ⟨left, rfl⟩ := others.suffix
    obtain rfl : front = taken ++ left := (List.append_left_inj rest).1 (by rw [whole, List.append_assoc])
    obtain ⟨unmarkedTaken, unmarkedLeft⟩ := List.forall_mem_append.1 unmarked
    obtain ⟨pieces, arePieces, same⟩ := ih unmarkedLeft rfl
    rw [stripped_append, same]
    rcases first.kinds_cases with rfl | ⟨kind, rfl, -⟩
    · exact ⟨pieces, arePieces, by rw [first.stripped_trivia unmarkedTaken]; rfl⟩
    · exact ⟨taken :: pieces, .cons ⟨first.alone, unmarkedTaken⟩ arePieces, rfl⟩

/-- A text that is the same as a name has neither quotation marks nor blanks. -/
lemma IsName.stripped_of_sameName {name : String} (isName : IsName name) {cs : List Char}
    (same : sameName (String.ofList cs) name = true) : stripped cs = cs := by
  refine stripped_eq_self fun c mem => ?_
  rw [← Bool.not_eq_true, ← Bool.not_eq_true, ← not_or]
  intro left
  have inName := mem_of_sameName same (noLetter_of_stripped left) (by rwa [String.toList_ofList])
  obtain ⟨noQuote, noBlank⟩ := plain_of_isWordCharacter (isName c inName)
  simp [noQuote, noBlank] at left

/-- Two spellings of one keyword are the same name. -/
lemma sameName_of_keyword {a b : String} {keyword : Keyword} (spells : wordKind a = .keyword keyword)
    (spells' : wordKind b = .keyword keyword) : sameName a b = true := by
  have capitals {text : String} (spells : wordKind text = .keyword keyword) :
      keyword.word.toList = text.toList.map Char.toUpper := by
    unfold wordKind at spells
    split at spells
    · rename_i found isWord
      cases spells
      have found : Keyword.all.find? (fun keyword : Keyword =>
          keyword.word.toList == text.toList.map Char.toUpper) = some keyword := isWord
      simpa using List.find?_some found
    · cases spells
  have small (text : String) :
      text.toList.map Char.toLower = (text.toList.map Char.toUpper).map Char.toLower := by
    rw [List.map_map]
    exact List.map_congr_left fun c _ => (toLower_toUpper c).symm
  rw [sameName_iff, small a, small b, ← capitals spells, ← capitals spells']

/-- A dot is written by a dot. -/
lemma Cut.eq_dot {raw : List Char} (cut : Cut raw [.symbol .dot] []) : raw = ['.'] := by
  cases cut with
  | @token c cs _ _ starts read valid =>
    have isKind : (scan c cs).1 = .symbol .dot := by rw [read]
    cases scanCase c with
    | symbol found =>
      obtain ⟨symbol, rest, isSymbol, same⟩ := found cs
      obtain ⟨isDot, rfl⟩ := Prod.mk.inj (same.symm.trans read)
      cases isDot
      unfold scanSymbol? at isSymbol
      split at isSymbol <;> cases isSymbol
      rfl
    | quoted _ noWord => exact absurd isKind ((noWord cs).1 _)
    | other noWord => exact absurd isKind ((noWord cs).1 _)
    | word same =>
      rw [same, scanWord] at isKind
      unfold wordKind at isKind
      dsimp only at isKind
      split at isKind <;> cases isKind

end Lexer

/-! ## References -/

namespace Grammar

open Text Lexer

/-- The names that the tokens of a reference write, its owner first. -/
def referenceNames? (source : String) : List Token → Option (List String)
  | [⟨.identifier name, _⟩] => some [name]
  | [⟨.identifier owner, _⟩, ⟨.symbol .dot, _⟩, column] =>
    (columnName? source column).map fun name => [owner, name]
  | _ => none

/-- A reference has a name. -/
lemma ne_nil_of_referenceNames {source : String} {part : List Token} {names : List String}
    (named : referenceNames? source part = some names) : names ≠ [] := by
  unfold referenceNames? at named
  split at named
  · cases named
    simp
  · obtain ⟨name, -, rfl⟩ := Option.map_eq_some_iff.1 named
    simp
  · cases named

variable {text : String} {part : List Token} {raw : List Char} {names names' : List String}

/-- The name of a column after its owner is what is left of its text. -/
lemma stripped_columnName {name : String} {column : Token} (front : List Token)
    (named : columnName? text column = some name) (isName : IsName name)
    (place : front ++ [column] <:+: tokens text)
    (valid : ∀ token ∈ tokens text, token.kind.isBroken = false) (cut : Cut raw [column.kind] []) :
    sameName (String.ofList (stripped raw)) name = true := by
  unfold columnName? at named
  split at named
  · rename_i found isIdentifier
    cases named
    rw [isIdentifier] at cut
    rw [cut.stripped_name, isName.stripped_eq, String.ofList_toList]
    exact sameName_self name
  · rename_i keyword isKeyword
    cases named
    obtain ⟨before, after, split⟩ := place
    have split' : tokens text = (before ++ front) ++ column :: after := by simp [← split]
    obtain ⟨letters, own, written⟩ := exists_cut split'
      (fun token mem => valid token (by rw [split']; exact List.mem_append_left _ mem))
      (valid column (by simp [split']))
    -- the span of the keyword and the text at hand spell the same keyword
    obtain ⟨-, spells⟩ := word_of_cut cut (.inl ⟨keyword, isKeyword⟩)
    obtain ⟨-, spells'⟩ := word_of_cut own (.inl ⟨keyword, isKeyword⟩)
    have same := sameName_of_keyword (spells.symm.trans isKeyword) (spells'.symm.trans isKeyword)
    rw [← written] at same
    rwa [isName.stripped_of_sameName same]
  · cases named

/-- **What is left of the text of a reference** are its names, with a dot between them.

**Proof sketch.** Without marks there is nothing between the tokens but blanks, and each token leaves its
name or the dot. -/
lemma stripped_reference (extract : Extract text part raw)
    (valid : ∀ token ∈ tokens text, token.kind.isBroken = false) (unmarked : ∀ c ∈ raw, isMark c = false)
    (named : referenceNames? text part = some names) (areNames : ∀ name ∈ names, IsName name) :
    sameName (String.ofList (stripped raw)) (".".intercalate names) = true := by
  have cuts : Cuts (raw ++ []) (part.map Token.kind) [] := by simpa using extract.cuts
  obtain ⟨pieces, arePieces, same⟩ := cuts.exists_pieces unmarked
  rw [same]
  unfold referenceNames? at named
  split at named
  · rename_i name span
    cases named
    have isName := areNames name List.mem_cons_self
    rcases arePieces with - | ⟨first, ⟨⟩⟩
    rename_i piece
    rw [List.flatMap_singleton, first.cut.stripped_name, isName.stripped_eq, String.ofList_toList,
      String.intercalate_singleton]
    exact sameName_self name
  · rename_i owner ownerSpan dotSpan column
    obtain ⟨name, isColumn, rfl⟩ := Option.map_eq_some_iff.1 named
    have isOwner := areNames owner List.mem_cons_self
    have isName := areNames name (List.mem_cons_of_mem _ List.mem_cons_self)
    rcases arePieces with - | ⟨first, - | ⟨second, - | ⟨third, ⟨⟩⟩⟩⟩
    rename_i ownerText dotText columnText
    have last := stripped_columnName [_, _] isColumn isName extract.place valid third.cut
    obtain rfl := second.cut.eq_dot
    have dot : stripped ['.'] = ['.'] := by decide +kernel
    have whole : [ownerText, ['.'], columnText].flatMap stripped =
        owner.toList ++ '.' :: stripped columnText := by
      simp [first.cut.stripped_name, isOwner.stripped_eq, dot]
    rw [whole, sameName_iff, String.intercalate_cons_cons, String.intercalate_singleton]
    simp only [String.toList_ofList, String.toList_append, List.map_append, List.map_cons]
    rw [← sameName_iff.1 last, String.toList_ofList, List.append_assoc, String.toList_ofList]
    rfl
  · cases named

/-- No name has a dot in it, in small letters. -/
lemma no_dot {name : String} (isName : IsName name) : '.' ∉ name.toList.map Char.toLower := by
  intro mem
  obtain ⟨c, isMember, lower⟩ := List.mem_map.1 mem
  obtain rfl : c = '.' := eq_of_toLower_eq (lower.trans (by decide)) (by decide)
  have noWord : isWordCharacter '.' = false := by decide +kernel
  rw [isName _ isMember] at noWord
  cases noWord

/-- Two texts with a dot, and none before it, are equal before it and behind it. -/
lemma eq_of_append_dot {front front' rest rest' : List Char} (noDot : '.' ∉ front) (noDot' : '.' ∉ front')
    (same : front ++ '.' :: rest = front' ++ '.' :: rest') : front = front' ∧ rest = rest' := by
  induction front generalizing front' with
  | nil =>
    cases front' with
    | nil => exact ⟨rfl, (List.cons.inj same).2⟩
    | cons c front' => exact absurd (List.mem_cons.2 (.inl (List.cons.inj same).1)) noDot'
  | cons c front ih =>
    cases front' with
    | nil => exact absurd (List.mem_cons.2 (.inl (List.cons.inj same).1.symm)) noDot
    | cons d front' =>
      obtain ⟨rfl, behind⟩ := List.cons.inj same
      obtain ⟨rfl, rfl⟩ := ih (fun mem => noDot (List.mem_cons_of_mem _ mem))
        (fun mem => noDot' (List.mem_cons_of_mem _ mem)) behind
      exact ⟨rfl, rfl⟩

/-- **References that read the same have the same names.** -/
lemma sameName_of_dotted (nonempty : names ≠ []) (nonempty' : names' ≠ [])
    (areNames : ∀ name ∈ names, IsName name) (areNames' : ∀ name ∈ names', IsName name)
    (same : sameName (".".intercalate names) (".".intercalate names') = true) :
    List.Forall₂ (fun a b => sameName a b = true) names names' := by
  have joined (a b : String) (rest : List String) :
      (".".intercalate (a :: b :: rest)).toList.map Char.toLower = a.toList.map Char.toLower ++
        '.' :: (".".intercalate (b :: rest)).toList.map Char.toLower := by
    rw [String.intercalate_cons_cons, String.toList_append, String.toList_append, List.map_append,
      List.map_append, List.append_assoc]
    rfl
  induction names generalizing names' with
  | nil => exact absurd rfl nonempty
  | cons a names ih =>
    obtain ⟨b, names', rfl⟩ := List.exists_cons_of_ne_nil nonempty'
    obtain ⟨isName, others⟩ := List.forall_mem_cons.1 areNames
    obtain ⟨isName', others'⟩ := List.forall_mem_cons.1 areNames'
    rw [sameName_iff] at same
    cases names with
    | nil =>
      cases names' with
      | nil =>
        rw [String.intercalate_singleton, String.intercalate_singleton] at same
        exact .cons (sameName_iff.2 same) .nil
      | cons b' names' =>
        rw [joined, String.intercalate_singleton] at same
        exact absurd (by rw [same]; simp) (no_dot isName)
    | cons a' names =>
      cases names' with
      | nil =>
        rw [joined, String.intercalate_singleton] at same
        exact absurd (by rw [← same]; simp) (no_dot isName')
      | cons b' names' =>
        rw [joined, joined] at same
        obtain ⟨first, rest⟩ := eq_of_append_dot (no_dot isName) (no_dot isName') same
        exact .cons (sameName_iff.2 first)
          (ih (by simp) (by simp) others others' (sameName_iff.2 rest))

end Grammar

end SqlRouting
