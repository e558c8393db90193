import Mathlib.Data.List.TakeWhile
import SqlRouting.Proofs.Position

/-!
# What is written by tokens

The part of a text that some neighbouring tokens were read from starts and ends with characters of
these tokens, and read by itself it has the same tokens. A name that stands there without quotation
marks is a word, and two words with a dot between them are read as a reference.

## Main definitions

* `SqlRouting.Lexer.Word` — characters that are read as one word.
* `SqlRouting.Lexer.Extract` — the part of a text that some of its tokens were read from.

## Main results

* `SqlRouting.Lexer.exists_extract_of_suffix` — valid tokens that stand next to each other have an
  extract.
* `SqlRouting.Lexer.scanCase` — what starts with a character is decided by it.
* `SqlRouting.Lexer.exists_cut` — a valid token is written where its span is.
* `SqlRouting.Lexer.Word.cuts_reference` — two words with a dot between them.
-/

set_option autoImplicit false

namespace SqlRouting.Lexer

open Text

/-! ## Single tokens -/

/-- The kinds of tokens that may start with a character. -/
inductive ScanCase (c : Char) : Prop
  /-- A symbol. -/
  | symbol (found : ∀ cs, ∃ symbol rest, scanSymbol? c cs = some (symbol, rest) ∧
      scan c cs = (.symbol symbol, rest))
  /-- A string or a quoted name. -/
  | quoted (isQuote : isQuotationMark c = true)
      (noWord : ∀ cs, (∀ symbol, (scan c cs).1 ≠ .symbol symbol) ∧ ∀ word, (scan c cs).1 ≠ .keyword word)
  /-- A word. -/
  | word (same : ∀ cs, scan c cs = scanWord c cs)
  /-- A number, a variable or an invalid token. -/
  | other (noWord : ∀ cs, (∀ symbol, (scan c cs).1 ≠ .symbol symbol) ∧
      (∀ word, (scan c cs).1 ≠ .keyword word) ∧ ∀ name, (scan c cs).1 ≠ .identifier name)

/-- Only a number is read as one. -/
lemma scan_number {c : Char} {cs : List Char} {literal : String}
    (read : (scan c cs).1 = .number literal) : scan c cs = scanNumber c cs := by
  have scanned := scanner c
  generalize scan c = scans at scanned read ⊢
  cases scanned with
  | symbol => cases read
  | string => exact absurd read (scanEnclosed_ne (by simp) (by simp [Fault.kind]))
  | name => exact absurd read (scanEnclosed_ne (by simp) (by simp [Fault.kind]))
  | userVariable => exact absurd read (scanVariable_ne (by simp) (by simp [Fault.kind]))
  | number => rfl
  | word =>
    simp only [scanWord, wordKind] at read
    split at read <;> cases read
  | unexpected => simp [Fault.kind] at read

/-- What starts with a character is decided by it. -/
lemma scanCase (c : Char) : ScanCase c := by
  have scanned := scanner c
  generalize isScan : scan c = scans at scanned
  cases scanned with
  | symbol isLocal isSymbol => exact .symbol fun cs => ⟨_, _, isSymbol cs, congrFun isScan cs⟩
  | string isQuote =>
    refine .quoted (by simp [isQuotationMark, isQuote]) fun cs => ?_
    rw [isScan]
    exact ⟨fun _ => scanEnclosed_ne (by simp) (by simp [Fault.kind]),
      fun _ => scanEnclosed_ne (by simp) (by simp [Fault.kind])⟩
  | name opens =>
    refine .quoted opens fun cs => ?_
    rw [isScan]
    exact ⟨fun _ => scanEnclosed_ne (by simp) (by simp [Fault.kind]),
      fun _ => scanEnclosed_ne (by simp) (by simp [Fault.kind])⟩
  | userVariable =>
    refine .other fun cs => ?_
    rw [isScan]
    rcases scanVariable_kind cs with ⟨name, same⟩ | same <;> rw [same] <;> simp [Fault.kind]
  | number =>
    refine .other fun cs => ?_
    obtain ⟨literal, same⟩ := scanNumber_kind c cs
    rw [isScan, same]
    simp
  | word => exact .word fun cs => congrFun isScan cs
  | unexpected =>
    refine .other fun cs => ?_
    rw [isScan]
    simp [Fault.kind]

/-- Only what is read as a symbol is one. -/
lemma scanSymbol_of_scan {c : Char} {cs : List Char} {symbol : Symbol}
    (read : (scan c cs).1 = .symbol symbol) : ∃ rest, scanSymbol? c cs = some (symbol, rest) := by
  cases scanCase c with
  | symbol found =>
    obtain ⟨symbol, rest, isSymbol, same⟩ := found cs
    rw [same] at read
    cases read
    exact ⟨rest, isSymbol⟩
  | quoted isQuote noWord => exact absurd read ((noWord cs).1 _)
  | word same =>
    rw [same] at read
    unfold scanWord wordKind at read
    dsimp only at read
    split at read <;> cases read
  | other noWord => exact absurd read ((noWord cs).1 _)

/-- Only a closing parenthesis is read as one. -/
lemma eq_of_scan_rightParen {c : Char} {cs : List Char} (read : (scan c cs).1 = .symbol .rightParen) :
    c = ')' := by
  obtain ⟨rest, isSymbol⟩ := scanSymbol_of_scan read
  unfold scanSymbol? at isSymbol
  split at isSymbol <;> first | rfl | cases isSymbol

/-- Only a semicolon is read as one. -/
lemma eq_of_scan_semicolon {c : Char} {cs : List Char} (read : (scan c cs).1 = .symbol .semicolon) :
    c = ';' := by
  obtain ⟨rest, isSymbol⟩ := scanSymbol_of_scan read
  unfold scanSymbol? at isSymbol
  split at isSymbol <;> first | rfl | cases isSymbol

/-! ## Words -/

/-- Characters that are read as one word, whatever comes after it. -/
structure Word (cs : List Char) : Prop where
  /-- The first character starts a word and no comment, and the others go on with it. -/
  starts : ∃ first letters, cs = first :: letters ∧ (∀ rest, startsTrivia first rest = false) ∧
    (∀ rest, scan first rest = scanWord first rest) ∧ ∀ c ∈ letters, isWordCharacter c = true

/-- A word is a valid token. -/
lemma wordKind_valid (text : String) : (wordKind text).isBroken = false := by
  unfold wordKind
  split <;> rfl

/-- A word is cut off what does not go on with it. -/
lemma Word.cut {cs : List Char} (word : Word cs) (rest : List Char)
    (ends : startsWith isWordCharacter rest = false) :
    Cut (cs ++ rest) [wordKind (String.ofList cs)] rest := by
  obtain ⟨first, letters, rfl, starts, same, all⟩ := word.starts
  have noWord : rest.takeWhile isWordCharacter = [] ∧ rest.dropWhile isWordCharacter = rest := by
    cases rest with
    | nil => exact ⟨rfl, rfl⟩
    | cons c rest =>
      have stop : ¬ isWordCharacter c = true := by simpa [startsWith] using ends
      exact ⟨List.takeWhile_cons_of_neg stop, List.dropWhile_cons_of_neg stop⟩
  refine .token (starts _) ?_ (wordKind_valid _)
  show scan first (letters ++ rest) = _
  rw [same, scanWord, List.takeWhile_append_of_pos all, List.dropWhile_append_of_pos all, noWord.1, noWord.2,
    List.append_nil]

/-- Two words with a dot between them are cut up as such. -/
lemma Word.cuts_reference {owner column : List Char} (word : Word owner) (word' : Word column) :
    Cuts (owner ++ '.' :: column)
      [wordKind (String.ofList owner), .symbol .dot, wordKind (String.ofList column)] [] := by
  have first := word.cut ('.' :: column) (show isWordCharacter '.' = false by decide +kernel)
  have dot : Cut ('.' :: column) [.symbol .dot] column :=
    .token (show startsTrivia '.' column = false from rfl) rfl rfl
  have second := word'.cut [] rfl
  rw [List.append_nil] at second
  exact .cut first (.cut dot (.single second))

/-- What starts a word starts no comment, whatever follows it. -/
lemma startsTrivia_of_word {c : Char} (same : ∀ cs, scan c cs = scanWord c cs) {cs : List Char}
    (starts : startsTrivia c cs = false) (rest : List Char) : startsTrivia c rest = false := by
  have noSymbol (symbol : Symbol) : (scan c []).1 ≠ .symbol symbol := by
    rw [same, scanWord]
    unfold wordKind
    dsimp only
    split <;> simp
  simp only [startsTrivia, Bool.or_eq_false_iff] at starts ⊢
  refine ⟨⟨starts.1.1, ?_⟩, ?_⟩
  · have noHyphen : c ≠ '-' := by
      rintro rfl
      exact noSymbol .minus rfl
    simp [noHyphen]
  · have noSlash : c ≠ '/' := by
      rintro rfl
      exact noSymbol .slash rfl
    simp [noSlash]

/-- A word that takes the whole text is spelled by it. -/
lemma scanWord_whole {c : Char} {cs : List Char} {kind : TokenKind}
    (read : scanWord c cs = (kind, [])) :
    kind = wordKind (String.ofList (c :: cs)) ∧ ∀ d ∈ cs, isWordCharacter d = true := by
  obtain ⟨isKind, nothing⟩ := Prod.mk.inj read
  have letters := List.dropWhile_eq_nil_iff.1 nothing
  rw [List.takeWhile_eq_self_iff.2 letters] at isKind
  exact ⟨isKind.symm, letters⟩

/-- A keyword is written by a word, and so is a name without quotation marks. -/
lemma word_of_cut {cs : List Char} {kind : TokenKind} (cut : Cut cs [kind] [])
    (isWord : (∃ word, kind = .keyword word) ∨
      (∃ name, kind = .identifier name) ∧ ∀ c ∈ cs, isQuotationMark c = false) :
    Word cs ∧ kind = wordKind (String.ofList cs) := by
  cases cut with
  | @token c cs _ _ starts read valid =>
    have kind_eq : (scan c cs).1 = kind := by rw [read]
    have isWord' : (∀ symbol, kind ≠ .symbol symbol) ∧
        (∀ noKeyword : ∀ word, kind ≠ .keyword word,
          (∃ name, kind = .identifier name) ∧ isQuotationMark c = false) := by
      rcases isWord with ⟨word, rfl⟩ | ⟨⟨name, rfl⟩, plain⟩
      · exact ⟨by simp, fun noKeyword => absurd rfl (noKeyword word)⟩
      · exact ⟨by simp, fun _ => ⟨⟨name, rfl⟩, plain c List.mem_cons_self⟩⟩
    cases scanCase c with
    | symbol found =>
      obtain ⟨symbol, rest, -, same⟩ := found cs
      rw [same] at kind_eq
      exact absurd kind_eq.symm (isWord'.1 symbol)
    | quoted isQuote noWord =>
      obtain ⟨-, noQuote⟩ := isWord'.2 (kind_eq ▸ (noWord cs).2)
      rw [isQuote] at noQuote
      cases noQuote
    | other noWord =>
      obtain ⟨⟨name, isName⟩, -⟩ := isWord'.2 (kind_eq ▸ (noWord cs).2.1)
      exact absurd (kind_eq.trans isName) ((noWord cs).2.2 name)
    | word same =>
      obtain ⟨isKind, letters⟩ := scanWord_whole ((same cs).symm.trans read)
      exact ⟨⟨c, cs, rfl, startsTrivia_of_word same starts, same, letters⟩, isKind⟩

/-! ## Extracts -/

/-- Some tokens stand next to each other in a text, and `raw` is what is written there. -/
structure Extract (text : String) (part : List Token) (raw : List Char) : Prop where
  /-- The tokens stand next to each other. -/
  place : part <:+: tokens text
  /-- The slice between the places where they start and stop is what is written. -/
  slice_eq : ∃ first last, part.head? = some first ∧ part.getLast? = some last ∧
    slice text first.span.start last.span.stop = String.ofList raw
  /-- What is written there is read as these tokens. -/
  cuts : Cuts raw (part.map Token.kind) []
  /-- Neither end of it is blank. -/
  trimmed_eq : trimmed (String.ofList raw) = String.ofList raw

/-- What does not start or end with a blank is not trimmed. -/
lemma trimmed_of_ends {cs front : List Char} {c d : Char} {rest : List Char} (starts : cs = c :: rest)
    (ends : cs = front ++ [d]) (noBlank : isBlank c = false) (noBlank' : isBlank d = false) :
    trimmed (String.ofList cs) = String.ofList cs := by
  have first : cs.dropWhile isBlank = cs := by
    rw [starts]
    exact List.dropWhile_cons_of_neg (by simp [noBlank])
  have last : cs.reverse.dropWhile isBlank = cs.reverse := by
    rw [ends, List.reverse_append]
    exact List.dropWhile_cons_of_neg (by simp [noBlank'])
  rw [trimmed, String.toList_ofList, first, last, List.reverse_reverse]

/-- What a cut takes off is cut off in the same way without the text behind it. -/
lemma Cut.alone {raw rest : List Char} {kinds : List TokenKind} (h : Cut (raw ++ rest) kinds rest) :
    Cut raw kinds [] := by
  have start : Cut (raw ++ ([] ++ rest)) kinds ([] ++ rest) := h
  simpa using start.replace apart_nil.detached

/-- What cuts take off is cut up in the same way without the text behind it. -/
lemma Cuts.alone {raw rest : List Char} {kinds : List TokenKind} (h : Cuts (raw ++ rest) kinds rest) :
    Cuts raw kinds [] := by
  have start : Cuts (raw ++ ([] ++ rest)) kinds ([] ++ rest) := h
  simpa using start.replace apart_nil.detached

/-- Valid tokens at the front of a text are cut off by cuts that end with no blank. -/
lemma cuts_of_last {total : Nat} {cs : List Char} {init after : List Token} {last : Token}
    (tokens : tokensFrom total cs = init ++ last :: after)
    (valid : ∀ token ∈ init, token.kind.isBroken = false) (validLast : last.kind.isBroken = false) :
    ∃ front d rest, cs = (front ++ [d]) ++ rest ∧ isBlank d = false ∧
      Cuts cs ((init ++ [last]).map Token.kind) rest ∧ last.span.stop = total - byteLength rest := by
  obtain ⟨mid, initCuts, behind, -, -⟩ := cuts_of_tokens tokens valid
  obtain ⟨c, tail, between, starts, -, again⟩ := cuts_of_token behind
  rw [tokensFrom_of_cons (skipTrivia_token starts)] at again
  obtain ⟨rfl, -⟩ := List.cons.inj again
  have lastCut : Cut (c :: tail) [(scan c tail).1] (scan c tail).2 := .token starts rfl validLast
  generalize (scan c tail).2 = rest at *
  obtain ⟨_, taken, piece⟩ := lastCut.exists_front
  obtain ⟨front, d, isEnd⟩ : ∃ front d, c :: tail = (front ++ [d]) ++ rest := by
    rcases List.eq_nil_or_concat (_ :: taken) with empty | ⟨front, d, same⟩
    · cases empty
    · exact ⟨front, d, by rw [piece, same, List.concat_eq_append]⟩
  obtain ⟨start, same⟩ := (initCuts.trans between).suffix
  refine ⟨start ++ front, d, rest, ?_, ?_, ?_, rfl⟩
  · rw [← same, isEnd]
    simp
  · have alone : Cut (front ++ [d]) _ [] := Cut.alone (isEnd ▸ lastCut)
    exact alone.not_blank
  · simpa using (initCuts.trans between).trans (.single lastCut)

/-- Valid tokens that stand at the front of the last part of a text have an extract. It starts with the
first of them. -/
lemma exists_extract_of_suffix {text : String} {left : List Char} {before init after : List Token}
    {last : Token} (split : tokens text = before ++ (init ++ last :: after))
    (behind : left <:+ text.toList)
    (same : tokensFrom (byteLength text.toList) left = init ++ last :: after)
    (valid : ∀ token ∈ init, token.kind.isBroken = false) (validLast : last.kind.isBroken = false) :
    ∃ raw, Extract text (init ++ [last]) raw := by
  obtain ⟨first, others, isFirst⟩ : ∃ first others, init ++ last :: after = first :: others :=
    List.exists_cons_of_ne_nil (by simp)
  rw [isFirst] at same
  obtain ⟨c, rest, trivia, starts, start, again⟩ := cuts_of_token same
  rw [← isFirst] at again
  obtain ⟨front, d, left', split', noBlank, partCuts, stop⟩ := cuts_of_last again valid validLast
  obtain ⟨ahead, whole⟩ := trivia.suffix.trans behind
  refine ⟨front ++ [d], ⟨before, after, by rw [split]; simp⟩, ⟨first, last, ?_, by simp, ?_⟩, ?_, ?_⟩
  · cases init <;> cases isFirst <;> rfl
  · rw [start, stop, split']
    exact slice_of_left (by rw [← whole, split'])
  · exact (split' ▸ partCuts).alone
  · obtain ⟨c', tail, isStart⟩ : ∃ c' tail, front ++ [d] = c' :: tail :=
      List.exists_cons_of_ne_nil (by simp)
    rw [isStart] at split'
    cases split'
    simp only [startsTrivia, Bool.or_eq_false_iff] at starts
    exact trimmed_of_ends isStart rfl starts.1.1.1 noBlank

/-- A valid token is cut off by itself where its span is. -/
lemma exists_cut {text : String} {before after : List Token} {token : Token}
    (split : tokens text = before ++ token :: after)
    (valid : ∀ known ∈ before, known.kind.isBroken = false) (isValid : token.kind.isBroken = false) :
    ∃ raw, Cut raw [token.kind] [] ∧ token.span.text text = String.ofList raw := by
  obtain ⟨left, cuts, same, -, -⟩ := cuts_of_tokens split valid
  obtain ⟨c, tail, trivia, starts, -, again⟩ := cuts_of_token same
  rw [tokensFrom_of_cons (skipTrivia_token starts)] at again
  obtain ⟨rfl, -⟩ := List.cons.inj again
  have cut : Cut (c :: tail) [(scan c tail).1] (scan c tail).2 := .token starts rfl isValid
  generalize (scan c tail).2 = rest at *
  obtain ⟨raw, piece⟩ := cut.suffix
  obtain ⟨ahead, whole⟩ := (cuts.trans trivia).suffix
  rw [← piece] at cut whole ⊢
  exact ⟨raw, cut.alone, slice_of_left whole.symm⟩

/-- A number that is cut off by itself is what is written there. -/
lemma Cut.eq_literal {raw : List Char} {literal : String} (cut : Cut raw [.number literal] []) :
    String.ofList raw = literal := by
  cases cut with
  | @token c cs _ _ starts read valid =>
    have number := scan_number (congrArg Prod.fst read)
    obtain ⟨found, isNumber, source⟩ := scanNumber_source c cs
    rw [← number, read] at isNumber source
    obtain rfl := TokenKind.number.inj isNumber
    rw [source, List.append_nil, String.ofList_toList]

/-- The first token that cuts take off is cut off by itself, and the others are cut off behind it. -/
lemma Cuts.exists_first {cs rest : List Char} {kind : TokenKind} {kinds : List TokenKind}
    (h : Cuts cs (kind :: kinds) rest) : ∃ lead raw behind, cs = lead ++ (raw ++ behind) ∧
      Cut raw [kind] [] ∧ Cuts behind kinds rest := by
  generalize same : kind :: kinds = all at h
  induction h with
  | refl => cases same
  | cut first others ih =>
    obtain ⟨taken, rfl⟩ := first.suffix
    rcases first.kinds_cases with rfl | ⟨_, rfl, -⟩
    · obtain ⟨lead, raw, behind, rfl, cut, rest⟩ := ih same
      exact ⟨taken ++ lead, raw, behind, by rw [List.append_assoc], cut, rest⟩
    · cases same
      exact ⟨[], taken, _, rfl, first.alone, others⟩

end SqlRouting.Lexer
