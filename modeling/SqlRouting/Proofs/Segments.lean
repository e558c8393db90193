import SqlRouting.Proofs.Position
import SqlRouting.Statement.Splice

/-!
# Segments of a rewritten text

A rewritten text is the original one with each inserted text at its place, those at one place in the
order they were recorded. The inserted texts are segments of it, and without these segments it is the
original text again.

## Main definitions

* `SqlRouting.Edit.interleave` — some characters with insertions between them.
* `SqlRouting.Edit.inOrder` — the insertions of some edits from left to right.
* `SqlRouting.Edit.segments` — where insertions stand in the text they make.
* `SqlRouting.Edit.withoutSegments` — what is left of a text without some segments.

## Main results

* `SqlRouting.Edit.applyInsertions_eq` — applying insertions puts each one at its place.
* `SqlRouting.Edit.segments_applyInsertions` — the inserted texts are segments, and what is left
  without them is the original text.
-/

set_option autoImplicit false

namespace SqlRouting.Edit

open Text

/-! ## Specification -/

/-- What some insertions put at a place, in their order. -/
def insertedAt (inserts : List (Nat × String)) (place : Nat) : List Char :=
  (inserts.filter (·.1 == place)).flatMap (·.2.toList)

/-- Some characters from byte `place` of a text on, with insertions in front of the characters at
their places and behind the last one. -/
def interleave (inserts : List (Nat × String)) : Nat → List Char → List Char
  | place, [] => insertedAt inserts place
  | place, c :: cs => insertedAt inserts place ++ c :: interleave inserts (place + c.utf8Size) cs

/-- The insertions of some edits from left to right, those at one place in the order they were
recorded. -/
def inOrder (edits : List Edit) : List (Nat × String) :=
  (insertions edits).mergeSort fun a b => a.1 ≤ b.1

/-- Where insertions at increasing places stand in the text they make, if insertions of `shift` bytes
come before them. -/
def segments (shift : Nat) : List (Nat × String) → List Span
  | [] => []
  | (place, inserted) :: rest =>
    ⟨shift + place, shift + place + byteLength inserted.toList⟩ ::
      segments (shift + byteLength inserted.toList) rest

/-- What is left of a text from byte `last` on without some segments, which stand one after the
other. -/
def withoutSegments (text : String) (last : Nat) : List Span → String
  | [] => slice text last (byteLength text.toList)
  | segment :: rest => slice text last segment.start ++ withoutSegments text segment.stop rest

variable {text : String} {insertion : Nat × String} {inserts : List (Nat × String)}
variable {edits : List Edit} {front middle rest : List Char} {place : Nat}

/-! ## Interleaving -/

/-- Without insertions the characters are left as they are. -/
lemma interleave_nil (place : Nat) (cs : List Char) : interleave [] place cs = cs := by
  induction cs generalizing place with
  | nil => rfl
  | cons c cs ih =>
    rw [interleave, ih]
    rfl

/-- An insertion at an earlier place puts nothing between the characters. -/
lemma interleave_cons_of_lt (earlier : insertion.1 < place) (cs : List Char) :
    interleave (insertion :: inserts) place cs = interleave inserts place cs := by
  have nothing {place : Nat} (earlier : insertion.1 < place) :
      insertedAt (insertion :: inserts) place = insertedAt inserts place := by
    rw [insertedAt, List.filter_cons_of_neg (by simpa using Nat.ne_of_lt earlier), insertedAt]
  induction cs generalizing place with
  | nil => exact nothing earlier
  | cons c cs ih => rw [interleave, interleave, nothing earlier, ih (Nat.lt_add_right _ earlier)]

/-- The first insertion at a place comes in front of the others there. -/
lemma interleave_cons (cs : List Char) : interleave (insertion :: inserts) insertion.1 cs =
    insertion.2.toList ++ interleave inserts insertion.1 cs := by
  have first : insertedAt (insertion :: inserts) insertion.1 =
      insertion.2.toList ++ insertedAt inserts insertion.1 := by
    rw [insertedAt, List.filter_cons_of_pos (by simp), List.flatMap_cons, insertedAt]
  cases cs with
  | nil => exact first
  | cons c cs =>
    rw [interleave, first, interleave_cons_of_lt (Nat.lt_add_of_pos_right c.utf8Size_pos),
      List.append_assoc, interleave]

/-- Characters in front of all insertions are left as they are. -/
lemma interleave_append (later : ∀ insertion ∈ inserts, place + byteLength middle ≤ insertion.1)
    (rest : List Char) : interleave inserts place (middle ++ rest) =
      middle ++ interleave inserts (place + byteLength middle) rest := by
  induction middle generalizing place with
  | nil => rfl
  | cons c middle ih =>
    have nothing : insertedAt inserts place = [] := by
      rw [insertedAt, List.filter_eq_nil_iff.2 ?_, List.flatMap_nil]
      intro insertion mem
      have behind := later insertion mem
      have longer := byteLength_cons_pos c middle
      simp only [beq_iff_eq]
      omega
    rw [byteLength, ← Nat.add_assoc] at later ⊢
    rw [List.cons_append, interleave, nothing, ih later]
    rfl

/-- Interleaving depends only on what is put at each place. -/
lemma interleave_congr {others : List (Nat × String)}
    (same : ∀ place, insertedAt inserts place = insertedAt others place) (place : Nat)
    (cs : List Char) : interleave inserts place cs = interleave others place cs := by
  induction cs generalizing place with
  | nil => exact same place
  | cons c cs ih => rw [interleave, interleave, same, ih]

/-! ## Order -/

/-- Insertions are put in order without a change to their number. -/
lemma perm_inOrder (edits : List Edit) : (inOrder edits).Perm (insertions edits) :=
  List.mergeSort_perm _ _

/-- Insertions in order stand at increasing places. -/
lemma pairwise_inOrder (edits : List Edit) :
    (inOrder edits).Pairwise fun a b => a.1 ≤ b.1 := by
  have sorted : (inOrder edits).Pairwise fun a b => decide (a.1 ≤ b.1) = true :=
    List.pairwise_mergeSort (by simp only [decide_eq_true_eq]; omega) (by simp; omega) _
  exact sorted.imp fun le => of_decide_eq_true le

/-- Insertions at one place stay in the order they were recorded. -/
lemma filter_inOrder (edits : List Edit) (place : Nat) :
    (inOrder edits).filter (·.1 == place) = (insertions edits).filter (·.1 == place) := by
  have here : ((insertions edits).filter (·.1 == place)).Pairwise fun a b =>
      decide (a.1 ≤ b.1) = true := by
    refine List.pairwise_of_forall_mem_list fun a isHere b isThere => ?_
    rw [List.mem_filter, beq_iff_eq] at isHere isThere
    exact decide_eq_true (by omega)
  have kept : ((insertions edits).filter (·.1 == place)).Sublist (inOrder edits) :=
    List.sublist_mergeSort (by simp only [decide_eq_true_eq]; omega) (by simp; omega) here
      List.filter_sublist
  have found := kept.filter (·.1 == place)
  rw [List.filter_filter] at found
  simp only [Bool.and_self] at found
  exact (found.eq_of_length ((perm_inOrder edits).filter _).length_eq.symm).symm

/-- What is put at one place stays in the order it was recorded. -/
lemma insertedAt_inOrder (edits : List Edit) (place : Nat) :
    insertedAt (inOrder edits) place = insertedAt (insertions edits) place := by
  rw [insertedAt, insertedAt, filter_inOrder]

/-! ## Splicing -/

/-- Without insertions the rest of the text is left as it is. -/
lemma toList_splice_nil (whole : text.toList = front ++ rest) :
    (splice text (byteLength front) []).toList = rest := by
  rw [splice, slice_rest whole, String.toList_ofList]

/-- The first insertion comes after the part of the text up to its place. -/
lemma toList_splice_cons (inserts : List (Nat × String))
    (whole : text.toList = front ++ (middle ++ rest))
    (place : byteLength (front ++ middle) = insertion.1) :
    (splice text (byteLength front) (insertion :: inserts)).toList =
      middle ++ (insertion.2.toList ++ (splice text insertion.1 inserts).toList) := by
  rw [byteLength_append] at place
  have within : insertion.1 ≤ byteLength text.toList := by
    rw [whole, byteLength_append, byteLength_append]
    omega
  have same := slice_eq whole
  rw [place] at same
  rw [splice, Nat.min_eq_left within, Nat.max_eq_right (by omega), same]
  simp

/-- Insertions at increasing places from the end of `front` on have a first part of the rest in front
of the first one, and go on behind it. -/
lemma splits_at_insertion (whole : text.toList = front ++ rest)
    (between : ∀ other ∈ insertion :: inserts, Between text other.1)
    (later : ∀ other ∈ insertion :: inserts, byteLength front ≤ other.1)
    (sorted : (insertion :: inserts).Pairwise fun a b => a.1 ≤ b.1) :
    ∃ middle rest', rest = middle ++ rest' ∧ byteLength (front ++ middle) = insertion.1 ∧
      text.toList = (front ++ middle) ++ rest' ∧
      ∀ other ∈ inserts, byteLength (front ++ middle) ≤ other.1 := by
  obtain ⟨middle, rest', rfl, place⟩ := (between _ List.mem_cons_self).goes_on whole
    (later _ List.mem_cons_self)
  rw [← byteLength_append] at place
  refine ⟨middle, rest', rfl, place, by rw [whole, List.append_assoc], fun other mem => ?_⟩
  rw [place]
  exact (List.pairwise_cons.1 sorted).1 other mem

/-- Splicing insertions at increasing places puts each one at its place.

**Proof sketch.** Induction on the insertions: the characters up to the place of the first one are left
as they are, and from there on it counts no more. -/
lemma toList_splice (whole : text.toList = front ++ rest)
    (between : ∀ insertion ∈ inserts, Between text insertion.1)
    (later : ∀ insertion ∈ inserts, byteLength front ≤ insertion.1)
    (sorted : inserts.Pairwise fun a b => a.1 ≤ b.1) :
    (splice text (byteLength front) inserts).toList = interleave inserts (byteLength front) rest := by
  induction inserts generalizing front rest with
  | nil => rw [toList_splice_nil whole, interleave_nil]
  | cons insertion inserts ih =>
    obtain ⟨middle, rest', rfl, place, whole', later'⟩ :=
      splits_at_insertion whole between later sorted
    have spliced := ih whole' (List.forall_mem_cons.1 between).2 later' (List.pairwise_cons.1 sorted).2
    have behind : ∀ other ∈ insertion :: inserts,
        byteLength front + byteLength middle ≤ other.1 := by
      rw [← byteLength_append]
      exact List.forall_mem_cons.2 ⟨Nat.le_of_eq place, later'⟩
    rw [place] at spliced
    rw [toList_splice_cons inserts whole place, spliced, interleave_append behind,
      ← byteLength_append, place, interleave_cons]

/-- Applying insertions between characters puts each one at its place. -/
lemma applyInsertions_eq (between : ∀ insertion ∈ insertions edits, Between text insertion.1) :
    applyInsertions text edits = String.ofList (interleave (insertions edits) 0 text.toList) := by
  have whole : text.toList = [] ++ text.toList := rfl
  have spliced := toList_splice whole
    (fun insertion mem => between insertion ((perm_inOrder edits).mem_iff.1 mem))
    (fun _ _ => Nat.zero_le _) (pairwise_inOrder edits)
  rw [interleave_congr (insertedAt_inOrder edits)] at spliced
  exact String.toList_inj.1 (spliced.trans (String.toList_ofList).symm)

/-! ## Segments -/

/-- The segments of a text with insertions are the inserted texts, and without them the text is left.

**Proof sketch.** Induction on the insertions, where `made` is the part of the rewritten text up to the
last one: it is longer than the part of the original text by what was inserted so far. -/
lemma segments_splice {rewritten : String} {made : List Char} {shift : Nat}
    (whole : text.toList = front ++ rest)
    (between : ∀ insertion ∈ inserts, Between text insertion.1)
    (later : ∀ insertion ∈ inserts, byteLength front ≤ insertion.1)
    (sorted : inserts.Pairwise fun a b => a.1 ≤ b.1)
    (spliced : rewritten.toList = made ++ (splice text (byteLength front) inserts).toList)
    (longer : byteLength made = shift + byteLength front) :
    (segments shift inserts).map (·.text rewritten) = inserts.map (·.2) ∧
      (withoutSegments rewritten (byteLength made) (segments shift inserts)).toList = rest := by
  induction inserts generalizing front rest made shift with
  | nil =>
    rw [toList_splice_nil whole] at spliced
    refine ⟨rfl, ?_⟩
    rw [segments, withoutSegments, slice_rest spliced, String.toList_ofList]
  | cons insertion inserts ih =>
    obtain ⟨middle, rest', rfl, place, whole', later'⟩ :=
      splits_at_insertion whole between later sorted
    rw [toList_splice_cons inserts whole place, ← place] at spliced
    have start : shift + insertion.1 = byteLength made + byteLength middle := by
      rw [← place, byteLength_append, longer, Nat.add_assoc]
    -- the rewritten text behind the insertion
    have spliced' : rewritten.toList = (made ++ middle ++ insertion.2.toList) ++
        (splice text (byteLength (front ++ middle)) inserts).toList := by
      rw [spliced]
      simp only [List.append_assoc]
    have longer' : byteLength (made ++ middle ++ insertion.2.toList) =
        (shift + byteLength insertion.2.toList) + byteLength (front ++ middle) := by
      rw [place, byteLength_append, byteLength_append]
      omega
    obtain ⟨texts, left⟩ := ih whole' (List.forall_mem_cons.1 between).2 later'
      (List.pairwise_cons.1 sorted).2 spliced' longer'
    have gap := slice_eq spliced
    have split : rewritten.toList = (made ++ middle) ++ (insertion.2.toList ++
        (splice text (byteLength (front ++ middle)) inserts).toList) := by
      rw [spliced, List.append_assoc]
    have inserted := slice_eq split
    rw [byteLength_append] at inserted
    have stop : shift + insertion.1 + byteLength insertion.2.toList =
        byteLength (made ++ middle ++ insertion.2.toList) := by
      rw [start, byteLength_append, byteLength_append]
    constructor
    · rw [segments, List.map_cons, List.map_cons, texts, Span.text, start, inserted,
        String.ofList_toList]
    · rw [segments, withoutSegments, stop, start, String.toList_append, left, gap,
        String.toList_ofList]

/-- The inserted texts are segments of a rewritten text, and without them it is the original text. -/
lemma segments_applyInsertions
    (between : ∀ insertion ∈ insertions edits, Between text insertion.1) :
    (segments 0 (inOrder edits)).map (·.text (applyInsertions text edits)) =
        (inOrder edits).map (·.2) ∧
      withoutSegments (applyInsertions text edits) 0 (segments 0 (inOrder edits)) = text := by
  have whole : text.toList = [] ++ text.toList := rfl
  have spliced : (applyInsertions text edits).toList =
    [] ++ (splice text (byteLength []) (inOrder edits)).toList := rfl
  have longer : byteLength [] = 0 + byteLength [] := rfl
  obtain ⟨texts, left⟩ := segments_splice whole
    (fun insertion mem => between insertion ((perm_inOrder edits).mem_iff.1 mem))
    (fun _ _ => Nat.zero_le _) (pairwise_inOrder edits) spliced longer
  exact ⟨texts, String.toList_inj.1 left⟩

end SqlRouting.Edit
