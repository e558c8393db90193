import SqlRouting.Proofs.Segments

/-!
# The order of insertions

Insertions are applied by their places, and those at one place in the order they were recorded. So what
matters of a list of edits is which texts are inserted at each place, and in which order there: the edits
that insert nothing may as well be missing, and insertions at different places may change places in the
list.

What is inserted beyond the end of a text stands at its end. There too the places come first: an
insertion further beyond the end stands behind another that is less so, whichever was recorded first.

## Main definitions

* `SqlRouting.Edit.Arranged` — insertions by their places, and as recorded at each.
* `SqlRouting.Edit.movedInto` — insertions of which none stands beyond the end of a text.
* `SqlRouting.Edit.insertsAt` — whether an edit inserts a text at a place.

## Main results

* `SqlRouting.Edit.Arranged.eq_inOrder` — insertions are arranged in one way.
* `SqlRouting.Edit.insertions_placed` — where the insertions of some edits stand.
* `SqlRouting.Edit.beyond_end_by_place` — two insertions that do not stand as they were recorded.
-/

set_option autoImplicit false

namespace SqlRouting.Edit

open Text

/-- The insertions of some edits are arranged by their places, and those at one place in the order they
were recorded. -/
structure Arranged (edits : List Edit) (order : List (Nat × String)) : Prop where
  /-- No insertion stands in front of one at an earlier place. -/
  sorted : order.Pairwise fun a b => a.1 ≤ b.1
  /-- At each place there are the insertions that were recorded for it, in this order. -/
  recorded : ∀ place, order.filter (·.1 == place) = (insertions edits).filter (·.1 == place)

/-- Insertions in a text of `length` bytes: those beyond its end stand at its end. -/
def movedInto (length : Nat) (inserts : List (Nat × String)) : List (Nat × String) :=
  inserts.map fun insertion => (min insertion.1 length, insertion.2)

/-- Whether an edit inserts a text at a place. -/
def insertsAt (place : Nat) (edit : Edit) : Bool :=
  edit.insertedText?.isSome && edit.start == place

variable {text : String} {edits others : List Edit} {order inserts inserts' : List (Nat × String)}
variable {place length : Nat}

/-! ## Arranging insertions -/

/-- Where insertions stand by their places, they are known from those at each place.

**Proof sketch.** Induction on the insertions. The first one of either list is found at its place in the
other, so neither stands at a later place than the other, and they are the first ones at one place. -/
lemma eq_of_filter_eq (sorted : inserts.Pairwise fun a b => a.1 ≤ b.1)
    (sorted' : inserts'.Pairwise fun a b => a.1 ≤ b.1)
    (same : ∀ place, inserts.filter (·.1 == place) = inserts'.filter (·.1 == place)) :
    inserts = inserts' := by
  have found {l l' : List (Nat × String)} {a : Nat × String}
      (same : ∀ place, l.filter (·.1 == place) = l'.filter (·.1 == place)) (mem : a ∈ l) : a ∈ l' := by
    have here : a ∈ l.filter (·.1 == a.1) := List.mem_filter.2 ⟨mem, beq_self_eq_true _⟩
    rw [same] at here
    exact (List.mem_filter.1 here).1
  induction inserts generalizing inserts' with
  | nil =>
    refine (List.eq_nil_iff_forall_not_mem.2 fun a mem => ?_).symm
    exact List.not_mem_nil (found (fun place => (same place).symm) mem)
  | cons a inserts ih =>
    cases inserts' with
    | nil => exact absurd (found same List.mem_cons_self) List.not_mem_nil
    | cons b inserts' =>
      obtain ⟨first, rest⟩ := List.pairwise_cons.1 sorted
      obtain ⟨first', rest'⟩ := List.pairwise_cons.1 sorted'
      have notLater : b.1 ≤ a.1 := by
        rcases List.mem_cons.1 (found same List.mem_cons_self) with rfl | mem
        · exact Nat.le_refl _
        · exact first' a mem
      have notEarlier : a.1 ≤ b.1 := by
        rcases List.mem_cons.1 (found (fun place => (same place).symm) List.mem_cons_self) with rfl | mem
        · exact Nat.le_refl _
        · exact first b mem
      have onePlace : b.1 = a.1 := Nat.le_antisymm notLater notEarlier
      have heads := same a.1
      rw [List.filter_cons_of_pos (by simp), List.filter_cons_of_pos (by simp [onePlace])] at heads
      have one : a = b := (List.cons.inj heads).1
      subst one
      refine congrArg (a :: ·) (ih rest rest' fun place => ?_)
      have tails := same place
      by_cases here : a.1 = place
      · rw [List.filter_cons_of_pos (by simpa using here),
          List.filter_cons_of_pos (by simpa using here)] at tails
        exact (List.cons.inj tails).2
      · rwa [List.filter_cons_of_neg (by simpa using here),
          List.filter_cons_of_neg (by simpa using here)] at tails

/-- Putting insertions in order arranges them. -/
lemma arranged_inOrder (edits : List Edit) : Arranged edits (inOrder edits) :=
  ⟨pairwise_inOrder edits, filter_inOrder edits⟩

/-- Insertions are arranged in one way. -/
lemma Arranged.eq_inOrder (h : Arranged edits order) : order = inOrder edits :=
  eq_of_filter_eq h.sorted (pairwise_inOrder edits) fun place => by rw [h.recorded, filter_inOrder]

/-- Insertions at increasing places are arranged behind one that was recorded in front of them, if it
stands at a later place than all of them. -/
lemma arranged_behind {later : Nat × String} (recorded : insertions edits = later :: inserts)
    (sorted : inserts.Pairwise fun a b => a.1 ≤ b.1)
    (earlier : ∀ insertion ∈ inserts, insertion.1 < later.1) :
    Arranged edits (inserts ++ [later]) where
  sorted := by
    refine List.pairwise_append.2 ⟨sorted, List.pairwise_singleton _ _, ?_⟩
    intro insertion mem other isLater
    rw [List.mem_singleton.1 isLater]
    exact Nat.le_of_lt (earlier insertion mem)
  recorded place := by
    rw [recorded, List.filter_append]
    by_cases here : later.1 = place
    · have noneHere : inserts.filter (·.1 == place) = [] := List.filter_eq_nil_iff.2 fun insertion mem => by
        simpa [← here] using Nat.ne_of_lt (earlier insertion mem)
      rw [List.filter_cons_of_pos (by simpa using here), List.filter_cons_of_pos (by simpa using here),
        noneHere, List.nil_append, List.filter_nil]
    · rw [List.filter_cons_of_neg (by simpa using here), List.filter_cons_of_neg (by simpa using here),
        List.filter_nil, List.append_nil]

/-- Insertions are applied as they are arranged. -/
lemma Arranged.applyInsertions_eq (h : Arranged edits order) (text : String) :
    applyInsertions text edits = splice text 0 order := by
  rw [h.eq_inOrder]
  rfl

/-- The insertions at a place are those of the edits that insert a text there. -/
lemma filter_insertions (edits : List Edit) (place : Nat) :
    (insertions edits).filter (·.1 == place) = insertions (edits.filter (insertsAt place)) := by
  rw [insertions, insertions, List.filter_filterMap, List.filterMap_filter]
  refine congrArg (List.filterMap · edits) (funext fun edit => ?_)
  unfold insertsAt
  cases edit.insertedText? with
  | none => rfl
  | some inserted => simp [Option.filter]

/-- Edits that insert the same texts in the same order at each place have the same insertions in
order. -/
lemma inOrder_congr (same : ∀ place, others.filter (insertsAt place) = edits.filter (insertsAt place)) :
    inOrder others = inOrder edits := by
  have arranged : Arranged edits (inOrder others) :=
    ⟨pairwise_inOrder others, fun place => by
      rw [filter_inOrder, filter_insertions, filter_insertions, same]⟩
  exact arranged.eq_inOrder

/-! ## Insertions beyond the end -/

/-- Moving insertions into a text keeps them in order. -/
lemma pairwise_movedInto (sorted : inserts.Pairwise fun a b => a.1 ≤ b.1) (length : Nat) :
    (movedInto length inserts).Pairwise fun a b => a.1 ≤ b.1 := by
  refine List.pairwise_map.2 (sorted.imp fun le => ?_)
  dsimp only
  omega

/-- Splicing moves insertions into the text by itself. -/
lemma splice_movedInto (text : String) (last : Nat) (inserts : List (Nat × String)) :
    splice text last (movedInto (byteLength text.toList) inserts) = splice text last inserts := by
  induction inserts generalizing last with
  | nil => rfl
  | cons insertion inserts ih =>
    have again := ih (max last (min insertion.1 (byteLength text.toList)))
    rw [movedInto] at again
    rw [movedInto, List.map_cons, splice, splice, Nat.min_assoc, Nat.min_self, again]

/-- In front of the end of a text nothing is moved. -/
lemma filter_movedInto (inFront : place < length) (inserts : List (Nat × String)) :
    (movedInto length inserts).filter (·.1 == place) = inserts.filter (·.1 == place) := by
  induction inserts with
  | nil => rfl
  | cons insertion inserts ih =>
    rw [movedInto, List.map_cons]
    rw [movedInto] at ih
    by_cases here : insertion.1 = place
    · have stays : min insertion.1 length = insertion.1 := by omega
      rw [stays, List.filter_cons_of_pos (by simp [here]), List.filter_cons_of_pos (by simp [here]), ih]
    · have elsewhere : min insertion.1 length ≠ place := by omega
      rw [List.filter_cons_of_neg (by simpa using elsewhere),
        List.filter_cons_of_neg (by simpa using here), ih]

/-- Applying insertions between characters or beyond the end puts each one at its place, or at the end. -/
lemma applyInsertions_eq_movedInto
    (placed : ∀ insertion ∈ insertions edits,
      Between text insertion.1 ∨ byteLength text.toList < insertion.1) :
    applyInsertions text edits = String.ofList
      (interleave (movedInto (byteLength text.toList) (inOrder edits)) 0 text.toList) := by
  have whole : text.toList = [] ++ text.toList := rfl
  have between : ∀ insertion ∈ movedInto (byteLength text.toList) (inOrder edits),
      Between text insertion.1 := by
    intro moved mem
    obtain ⟨insertion, recorded, rfl⟩ := List.mem_map.1 mem
    rcases placed insertion ((perm_inOrder edits).mem_iff.1 recorded) with inside | beyond
    · dsimp only
      rwa [Nat.min_eq_left inside.le_byteLength]
    · dsimp only
      rw [Nat.min_eq_right (Nat.le_of_lt beyond)]
      exact ⟨text.toList, [], (List.append_nil _).symm, rfl⟩
  have spliced := toList_splice whole between (fun _ _ => Nat.zero_le _)
    (pairwise_movedInto (pairwise_inOrder edits) _)
  rw [splice_movedInto] at spliced
  exact String.toList_inj.1 (spliced.trans (String.toList_ofList).symm)

/-! ## Where insertions stand -/

/-- Each text that is inserted between two characters stands there, and those beyond the end stand at the
end. They are arranged by the places they were recorded for, so in front of the end they stand as they were
recorded; nothing else is changed. Edits that insert the same texts at each place, in the same order there,
give the same text.

**Proof sketch.** The insertions in order are arranged, and splicing them is splicing them at their places
in the text, which puts each one at its place. There is one way to arrange insertions, which depends on
those at each place. -/
theorem insertions_placed
    (placed : ∀ insertion ∈ insertions edits,
      Between text insertion.1 ∨ byteLength text.toList < insertion.1) :
    ∃ order, Arranged edits order ∧
      applyInsertions text edits =
        String.ofList (interleave (movedInto (byteLength text.toList) order) 0 text.toList) ∧
      (∀ place < byteLength text.toList,
        insertedAt (movedInto (byteLength text.toList) order) place =
          insertedAt (insertions edits) place) ∧
      ∀ others, (∀ place, others.filter (insertsAt place) = edits.filter (insertsAt place)) →
        applyInsertions text others = applyInsertions text edits := by
  refine ⟨inOrder edits, arranged_inOrder edits, applyInsertions_eq_movedInto placed, ?_, ?_⟩
  · intro place inFront
    rw [insertedAt, filter_movedInto inFront, filter_inOrder, insertedAt]
  · intro others same
    rw [applyInsertions, applyInsertions]
    exact congrArg (splice text 0) (inOrder_congr same)

/-- A text of four characters in five bytes, with two insertions behind the first one and two beyond the
end. -/
theorem insertions_placed_twice :
    (∀ insertion ∈ insertions
        [.orderBy 20 ["a ASC"], .items 2 ["b"], .insertValues 2 .values, .items 2 ["c"], .items 18 ["d"]],
      Between "é, t" insertion.1 ∨ byteLength "é, t".toList < insertion.1) ∧
    ∃ order,
      Arranged
        [.orderBy 20 ["a ASC"], .items 2 ["b"], .insertValues 2 .values, .items 2 ["c"], .items 18 ["d"]]
        order ∧
      applyInsertions "é, t"
          [.orderBy 20 ["a ASC"], .items 2 ["b"], .insertValues 2 .values, .items 2 ["c"],
            .items 18 ["d"]] =
        String.ofList (interleave (movedInto (byteLength "é, t".toList) order) 0 "é, t".toList) ∧
      applyInsertions "é, t"
          [.orderBy 20 ["a ASC"], .items 2 ["b"], .insertValues 2 .values, .items 2 ["c"],
            .items 18 ["d"]] = "é, b, c, t, d ORDER BY a ASC " := by
  have placed : ∀ insertion ∈ insertions
      [.orderBy 20 ["a ASC"], .items 2 ["b"], .insertValues 2 .values, .items 2 ["c"], .items 18 ["d"]],
      Between "é, t" insertion.1 ∨ byteLength "é, t".toList < insertion.1 := by
    have behindFirst : Between "é, t" 2 := ⟨['é'], [',', ' ', 't'], by decide, by decide⟩
    have beyond (far : Nat) (behind : 5 < far) : byteLength "é, t".toList < far := behind
    intro insertion mem
    simp only [insertions, insertedText?, start, List.filterMap_cons, List.filterMap_nil,
      Option.map_some, Option.map_none, List.mem_cons, List.not_mem_nil, or_false] at mem
    rcases mem with rfl | rfl | rfl | rfl
    · exact .inr (beyond 20 (by omega))
    · exact .inl behindFirst
    · exact .inl behindFirst
    · exact .inr (beyond 18 (by omega))
  have byPlaces : Arranged
      [.orderBy 20 ["a ASC"], .items 2 ["b"], .insertValues 2 .values, .items 2 ["c"], .items 18 ["d"]]
      [(2, ", b"), (2, ", c"), (18, ", d"), (20, " ORDER BY a ASC ")] := by
    have recorded : insertions
        [.orderBy 20 ["a ASC"], .items 2 ["b"], .insertValues 2 .values, .items 2 ["c"], .items 18 ["d"]] =
          [(20, " ORDER BY a ASC "), (2, ", b"), (2, ", c"), (18, ", d")] := by decide
    exact arranged_behind recorded (by decide) (by decide)
  obtain ⟨order, arranged, applied, -, -⟩ := insertions_placed placed
  exact ⟨placed, order, arranged, applied, (byPlaces.applyInsertions_eq _).trans (by decide +kernel)⟩

/-- Two insertions beyond the end of a text stand by their places, not as they were recorded. -/
theorem beyond_end_by_place :
    applyInsertions "SELECT a FROM t" [.orderBy 20 ["a ASC"], .items 18 ["b"]] =
        "SELECT a FROM t, b ORDER BY a ASC " ∧
      String.ofList (interleave
        (movedInto (byteLength "SELECT a FROM t".toList)
          (insertions [.orderBy 20 ["a ASC"], .items 18 ["b"]]))
        0 "SELECT a FROM t".toList) = "SELECT a FROM t ORDER BY a ASC , b" ∧
      applyInsertions "SELECT a FROM t" [.orderBy 20 ["a ASC"], .items 18 ["b"]] ≠
        String.ofList (interleave
          (movedInto (byteLength "SELECT a FROM t".toList)
            (insertions [.orderBy 20 ["a ASC"], .items 18 ["b"]]))
          0 "SELECT a FROM t".toList) := by
  have applied : applyInsertions "SELECT a FROM t" [.orderBy 20 ["a ASC"], .items 18 ["b"]] =
      "SELECT a FROM t, b ORDER BY a ASC " := by
    have byPlaces : Arranged [.orderBy 20 ["a ASC"], .items 18 ["b"]]
        [(18, ", b"), (20, " ORDER BY a ASC ")] := by
      have recorded : insertions [.orderBy 20 ["a ASC"], .items 18 ["b"]] =
          [(20, " ORDER BY a ASC "), (18, ", b")] := by decide
      exact arranged_behind recorded (by decide) (by decide)
    exact (byPlaces.applyInsertions_eq _).trans (by decide +kernel)
  have recorded : String.ofList (interleave
      (movedInto (byteLength "SELECT a FROM t".toList)
        (insertions [.orderBy 20 ["a ASC"], .items 18 ["b"]]))
      0 "SELECT a FROM t".toList) = "SELECT a FROM t ORDER BY a ASC , b" := by decide +kernel
  refine ⟨applied, recorded, ?_⟩
  rw [applied, recorded]
  decide

end SqlRouting.Edit
