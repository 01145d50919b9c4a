import Mathlib.Data.List.Sort

/-!
# Descending by a key, with the ties kept in order

The stable sort of a list by a key, highest first. It is the only descending list with
the ties of the given one. A selection that takes the last of the highest entries out of a
list, again and again, computes it for the reversed list.
-/

namespace RlInvestments.StableSort

set_option autoImplicit false

variable {Entry Key : Type} [LinearOrder Key] (key : Entry → Key)

def Above (first second : Entry) : Prop := key second ≤ key first

instance : DecidableRel (Above key) := fun first second =>
  inferInstanceAs (Decidable (key second ≤ key first))

instance : Std.Total (Above key) := ⟨fun first second => le_total (key second) (key first)⟩

instance : IsTrans Entry (Above key) := ⟨fun _ _ _ above below => le_trans below above⟩

def sortByKey (entries : List Entry) : List Entry := entries.insertionSort (Above key)

def ties (value : Key) (entries : List Entry) : List Entry :=
  entries.filter fun entry => key entry = value

theorem sort_descending (entries : List Entry) : (sortByKey key entries).Pairwise (Above key) :=
  List.pairwise_insertionSort _ _

theorem sort_perm (entries : List Entry) : (sortByKey key entries).Perm entries :=
  List.perm_insertionSort _ _

theorem ties_reverse (value : Key) (entries : List Entry) :
    ties key value entries.reverse = (ties key value entries).reverse :=
  List.filter_reverse ..

variable {key}

theorem ties_cons_same {value : Key} {entry : Entry} (same : key entry = value)
    (entries : List Entry) : ties key value (entry :: entries) = entry :: ties key value entries :=
  List.filter_cons_of_pos (decide_eq_true same)

theorem ties_cons_other {value : Key} {entry : Entry} (other : key entry ≠ value)
    (entries : List Entry) : ties key value (entry :: entries) = ties key value entries :=
  List.filter_cons_of_neg fun same => other (of_decide_eq_true same)

theorem mem_ties {value : Key} {entry : Entry} {entries : List Entry} :
    entry ∈ ties key value entries ↔ entry ∈ entries ∧ key entry = value := by
  rw [ties, List.mem_filter, decide_eq_true_iff]

theorem sort_ties (value : Key) (entries : List Entry) :
    ties key value (sortByKey key entries) = ties key value entries := by
  have equal : (ties key value entries).Pairwise (Above key) := by
    apply List.Pairwise.imp_of_mem (R := fun _ _ => True)
    · intro first second inFirst inSecond _
      exact ((mem_ties.mp inSecond).2.trans (mem_ties.mp inFirst).2.symm).le
    · exact List.pairwise_of_forall fun _ _ => trivial
  have kept : (ties key value entries).Sublist (sortByKey key entries) :=
    List.sublist_insertionSort equal List.filter_sublist
  have among : (ties key value entries).Sublist (ties key value (sortByKey key entries)) := by
    have filtered := kept.filter fun entry => decide (key entry = value)
    have again : (ties key value entries).filter (fun entry => decide (key entry = value)) =
        ties key value entries :=
      List.filter_eq_self.mpr fun entry member => decide_eq_true (mem_ties.mp member).2
    rw [again] at filtered
    exact filtered
  have length := ((sort_perm key entries).filter fun entry => decide (key entry = value)).length_eq
  exact (among.eq_of_length length.symm).symm

theorem head_above {entry other : Entry} {first second : List Entry}
    (ordered : (entry :: first).Pairwise (Above key))
    (same : ∀ value, ties key value (entry :: first) = ties key value (other :: second)) :
    key other ≤ key entry := by
  have there : other ∈ ties key (key other) (entry :: first) := by
    rw [same]
    exact mem_ties.mpr ⟨List.mem_cons_self .., rfl⟩
  rcases List.mem_cons.mp (mem_ties.mp there).1 with isHead | later
  · rw [isHead]
  · exact (List.pairwise_cons.mp ordered).1 other later

/-- A descending list is determined by its ties. -/
theorem descending_unique {first second : List Entry} (firstOrdered : first.Pairwise (Above key))
    (secondOrdered : second.Pairwise (Above key))
    (same : ∀ value, ties key value first = ties key value second) : first = second := by
  induction first generalizing second with
  | nil =>
      cases second with
      | nil => rfl
      | cons other second =>
          have empty := same (key other)
          rw [ties_cons_same rfl] at empty
          cases empty
  | cons entry first induction =>
      cases second with
      | nil =>
          have empty := same (key entry)
          rw [ties_cons_same rfl] at empty
          cases empty
      | cons other second =>
          have equal : key entry = key other := le_antisymm
            (head_above secondOrdered fun value => (same value).symm) (head_above firstOrdered same)
          have heads := same (key other)
          rw [ties_cons_same equal, ties_cons_same rfl] at heads
          have ⟨isHead, tails⟩ := List.cons.inj heads
          have rest : ∀ value, ties key value first = ties key value second := by
            intro value
            by_cases here : key other = value
            · rw [← here]
              exact tails
            · have elsewhere := same value
              rw [ties_cons_other (equal ▸ here), ties_cons_other here] at elsewhere
              exact elsewhere
          rw [isHead, induction (List.pairwise_cons.mp firstOrdered).2
            (List.pairwise_cons.mp secondOrdered).2 rest]

theorem sort_of_ties {first second : List Entry}
    (same : ∀ value, ties key value first = ties key value second) :
    sortByKey key first = sortByKey key second := by
  apply descending_unique (sort_descending key first) (sort_descending key second)
  intro value
  rw [sort_ties, sort_ties]
  exact same value

/-- Sorted backwards, a list is sorted with its ties backwards. -/
theorem sort_reverse_sort (entries : List Entry) :
    sortByKey key (sortByKey key entries).reverse = sortByKey key entries.reverse := by
  apply sort_of_ties
  intro value
  rw [ties_reverse, ties_reverse, sort_ties]

theorem sort_reverse_sort_reverse (entries : List Entry) :
    sortByKey key (sortByKey key entries.reverse).reverse = sortByKey key entries := by
  rw [sort_reverse_sort, List.reverse_reverse]

/-- The first of the highest entries comes first, and the others are sorted without it. -/
theorem sort_highest {front back : List Entry} {top : Entry}
    (below : ∀ entry ∈ front, key entry < key top) (upTo : ∀ entry ∈ back, key entry ≤ key top) :
    sortByKey key (front ++ top :: back) = top :: sortByKey key (front ++ back) := by
  induction front with
  | nil => exact List.insertionSort_cons_of_forall_rel _ upTo
  | cons entry front induction =>
      have ⟨here, later⟩ := List.forall_mem_cons.mp below
      have notAbove : ¬ Above key entry top := not_le.mpr here
      have inserted : sortByKey key (entry :: front ++ top :: back) =
          (sortByKey key (front ++ top :: back)).orderedInsert (Above key) entry := rfl
      rw [inserted, induction later, List.orderedInsert_of_not_le _ _ notAbove]
      rfl

theorem sort_reverse_last_highest {front back : List Entry} {top : Entry}
    (upTo : ∀ entry ∈ front, key entry ≤ key top) (below : ∀ entry ∈ back, key entry < key top) :
    sortByKey key (front ++ top :: back).reverse =
      top :: sortByKey key (front ++ back).reverse := by
  have whole : (front ++ top :: back).reverse = back.reverse ++ top :: front.reverse := by
    rw [List.reverse_append, List.reverse_cons, List.append_assoc, List.singleton_append]
  rw [whole, sort_highest, List.reverse_append]
  · exact fun entry member => below entry (List.mem_reverse.mp member)
  · exact fun entry member => upTo entry (List.mem_reverse.mp member)

end RlInvestments.StableSort
