import Mathlib.Data.List.Nodup

/-!
# Scans that keep the last match

A loop that runs over a whole list and overwrites its result at every match ends
with the last one. When the matched key occurs at most once, the scan finds the
same element, and the same position, as a search that stops at the first match.
-/

namespace RlInvestments.LastMatchScan

set_option autoImplicit false

variable {Element Key : Type}

def lastMatch (accept : Element → Bool) (found : Option Element) (elements : List Element) :
    Option Element :=
  elements.foldl (fun found element => if accept element then some element else found) found

def positionScan (accept : Element → Bool) : List Element → Nat → Option Nat → Option Nat
  | [], _, found => found
  | element :: elements, i, found =>
      positionScan accept elements (i + 1) (if accept element then some i else found)

def lastPosition (accept : Element → Bool) (elements : List Element) : Option Nat :=
  positionScan accept elements 0 none

@[simp] theorem last_match_nil (accept : Element → Bool) (found : Option Element) :
    lastMatch accept found [] = found := rfl

@[simp] theorem last_match_cons (accept : Element → Bool) (found : Option Element)
    (element : Element) (elements : List Element) :
    lastMatch accept found (element :: elements) =
      lastMatch accept (if accept element then some element else found) elements := rfl

theorem last_match_filter (accept : Element → Bool) (found : Option Element)
    (elements : List Element) :
    lastMatch accept found elements = (elements.filter accept).getLast?.or found := by
  induction elements generalizing found with
  | nil => rfl
  | cons element elements induction =>
      rw [last_match_cons, induction]
      by_cases matched : accept element = true
      · rw [if_pos matched, List.filter_cons_of_pos matched, List.getLast?_cons]
        cases (elements.filter accept).getLast? <;> rfl
      · rw [if_neg matched, List.filter_cons_of_neg matched]

theorem last_match_or (accept : Element → Bool) (found : Option Element)
    (elements : List Element) :
    lastMatch accept found elements = (lastMatch accept none elements).or found := by
  simp only [last_match_filter, Option.or_none]

theorem last_match_append (accept : Element → Bool) (elements later : List Element) :
    lastMatch accept none (elements ++ later) =
      (lastMatch accept none later).or (lastMatch accept none elements) := by
  rw [← last_match_or, lastMatch, List.foldl_append]
  rfl

theorem last_match_none_iff (accept : Element → Bool) (elements : List Element) :
    lastMatch accept none elements = none ↔ ∀ element ∈ elements, accept element = false := by
  simp [last_match_filter]

theorem last_match_some {accept : Element → Bool} {elements : List Element} {last : Element}
    (found : lastMatch accept none elements = some last) :
    last ∈ elements ∧ accept last = true := by
  rw [last_match_filter, Option.or_none] at found
  exact List.mem_filter.mp (List.mem_of_getLast? found)

/-- With one match at most there is no difference between first and last. -/
theorem last_match_find {accept : Element → Bool} {elements : List Element}
    (atMostOne : (elements.filter accept).length ≤ 1) :
    lastMatch accept none elements = elements.find? accept := by
  rw [last_match_filter, Option.or_none, ← List.head?_filter]
  match elements.filter accept, atMostOne with
  | [], _ => rfl
  | [_], _ => rfl

theorem position_scan_shift (accept : Element → Bool) (elements : List Element) (i : Nat)
    (found : Option Nat) :
    positionScan accept elements i found =
      ((lastPosition accept elements).map (i + ·)).or found := by
  unfold lastPosition
  induction elements generalizing i found with
  | nil => rfl
  | cons element elements induction =>
      rw [positionScan, positionScan, induction, induction (0 + 1)]
      cases positionScan accept elements 0 none with
      | none => by_cases matched : accept element = true <;> simp [matched]
      | some position => simp [Nat.add_assoc]

theorem last_position_cons (accept : Element → Bool) (element : Element)
    (elements : List Element) :
    lastPosition accept (element :: elements) =
      ((lastPosition accept elements).map (· + 1)).or
        (if accept element then some 0 else none) := by
  rw [lastPosition, positionScan, position_scan_shift]
  congr 2
  funext position
  exact Nat.add_comm _ _

theorem last_position_none_iff (accept : Element → Bool) (elements : List Element) :
    lastPosition accept elements = none ↔ ∀ element ∈ elements, accept element = false := by
  induction elements with
  | nil => simp [lastPosition, positionScan]
  | cons element elements induction =>
      rw [last_position_cons, Option.or_eq_none_iff, Option.map_eq_none_iff, induction]
      simp [and_comm]

/-- The scan's result is the greatest matching index. -/
theorem last_position_some_iff (accept : Element → Bool) (elements : List Element) (i : Nat) :
    lastPosition accept elements = some i ↔
      (∃ element, elements[i]? = some element ∧ accept element = true) ∧
        ∀ j element, i < j → elements[j]? = some element → accept element = false := by
  induction elements generalizing i with
  | nil => simp [lastPosition, positionScan]
  | cons head elements induction =>
      rw [last_position_cons, Option.or_eq_some_iff, Option.map_eq_some_iff,
        Option.map_eq_none_iff, last_position_none_iff]
      constructor
      · rintro (⟨position, found, rfl⟩ | ⟨nowhere, first⟩)
        · obtain ⟨present, later⟩ := (induction position).mp found
          refine ⟨by simpa using present, ?_⟩
          rintro (_ | j) element above there
          · omega
          · exact later j element (by omega) (by simpa using there)
        · obtain ⟨matched, rfl⟩ : accept head = true ∧ 0 = i := by simpa using first
          refine ⟨⟨head, rfl, matched⟩, ?_⟩
          rintro (_ | j) element above there
          · omega
          · exact nowhere element (List.mem_of_getElem? (by simpa using there))
      · rintro ⟨present, later⟩
        cases i with
        | zero =>
            obtain ⟨element, there, matched⟩ := present
            obtain rfl : head = element := by simpa using there
            refine .inr ⟨fun other member => ?_, by simp [matched]⟩
            obtain ⟨j, there⟩ := List.mem_iff_getElem?.mp member
            exact later (j + 1) other (by omega) (by simpa using there)
        | succ i =>
            refine .inl ⟨i, (induction i).mpr ⟨by simpa using present, ?_⟩, rfl⟩
            intro j element above there
            exact later (j + 1) element (by omega) (by simpa using there)

theorem filter_key_at_most_one [DecidableEq Key] {key : Element → Option Key}
    {elements : List Element} (distinct : (elements.filterMap key).Nodup) (wanted : Key) :
    (elements.filter fun element => key element == some wanted).length ≤ 1 := by
  have same : (elements.filter fun element => key element == some wanted).filterMap key =
      List.replicate (elements.filter fun element => key element == some wanted).length
        wanted := by
    induction elements with
    | nil => rfl
    | cons element elements induction =>
        have rest := induction (distinct.sublist ((List.sublist_cons_self ..).filterMap key))
        by_cases matched : key element = some wanted <;>
          simp [matched, rest, List.replicate_succ]
  have nodup := distinct.sublist (List.Sublist.filterMap key
    (List.filter_sublist (p := fun element => key element == some wanted)))
  rwa [same, List.nodup_replicate] at nodup

theorem find_of_key [DecidableEq Key] {key : Element → Option Key} {elements : List Element}
    (distinct : (elements.filterMap key).Nodup) {element : Element} (member : element ∈ elements)
    {wanted : Key} (keyed : key element = some wanted) :
    elements.find? (fun other => key other == some wanted) = some element := by
  have kept : element ∈ elements.filter fun other => key other == some wanted :=
    List.mem_filter.mpr ⟨member, by simp [keyed]⟩
  rw [← List.head?_filter]
  match elements.filter (fun other => key other == some wanted),
    filter_key_at_most_one distinct wanted, kept with
  | [_], _, only => rw [List.head?_cons, List.mem_singleton.mp only]

variable (key : Element → Key)

theorem get_eq_of_same_key {elements : List Element} (distinct : (elements.map key).Nodup)
    {i j : Nat} {first second : Element} (firstAt : elements[i]? = some first)
    (secondAt : elements[j]? = some second) (same : key first = key second) : i = j := by
  have firstKey : (elements.map key)[i]? = some (key first) := by
    rw [List.getElem?_map, firstAt, Option.map_some]
  have secondKey : (elements.map key)[j]? = some (key first) := by
    rw [List.getElem?_map, secondAt, Option.map_some, same]
  obtain ⟨inRange, -⟩ := List.getElem?_eq_some_iff.mp firstKey
  exact (List.getElem?_inj inRange distinct).mp (firstKey.trans secondKey.symm)

/-- A scan for the key of an element finds that element's position. -/
theorem last_position_of_key [DecidableEq Key] {elements : List Element}
    (distinct : (elements.map key).Nodup) {i : Nat} {element : Element}
    (there : elements[i]? = some element) :
    lastPosition (fun other => decide (key element = key other)) elements = some i := by
  refine (last_position_some_iff _ _ _).mpr ⟨⟨element, there, by simp⟩, ?_⟩
  intro j other above otherAt
  refine decide_eq_false fun same => ?_
  have := get_eq_of_same_key key distinct there otherAt same
  omega

theorem tail_keys_differ {head : Element} {tail : List Element}
    (distinct : ((head :: tail).map key).Nodup) : ∀ other ∈ tail, key other ≠ key head := by
  intro other member same
  exact (List.nodup_cons.mp distinct).1 (List.mem_map.mpr ⟨other, member, same⟩)

theorem filter_of_key [DecidableEq Key] {elements : List Element}
    (distinct : (elements.map key).Nodup) {element : Element} (member : element ∈ elements) :
    (elements.filter fun other => decide (key other = key element)) = [element] := by
  induction elements with
  | nil => exact nomatch member
  | cons head tail induction =>
      have fresh := tail_keys_differ key distinct
      rcases List.mem_cons.mp member with rfl | later
      · rw [List.filter_cons_of_pos (by simp), List.filter_eq_nil_iff.mpr]
        exact fun other member => by simpa using fresh other member
      · have different := fresh element later
        rw [List.filter_cons_of_neg (by simpa using different.symm)]
        exact induction (List.nodup_cons.mp distinct).2 later

/-- Removing at a position is removing by the key that is found there. -/
theorem erase_at_key [DecidableEq Key] {elements : List Element}
    (distinct : (elements.map key).Nodup) {i : Nat} {element : Element}
    (there : elements[i]? = some element) :
    elements.eraseIdx i = elements.filter fun other => decide (key other ≠ key element) := by
  induction elements generalizing i with
  | nil => exact nomatch there
  | cons head tail induction =>
      have fresh := tail_keys_differ key distinct
      cases i with
      | zero =>
          obtain rfl := Option.some.inj there
          rw [List.eraseIdx_cons_zero, List.filter_cons_of_neg (by simp)]
          refine (List.filter_eq_self.mpr fun other member => ?_).symm
          exact decide_eq_true (fresh other member)
      | succ i =>
          have there : tail[i]? = some element := there
          have different := fresh element (List.mem_of_getElem? there)
          rw [List.eraseIdx_cons_succ, List.filter_cons_of_pos (by simpa using different.symm),
            induction (List.nodup_cons.mp distinct).2 there]

theorem set_at_key [DecidableEq Key] {elements : List Element}
    (distinct : (elements.map key).Nodup) {i : Nat} {element : Element}
    (there : elements[i]? = some element) (update : Element → Element) :
    elements.set i (update element) =
      elements.map fun other => if key other = key element then update other else other := by
  induction elements generalizing i with
  | nil => exact nomatch there
  | cons head tail induction =>
      have fresh := tail_keys_differ key distinct
      cases i with
      | zero =>
          obtain rfl := Option.some.inj there
          have unchanged : (tail.map fun other =>
              if key other = key head then update other else other) = tail.map id :=
            List.map_congr_left fun other member => if_neg (fresh other member)
          rw [List.set_cons_zero, List.map_cons, if_pos rfl, unchanged, List.map_id]
      | succ i =>
          have there : tail[i]? = some element := there
          have different := fresh element (List.mem_of_getElem? there)
          rw [List.set_cons_succ, List.map_cons, if_neg different.symm,
            induction (List.nodup_cons.mp distinct).2 there]

end RlInvestments.LastMatchScan
