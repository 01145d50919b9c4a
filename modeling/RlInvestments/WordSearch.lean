import Mathlib.Data.List.Infix
import Mathlib.Data.Nat.Find

/-!
# Searching a list for a word

Where a word first occurs, words that cannot overlap themselves, and the two loops of
a hand-written scanner: one deletes from the front until a word is there, one reads on
until an element is there. Both run off the end of a list that lacks what they look for.
-/

namespace RlInvestments.WordSearch

set_option autoImplicit false

variable {Letter : Type}

structure FirstAt (word list : List Letter) (p : Nat) : Prop where
  occurs : word <+: list.drop p
  first : ∀ q < p, ¬ word <+: list.drop q

theorem infix_iff_occurs (word list : List Letter) :
    word <:+: list ↔ ∃ p, word <+: list.drop p := by
  constructor
  · rintro ⟨before, after, rfl⟩
    refine ⟨before.length, after, ?_⟩
    rw [List.append_assoc, List.drop_left]
  · rintro ⟨p, occurs⟩
    exact occurs.isInfix.trans (List.drop_suffix p list).isInfix

theorem first_at_exists {word list : List Letter} (present : word <:+: list) :
    ∃ p, FirstAt word list p := by
  classical
  have somewhere := (infix_iff_occurs word list).mp present
  exact ⟨Nat.find somewhere, Nat.find_spec somewhere, fun q before => Nat.find_min somewhere before⟩

theorem first_at_unique {word list : List Letter} {p q : Nat} (here : FirstAt word list p)
    (there : FirstAt word list q) : p = q := by
  rcases Nat.lt_trichotomy p q with before | same | after
  · exact absurd here.occurs (there.first p before)
  · exact same
  · exact absurd there.occurs (here.first q after)

theorem first_at_zero {word list : List Letter} (occurs : word <+: list) :
    FirstAt word list 0 :=
  ⟨occurs, fun _ before => absurd before (Nat.not_lt_zero _)⟩

theorem first_at_succ_iff {word list : List Letter} {letter : Letter} {p : Nat}
    (elsewhere : ¬ word <+: letter :: list) :
    FirstAt word (letter :: list) (p + 1) ↔ FirstAt word list p := by
  constructor
  · intro here
    exact ⟨here.occurs, fun q before => here.first (q + 1) (by omega)⟩
  · intro here
    refine ⟨here.occurs, fun q before => ?_⟩
    cases q with
    | zero => exact elsewhere
    | succ q => exact here.first q (by omega)

theorem first_at_length {word list : List Letter} {p : Nat} (here : FirstAt word list p) :
    p + word.length ≤ list.length ∨ word = [] := by
  have short := here.occurs.length_le
  rw [List.length_drop] at short
  rcases Nat.eq_zero_or_pos word.length with empty | long
  · exact .inr (List.length_eq_zero_iff.mp empty)
  · exact .inl (by omega)

theorem infix_append_cons_iff {word before after : List Letter} {separator : Letter}
    (absent : separator ∉ word) :
    word <:+: before ++ separator :: after ↔ word <:+: before ∨ word <:+: after := by
  constructor
  · rintro ⟨front, back, split⟩
    rw [List.append_assoc] at split
    rcases List.append_eq_append_iff.mp split with ⟨gap, rfl, rest⟩ | ⟨gap, rfl, rest⟩
    · rcases List.append_eq_append_iff.mp rest with ⟨more, rfl, tail⟩ | ⟨more, rfl, tail⟩
      · exact .inl ⟨front, more, by rw [List.append_assoc]⟩
      · cases more with
        | nil => exact .inl ⟨front, [], by simp⟩
        | cons head more =>
            obtain ⟨rfl, -⟩ := List.cons.inj tail
            exact absurd (by simp) absent
    · cases gap with
      | nil =>
          cases word with
          | nil => exact .inl (List.nil_infix)
          | cons head word =>
              obtain ⟨rfl, -⟩ := List.cons.inj rest
              exact absurd (by simp) absent
      | cons head gap =>
          obtain ⟨-, rfl⟩ := List.cons.inj rest
          exact .inr ⟨gap, back, List.append_assoc gap word back⟩
  · rintro (inFront | inBack)
    · exact inFront.trans (List.prefix_append _ _).isInfix
    · exact inBack.trans ((List.suffix_cons _ _).trans (List.suffix_append _ _)).isInfix

/-- No proper end of the word is also a beginning of it. -/
def Unbordered (word : List Letter) : Prop :=
  ∀ k < word.length, 0 < k → ¬ word.drop k <+: word

instance [DecidableEq Letter] (word : List Letter) : Decidable (Unbordered word) :=
  inferInstanceAs (Decidable (∀ k < word.length, 0 < k → ¬ word.drop k <+: word))

/-- Behind a text that does not contain it, the word is found where it was written. -/
theorem first_at_append {word before : List Letter} (unbordered : Unbordered word)
    (absent : ¬ word <:+: before) (after : List Letter) :
    FirstAt word (before ++ word ++ after) before.length := by
  refine ⟨by simp [List.append_assoc], fun q earlier occurs => ?_⟩
  rw [List.append_assoc, List.drop_append_of_le_length (Nat.le_of_lt earlier)] at occurs
  have rest : (before.drop q).length = before.length - q := List.length_drop
  rcases List.prefix_or_prefix_of_prefix occurs (List.prefix_append (before.drop q) _) with
    whole | part
  · exact absent (whole.isInfix.trans (List.drop_suffix q before).isInfix)
  · obtain ⟨tail, same⟩ := part
    have there : tail <+: word ++ after := by
      rw [← List.prefix_append_right_inj (before.drop q), same]
      exact occurs
    have split : word.drop (before.length - q) = tail := by
      rw [← same, ← rest, List.drop_left]
    have length : word.length = before.length - q + tail.length := by
      rw [← same, List.length_append, rest]
    rcases Nat.eq_zero_or_pos tail.length with empty | long
    · rw [List.length_eq_zero_iff.mp empty, List.append_nil] at same
      exact absent (same ▸ (List.drop_suffix q before).isInfix)
    · refine unbordered (before.length - q) (by omega) (by omega) ?_
      rw [split]
      exact List.prefix_of_prefix_length_le there (List.prefix_append word after) (by omega)

/-- Deletes from the front until the word is there; reading the word may run off the end. -/
def deleteUntil [DecidableEq Letter] (word : List Letter) : List Letter → Option (List Letter)
  | [] => if word = [] then some [] else none
  | letter :: rest =>
      if (letter :: rest).length < word.length then none
      else if (letter :: rest).take word.length = word then some (letter :: rest)
      else deleteUntil word rest

def splitUntil [DecidableEq Letter] (stop : Letter) :
    List Letter → Option (List Letter × List Letter)
  | [] => none
  | letter :: rest =>
      if letter = stop then some ([], letter :: rest)
      else (splitUntil stop rest).map fun (read, left) => (letter :: read, left)

variable [DecidableEq Letter]

theorem delete_until_first {word list : List Letter} {p : Nat} (here : FirstAt word list p) :
    deleteUntil word list = some (list.drop p) := by
  induction list generalizing p with
  | nil =>
      have empty : word = [] := List.prefix_nil.mp (List.drop_nil ▸ here.occurs)
      rw [deleteUntil, if_pos empty, List.drop_nil]
  | cons letter rest induction =>
      have long : ¬ (letter :: rest).length < word.length := by
        have short := first_at_length here
        rcases short with fits | rfl
        · omega
        · simp
      rw [deleteUntil, if_neg long]
      by_cases occurs : word <+: letter :: rest
      · obtain rfl := first_at_unique here (first_at_zero occurs)
        rw [if_pos (List.prefix_iff_eq_take.mp occurs).symm, List.drop_zero]
      · rw [if_neg fun same => occurs (List.prefix_iff_eq_take.mpr same.symm)]
        cases p with
        | zero => exact absurd here.occurs occurs
        | succ p => exact induction ((first_at_succ_iff occurs).mp here)

theorem split_until_append {stop : Letter} {before : List Letter} (absent : stop ∉ before)
    (after : List Letter) :
    splitUntil stop (before ++ stop :: after) = some (before, stop :: after) := by
  induction before with
  | nil => rw [List.nil_append, splitUntil, if_pos rfl]
  | cons letter before induction =>
      obtain ⟨different, absent⟩ := List.ne_and_not_mem_of_not_mem_cons absent
      rw [List.cons_append, splitUntil, if_neg different.symm, induction absent]
      rfl

end RlInvestments.WordSearch
