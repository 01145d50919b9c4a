import Mathlib.Data.List.Basic

/-!
# While loops

A loop runs its body as long as its condition holds. It is given a number of
evaluations of the condition; a loop that has used them up has not ended. A loop
with an invariant and a decreasing variant ends, and what it ends with does not
depend on the number given to it.
-/

namespace RlInvestments.WhileLoops

set_option autoImplicit false

variable {State Fault : Type}

inductive Stop (Fault : Type) where
  | outOfFuel
  | fault (fault : Fault)
deriving DecidableEq, Repr

def liftFault {Value : Type} : Except Fault Value → Except (Stop Fault) Value
  | .ok value => .ok value
  | .error fault => .error (.fault fault)

def runWhile (continues : State → Bool) (body : State → Except (Stop Fault) State) :
    Nat → State → Except (Stop Fault) State
  | 0, _ => .error .outOfFuel
  | fuel + 1, s => if continues s then body s >>= runWhile continues body fuel else .ok s

variable {continues : State → Bool} {body : State → Except (Stop Fault) State}

/-- The rule of total correctness. -/
theorem run_while_total (invariant : State → Prop) (variant : State → Nat)
    (round : ∀ s, invariant s → continues s = true →
      ∃ next, body s = .ok next ∧ invariant next ∧ variant next < variant s)
    {s : State} (starts : invariant s) {fuel : Nat} (enough : variant s < fuel) :
    ∃ final, runWhile continues body fuel s = .ok final ∧ invariant final ∧
      continues final = false := by
  induction fuel generalizing s with
  | zero => exact absurd enough (Nat.not_lt_zero _)
  | succ fuel induction =>
      rw [runWhile]
      cases goesOn : continues s with
      | false => exact ⟨s, rfl, starts, goesOn⟩
      | true =>
          obtain ⟨next, ran, holds, decreases⟩ := round s starts goesOn
          rw [if_pos rfl, ran]
          exact induction holds (by omega)

theorem run_while_mono {later : State → Except (Stop Fault) State}
    (agrees : ∀ s next, body s = .ok next → later s = .ok next) {fuel more : Nat}
    (enough : fuel ≤ more) {s final : State}
    (ends : runWhile continues body fuel s = .ok final) :
    runWhile continues later more s = .ok final := by
  induction fuel generalizing s more with
  | zero => exact nomatch ends
  | succ fuel induction =>
      obtain ⟨more, rfl⟩ : ∃ rest, more = rest + 1 := ⟨more - 1, by omega⟩
      rw [runWhile] at ends ⊢
      cases goesOn : continues s with
      | false =>
          rw [goesOn] at ends
          exact ends
      | true =>
          rw [goesOn, if_pos rfl] at ends
          rw [if_pos rfl]
          cases ran : body s with
          | error stop =>
              rw [ran] at ends
              exact nomatch ends
          | ok next =>
              rw [ran] at ends
              rw [agrees s next ran]
              exact induction (by omega) ends

theorem run_while_map {Image : Type} (image : State → Image) {imageContinues : Image → Bool}
    {imageBody : Image → Except (Stop Fault) Image}
    (test : ∀ s, imageContinues (image s) = continues s)
    (round : ∀ s, imageBody (image s) = (body s).map image) (fuel : Nat) (s : State) :
    runWhile imageContinues imageBody fuel (image s) =
      (runWhile continues body fuel s).map image := by
  induction fuel generalizing s with
  | zero => rfl
  | succ fuel induction =>
      rw [runWhile, runWhile, test, round]
      cases continues s with
      | false => rfl
      | true =>
          rw [if_pos rfl, if_pos rfl]
          cases body s with
          | error stop => rfl
          | ok next => exact induction next

def forPositions (count : Nat) (body : State → Nat → State) (s : State) : State :=
  (List.range count).foldl body s

theorem for_positions_succ (count : Nat) (body : State → Nat → State) (s : State) :
    forPositions (count + 1) body s = body (forPositions count body s) count := by
  rw [forPositions, List.range_succ, List.foldl_append]
  rfl

/-- The rule of a counted loop: the invariant is about the position reached. -/
theorem for_positions_invariant {count : Nat} {body : State → Nat → State}
    (invariant : Nat → State → Prop)
    (round : ∀ i s, i < count → invariant i s → invariant (i + 1) (body s i))
    {s : State} (starts : invariant 0 s) : invariant count (forPositions count body s) := by
  induction count with
  | zero => exact starts
  | succ count induction =>
      rw [for_positions_succ]
      refine round count _ (Nat.lt_succ_self count) (induction ?_)
      exact fun i s below => round i s (Nat.lt_succ_of_lt below)

theorem modify_after {Element : Type} (before : List Element) (element : Element)
    (after : List Element) (update : Element → Element) :
    (before ++ element :: after).modify before.length update =
      before ++ update element :: after := by
  induction before with
  | nil => rfl
  | cons first before induction =>
      rw [List.length_cons, List.cons_append, List.modify_succ_cons, induction, List.cons_append]

/-- A loop that updates the element at each position in its turn. -/
theorem for_positions_modify {Element : Type} (update : Element → Element)
    (list : List Element) :
    forPositions list.length (fun list i => list.modify i update) list = list.map update := by
  refine (for_positions_invariant
    (fun i updated => updated = (list.take i).map update ++ list.drop i) ?_ rfl).trans
    (by rw [List.take_length, List.drop_length, List.append_nil])
  rintro i updated below rfl
  have done : ((list.take i).map update).length = i := by
    rw [List.length_map, List.length_take_of_le (Nat.le_of_lt below)]
  have round := modify_after ((list.take i).map update) list[i] (list.drop (i + 1)) update
  rw [done, ← List.drop_eq_getElem_cons below] at round
  rw [round, List.take_succ_eq_append_getElem below, List.map_append, List.append_assoc]
  rfl

end RlInvestments.WhileLoops
