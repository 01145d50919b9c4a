import RlInvestments.HoverDataFormat

/-!
# The order of the platforms

The platforms are found by their names, the numbers by their places. Writing the same
entries in another order changes the result unless the pairs come in the same order.
-/

namespace RlInvestments.HoverDataOrder

open RlInvestments.PriceCellParser RlInvestments.WordSearch RlInvestments.HoverDataParser
open RlInvestments.HoverDataFormat

set_option autoImplicit false

theorem no_hover_outside (around : Surroundings) (entries : List Entry) :
    "noHover".toList <:+: pageText around entries ↔
      "noHover".toList <:+: around.before ++ "data".toList ++ (around.between ++ ['k', '"']) ∨
        "noHover".toList <:+: historyText around := by
  obtain ⟨inner, shape, -, capitalFree⟩ := object_inner '{' (by decide) entries
  have split : pageText around entries =
      (around.before ++ "data".toList ++ (around.between ++ ['k', '"'])) ++ ':' ::
        (inner ++ '}' :: historyText around) := by
    simp [pageText, objectText, shape]
  have absent : ¬ "noHover".toList <:+: inner := fun present =>
    capitalFree (present.subset (by decide))
  rw [split, infix_append_cons_iff (by decide), infix_append_cons_iff (by decide),
    or_iff_right absent]

theorem permuted_in_format {around : Surroundings} {entries permuted : List Entry}
    (perm : entries.Perm permuted) (inFormat : InFormat around entries) :
    InFormat around permuted where
  nonempty := fun empty => inFormat.nonempty (List.perm_nil.mp (empty ▸ perm))
  noData := inFormat.noData
  noK := inFormat.noK
  noHover := by
    rw [no_hover_outside, ← no_hover_outside around entries]
    exact inFormat.noHover

theorem permuted_named_in {entries permuted : List Entry} (perm : entries.Perm permuted) :
    namedIn permuted = namedIn entries := by
  funext platform
  exact perm.symm.any_eq

theorem platforms_filled {entries : List Entry}
    (distinct : (entries.map Entry.platform).Nodup) :
    (platformOrder.filter (namedIn entries)).length = entries.length := by
  have subset : entries.map Entry.platform ⊆ platformOrder.filter (namedIn entries) := by
    intro platform named
    obtain ⟨entry, member, same⟩ := List.mem_map.mp named
    have listed : platform ∈ platformOrder := by cases platform <;> decide
    exact List.mem_filter.mpr ⟨listed, (named_in_iff entries platform).mpr ⟨entry, member, same⟩⟩
  have length := (List.subperm_of_subset distinct subset).length_le
  rw [List.length_map] at length
  exact Nat.le_antisymm (platforms_fit entries) length

theorem assign_injective (present : Platform → Bool) (order : List Platform)
    {first second : List PricePair} (firstFits : (order.filter present).length = first.length)
    (secondFits : (order.filter present).length = second.length)
    (same : assignPairs present order first = assignPairs present order second) :
    first = second := by
  induction order generalizing first second with
  | nil =>
      rw [List.length_eq_zero_iff.mp firstFits.symm, List.length_eq_zero_iff.mp secondFits.symm]
  | cons platform order induction =>
      cases here : present platform with
      | false =>
          rw [List.filter_cons_of_neg (by simp [here])] at firstFits secondFits
          simp only [assignPairs, here, Bool.false_eq_true, if_false, List.cons.injEq,
            true_and] at same
          exact induction firstFits secondFits same
      | true =>
          rw [List.filter_cons_of_pos here, List.length_cons] at firstFits secondFits
          simp only [assignPairs, here, if_true, List.cons.injEq] at same
          cases first with
          | nil => exact absurd firstFits (by simp)
          | cons pair first =>
              cases second with
              | nil => exact absurd secondFits (by simp)
              | cons other second =>
                  have tails : first = second := induction (by simpa using firstFits)
                    (by simpa using secondFits) same.2
                  rw [Option.some.inj same.1, tails]

/-- Writing the entries in another order leaves the result as it is exactly when the pairs
come in the same order. -/
theorem order_unchanged_iff (around : Surroundings) (entries permuted : List Entry)
    (perm : entries.Perm permuted) (distinct : (entries.map Entry.platform).Nodup)
    (inFormat : InFormat around entries) (cellText permutedText : String)
    (spaced : SpacedOut cellText (pageText around entries))
    (permutedSpaced : SpacedOut permutedText (pageText around permuted)) :
    parseprice permutedText = parseprice cellText ↔
      permuted.map Entry.pair = entries.map Entry.pair := by
  rw [parseprice_in_format inFormat spaced,
    parseprice_in_format (permuted_in_format perm inFormat) permutedSpaced,
    permuted_named_in perm, Except.ok.injEq]
  constructor
  · refine assign_injective (namedIn entries) platformOrder ?_ ?_
    · rw [platforms_filled distinct, List.length_map, perm.length_eq]
    · rw [platforms_filled distinct, List.length_map]
  · exact fun same => by rw [same]

theorem order_unchanged_iff_same_prices :
    parseprice "<td data-i='k\":\x7b\"ps4\":[1,2],\"pc\":[1,2]\x7d,\"h\":\x7b\x7d'>" =
        parseprice "<td data-i='k\":\x7b\"pc\":[1,2],\"ps4\":[1,2]\x7d,\"h\":\x7b\x7d'>" ↔
      [((1 : Int), (2 : Int)), (1, 2)] = [(1, 2), (1, 2)] :=
  order_unchanged_iff ⟨"<td".toList, "-i='".toList, [], "'>".toList⟩
    [⟨.pc, 1, 2⟩, ⟨.ps4, 1, 2⟩] [⟨.ps4, 1, 2⟩, ⟨.pc, 1, 2⟩] (List.Perm.swap _ _ _) (by decide)
    ⟨by decide, by decide +kernel, by decide +kernel, by decide +kernel⟩ _ _
    (by unfold SpacedOut; decide +kernel) (by unfold SpacedOut; decide +kernel)

/-- The PlayStation price is given out as the PC price. -/
theorem swapped_platforms :
    ¬ ∀ (around : Surroundings) (entries permuted : List Entry) (cellText permutedText : String),
      entries.Perm permuted → (entries.map Entry.platform).Nodup → InFormat around entries →
      SpacedOut cellText (pageText around entries) →
      SpacedOut permutedText (pageText around permuted) →
      parseprice permutedText = parseprice cellText := by
  intro unchanged
  have same := unchanged ⟨"<td".toList, "-i='".toList, [], "'>".toList⟩
    [⟨.pc, 3, 4⟩, ⟨.ps4, 1, 2⟩] [⟨.ps4, 1, 2⟩, ⟨.pc, 3, 4⟩]
    "<td data-i='k\":\x7b\"pc\":[3,4],\"ps4\":[1,2]\x7d,\"h\":\x7b\x7d'>"
    "<td data-i='k\":\x7b\"ps4\":[1,2],\"pc\":[3,4]\x7d,\"h\":\x7b\x7d'>"
    (List.Perm.swap _ _ _) (by decide)
    ⟨by decide, by decide +kernel, by decide +kernel, by decide +kernel⟩
    (by unfold SpacedOut; decide +kernel) (by unfold SpacedOut; decide +kernel)
  revert same
  decide +kernel

end RlInvestments.HoverDataOrder
