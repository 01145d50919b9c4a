import RlInvestments.CatalogueRefresh
import RlInvestments.WhileLoops

/-!
# The update loop of `initializeData`

The loop compares the name of the item that it overwrites. Since an overwritten item has
the name that was compared, the loop leaves every investment with the last entry of
its name, and a later catalogue decides alone for the names that it lists.
-/

namespace RlInvestments.CatalogueLaws

open RlInvestments.WhileLoops RlInvestments.LastMatchScan RlInvestments.CatalogueItems
open RlInvestments.InvestmentStore RlInvestments.AppMemory RlInvestments.CatalogueRefresh

set_option autoImplicit false

/-- The body of the inner loop on `investments[i]`, for the entry `items[a]`. -/
def attachEntry (item : DecodingItem) (investment : InvestmentItem) : InvestmentItem :=
  if investment.item.itemName = item.itemName then { investment with item := item }
  else investment

/-- `while a != items.count`. -/
def attachLoop (items : List DecodingItem) (i : Nat) (investments : List InvestmentItem) :
    List InvestmentItem :=
  forPositions items.length (fun investments a =>
    match items[a]? with
    | none => investments
    | some item => investments.modify i (attachEntry item)) investments

/-- `while i != investments.count`. -/
def updateLoop (items : List DecodingItem) (investments : List InvestmentItem) :
    List InvestmentItem :=
  forPositions investments.length (fun investments i => attachLoop items i investments) investments

theorem attach_loop_eq (items : List DecodingItem) (i : Nat)
    (investments : List InvestmentItem) :
    attachLoop items i investments = investments.modify i (attachItem items) := by
  refine (for_positions_invariant
    (fun a attached => attached = investments.modify i (attachItem (items.take a)))
    ?_ ?_).trans (by rw [List.take_length])
  · rintro a attached below rfl
    rw [List.getElem?_eq_getElem below]
    dsimp only
    rw [List.modify_modify_eq, List.take_succ_eq_append_getElem below]
    congr 1
    funext investment
    rw [attachItem, List.foldl_append]
    rfl
  · exact (List.modify_id i investments).symm

/-- The loop in place and `updateInvestments` are the same function. -/
theorem update_loop_eq (items : List DecodingItem) (investments : List InvestmentItem) :
    updateLoop items investments = updateInvestments items investments := by
  have body : (fun investments i => attachLoop items i investments) =
      fun (investments : List InvestmentItem) i => investments.modify i (attachItem items) := by
    funext investments i
    exact attach_loop_eq items i investments
  rw [updateLoop, body, for_positions_modify, updateInvestments]

def Lists (items : List DecodingItem) (itemName : String) : Prop :=
  ∃ item ∈ items, item.itemName = itemName

structure KeepsRecord (items : List DecodingItem) (before after : InvestmentItem) : Prop where
  id : after.id = before.id
  colour : after.colour = before.colour
  quantity : after.quantity = before.quantity
  boughtFor : after.boughtFor = before.boughtFor
  platform : after.platform = before.platform
  itemName : after.item.itemName = before.item.itemName
  unlisted : ¬ Lists items before.item.itemName → after = before

theorem last_named_listed {items : List DecodingItem} {itemName : String}
    (listed : Lists items itemName) : ∃ last, lastNamed items itemName = some last := by
  obtain ⟨item, member, rfl⟩ := listed
  obtain ⟨last, -, -, found⟩ := last_named_of_mem member
  exact ⟨last, found⟩

theorem last_named_unlisted {items : List DecodingItem} {itemName : String}
    (unlisted : ¬ Lists items itemName) : lastNamed items itemName = none := by
  cases found : lastNamed items itemName with
  | none => rfl
  | some last => exact absurd ⟨last, last_named_some found⟩ unlisted

theorem attach_keeps_record (items : List DecodingItem) (investment : InvestmentItem) :
    KeepsRecord items investment (attachItem items investment) where
  id := attach_item_id items investment
  colour := by rw [attach_item_eq]
  quantity := by rw [attach_item_eq]
  boughtFor := by rw [attach_item_eq]
  platform := attach_item_platform items investment
  itemName := attach_item_name items investment
  unlisted := fun unlisted => by
    rw [attach_item_eq, last_named_unlisted unlisted, Option.getD_none]

/-- The second catalogue finds the name that the first one has left in place. -/
theorem attach_newest {older newer : List DecodingItem} {investment : InvestmentItem}
    (listed : Lists newer investment.item.itemName) :
    attachItem newer (attachItem older investment) = attachItem newer investment := by
  obtain ⟨last, found⟩ := last_named_listed listed
  rw [attach_item_eq newer (attachItem older investment), attach_item_name,
    attach_item_eq newer investment, attach_item_eq older, found, Option.getD_some,
    Option.getD_some]

variable {Data : Type}

structure RefreshIsUpdate (foundation : Foundation Data) (older newer : DecodingItems)
    (s : AppState Data) : Prop where
  loop : (initializeData foundation (some older) s).investments =
    updateLoop older.items s.investments
  /-- As many records, in the same order. -/
  keeps : List.Forall₂ (KeepsRecord older.items) s.investments
    (initializeData foundation (some older) s).investments
  newest : ∀ (i : Nat) (investment : InvestmentItem), s.investments[i]? = some investment →
    Lists newer.items investment.item.itemName →
    (initializeData foundation (some newer)
      (initializeData foundation (some older) s)).investments[i]? =
        (initializeData foundation (some newer) s).investments[i]?
  twice : (initializeData foundation (some older)
      (initializeData foundation (some older) s)).investments =
    (initializeData foundation (some older) s).investments

theorem initialize_investments (foundation : Foundation Data) (catalogue : DecodingItems)
    (s : AppState Data) : (initializeData foundation (some catalogue) s).investments =
      updateInvestments catalogue.items s.investments := rfl

/-- For all investments and any two catalogues: a refresh changes nothing but prices, and the
newest catalogue that lists a name decides. -/
theorem refresh_is_update (foundation : Foundation Data) (older newer : DecodingItems)
    (s : AppState Data) : RefreshIsUpdate foundation older newer s where
  loop := (update_loop_eq older.items s.investments).symm
  keeps := List.forall₂_map_right_iff.mpr (List.forall₂_same.mpr fun investment _ =>
    attach_keeps_record older.items investment)
  newest i investment there listed := by
    simp only [initialize_investments, updateInvestments, List.getElem?_map, there,
      Option.map_some]
    rw [attach_newest listed]
  twice := by
    simp only [initialize_investments, updateInvestments, List.map_map]
    exact List.map_congr_left fun investment _ => attach_again older.items investment

end RlInvestments.CatalogueLaws
