import RlInvestments.CatalogueItems
import RlInvestments.LastMatchScan

/-!
# Investments and groups, in memory and in the defaults

The stored structures, what is read back of them at launch, the id for a new
investment, and the loops that re-attach catalogue items and collect groups. How
`JSONEncoder` and `JSONDecoder` represent the two lists as `Data` is a parameter:
the app relies only on decoding what it has encoded.
-/

namespace RlInvestments.InvestmentStore

open RlInvestments.CatalogueItems RlInvestments.LastMatchScan

set_option autoImplicit false

structure InvestmentItem where
  item : DecodingItem
  colour : String
  quantity : Int
  boughtFor : Int
  platform : String
  id : Int

structure InvestmentGroup where
  itemName : String
  platform : String
  itemIDS : List Int
deriving DecidableEq, Repr

/-- The parts of Foundation that the app calls. -/
structure Foundation (Data : Type) where
  text : SwiftText
  encodeInvestments : List InvestmentItem → Data
  decodeInvestments : Data → Option (List InvestmentItem)
  encodeGroups : List InvestmentGroup → Data
  decodeGroups : Data → Option (List InvestmentGroup)
  investments_round_trip : ∀ investments,
    decodeInvestments (encodeInvestments investments) = some investments
  groups_round_trip : ∀ groups, decodeGroups (encodeGroups groups) = some groups

/-- Data that is the encoded list itself, and ASCII text. -/
def plainFoundation : Foundation (List InvestmentItem ⊕ List InvestmentGroup) where
  text := asciiText
  encodeInvestments := .inl
  decodeInvestments data := data.getLeft?
  encodeGroups := .inr
  decodeGroups data := data.getRight?
  investments_round_trip _ := rfl
  groups_round_trip _ := rfl

/-- The values of `UserDefaults.standard` under the keys that the app uses. -/
structure UserDefaults (Data : Type) where
  investments : Option Data
  groups : Option Data
  platform : Option String
  platform1 : Option String
  platform2 : Option String

variable {Data : Type}

def UserDefaults.fresh : UserDefaults Data := ⟨none, none, none, none, none⟩

def getSavedInvestments (foundation : Foundation Data) (defaults : UserDefaults Data) :
    List InvestmentItem :=
  match defaults.investments with
  | some investmentData =>
      match foundation.decodeInvestments investmentData with
      | some loadedInvestments => loadedInvestments
      | none => []
  | none => []

def getSavedGroups (foundation : Foundation Data) (defaults : UserDefaults Data) :
    List InvestmentGroup :=
  match defaults.groups with
  | some investmentData =>
      match foundation.decodeGroups investmentData with
      | some loadedInvestments => loadedInvestments
      | none => []
  | none => []

def savedPlatform (defaults : UserDefaults Data) : String := defaults.platform.getD "PC"

def savedXPlatData (defaults : UserDefaults Data) : String × String :=
  (defaults.platform1.getD "PC", defaults.platform2.getD "Xbox")

def nextID (returnID : Int) (investment : InvestmentItem) : Int :=
  if investment.id ≥ returnID then investment.id + 1 else returnID

def investmentID (investments : List InvestmentItem) : Int := investments.foldl nextID 0

theorem id_scan_bounds (investments : List InvestmentItem) (returnID : Int) :
    returnID ≤ investments.foldl nextID returnID ∧
      ∀ investment ∈ investments, investment.id < investments.foldl nextID returnID := by
  induction investments generalizing returnID with
  | nil => simp
  | cons investment investments induction =>
      obtain ⟨above, rest⟩ := induction (nextID returnID investment)
      have next : returnID ≤ nextID returnID investment ∧
          investment.id < nextID returnID investment := by
        unfold nextID
        split <;> omega
      simp only [List.foldl_cons, List.forall_mem_cons]
      exact ⟨next.1.trans above, lt_of_lt_of_le next.2 above, rest⟩

theorem investment_id_nonneg (investments : List InvestmentItem) :
    0 ≤ investmentID investments := (id_scan_bounds investments 0).1

theorem investment_id_above (investments : List InvestmentItem) :
    ∀ investment ∈ investments, investment.id < investmentID investments :=
  (id_scan_bounds investments 0).2

/-- The inner loop of `initializeData` for one investment. -/
def attachItem (items : List DecodingItem) (investment : InvestmentItem) : InvestmentItem :=
  items.foldl
    (fun investment item =>
      if investment.item.itemName = item.itemName then { investment with item := item }
      else investment)
    investment

def updateInvestments (items : List DecodingItem) (investments : List InvestmentItem) :
    List InvestmentItem :=
  investments.map (attachItem items)

/-- The catalogue entry that the inner loop leaves with a name: the last one. -/
def lastNamed (items : List DecodingItem) (itemName : String) : Option DecodingItem :=
  lastMatch (fun item => itemName == item.itemName) none items

/-- An overwritten item has the name that was compared, so every comparison is with the
name from before the loop. -/
theorem attach_item_eq (items : List DecodingItem) (investment : InvestmentItem) :
    attachItem items investment =
      { investment with
        item := (lastNamed items investment.item.itemName).getD investment.item } := by
  induction items generalizing investment with
  | nil => rfl
  | cons item items induction =>
      rw [lastNamed, last_match_cons, last_match_or]
      by_cases same : investment.item.itemName = item.itemName
      · rw [attachItem, List.foldl_cons, if_pos same, if_pos (beq_iff_eq.mpr same)]
        refine (induction _).trans ?_
        rw [← same, ← lastNamed]
        cases lastNamed items investment.item.itemName <;> rfl
      · have differs : ¬ (investment.item.itemName == item.itemName) = true := by simpa using same
        rw [attachItem, List.foldl_cons, if_neg same, if_neg differs, Option.or_none]
        exact induction investment

@[simp] theorem attach_item_id (items : List DecodingItem) (investment : InvestmentItem) :
    (attachItem items investment).id = investment.id := by rw [attach_item_eq]

@[simp] theorem attach_item_platform (items : List DecodingItem) (investment : InvestmentItem) :
    (attachItem items investment).platform = investment.platform := by rw [attach_item_eq]

theorem last_named_some {items : List DecodingItem} {itemName : String} {item : DecodingItem}
    (found : lastNamed items itemName = some item) :
    item ∈ items ∧ item.itemName = itemName := by
  obtain ⟨member, matched⟩ := last_match_some found
  exact ⟨member, (eq_of_beq matched).symm⟩

@[simp] theorem attach_item_name (items : List DecodingItem) (investment : InvestmentItem) :
    (attachItem items investment).item.itemName = investment.item.itemName := by
  rw [attach_item_eq]
  cases found : lastNamed items investment.item.itemName with
  | none => rfl
  | some item => exact (last_named_some found).2

@[simp] theorem update_investments_ids (items : List DecodingItem)
    (investments : List InvestmentItem) :
    (updateInvestments items investments).map InvestmentItem.id =
      investments.map InvestmentItem.id := by
  simp [updateInvestments, Function.comp_def]

/-- The ids of the investments with a group's name and platform, in store order. -/
def collectIDs (text : SwiftText) (investments : List InvestmentItem)
    (itemName platform : String) : List Int :=
  (investments.filter fun investment =>
    investment.item.itemName == itemName &&
      text.uppercased investment.platform == text.uppercased platform).map InvestmentItem.id

/-- The loops of `groupInvesment` for the selected investment: every group with its
name and platform is reset, and one is added if there was none. -/
def regroup (text : SwiftText) (investments : List InvestmentItem) (selected : InvestmentItem)
    (groups : List InvestmentGroup) : List InvestmentGroup :=
  let isSelected (group : InvestmentGroup) : Bool :=
    group.itemName == selected.item.itemName &&
      text.uppercased group.platform == text.uppercased selected.platform
  let reset := groups.map fun group =>
    if isSelected group then
      { group with itemIDS := collectIDs text investments group.itemName group.platform }
    else group
  if groups.any isSelected then reset
  else reset ++ [⟨selected.item.itemName, selected.platform,
    collectIDs text investments selected.item.itemName selected.platform⟩]

end RlInvestments.InvestmentStore
