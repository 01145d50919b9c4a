import RlInvestments.FormRuns
import RlInvestments.StoreIdentity

/-!
# What the form accepts

The button checks four parts of the form. The price is checked in the label of its
cell, which is never set, and not in its text field, so that an empty price field is
accepted when all other parts are there.
-/

namespace RlInvestments.FormCompleteness

open RlInvestments.GuardedRuns RlInvestments.CatalogueItems RlInvestments.InvestmentStore
open RlInvestments.OverviewRows RlInvestments.AppMemory RlInvestments.OverviewHandlers
open RlInvestments.FormSheet RlInvestments.AppRuns RlInvestments.HandlerRules
open RlInvestments.FormRuns RlInvestments.StoreIdentity

set_option autoImplicit false

variable {Data : Type} {foundation : Foundation Data}

variable (foundation) in
/-- An item and a colour are selected, and the item has a price in them on the platform. -/
def OtherPartsComplete (s : AppState Data) : Prop :=
  ∃ item colour, s.selectedItem = some item ∧ s.selectedColour = some colour ∧
    (item.getColourPrice foundation.text colour s.selectedPlatform).isSome = true

variable (foundation) in
def Complete (s : AppState Data) : Prop :=
  OtherPartsComplete foundation s ∧ s.formCells.boughtForText ≠ ""

variable (foundation) in
def Accepted (s : AppState Data) : Prop :=
  ∃ record, OfFields s record ∧ record.id = s.selectedID ∧
    StoredAndClosed foundation (storeWith s record) (resumed foundation (addButton foundation s))

structure LeftAlone (s t : AppState Data) : Prop where
  investments : t.investments = s.investments
  defaults : t.defaults = s.defaults
  presented : t.presented = s.presented

variable (foundation) in
def AcceptsExactlyComplete (s : AppState Data) : Prop :=
  (Accepted foundation s ↔ Complete foundation s) ∧
    (¬ Complete foundation s → LeftAlone s (resumed foundation (addButton foundation s)))

theorem record_accepted_iff (s : AppState Data) :
    (acceptedInvestment foundation s).isSome = true ↔ OtherPartsComplete foundation s := by
  constructor
  · intro accepts
    obtain ⟨record, accepted⟩ := Option.isSome_iff_exists.mp accepts
    obtain ⟨item, colour, -, -, platform, -, priced⟩ := accepted_investment_spec accepted
    exact ⟨record.item, record.colour, item, colour, platform ▸ priced⟩
  · rintro ⟨item, colour, selected, coloured, priced⟩
    have labelled : ¬ boughtForTextLabel = some "" := by decide
    have available : ¬ (item.getColourPrice foundation.text colour
        s.selectedPlatform).isNone = true := by
      rw [Option.isNone_iff_eq_none]
      exact Option.isSome_iff_ne_none.mp priced
    unfold acceptedInvestment
    simp only [selected, coloured, if_neg labelled, if_neg available, Option.isSome_some]

theorem accepted_of_other_parts {s : AppState Data} (inStore : TagInStore s)
    (parts : OtherPartsComplete foundation s) : Accepted foundation s := by
  obtain ⟨record, accepted⟩ := Option.isSome_iff_exists.mp ((record_accepted_iff s).mpr parts)
  obtain ⟨item, colour, quantity, boughtFor, platform, id, -⟩ := accepted_investment_spec accepted
  exact ⟨record, ⟨item, colour, quantity, boughtFor, platform⟩, id,
    accepted_button inStore accepted⟩

theorem refused_without_parts {s : AppState Data} (missing : ¬ OtherPartsComplete foundation s) :
    addButton foundation s = .running s := by
  refine refused_button ?_
  rw [← Option.not_isSome_iff_eq_none, record_accepted_iff]
  exact missing

theorem not_accepted_without_parts {s : AppState Data} (form : s.presented = .form)
    (missing : ¬ OtherPartsComplete foundation s) : ¬ Accepted foundation s := by
  rintro ⟨record, -, -, stored⟩
  have closed := stored.closed
  rw [refused_without_parts missing, resumed, form] at closed
  cases closed

theorem reachable_tag_in_store {s : AppState Data}
    (reachable : Reachable (app foundation) Possible
      (Launched foundation (DistinctStored foundation)) s)
    (form : s.presented = .form) : TagInStore s := by
  intro editing
  have identified := reachable_identified (fun _ _ admitted => admitted) reachable
  obtain ⟨record, there, -⟩ := Option.map_eq_some_iff.mp (identified.editing form editing)
  exact (List.getElem?_eq_some_iff.mp there).1

/-- An open form accepts exactly the complete forms, and leaves everything alone otherwise,
unless all that it lacks is the price. -/
theorem accepts_exactly_complete_iff (foundation : Foundation Data) (s : AppState Data)
    (form : s.presented = .form) (inStore : TagInStore s) :
    AcceptsExactlyComplete foundation s ↔
      ¬ (OtherPartsComplete foundation s ∧ s.formCells.boughtForText = "") := by
  constructor
  · rintro ⟨exact_, -⟩ ⟨parts, empty⟩
    exact (exact_.mp (accepted_of_other_parts inStore parts)).2 empty
  · intro priced
    by_cases parts : OtherPartsComplete foundation s
    · have complete : Complete foundation s := ⟨parts, fun empty => priced ⟨parts, empty⟩⟩
      exact ⟨iff_of_true (accepted_of_other_parts inStore parts) complete,
        fun incomplete => absurd complete incomplete⟩
    · refine ⟨iff_of_false (not_accepted_without_parts form parts) fun complete =>
        parts complete.1, fun _ => ?_⟩
      rw [refused_without_parts parts]
      exact ⟨rfl, rfl, rfl⟩

/-- A new Octane whose price field has been cleared. -/
def emptyPriceState : Option (AppState (List InvestmentItem ⊕ List InvestmentGroup)) :=
  runEvents (app plainFoundation) Possible (launch plainFoundation .fresh)
    [.catalogueArrives (some ⟨[octane, dominus]⟩), .overviewDidLoad, .itemsNotification,
      .overview .addNewButton, .form .itemSelectionDidLoad, .form (.didSelectItem 0),
      .form (.textChanged "")]

theorem empty_price_is_accepted :
    ∃ s, emptyPriceState = some s ∧ s.presented = .form ∧ TagInStore s ∧
      ¬ AcceptsExactlyComplete plainFoundation s := by
  have cleared : emptyPriceState.map (fun s => (s.presented, s.editingMode,
      s.formCells.boughtForText, (acceptedInvestment plainFoundation s).isSome)) =
        some (.form, false, "", true) := by
    decide +kernel
  obtain ⟨s, runs, shown⟩ := Option.map_eq_some_iff.mp cleared
  obtain ⟨form, adding, empty, accepts⟩ : s.presented = .form ∧ s.editingMode = false ∧
      s.formCells.boughtForText = "" ∧ (acceptedInvestment plainFoundation s).isSome = true := by
    simpa only [Prod.mk.injEq] using shown
  have inStore : TagInStore s := fun editing => by simp [adding] at editing
  refine ⟨s, runs, form, inStore, fun exactly => ?_⟩
  have accepted := accepted_of_other_parts inStore ((record_accepted_iff s).mp accepts)
  exact (exactly.1.mp accepted).2 empty

theorem accepts_exactly_complete_iff_first_session :
    ∃ s, (emptyPriceState.bind fun s => runEvents (app plainFoundation) Possible s
        [.form (.textChanged "90")]) = some s ∧
      AcceptsExactlyComplete plainFoundation s := by
  have typed : (emptyPriceState.bind fun s => runEvents (app plainFoundation) Possible s
      [.form (.textChanged "90")]).map (fun s =>
        (s.presented, s.editingMode, s.formCells.boughtForText)) =
          some (.form, false, "90") := by decide +kernel
  obtain ⟨s, runs, shown⟩ := Option.map_eq_some_iff.mp typed
  obtain ⟨form, adding, price⟩ : s.presented = .form ∧ s.editingMode = false ∧
      s.formCells.boughtForText = "90" := by simpa only [Prod.mk.injEq] using shown
  have inStore : TagInStore s := fun editing => by simp [adding] at editing
  refine ⟨s, runs, (accepts_exactly_complete_iff plainFoundation s form inStore).mpr ?_⟩
  rintro ⟨-, empty⟩
  rw [price] at empty
  exact absurd empty (by decide)

end RlInvestments.FormCompleteness
