import RlInvestments.HandlerRules

/-!
# The total and the rows

`showTotal` adds up the visible list by code of its own. Without the limits of `Int`
its sums are the sums of the figures in the rows, and while the search bar is empty
the visible list is the store.
-/

namespace RlInvestments.TotalOfRows

open RlInvestments.GuardedRuns RlInvestments.CatalogueItems RlInvestments.InvestmentStore
open RlInvestments.OverviewRows RlInvestments.AppMemory RlInvestments.OverviewHandlers
open RlInvestments.FormSheet RlInvestments.AppRuns RlInvestments.HandlerRules

set_option autoImplicit false

def exactFigures (record : InvestmentItem) (priceLower priceUpper : Int) : RowFigures where
  boughtTotal := if 1 < record.quantity then some (record.quantity * record.boughtFor) else none
  priceLower := priceLower
  priceUpper := priceUpper
  nowLower := priceLower * record.quantity
  nowUpper := priceUpper * record.quantity
  totalSpent := record.quantity * record.boughtFor
  profitLowerBound := priceLower * record.quantity - record.quantity * record.boughtFor
  profitUpperBound := priceUpper * record.quantity - record.quantity * record.boughtFor

/-- `rowFigures` without the checks for overflow. -/
def exactRow (text : SwiftText) (record : InvestmentItem) : Except Fault RowFigures := do
  let priceLower ← unwrapElement (rowPrice text record) 0
  let priceUpper ← unwrapElement (rowPrice text record) 1
  .ok (exactFigures record priceLower priceUpper)

def exactAddRecord (text : SwiftText) (totals : Totals) (record : InvestmentItem) :
    Except Fault Totals := do
  let lower ← unwrapElement (listPrice text record) 0
  let upper ← unwrapElement (listPrice text record) 1
  .ok (nextTotals totals record lower upper)

def exactReport (totals : Totals) : TotalReport :=
  let totalProfitLowerBound := totals.totalIfSoldLowerBound - totals.totalSpent
  let totalProfitUpperBound := totals.totalIfSoldUpperBound - totals.totalSpent
  { totals, totalProfitLowerBound, totalProfitUpperBound,
    message := totalMessage totals totalProfitLowerBound totalProfitUpperBound }

/-- `showTotal` without the checks for overflow. -/
def exactShowTotal (text : SwiftText) (visible : List InvestmentItem) :
    Except Fault TotalReport := do
  let totals ← visible.foldlM (exactAddRecord text) ⟨0, 0, 0⟩
  .ok (exactReport totals)

theorem checked_same (value : Int) : SameUnless .overflow (checked value) (.ok value) := by
  unfold checked
  split
  · exact .inr rfl
  · exact .inl rfl

theorem bought_total_same (record : InvestmentItem) :
    SameUnless .overflow (boughtTotal record)
      (.ok (exactFigures record 0 0).boughtTotal) := by
  simp only [boughtTotal, exactFigures]
  split
  · have product := checked_same (record.quantity * record.boughtFor)
    cases product with
    | inl overflows =>
        rw [overflows]
        exact .inl rfl
    | inr same =>
        rw [same]
        exact .inr rfl
  · exact .inr rfl

theorem row_figures_same (text : SwiftText) (record : InvestmentItem) :
    SameUnless .overflow (rowFigures text record) (exactRow text record) := by
  apply same_unless_bind_ok (bought_total_same record)
  apply same_unless_bind (.inr rfl)
  intro lower
  apply same_unless_bind (.inr rfl)
  intro upper
  apply same_unless_bind_ok (checked_same _)
  apply same_unless_bind_ok (checked_same _)
  apply same_unless_bind_ok (checked_same _)
  apply same_unless_bind_ok (checked_same _)
  apply same_unless_bind_ok (checked_same _)
  exact .inr rfl

theorem add_record_same (text : SwiftText) (totals : Totals) (record : InvestmentItem) :
    SameUnless .overflow (addRecord text totals record) (exactAddRecord text totals record) := by
  apply same_unless_bind_ok (checked_same _)
  apply same_unless_bind_ok (checked_same _)
  apply same_unless_bind (.inr rfl)
  intro lower
  apply same_unless_bind_ok (checked_same _)
  apply same_unless_bind_ok (checked_same _)
  apply same_unless_bind (.inr rfl)
  intro upper
  apply same_unless_bind_ok (checked_same _)
  apply same_unless_bind_ok (checked_same _)
  exact .inr rfl

/-- The total is the exact one, unless a product, a sum or a difference overflows. -/
theorem show_total_same (text : SwiftText) (visible : List InvestmentItem) :
    SameUnless .overflow (showTotal text visible) (exactShowTotal text visible) := by
  apply same_unless_bind (same_unless_foldl_m (add_record_same text) visible ⟨0, 0, 0⟩)
  intro totals
  apply same_unless_bind_ok (checked_same _)
  apply same_unless_bind_ok (checked_same _)
  exact .inr rfl

def TwoElementPrice (text : SwiftText) (record : InvestmentItem) : Prop :=
  ∃ lower upper, rowPrice text record = some [lower, upper]

/-- The figures of a record, zero prices standing for an absent range. -/
def pricedFigures (text : SwiftText) (record : InvestmentItem) : RowFigures :=
  match rowPrice text record with
  | some [lower, upper] => exactFigures record lower upper
  | _ => exactFigures record 0 0

theorem exact_row_priced {text : SwiftText} {record : InvestmentItem}
    (priced : TwoElementPrice text record) :
    exactRow text record = .ok (pricedFigures text record) := by
  obtain ⟨lower, upper, range⟩ := priced
  simp only [exactRow, pricedFigures, range]
  rfl

theorem exact_rows_priced {text : SwiftText} {records : List InvestmentItem}
    (priced : ∀ record ∈ records, TwoElementPrice text record) :
    records.mapM (exactRow text) = .ok (records.map (pricedFigures text)) :=
  map_m_ok fun record member => exact_row_priced (priced record member)

def sumOf (rows : List RowFigures) (figure : RowFigures → Int) : Int := (rows.map figure).sum

def addRows (totals : Totals) (rows : List RowFigures) : Totals where
  totalSpent := totals.totalSpent + sumOf rows RowFigures.totalSpent
  totalIfSoldLowerBound := totals.totalIfSoldLowerBound + sumOf rows RowFigures.nowLower
  totalIfSoldUpperBound := totals.totalIfSoldUpperBound + sumOf rows RowFigures.nowUpper

/-- One round of the loop adds the figures of one row, the product being taken the other
way round in the two places. -/
theorem exact_add_record_priced {text : SwiftText} {record : InvestmentItem}
    (priced : TwoElementPrice text record) (totals : Totals) :
    exactAddRecord text totals record =
      .ok (addRows totals [pricedFigures text record]) := by
  obtain ⟨lower, upper, range⟩ := priced
  have listed : listPrice text record = some [lower, upper] := row_price_eq text record ▸ range
  have spent : record.boughtFor * record.quantity = record.quantity * record.boughtFor :=
    Int.mul_comm _ _
  simp only [exactAddRecord, listed, pricedFigures, range]
  simp [addRows, sumOf, exactFigures, nextTotals, unwrapElement, spent, bind, Except.bind]

theorem add_rows_append (totals : Totals) (rows later : List RowFigures) :
    addRows (addRows totals rows) later = addRows totals (rows ++ later) := by
  simp only [addRows, sumOf, List.map_append, List.sum_append, Int.add_assoc]

theorem exact_totals_priced {text : SwiftText} {records : List InvestmentItem}
    (priced : ∀ record ∈ records, TwoElementPrice text record) (totals : Totals) :
    records.foldlM (exactAddRecord text) totals =
      .ok (addRows totals (records.map (pricedFigures text))) := by
  induction records generalizing totals with
  | nil => simp [addRows, sumOf, pure, Except.pure]
  | cons record records induction =>
      have rest := induction fun other member => priced other (List.mem_cons_of_mem _ member)
      rw [List.foldlM_cons, exact_add_record_priced (priced record (List.mem_cons_self ..))]
      change records.foldlM (exactAddRecord text) _ = _
      rw [rest, add_rows_append]
      rfl

theorem exact_show_total_priced {text : SwiftText} {records : List InvestmentItem}
    (priced : ∀ record ∈ records, TwoElementPrice text record) :
    exactShowTotal text records =
      .ok (exactReport (addRows ⟨0, 0, 0⟩ (records.map (pricedFigures text)))) := by
  simp only [exactShowTotal, exact_totals_priced priced]
  rfl

theorem sum_of_perm {rows permuted : List RowFigures} (perm : permuted.Perm rows)
    (figure : RowFigures → Int) : sumOf permuted figure = sumOf rows figure :=
  (perm.map figure).sum_eq

theorem add_rows_perm {rows permuted : List RowFigures} (perm : permuted.Perm rows)
    (totals : Totals) : addRows totals permuted = addRows totals rows := by
  simp only [addRows, sum_of_perm perm]

theorem sum_of_sub (rows : List RowFigures) (first second : RowFigures → Int) :
    sumOf rows (fun row => first row - second row) = sumOf rows first - sumOf rows second := by
  induction rows with
  | nil => rfl
  | cons row rows induction =>
      simp only [sumOf, List.map_cons, List.sum_cons] at induction ⊢
      omega

theorem sum_of_le {rows : List RowFigures} {first second : RowFigures → Int}
    (each : ∀ row ∈ rows, first row ≤ second row) : sumOf rows first ≤ sumOf rows second :=
  List.sum_le_sum each

theorem priced_profit (text : SwiftText) (records : List InvestmentItem) :
    sumOf (records.map (pricedFigures text)) RowFigures.profitLowerBound =
        sumOf (records.map (pricedFigures text)) RowFigures.nowLower -
          sumOf (records.map (pricedFigures text)) RowFigures.totalSpent ∧
      sumOf (records.map (pricedFigures text)) RowFigures.profitUpperBound =
        sumOf (records.map (pricedFigures text)) RowFigures.nowUpper -
          sumOf (records.map (pricedFigures text)) RowFigures.totalSpent := by
  have difference : ∀ record, (pricedFigures text record).profitLowerBound =
      (pricedFigures text record).nowLower - (pricedFigures text record).totalSpent ∧
      (pricedFigures text record).profitUpperBound =
      (pricedFigures text record).nowUpper - (pricedFigures text record).totalSpent := by
    intro record
    unfold pricedFigures
    split <;> exact ⟨rfl, rfl⟩
  rw [← sum_of_sub, ← sum_of_sub]
  simp only [sumOf, List.map_map, Function.comp_def, difference, and_self]

/-- While the total can be asked for, an empty search bar means that all is visible. -/
def EmptySearchShowsStore {Data : Type} (s : AppState Data) : Prop :=
  s.totalBarButtonEnabled = true → s.searchText = "" →
    s.investmentFilteredData = s.investments

variable {Data : Type} {foundation : Foundation Data}

theorem reload_data_shows {s : AppState Data} (shows : EmptySearchShowsStore s) :
    (reloadData foundation s).Ends EmptySearchShowsStore fun _ _ => True :=
  reload_data_ends s (fun _ _ => shows) fun _ _ => trivial

theorem overview_step_shows {s : AppState Data} (shows : EmptySearchShowsStore s)
    (event : OverviewEvent) :
    (overviewStep foundation s event).Ends EmptySearchShowsStore fun _ _ => True := by
  cases event with
  | searchBarTextDidChange searchText =>
      apply reload_data_shows
      intro _ empty
      exact if_pos empty
  | addNewButton => exact add_new_button_ends s (fun _ => shows) trivial
  | showTotal => exact show_total_ends s shows fun _ _ => trivial
  | editButtonPressed tag => exact edit_investment_ends _ (fun _ _ => shows) trivial
  | deleteButtonPressed tag => exact shows
  | stepperValueChanged tag value =>
      apply amount_changed_ends _ _ trivial
      intro investment _
      apply reload_data_shows
      intro _ empty
      exact if_pos empty
  | groupButtonPressed tag => exact group_investment_ends _ (fun _ => shows) trivial
  | rlInsiderChart tag => exact show_chart_ends _ (fun _ => shows) trivial

theorem delete_rows_shows {s : AppState Data} (row : Nat)
    (same : s.investmentFilteredData = s.investments) :
    (deleteRows row s).Ends EmptySearchShowsStore fun _ _ => True := by
  unfold deleteRows
  split
  · exact fun _ _ => same
  · trivial

/-- Every save makes the whole store visible, whatever has been typed. -/
theorem step_shows {s : AppState Data} (shows : EmptySearchShowsStore s) (event : Event) :
    (step foundation s event).Ends EmptySearchShowsStore fun _ _ => True := by
  cases event with
  | relaunch => exact fun enabled => nomatch enabled
  | catalogueArrives catalogue =>
      cases catalogue with
      | none => exact shows
      | some tempItems => exact fun _ _ => rfl
  | itemsNotification =>
      exact items_notification_ends s (fun _ _ _ _ => rfl) (fun _ _ => trivial) fun _ => shows
  | delayedReload => exact reload_data_shows shows
  | traitCollectionDidChange => exact reload_data_shows shows
  | overviewDidLoad =>
      exact view_did_load_ends s (fun _ _ enabled => nomatch enabled) fun _ _ => trivial
  | overview event => exact overview_step_shows shows event
  | deleteConfirmed =>
      apply delete_confirmed_ends s fun _ _ => trivial
      · intro row _ _ _ _
        exact delete_rows_shows row rfl
      · intro _ _
        exact reload_data_shows fun _ _ => rfl
  | deleteCancelled => exact shows
  | form event => exact form_step_ends s event (fun _ _ _ _ _ _ _ _ => shows) trivial
  | addButton =>
      apply add_button_ends s shows _ _ trivial
      · intro investment _ _
        exact store_and_dismiss_ends _ (fun _ _ _ _ => rfl) fun _ _ => trivial
      · intro investment _ _ _
        exact store_and_dismiss_ends _ (fun _ _ _ _ => rfl) fun _ _ => trivial
  | cancelButton => exact shows
  | chartClosed => exact shows
  | tab event => exact tab_step_ends s event fun _ _ _ _ _ _ _ => shows

theorem reachable_shows {stored : UserDefaults Data → Prop} {s : AppState Data}
    (reachable : Reachable (app foundation) Possible (Launched foundation stored) s) :
    EmptySearchShowsStore s := by
  apply reachable_invariant EmptySearchShowsStore _ _ reachable
  · rintro state ⟨defaults, -, rfl⟩ enabled
    exact nomatch enabled
  · intro state event _ shows _
    exact ends_mono (step_shows shows event) (fun _ after => after)
      fun _ _ _ enabled => nomatch enabled

/-- Each figure of the report is the sum of that figure over the rows of the store. -/
structure SumsRows (text : SwiftText) (s : AppState Data) (rows : List RowFigures)
    (report : TotalReport) : Prop where
  rowsShown : s.investments.mapM (exactRow text) = .ok rows
  totalShown : exactShowTotal text s.investmentFilteredData = .ok report
  spent : report.totals.totalSpent = sumOf rows RowFigures.totalSpent
  soldLower : report.totals.totalIfSoldLowerBound = sumOf rows RowFigures.nowLower
  soldUpper : report.totals.totalIfSoldUpperBound = sumOf rows RowFigures.nowUpper
  profitLower : report.totalProfitLowerBound = sumOf rows RowFigures.profitLowerBound
  profitUpper : report.totalProfitUpperBound = sumOf rows RowFigures.profitUpperBound

def RangeOrdered (text : SwiftText) (record : InvestmentItem) : Prop :=
  ∀ lower upper, rowPrice text record = some [lower, upper] → lower ≤ upper

theorem sums_rows_priced {text : SwiftText} {s : AppState Data}
    (whole : s.investmentFilteredData = s.investments)
    (priced : ∀ record ∈ s.investments, TwoElementPrice text record) :
    SumsRows text s (s.investments.map (pricedFigures text))
      (exactReport (addRows ⟨0, 0, 0⟩ (s.investments.map (pricedFigures text)))) where
  rowsShown := exact_rows_priced priced
  totalShown := by
    rw [whole]
    exact exact_show_total_priced priced
  spent := Int.zero_add _
  soldLower := Int.zero_add _
  soldUpper := Int.zero_add _
  profitLower := by
    rw [(priced_profit text s.investments).1]
    simp only [exactReport, addRows, Int.zero_add]
  profitUpper := by
    rw [(priced_profit text s.investments).2]
    simp only [exactReport, addRows, Int.zero_add]

theorem profit_ordered {text : SwiftText} {record : InvestmentItem}
    (priced : TwoElementPrice text record) (ordered : RangeOrdered text record)
    (positive : 0 < record.quantity) :
    (pricedFigures text record).profitLowerBound ≤
      (pricedFigures text record).profitUpperBound := by
  obtain ⟨lower, upper, range⟩ := priced
  simp only [pricedFigures, range, exactFigures]
  apply Int.sub_le_sub_right
  exact Int.mul_le_mul_of_nonneg_right (ordered lower upper range) (Int.le_of_lt positive)

/-- The total of an empty search covers the store, each investment once. -/
theorem total_covers_store (foundation : Foundation Data) (s : AppState Data)
    (reachable : Reachable (app foundation) Possible (Launched foundation fun _ => True) s)
    (enabled : s.totalBarButtonEnabled = true) (empty : s.searchText = "")
    (priced : ∀ record ∈ s.investments, TwoElementPrice foundation.text record) :
    ∃ rows report, SumsRows foundation.text s rows report ∧
      (∀ store : List InvestmentItem, store.Perm s.investments →
        exactShowTotal foundation.text store = .ok report) ∧
      ((∀ record ∈ s.investments, RangeOrdered foundation.text record ∧ 0 < record.quantity) →
        report.totalProfitLowerBound ≤ report.totalProfitUpperBound) ∧
      (∀ record, SameUnless .overflow (rowFigures foundation.text record)
        (exactRow foundation.text record)) ∧
      SameUnless .overflow (showTotal foundation.text s.investmentFilteredData)
        (.ok report) := by
  have sums := sums_rows_priced (reachable_shows reachable enabled empty) priced
  apply Exists.intro
  apply Exists.intro
  apply And.intro sums
  apply And.intro
  · intro store perm
    rw [exact_show_total_priced fun record member => priced record (perm.subset member),
      add_rows_perm (perm.map (pricedFigures foundation.text))]
  apply And.intro
  · intro each
    rw [sums.profitLower, sums.profitUpper]
    apply sum_of_le
    intro row member
    obtain ⟨record, held, rfl⟩ := List.mem_map.mp member
    obtain ⟨ordered, positive⟩ := each record held
    exact profit_ordered (priced record held) ordered positive
  · apply And.intro (row_figures_same foundation.text)
    rw [← sums.totalShown]
    exact show_total_same foundation.text s.investmentFilteredData

theorem shown_totals {text : SwiftText} {visible : List InvestmentItem} {report : TotalReport}
    {totals : Totals} (same : SameUnless .overflow (showTotal text visible) (.ok report))
    (shown : (showTotal text visible).toOption.map TotalReport.totals = some totals) :
    report.totals = totals := by
  cases same with
  | inl overflows =>
      rw [overflows] at shown
      cases shown
  | inr same =>
      rw [same] at shown
      exact Option.some.inj shown

def heldAt (record : InvestmentItem) : Int × Int × Option (List Int) :=
  (record.quantity, record.boughtFor, rowPrice asciiText record)

theorem total_covers_store_two_records :
    ∃ s, secondState = some s ∧
      s.investments.map heldAt = [(1, 100, some [100, 120]), (3, 290, some [300, 340])] ∧
      ∃ rows report, report.totals = ⟨970, 1000, 1140⟩ ∧ SumsRows asciiText s rows report ∧
        (∀ store : List InvestmentItem, store.Perm s.investments →
          exactShowTotal asciiText store = .ok report) ∧
        ((∀ record ∈ s.investments, RangeOrdered asciiText record ∧ 0 < record.quantity) →
          report.totalProfitLowerBound ≤ report.totalProfitUpperBound) ∧
        (∀ record, SameUnless .overflow (rowFigures asciiText record)
          (exactRow asciiText record)) ∧
        SameUnless .overflow (showTotal asciiText s.investmentFilteredData) (.ok report) := by
  have computed : secondState.map (fun s => (s.totalBarButtonEnabled, s.searchText,
      decide ((showTotal asciiText s.investmentFilteredData).toOption.map TotalReport.totals =
        some ⟨970, 1000, 1140⟩))) = some (true, "", true) := by
    decide +kernel
  have amounts : secondState.map (fun s => s.investments.map heldAt) =
      some [(1, 100, some [100, 120]), (3, 290, some [300, 340])] := by
    decide +kernel
  have ⟨s, runs, result⟩ := Option.map_eq_some_iff.mp computed
  simp only [Prod.mk.injEq] at result
  have ⟨enabled, empty, shown⟩ := result
  rw [runs] at amounts
  have held : s.investments.map heldAt = _ := Option.some.inj amounts
  have priced : ∀ record ∈ s.investments, TwoElementPrice asciiText record := by
    intro record member
    have listed := List.mem_map_of_mem (f := heldAt) member
    rw [held] at listed
    cases List.mem_cons.mp listed with
    | inl first => exact ⟨100, 120, (Prod.mk.inj (Prod.mk.inj first).2).2⟩
    | inr rest =>
        exact ⟨300, 340, (Prod.mk.inj (Prod.mk.inj (List.mem_singleton.mp rest)).2).2⟩
  have reached : Reachable (app plainFoundation) Possible
      (Launched plainFoundation fun _ => True) s :=
    reachable_of_fresh_run _ trivial runs
  have ⟨rows, report, covers⟩ :=
    total_covers_store plainFoundation s reached enabled empty priced
  exists s
  apply And.intro runs
  apply And.intro held
  exists rows, report
  exact And.intro (shown_totals covers.2.2.2.2 (of_decide_eq_true shown)) covers

end RlInvestments.TotalOfRows
