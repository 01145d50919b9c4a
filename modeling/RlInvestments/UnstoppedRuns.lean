import RlInvestments.ChartRuns
import RlInvestments.FigureRange
import RlInvestments.FormRuns
import RlInvestments.HeldPrices
import RlInvestments.RowTags

/-!
# Runs that nothing stops

Each way in which the overview can stop the app has its own condition: a price that a
refresh takes away, an amount that is too large, a row count that does not add up, a tag
that is stale, a url name that fits into no address. In the runs that respect all of them
no step stops the app. A tag can be stale only between a deletion and the reload that the
deletion has posted.
-/

namespace RlInvestments.UnstoppedRuns

open RlInvestments.GuardedRuns RlInvestments.CatalogueItems RlInvestments.InvestmentStore
open RlInvestments.LastMatchScan RlInvestments.OverviewRows RlInvestments.AppMemory
open RlInvestments.OverviewHandlers RlInvestments.FormSheet RlInvestments.AppRuns
open RlInvestments.HandlerRules RlInvestments.StoredDefaults RlInvestments.StoreIdentity
open RlInvestments.RowAccounting RlInvestments.HeldRecords
open RlInvestments.HeldPrices RlInvestments.FigureRange RlInvestments.FormRuns
open RlInvestments.PriceChart RlInvestments.ChartRuns
open RlInvestments.RowTags (Tagged TagsMatch built_tagged tagged_of_ids)

set_option autoImplicit false

variable {Data : Type} {foundation : Foundation Data}

instance (records : List InvestmentItem) : Decidable (Moderate records) :=
  decidable_of_iff ((records.map fun record => max 0 (spent record)).sum < 2 ^ 63 ∧
      (records.map profitBound).sum < 2 ^ 63)
    ⟨fun sums => ⟨sums.1, sums.2⟩, fun moderate => ⟨moderate.spent, moderate.profit⟩⟩

/-- The alert and the chart go back to the record at `cellTag`. -/
def usesTag : Presented → Bool
  | .deleteAlert => true
  | .chart => true
  | _ => false

/-- The amounts are moderate, the tags are right unless a reload is waiting to put them
right, and what is shown over the overview has its record. -/
structure Settled (s : AppState Data) : Prop where
  moderate : Moderate s.investments
  tags : s.pendingReloads = 0 → TagsMatch s
  covered : usesTag s.presented = true → s.cellTag < s.investments.length

end RlInvestments.UnstoppedRuns
