import RlInvestments.JsonText
import RlInvestments.Binary64Rounding
import RlInvestments.PriceCellParser
import RlInvestments.ScrapedTables
import RlInvestments.CatalogueAssembly
import RlInvestments.LocalScraperRefinement
import RlInvestments.CatalogueItems
import RlInvestments.LastMatchScan
import RlInvestments.PublishedPrices
import RlInvestments.PricePipeline
import RlInvestments.GuardedRuns
import RlInvestments.InvestmentStore
import RlInvestments.OverviewRows
import RlInvestments.AppMemory
import RlInvestments.FormTable
import RlInvestments.OverviewHandlers
import RlInvestments.FormSheet
import RlInvestments.AppRuns
import RlInvestments.HandlerRules
import RlInvestments.StoredDefaults
import RlInvestments.StoreIdentity
import RlInvestments.RowAccounting
import RlInvestments.RowTags
import RlInvestments.SearchListing
import RlInvestments.HeldRecords
import RlInvestments.HeldPrices
import RlInvestments.FigureRange
import RlInvestments.CatalogueRefresh
import RlInvestments.IrregularRows
import RlInvestments.TotalOfRows
import RlInvestments.WhileLoops
import RlInvestments.CrossPlatformList
import RlInvestments.CrossPlatformSort
import RlInvestments.BinaryFormats
import RlInvestments.ConversionRates
import RlInvestments.ShownRates
import RlInvestments.GroupMembers
import RlInvestments.ItemListScreens
import RlInvestments.CellAcceptance
import RlInvestments.ScaledThousands
import RlInvestments.RecordedPrices
import RlInvestments.FormRuns
import RlInvestments.FormCompleteness
import RlInvestments.GroupLoops
import RlInvestments.CatalogueLaws
import RlInvestments.WordSearch
import RlInvestments.HoverDataParser
import RlInvestments.PlatformScan
import RlInvestments.HoverDataFormat
import RlInvestments.HoverDataOrder
import RlInvestments.UrlNames
import RlInvestments.JoinByPosition
import RlInvestments.SectionItems
import RlInvestments.UriText
import RlInvestments.PriceChart
import RlInvestments.ChartRuns
import RlInvestments.UnstoppedRuns
import RlInvestments.KeyedLedger
import RlInvestments.PortfolioJournal
import RlInvestments.GroupJournal
import RlInvestments.PendingBlocks
import RlInvestments.FormDisplay
import RlInvestments.PlatformControls
import RlInvestments.PricesTab
import RlInvestments.LocalPublication
import RlInvestments.RateRuns
import RlInvestments.StableSort
import RlInvestments.TieOrder
import RlInvestments.ExchangedPlatforms
import RlInvestments.TablesOnScreen
import RlInvestments.ScrapeCompletion
import RlInvestments.RoundingBounds
import RlInvestments.FloatRates
import RlInvestments.FloatScreenRuns
