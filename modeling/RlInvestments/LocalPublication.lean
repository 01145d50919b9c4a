import RlInvestments.HoverDataFormat
import RlInvestments.PublishedPrices
import RlInvestments.SectionItems

/-!
# What the page scraper publishes

The main part of `RL_Insider_Scrapper_P2.py`. The sections of the page are read one after
the other, with words added to the names of some of them, and the items are written into
one document, of which the first blanks and one line break are then deleted. The app reads
the document as the items, in order, if every number fits an `Int`, and not at all
otherwise. Where the rows of the sections have one name each, an item shows the prices of
its own row.
-/

namespace RlInvestments.LocalPublication

open RlInvestments.CatalogueItems RlInvestments.GuardedRuns RlInvestments.HoverDataFormat
open RlInvestments.HoverDataParser RlInvestments.JoinByPosition RlInvestments.JsonText
open RlInvestments.PriceCellParser RlInvestments.PublishedPrices RlInvestments.ScrapedTables
open RlInvestments.SectionItems RlInvestments.UrlNames RlInvestments.WhileLoops
open RlInvestments.WordSearch
open RlInvestments.CatalogueAssembly (IsHeader catalogueJson jsonString priceJson fold_texts
  read_json_string)

set_option autoImplicit false

/-- What the markup library finds: in a text, and in the page under an `id`. -/
structure Page where
  soup : Soup
  /-- `str(soup.find_all("div", id = name))`. -/
  container : String → String

/-- The sections in the order in which they are read, and the `extraWords` of each. -/
def sections : List (String × String) :=
  [("paintedBMDecalsPricesContainer", ""),
    ("unpaintedBMDecalsPricesContainer", ""),
    ("paintedGoalExplosionsPricesContainer", ""),
    ("paintedCarsPricesContainer", ""),
    ("paintedWheelsExoticPricesContainer", ""),
    ("paintedWheelsLimitedPricesContainer", ""),
    ("paintedWheelsImportPricesContainer", ""),
    ("paintedWheelsVeryRarePricesContainer", " (Very Rare)"),
    ("paintedWheelsRarePricesContainer", ""),
    ("paintedWheelsUncommonPricesContainer", " (Uncommon)"),
    ("paintedDecalsPricesContainer", ""),
    ("paintedBoostsPricesContainer", ""),
    ("paintedToppersPricesContainer", ""),
    ("paintedAntennasPricesContainer", ""),
    ("paintedTrailsPricesContainer", ""),
    ("paintedBannersPricesContainer", ""),
    ("paintedAvatarBordersPricesContainer", ""),
    ("alpha+BetaPricesContainer", ""),
    ("unpaintedGoalExplosionsPricesContainer", ""),
    ("unpaintedCarsPricesContainer", ""),
    ("unpaintedWheelsPricesContainer", ""),
    ("unpaintedDecalsPricesContainer", ""),
    ("unpaintedBoostsPricesContainer", ""),
    ("unpaintedToppersPricesContainer", ""),
    ("unpaintedAntennasPricesContainer", ""),
    ("unpaintedTrailsPricesContainer", ""),
    ("unpaintedBannersPricesContainer", " (Banner)"),
    ("unpaintedAvatarBordersPricesContainer", ""),
    ("engineAudioPricesContainer", ""),
    ("giftPacksPricesContainer", ""),
    ("paintFinishesPricesContainer", "")]

def addSection (page : Page) (items : List Item) (tableSection : String × String) :
    Except (Stop PyFault) (List Item) := do
  let found ← getItemsinSection page.soup tableSection.2 (page.container tableSection.1)
  .ok (items ++ found)

def pageItems (page : Page) : Except (Stop PyFault) (List Item) :=
  sections.foldlM (addSection page) []

def PlatformPrices.attributes (prices : PlatformPrices) : List (Option PricePair) :=
  [prices.pcPrice, prices.ps4Price, prices.switchPrice, prices.xboxPrice]

/-- The class has the attribute names of the other scrapers, in the same order. -/
def asdict (item : Item) : CatalogueAssembly.Item where
  itemName := item.itemName
  itemPriceRange := priceKeys.zip (item.itemPriceRange.flatMap PlatformPrices.attributes)
  itemUrlName := item.itemUrlName

def header : List Char :=
  "\n                \x7b\"items\" : [ \n                 ".toList

/-- `list.remove`, which raises where there is nothing to remove. -/
def remove (letter : Char) (list : List Char) : Except PyFault (List Char) :=
  if letter ∈ list then .ok (list.erase letter) else .error .valueError

/-- The result of the `filter` over the letters is not used. -/
def document (items : List Item) : Except PyFault (List Char) := do
  let tempList ← inRange (deleteUntil ['{'] (jsonString header (items.map asdict)))
  remove '\n' tempList

/-- The text that is uploaded. -/
def main (page : Page) : Except (Stop PyFault) (List Char) := do
  let items ← pageItems page
  liftFault (document items)

/-- The slice never reaches a part of the header that has more behind it. -/
theorem json_string_append (front : List Char) {gap : List Char} (nonempty : gap ≠ [])
    (items : List CatalogueAssembly.Item) :
    jsonString (front ++ gap) items = front ++ jsonString gap items := by
  have more : gap ++ items.flatMap (fun item => dumps item.toJson ++ [',']) ≠ [] := by
    intro none
    exact nonempty (List.append_eq_nil_iff.mp none).1
  rw [jsonString, fold_texts, List.append_assoc, List.dropLast_append_of_ne_nil more,
    List.append_assoc, jsonString, fold_texts]

def cutHeader : List Char := "\x7b\"items\" : [                  ".toList

theorem cut_header_shape : IsHeader cutHeader :=
  ⟨[], "                  ".toList, by decide, by decide, by decide, by decide⟩

/-- The two deletions take their letters out of the header, whatever the items are. -/
theorem document_eq (items : List Item) :
    document items = .ok (jsonString cutHeader (items.map asdict)) := by
  have whole : header = "\n                ".toList ++
      '{' :: ("\"items\" : [ ".toList ++ '\n' :: "                 ".toList) := by decide
  have cut : cutHeader = ('{' :: "\"items\" : [ ".toList) ++ "                 ".toList := by
    decide
  have gap : "                 ".toList ≠ [] := by decide
  have braceAbsent : '{' ∉ "\n                ".toList := by decide
  have breakAbsent : '\n' ∉ '{' :: "\"items\" : [ ".toList := by decide
  have text : jsonString header (items.map asdict) = "\n                ".toList ++
      '{' :: ("\"items\" : [ ".toList ++
        '\n' :: jsonString "                 ".toList (items.map asdict)) := by
    have front := json_string_append ("\n                ".toList ++
      '{' :: ("\"items\" : [ ".toList ++ ['\n'])) gap (items.map asdict)
    simp only [List.append_assoc, List.cons_append, List.nil_append] at front
    rw [whole, front]
  rw [document, text, delete_until_letter braceAbsent]
  change remove '\n' (('{' :: "\"items\" : [ ".toList) ++ '\n' :: _) = _
  rw [remove, if_pos (List.mem_append_right _ (List.mem_cons_self ..)),
    List.erase_append_right _ breakAbsent, List.erase_cons_head, cut, json_string_append _ gap]

theorem decode_int_cases (value : Int) :
    decodeInt (.number (.ofInt value)) = if FitsInt value then some value else none := by
  simp [decodeInt, Decimal.ofInt]

theorem decode_ints_pair (pair : PricePair) :
    decodeInts (priceJson (some pair)) =
      if PairFits pair then some (pairList pair) else none := by
  have elements : decodeInts (priceJson (some pair)) =
      [Json.number (.ofInt pair.1), .number (.ofInt pair.2)].mapM decodeInt := rfl
  rw [elements]
  simp only [List.mapM_cons, List.mapM_nil, decode_int_cases]
  by_cases lower : FitsInt pair.1
  · by_cases upper : FitsInt pair.2
    · rw [if_pos lower, if_pos upper, if_pos ⟨lower, upper⟩]
      rfl
    · have out : ¬ PairFits pair := fun fits => upper fits.2
      rw [if_pos lower, if_neg upper, if_neg out]
      rfl
  · have out : ¬ PairFits pair := fun fits => lower fits.1
    rw [if_neg lower, if_neg out]
    rfl

/-- A price out of range is not read as a missing one. -/
theorem decode_price_out_of_range {ranges : CatalogueAssembly.Price} {key : String}
    {pair : PricePair} (there : ranges.lookup key = some (some pair)) (out : ¬ PairFits pair) :
    decodePrice (published ranges) key = none := by
  have found : (published ranges).lookup key = some (priceJson (some pair)) := by
    induction ranges with
    | nil => cases there
    | cons entry ranges induction =>
        rw [published, List.map_cons, List.lookup_cons]
        rw [List.lookup_cons] at there
        cases same : key == entry.1 with
        | true =>
            rw [same] at there
            rw [Option.some.inj there]
        | false =>
            rw [same] at there
            exact induction there
  have value : decodePrice (published ranges) key =
      (decodeInts (priceJson (some pair))).map some := by
    rw [decodePrice, found]
    rfl
  rw [value, decode_ints_pair, if_neg out]
  rfl

theorem decode_prices_reads {members : List (String × Json)} {prices : CatalogueItems.Prices}
    (decoded : decodePrices (.object members) = some prices) :
    ∀ key ∈ priceKeys, ∃ price, decodePrice members key = some price := by
  simp only [priceKeys, CatalogueAssembly.newPrice, List.map_cons, List.map_nil,
    List.forall_mem_cons]
  unfold decodePrices at decoded
  iterate 56
    obtain ⟨_, found, decoded⟩ := Option.bind_eq_some_iff.mp decoded
    refine ⟨⟨_, found⟩, ?_⟩
  intro key member
  exact absurd member List.not_mem_nil

def Keyed (item : CatalogueAssembly.Item) : Prop := item.itemPriceRange.map Prod.fst = priceKeys

def ItemFits (item : CatalogueAssembly.Item) : Prop :=
  ∀ entry ∈ item.itemPriceRange, ∀ pair ∈ entry.2, PairFits pair

instance (item : CatalogueAssembly.Item) : Decidable (ItemFits item) :=
  inferInstanceAs (Decidable (∀ _ ∈ _, ∀ _ ∈ _, _))

theorem decode_item_cases {item : CatalogueAssembly.Item} (keyed : Keyed item) :
    decodeItem item.toJson = if ItemFits item then some (decodedItem item) else none := by
  by_cases fits : ItemFits item
  · rw [if_pos fits, decode_item_to_json item fits]
  · rw [if_neg fits]
    have ⟨entry, member, pair, isPair, out⟩ : ∃ entry ∈ item.itemPriceRange,
        ∃ pair, entry.2 = some pair ∧ ¬ PairFits pair := by
      simp only [ItemFits, not_forall, exists_prop] at fits
      exact fits
    have distinct : (item.itemPriceRange.map Prod.fst).Nodup := keyed ▸ price_keys_distinct
    have there : item.itemPriceRange.lookup entry.1 = some (some pair) := by
      apply lookup_of_mem distinct
      rw [← isPair]
      exact member
    have key : entry.1 ∈ priceKeys := keyed ▸ List.mem_map_of_mem member
    have unread : decodePrices (.object (published item.itemPriceRange)) = none := by
      cases decoded : decodePrices (.object (published item.itemPriceRange)) with
      | none => rfl
      | some prices =>
          have ⟨price, read⟩ := decode_prices_reads decoded entry.1 key
          rw [decode_price_out_of_range there out] at read
          cases read
    have lookups : decodeItem item.toJson =
        (decodePrices (.object (published item.itemPriceRange))).bind fun itemPriceRange =>
          some ⟨item.itemName, itemPriceRange, item.itemUrlName⟩ := rfl
    rw [lookups, unread]
    rfl

theorem decode_all_cases {items : List CatalogueAssembly.Item}
    (keyed : ∀ item ∈ items, Keyed item) :
    (items.map CatalogueAssembly.Item.toJson).mapM decodeItem =
      if ∀ item ∈ items, ItemFits item then some (items.map decodedItem) else none := by
  induction items with
  | nil => rfl
  | cons item items induction =>
      have ⟨first, others⟩ := List.forall_mem_cons.mp keyed
      rw [List.map_cons, List.mapM_cons, decode_item_cases first, induction others]
      by_cases here : ItemFits item
      · by_cases later : ∀ item ∈ items, ItemFits item
        · have all := List.forall_mem_cons.mpr ⟨here, later⟩
          rw [if_pos here, if_pos later, if_pos all]
          rfl
        · have out : ¬ ∀ other ∈ item :: items, ItemFits other :=
            fun all => later (List.forall_mem_cons.mp all).2
          rw [if_pos here, if_neg later, if_neg out]
          rfl
      · have out : ¬ ∀ other ∈ item :: items, ItemFits other :=
          fun all => here (List.forall_mem_cons.mp all).1
        rw [if_neg here, if_neg out]
        rfl

/-- One number that an `Int` cannot hold makes the whole document unreadable. -/
theorem decode_json_string_cases {header : List Char} (shape : IsHeader header)
    {items : List CatalogueAssembly.Item} (keyed : ∀ item ∈ items, Keyed item) :
    decode (jsonString header items) =
      if ∀ item ∈ items, ItemFits item then some ⟨items.map decodedItem⟩ else none := by
  have members : decode (jsonString header items) =
      ((items.map CatalogueAssembly.Item.toJson).mapM decodeItem).bind fun items =>
        some ⟨items⟩ := by
    rw [decode, read_json_string header shape]
    rfl
  rw [members, decode_all_cases keyed]
  split_ifs
  · rfl
  · rfl

def PlatformPrices.onPlatform (prices : PlatformPrices) : TablePlatform → Option PricePair
  | .pc => prices.pcPrice
  | .ps4 => prices.ps4Price
  | .xbox => prices.xboxPrice
  | .switch => prices.switchPrice

theorem attributes_at (prices : List PlatformPrices) (i : Nat) (platform : TablePlatform) :
    (prices.flatMap PlatformPrices.attributes)[4 * i + position platform]? =
      prices[i]?.map fun price => PlatformPrices.onPlatform price platform := by
  induction prices generalizing i with
  | nil => rfl
  | cons price prices induction =>
      rw [List.flatMap_cons]
      cases i with
      | zero => cases platform <;> rfl
      | succ i =>
          have four : (PlatformPrices.attributes price).length = 4 := rfl
          have behind : 4 * (i + 1) + position platform = 4 + (4 * i + position platform) := by
            omega
          rw [behind, List.getElem?_append_right (by omega), four, Nat.add_sub_cancel_left,
            induction, List.getElem?_cons_succ]

theorem attributes_length (prices : List PlatformPrices) :
    (prices.flatMap PlatformPrices.attributes).length = 4 * prices.length := by
  induction prices with
  | nil => rfl
  | cons price prices induction =>
      rw [List.flatMap_cons, List.length_append, induction, List.length_cons]
      change 4 + 4 * prices.length = _
      omega

theorem price_key_at (colour : Colour) (platform : TablePlatform) :
    priceKeys[4 * colour.column + position platform]? = some (priceKey colour platform) := by
  have entry := new_price_position (fun _ => .none) colour platform
  rw [priceKeys, List.getElem?_map, entry]
  rfl

theorem price_keys_length : priceKeys.length = 4 * 14 := rfl

variable {item : Item}

theorem asdict_keyed (all : item.itemPriceRange.length = 14) : Keyed (asdict item) := by
  have enough : priceKeys.length ≤
      (item.itemPriceRange.flatMap PlatformPrices.attributes).length := by
    rw [attributes_length, price_keys_length, all]
  exact List.map_fst_zip enough

theorem asdict_attribute (all : item.itemPriceRange.length = 14) (colour : Colour)
    (platform : TablePlatform) {prices : PlatformPrices}
    (there : item.itemPriceRange[colour.column]? = some prices) :
    priceAttribute (asdict item).itemPriceRange (priceKey colour platform) =
      (PlatformPrices.onPlatform prices platform).map pairList := by
  have entry : (asdict item).itemPriceRange[4 * colour.column + position platform]? =
      some (priceKey colour platform, PlatformPrices.onPlatform prices platform) := by
    have value := attributes_at item.itemPriceRange colour.column platform
    rw [there] at value
    exact List.getElem?_zip_eq_some.mpr ⟨price_key_at colour platform, value⟩
  have distinct : ((asdict item).itemPriceRange.map Prod.fst).Nodup :=
    asdict_keyed all ▸ price_keys_distinct
  rw [priceAttribute, lookup_of_mem distinct (List.mem_of_getElem? entry)]
  rfl

theorem asdict_fits_iff (all : item.itemPriceRange.length = 14) :
    ItemFits (asdict item) ↔ ∀ prices ∈ item.itemPriceRange,
      ∀ price ∈ PlatformPrices.attributes prices, ∀ pair ∈ price, PairFits pair := by
  have enough : (item.itemPriceRange.flatMap PlatformPrices.attributes).length ≤
      priceKeys.length := by
    rw [attributes_length, price_keys_length, all]
  have values : (asdict item).itemPriceRange.map Prod.snd =
      item.itemPriceRange.flatMap PlatformPrices.attributes := List.map_snd_zip enough
  have onValues : ItemFits (asdict item) ↔
      ∀ price ∈ (asdict item).itemPriceRange.map Prod.snd, ∀ pair ∈ price, PairFits pair := by
    rw [List.forall_mem_map]
    rfl
  rw [onValues, values, List.forall_mem_flatMap]

def Page.rows (page : Page) (tableSection : String × String) : List String :=
  page.soup.itemRows (page.container tableSection.1)

theorem fold_sections (page : Page) (tableSections : List (String × String)) (items : List Item) :
    tableSections.foldlM (addSection page) items =
      (tableSections.mapM fun tableSection =>
          getItemsinSection page.soup tableSection.2 (page.container tableSection.1)).map
        fun found => items ++ found.flatten := by
  induction tableSections generalizing items with
  | nil => simp only [List.foldlM_nil, List.mapM_nil, Pure.pure, Except.pure, Except.map,
      List.flatten_nil, List.append_nil]
  | cons tableSection tableSections induction =>
      rw [List.foldlM_cons, map_m_step, addSection]
      cases getItemsinSection page.soup tableSection.2 (page.container tableSection.1) with
      | error stop => rfl
      | ok found =>
          change tableSections.foldlM (addSection page) (items ++ found) = _
          rw [induction]
          cases tableSections.mapM fun tableSection =>
            getItemsinSection page.soup tableSection.2 (page.container tableSection.1) with
          | error stop => rfl
          | ok others =>
              change Except.ok ((items ++ found) ++ others.flatten) =
                Except.ok (items ++ (found ++ others.flatten))
              rw [List.append_assoc]

theorem page_items_sections {page : Page} {items : List Item}
    (reads : pageItems page = .ok items) :
    ∃ found, sections.mapM (fun tableSection =>
        getItemsinSection page.soup tableSection.2 (page.container tableSection.1)) = .ok found ∧
      items = found.flatten := by
  rw [pageItems, fold_sections] at reads
  have ⟨found, sectionsRead, same⟩ := except_map_ok reads
  exact ⟨found, sectionsRead, same.symm⟩

theorem new_price_length {unparsed : List String} {prices : List PlatformPrices}
    (reads : newPrice unparsed = .ok prices) : prices.length = unparsed.length :=
  (map_m_each reads).length_eq.symm

theorem section_items_all {page : Page} {tableSection : String × String} {found : List Item}
    (reads : getItemsinSection page.soup tableSection.2 (page.container tableSection.1) =
      .ok found) :
    ∀ item ∈ found, item.itemPriceRange.length = 14 := by
  intro item member
  have ⟨row, _, first, second, third, priced, parts⟩ :=
    Reading.join_rows_second _ reads item member
  rw [parts]
  exact (new_price_length priced).trans (List.length_map _)

theorem page_items_all {page : Page} {items : List Item} (reads : pageItems page = .ok items) :
    ∀ item ∈ items, item.itemPriceRange.length = 14 := by
  obtain ⟨found, sectionsRead, rfl⟩ := page_items_sections reads
  intro item member
  have ⟨part, inFound, inPart⟩ := List.mem_flatten.mp member
  have ⟨tableSection, _, sectionRead⟩ := map_m_source sectionsRead part inFound
  exact section_items_all sectionRead item inPart

def priceOf (item : Item) (colour : Colour) (platform : TablePlatform) : Option PricePair :=
  item.itemPriceRange[colour.column]?.bind fun prices =>
    PlatformPrices.onPlatform prices platform

theorem get_colour_price_asdict (text : SwiftText) (all : item.itemPriceRange.length = 14)
    (colour : Colour) (platform : TablePlatform) {colourText onPlatform : String}
    (spelledColour : text.uppercased colourText = colour.title)
    (spelledPlatform : text.uppercased onPlatform = platformTitle platform) :
    (decodedItem (asdict item)).getColourPrice text colourText onPlatform =
      (priceOf item colour platform).map pairList := by
  have inside : colour.column < item.itemPriceRange.length := by
    rw [all]
    cases colour <;> decide
  have ⟨prices, there⟩ : ∃ prices, item.itemPriceRange[colour.column]? = some prices :=
    ⟨_, List.getElem?_eq_getElem inside⟩
  rw [get_colour_price_attribute text _ _ rfl colour platform _ _ spelledColour spelledPlatform,
    asdict_attribute all colour platform there, priceOf, there]
  rfl

def ItemsFit (items : List Item) : Prop :=
  ∀ item ∈ items, ∀ prices ∈ item.itemPriceRange,
    ∀ price ∈ PlatformPrices.attributes prices, ∀ pair ∈ price, PairFits pair

instance (items : List Item) : Decidable (ItemsFit items) :=
  inferInstanceAs (Decidable (∀ _ ∈ _, ∀ _ ∈ _, ∀ _ ∈ _, ∀ _ ∈ _, _))

/-- What the app holds for an item of the page. -/
structure ShowsItem (text : SwiftText) (shown : DecodingItem) (item : Item) : Prop where
  itemName : shown.itemName = item.itemName
  itemUrlName : shown.itemUrlName = item.itemUrlName
  price : ∀ colour platform colourText onPlatform,
    text.uppercased colourText = Colour.title colour →
    text.uppercased onPlatform = platformTitle platform →
    shown.getColourPrice text colourText onPlatform =
      (priceOf item colour platform).map pairList

theorem shows_asdict (text : SwiftText) (all : item.itemPriceRange.length = 14) :
    ShowsItem text (decodedItem (asdict item)) item where
  itemName := rfl
  itemUrlName := rfl
  price := fun colour platform _ _ spelledColour spelledPlatform =>
    get_colour_price_asdict text all colour platform spelledColour spelledPlatform

theorem uploaded_items {page : Page} {items : List Item} (reads : pageItems page = .ok items) :
    ∃ uploaded, main page = .ok uploaded ∧
      decode uploaded =
        if ItemsFit items then some ⟨items.map fun item => decodedItem (asdict item)⟩
        else none := by
  have all := page_items_all reads
  have keyed : ∀ item ∈ items.map asdict, Keyed item :=
    List.forall_mem_map.mpr fun item member => asdict_keyed (all item member)
  have fits : (∀ item ∈ items.map asdict, ItemFits item) ↔ ItemsFit items := by
    rw [List.forall_mem_map]
    exact forall₂_congr fun item member => asdict_fits_iff (all item member)
  refine ⟨jsonString cutHeader (items.map asdict), ?_, ?_⟩
  · rw [main, reads]
    change liftFault (document items) = _
    rw [document_eq]
    rfl
  · rw [decode_json_string_cases cut_header_shape keyed]
    simp only [fits, List.map_map, Function.comp_def]

/-- Whatever the page holds: the upload is made exactly if all sections are read. The app
then lists the items in the order of the page, with their names, urls and prices, if every
number fits an `Int`; if one does not, it reads nothing. -/
theorem published_page_reads (text : SwiftText) (page : Page) :
    ((∃ uploaded, main page = .ok uploaded) ↔ ∃ items, pageItems page = .ok items) ∧
      ∀ uploaded items, main page = .ok uploaded → pageItems page = .ok items →
        (ItemsFit items → ∃ catalogue, decode uploaded = some catalogue ∧
          List.Forall₂ (ShowsItem text) catalogue.items items) ∧
        (¬ ItemsFit items → decode uploaded = none) := by
  constructor
  · constructor
    · intro ⟨uploaded, uploads⟩
      have ⟨items, reads, _⟩ := except_bind_ok uploads
      exact ⟨items, reads⟩
    · intro ⟨items, reads⟩
      have ⟨uploaded, uploads, _⟩ := uploaded_items reads
      exact ⟨uploaded, uploads⟩
  · intro uploaded items uploads reads
    have ⟨same, uploadsSame, decoded⟩ := uploaded_items reads
    obtain rfl := Except.ok.inj (uploads.symm.trans uploadsSame)
    constructor
    · intro fits
      refine ⟨_, decoded.trans (if_pos fits), ?_⟩
      apply List.forall₂_map_left_iff.mpr
      apply List.forall₂_same.mpr
      exact fun item member => shows_asdict text (page_items_all reads item member)
    · exact fun out => decoded.trans (if_neg out)

/-- The rows that hold a name, each with the `extraWords` of its section. -/
def namedRows (page : Page) : List (String × String) :=
  sections.flatMap fun tableSection =>
    ((page.rows tableSection).filter fun row => page.soup.fnl row ≠ []).map
      fun row => (tableSection.2, row)

/-- Every row can be read, and in each section the rows with a name come first and have
one name each. -/
def PageReadable (page : Page) : Prop :=
  ∀ tableSection ∈ sections, (∀ row ∈ page.rows tableSection, RowReadable page.soup row) ∧
    OneFirstEach page.soup.fnl (page.rows tableSection)

def priceClass (colour : Colour) : String := priceClasses.getD colour.column ""

def RowFits (page : Page) (row : String) : Prop :=
  ∀ priceClass ∈ priceClasses, ∀ prices,
    parseprice (unparsedPrice page.soup row priceClass) = .ok prices →
      ∀ price ∈ prices, ∀ pair ∈ price, PairFits pair

/-- The item has the one name of the row with the words of its section, the url name in the
row's text, and under every spelling of a colour and a platform the price in the row's cell. -/
structure ShowsRow (text : SwiftText) (page : Page) (shown : DecodingItem)
    (named : String × String) : Prop where
  itemName : ∃ name, page.soup.fnl named.2 = [name] ∧ shown.itemName = name ++ named.1
  itemUrlName : extractUrl named.2 = .ok shown.itemUrlName
  price : ∀ colour platform colourText onPlatform,
    text.uppercased colourText = Colour.title colour →
    text.uppercased onPlatform = platformTitle platform →
    ∃ prices, parseprice (unparsedPrice page.soup named.2 (priceClass colour)) = .ok prices ∧
      shown.getColourPrice text colourText onPlatform =
        (prices[position platform]?.join).map pairList

/-- The item was made of the row. -/
def FromRow (page : Page) (named : String × String) (item : Item) : Prop :=
  (rowReading page.soup named.1).OfRow named.2 item

theorem section_items_of_rows {page : Page} {tableSection : String × String} {found : List Item}
    (oneEach : OneFirstEach page.soup.fnl (page.rows tableSection))
    (reads : getItemsinSection page.soup tableSection.2 (page.container tableSection.1) =
      .ok found) :
    List.Forall₂ (FromRow page)
      (((page.rows tableSection).filter fun row => page.soup.fnl row ≠ []).map
        fun row => (tableSection.2, row)) found := by
  have ⟨filled, unfilled, all, one, nameless⟩ := oneEach
  have kept : (page.rows tableSection).filter (fun row => page.soup.fnl row ≠ []) = filled := by
    rw [all, List.filter_append, List.filter_eq_self.mpr, List.filter_eq_nil_iff.mpr,
      List.append_nil]
    · intro row member
      simp [nameless row member]
    · intro row member
      have single := one row member
      have some : page.soup.fnl row ≠ [] := by
        intro empty
        rw [empty] at single
        cases single
      exact decide_eq_true some
  have joins : (rowReading page.soup tableSection.2).joinRows (filled ++ unfilled) =
      .ok found := all ▸ reads
  rw [kept, List.forall₂_map_left_iff]
  exact (rowReading page.soup tableSection.2).join_rows_of_rows one nameless joins

theorem page_items_of_rows {page : Page} (readable : PageReadable page) {items : List Item}
    (reads : pageItems page = .ok items) : List.Forall₂ (FromRow page) (namedRows page) items := by
  obtain ⟨found, sectionsRead, rfl⟩ := page_items_sections reads
  have oneEach : ∀ tableSection ∈ sections,
      OneFirstEach page.soup.fnl (page.rows tableSection) :=
    fun tableSection member => (readable tableSection member).2
  have both := (List.forall₂_and_left sections found).mpr ⟨oneEach, map_m_each sectionsRead⟩
  rw [namedRows, List.flatMap]
  apply List.rel_flatten
  apply List.forall₂_map_left_iff.mpr
  exact both.imp fun tableSection part ⟨one, read⟩ => section_items_of_rows one read

theorem page_items_complete {page : Page} (readable : PageReadable page) :
    ∃ items, pageItems page = .ok items := by
  have each : ∀ tableSection ∈ sections, ∃ found,
      getItemsinSection page.soup tableSection.2 (page.container tableSection.1) =
        .ok found := by
    intro tableSection member
    have ⟨items, _, read, _⟩ := (items_from_one_row_iff page.soup tableSection.2
      (page.container tableSection.1)).mpr (readable tableSection member)
    exact ⟨_, read⟩
  have ⟨found, reads⟩ := map_m_completes_iff.mpr each
  refine ⟨[] ++ found.flatten, ?_⟩
  rw [pageItems, fold_sections, reads]
  rfl

theorem colour_prices_parse {unparsed : String} {prices : PlatformPrices}
    (reads : colourPrices unparsed = .ok prices) :
    parseprice unparsed = .ok (PlatformPrices.attributes prices) := by
  have ⟨list, parses, copied⟩ := except_bind_ok reads
  rw [parses]
  match list, parseprice_four parses with
  | [pcPrice, ps4Price, switchPrice, xboxPrice], _ =>
      cases copied
      rfl

theorem related_at {Left Right : Type} {related : Left → Right → Prop} {lefts : List Left}
    {rights : List Right} (each : List.Forall₂ related lefts rights) {i : Nat} {left : Left}
    (there : lefts[i]? = some left) : ∃ right, rights[i]? = some right ∧ related left right := by
  induction each generalizing i with
  | nil => cases there
  | cons first _ induction =>
      cases i with
      | zero =>
          cases there
          exact ⟨_, rfl, first⟩
      | succ i => exact induction there

theorem row_price_at {soup : Soup} {row : String} {price : List PlatformPrices}
    (reads : newPrice (unparsedPrices soup row) = .ok price) (colour : Colour) :
    ∃ prices, price[colour.column]? = some prices ∧
      parseprice (unparsedPrice soup row (priceClass colour)) =
        .ok (PlatformPrices.attributes prices) := by
  have there : (unparsedPrices soup row)[colour.column]? =
      some (unparsedPrice soup row (priceClass colour)) := by
    rw [unparsedPrices, List.getElem?_map]
    cases colour <;> rfl
  obtain ⟨prices, found, read⟩ := related_at (map_m_each reads) there
  exact ⟨prices, found, colour_prices_parse read⟩

theorem attributes_position (prices : PlatformPrices) (platform : TablePlatform) :
    (PlatformPrices.attributes prices)[position platform]? =
      some (PlatformPrices.onPlatform prices platform) := by
  cases platform <;> rfl

theorem shows_row {text : SwiftText} {page : Page} {named : String × String} {shown : DecodingItem}
    (fromRow : FromRow page named item) (shows : ShowsItem text shown item) :
    ShowsRow text page shown named := by
  obtain ⟨name, price, url, only, priced, linked, rfl⟩ := fromRow
  constructor
  · exact ⟨name, only, shows.itemName⟩
  · rw [shows.itemUrlName]
    change liftFault (extractUrl named.2) = .ok url at linked
    cases extracted : extractUrl named.2 with
    | error fault =>
        rw [extracted] at linked
        cases linked
    | ok text =>
        rw [extracted] at linked
        cases linked
        rfl
  · intro colour platform colourText onPlatform spelledColour spelledPlatform
    have ⟨prices, there, parses⟩ := row_price_at priced colour
    refine ⟨_, parses, ?_⟩
    rw [shows.price colour platform colourText onPlatform spelledColour spelledPlatform,
      attributes_position, priceOf]
    change ((price[colour.column]?.bind fun prices =>
      PlatformPrices.onPlatform prices platform).map pairList) = _
    rw [there]
    rfl

theorem texts_fit_iff {texts : List String} {price : List PlatformPrices}
    (each : List.Forall₂ (fun unparsed prices => colourPrices unparsed = .ok prices) texts price) :
    (∀ unparsed ∈ texts, ∀ prices, parseprice unparsed = .ok prices →
        ∀ price ∈ prices, ∀ pair ∈ price, PairFits pair) ↔
      ∀ prices ∈ price, ∀ price ∈ PlatformPrices.attributes prices, ∀ pair ∈ price,
        PairFits pair := by
  induction each with
  | nil => exact ⟨fun _ => nofun, fun _ => nofun⟩
  | cons first _ induction =>
      rw [List.forall_mem_cons, List.forall_mem_cons, induction, colour_prices_parse first]
      constructor
      · exact fun ⟨here, later⟩ => ⟨here _ rfl, later⟩
      · intro ⟨here, later⟩
        refine ⟨fun prices same => ?_, later⟩
        cases same
        exact here

theorem row_fits_iff {page : Page} {named : String × String} (fromRow : FromRow page named item) :
    RowFits page named.2 ↔ ∀ prices ∈ item.itemPriceRange,
      ∀ price ∈ PlatformPrices.attributes prices, ∀ pair ∈ price, PairFits pair := by
  obtain ⟨name, price, url, only, priced, linked, rfl⟩ := fromRow
  have numbers := texts_fit_iff (map_m_each priced)
  exact List.forall_mem_map.symm.trans numbers

theorem rows_fit_iff {page : Page} {named : List (String × String)} {items : List Item}
    (each : List.Forall₂ (FromRow page) named items) :
    (∀ row ∈ named, RowFits page row.2) ↔ ItemsFit items := by
  unfold ItemsFit
  induction each with
  | nil => exact ⟨fun _ => nofun, fun _ => nofun⟩
  | cons first _ induction =>
      rw [List.forall_mem_cons, List.forall_mem_cons, induction, row_fits_iff first]

/-- The app lists the named rows of the page in their order, each with its own name, url and
prices. -/
def ShowsPage (text : SwiftText) (page : Page) : Prop :=
  ∃ uploaded catalogue, main page = .ok uploaded ∧ decode uploaded = some catalogue ∧
    List.Forall₂ (fun shown named => ShowsRow text page shown named) catalogue.items
      (namedRows page)

/-- Of a page whose rows can be read and have one name each, the app shows every row exactly
if all numbers in the cells of its rows fit an `Int`. -/
theorem shows_page_iff (text : SwiftText) {page : Page} (readable : PageReadable page) :
    ShowsPage text page ↔ ∀ named ∈ namedRows page, RowFits page named.2 := by
  have ⟨items, reads⟩ := page_items_complete readable
  have each := page_items_of_rows readable reads
  have ⟨uploaded, uploads, decoded⟩ := uploaded_items reads
  rw [rows_fit_iff each]
  constructor
  · intro ⟨same, catalogue, uploadsSame, decodes, _⟩
    obtain rfl := Except.ok.inj (uploads.symm.trans uploadsSame)
    by_contra out
    rw [decoded, if_neg out] at decodes
    cases decodes
  · intro fits
    refine ⟨uploaded, _, uploads, decoded.trans (if_pos fits), ?_⟩
    apply List.forall₂_map_left_iff.mpr
    have shown : List.Forall₂ (fun item named => ShowsRow text page
        (decodedItem (asdict item)) named) items (namedRows page) := by
      have all := page_items_all reads
      have flipped := List.Forall₂.flip (R := fun item named => FromRow page named item) each
      have both := (List.forall₂_and_left items _).mpr ⟨all, flipped⟩
      exact both.imp fun item named ⟨full, fromRow⟩ =>
        shows_row fromRow (shows_asdict text full)
    exact shown

/-- A row by what it holds: the text after its `data-itemurl`, the names in its `fnl` elements,
and its price cells, each by its class and its `data-info`. -/
structure WrittenRow where
  url : String
  names : List String
  cells : List (String × String)

def cellText (cell : String × String) : String :=
  "<td class=\"" ++ cell.1 ++ "\" data-info='" ++ cell.2 ++ "'></td>"

def nameText (name : String) : String := "<td><div class=\"fnl\">" ++ name ++ "</div></td>"

def WrittenRow.text (row : WrittenRow) : String :=
  "<tr class=\"itemRow\" data-item" ++ "url=\"" ++ (row.url ++ "\" data-sprite" ++
    ("=\"1\">" ++ String.join (row.names.map nameText) ++ String.join (row.cells.map cellText) ++
      "</tr>"))

def hoverData (platforms : String) : String :=
  "\x7b\"k\":\x7b" ++ platforms ++ "\x7d,\"h\":\x7b\x7d\x7d"

/-- Priced on two platforms, and in black on none. -/
def octaneRow : WrittenRow where
  url := "octane"
  names := ["Octane"]
  cells := [("priceDefault priceRange", hoverData "\"pc\":[350,450],\"xbox\":[300,400]"),
    ("priceBlack priceRange noHover", "")]

def dominusRow : WrittenRow where
  url := "dominus"
  names := ["Dominus"]
  cells := [("priceDefault priceRange", hoverData "\"ps4\":[90,120]")]

def spacerRow : WrittenRow := ⟨"spacer", [], []⟩

def zombaRow : WrittenRow where
  url := "zomba"
  names := ["Zomba"]
  cells := [("priceWhite priceRange", hoverData "\"pc\":[2000,2200]")]

def carRows : List WrittenRow := [octaneRow, dominusRow, spacerRow]

def wheelRows : List WrittenRow := [zombaRow]

def containerText (name : String) (rows : List WrittenRow) : String :=
  "[<div id=\"" ++ name ++ "\"><table>" ++ String.join (rows.map WrittenRow.text) ++
    "</table></div>]"

def carsText : String := containerText "unpaintedCarsPricesContainer" carRows

def wheelsText : String := containerText "paintedWheelsVeryRarePricesContainer" wheelRows

def rowOf (text : String) : Option WrittenRow :=
  (carRows ++ wheelRows).find? fun row => row.text = text

/-- What follows the two markers around the url name. -/
def WrittenRow.rest (row : WrittenRow) : List Char :=
  ("=\"1\">" ++ String.join (row.names.map nameText) ++ String.join (row.cells.map cellText) ++
    "</tr>").toList

theorem written_letters (row : WrittenRow) :
    row.text.toList = "<tr class=\"itemRow\" data-item".toList ++ "url=\"".toList ++
      (row.url.toList ++ "\" data-sprite".toList ++ row.rest) := by
  unfold WrittenRow.text WrittenRow.rest
  iterate 4 rw [String.toList_append]

/-- The url name of a written row can be read, unless it has a marker in it. -/
theorem written_readable (row : WrittenRow)
    (unmarked : ¬ "sprite".toList <:+: row.url.toList ++ "\" data-".toList) :
    3 ≤ row.text.toList.length ∧ Readable row.text.toList := by
  have noUrl : ¬ "url".toList <:+: "<tr class=\"itemRow\" data-item".toList := by decide
  have sprite : FirstAt "sprite".toList
      (row.url.toList ++ "\" data-sprite".toList ++ row.rest) (row.url.toList.length + 7) := by
    have first := first_at_append (by decide) unmarked row.rest
    rw [List.length_append, List.append_assoc row.url.toList] at first
    exact first
  have ⟨url, spriteThere⟩ := marked_first noUrl sprite
  rw [written_letters]
  constructor
  · simp only [List.length_append]
    have long : "<tr class=\"itemRow\" data-item".toList.length = 29 := by decide
    omega
  · intro p first
    right
    rw [first_at_unique first url, List.append_assoc, List.drop_left]
    exact ⟨_, spriteThere, Nat.le_add_left 12 _⟩

/-- What is found in the two sections of a page, and in their rows. -/
def listedPage : Page where
  soup := {
    itemRows := fun text =>
      if text = carsText then carRows.map WrittenRow.text
      else if text = wheelsText then wheelRows.map WrittenRow.text
      else []
    fnl := fun text => ((rowOf text).map WrittenRow.names).getD []
    cells := fun name text =>
      let cells := ((rowOf text).map WrittenRow.cells).getD []
      (cells.filter fun cell => cell.1 = name).map cellText }
  container := fun name =>
    if name = "unpaintedCarsPricesContainer" then carsText
    else if name = "paintedWheelsVeryRarePricesContainer" then wheelsText
    else "[]"

def noPrice : PlatformPrices := ⟨none, none, none, none⟩

/-- The part of the url name that is written first in a row. -/
def urlOf (text : String) : List Char := (text.toList.drop 34).takeWhile fun letter => letter ≠ '"'

theorem url_of_written {row : WrittenRow} (plain : '"' ∉ row.url.toList) :
    urlOf row.text = row.url.toList := by
  have opening : ("<tr class=\"itemRow\" data-item".toList ++ "url=\"".toList).length = 34 := by
    decide +kernel
  have closing : "\" data-sprite".toList = '"' :: " data-sprite".toList := by decide +kernel
  rw [urlOf, written_letters, ← opening, List.drop_left, closing, List.append_assoc,
    List.takeWhile_append_of_pos]
  · simp
  · intro letter member
    have differs : letter ≠ '"' := fun same => plain (same ▸ member)
    exact decide_eq_true differs

theorem row_of_written {row : WrittenRow} (member : row ∈ carRows ++ wheelRows) :
    rowOf row.text = some row := by
  have plain : ∀ row ∈ carRows ++ wheelRows, '"' ∉ row.url.toList := by decide +kernel
  have urls : ((carRows ++ wheelRows).map fun row => row.url.toList).Nodup := by decide +kernel
  have distinct : ((carRows ++ wheelRows).map WrittenRow.text).Nodup := by
    apply List.Nodup.of_map urlOf
    have same : (carRows ++ wheelRows).map (urlOf ∘ WrittenRow.text) =
        (carRows ++ wheelRows).map fun row => row.url.toList :=
      List.map_congr_left fun row listed => url_of_written (plain row listed)
    rw [List.map_map, same]
    exact urls
  cases found : rowOf row.text with
  | none => exact absurd (List.find?_eq_none.mp found row member) (by simp)
  | some other =>
      have same : other.text = row.text := by simpa using List.find?_some found
      have listed := List.mem_of_find?_eq_some found
      rw [List.inj_on_of_nodup_map distinct listed member same]

/-- The same row on its own. -/
def writtenSoup (row : WrittenRow) : Soup where
  itemRows _ := []
  fnl _ := row.names
  cells name _ := (row.cells.filter fun cell => cell.1 = name).map cellText

theorem listed_prices {row : WrittenRow} (member : row ∈ carRows ++ wheelRows) :
    unparsedPrices listedPage.soup row.text = unparsedPrices (writtenSoup row) "" := by
  have cells : ∀ name, listedPage.soup.cells name row.text = (writtenSoup row).cells name "" := by
    intro name
    simp only [listedPage, row_of_written member]
    rfl
  apply List.map_congr_left
  intro priceClass _
  rw [unparsedPrice, cells, cells]
  rfl

/-- The row has these prices, and its numbers fit. -/
structure PricedAs (row : WrittenRow) (price : List PlatformPrices) : Prop where
  priced : newPrice (unparsedPrices (writtenSoup row) "") = .ok price
  fits : ∀ prices ∈ price, ∀ price ∈ PlatformPrices.attributes prices, ∀ pair ∈ price,
    PairFits pair

theorem listed_rows_priced : ∀ row ∈ carRows ++ wheelRows, ∃ price, PricedAs row price := by
  have octane : PricedAs octaneRow
      (⟨some (350, 450), none, none, some (300, 400)⟩ :: List.replicate 13 noPrice) :=
    ⟨by decide +kernel, by decide +kernel⟩
  have dominus : PricedAs dominusRow
      (⟨none, some (90, 120), none, none⟩ :: List.replicate 13 noPrice) :=
    ⟨by decide +kernel, by decide +kernel⟩
  have spacer : PricedAs spacerRow (List.replicate 14 noPrice) :=
    ⟨by decide +kernel, by decide +kernel⟩
  have zomba : PricedAs zombaRow
      (noPrice :: noPrice :: ⟨some (2000, 2200), none, none, none⟩ :: List.replicate 11 noPrice) :=
    ⟨by decide +kernel, by decide +kernel⟩
  have rows : carRows ++ wheelRows = [octaneRow, dominusRow, spacerRow, zombaRow] := rfl
  rw [rows]
  simp only [List.forall_mem_cons]
  exact ⟨⟨_, octane⟩, ⟨_, dominus⟩, ⟨_, spacer⟩, ⟨_, zomba⟩, nofun⟩

theorem listed_row_readable {row : WrittenRow} (member : row ∈ carRows ++ wheelRows) :
    RowReadable listedPage.soup row.text := by
  have unmarked : ∀ row ∈ carRows ++ wheelRows,
      ¬ "sprite".toList <:+: row.url.toList ++ "\" data-".toList := by decide +kernel
  have ⟨long, url⟩ := written_readable row (unmarked row member)
  have ⟨price, read⟩ := listed_rows_priced row member
  have priced := read.priced
  rw [← listed_prices member] at priced
  exact ⟨long, url, (new_price_completes_iff _ _).mp ⟨price, priced⟩⟩

theorem listed_rows (tableSection : String × String) :
    listedPage.rows tableSection = carRows.map WrittenRow.text ∨
      listedPage.rows tableSection = wheelRows.map WrittenRow.text ∨
      listedPage.rows tableSection = [] := by
  by_cases cars : listedPage.container tableSection.1 = carsText
  · exact .inl (if_pos cars)
  · by_cases wheels : listedPage.container tableSection.1 = wheelsText
    · exact .inr (.inl ((if_neg cars).trans (if_pos wheels)))
    · exact .inr (.inr ((if_neg cars).trans (if_neg wheels)))

theorem listed_rows_written {tableSection : String × String} {text : String}
    (member : text ∈ listedPage.rows tableSection) :
    ∃ row ∈ carRows ++ wheelRows, row.text = text := by
  rcases listed_rows tableSection with cars | wheels | empty
  · rw [cars] at member
    have ⟨row, held, same⟩ := List.mem_map.mp member
    exact ⟨row, List.mem_append_left _ held, same⟩
  · rw [wheels] at member
    have ⟨row, held, same⟩ := List.mem_map.mp member
    exact ⟨row, List.mem_append_right _ held, same⟩
  · rw [empty] at member
    exact absurd member List.not_mem_nil

theorem listed_names {rows : List WrittenRow} (listed : rows ⊆ carRows ++ wheelRows) :
    (rows.map WrittenRow.text).map listedPage.soup.fnl = rows.map WrittenRow.names := by
  rw [List.map_map]
  apply List.map_congr_left
  intro row member
  simp only [Function.comp, listedPage, row_of_written (listed member)]
  rfl

theorem listed_page_readable : PageReadable listedPage := by
  intro tableSection _
  constructor
  · intro text member
    have ⟨row, listed, same⟩ := listed_rows_written member
    rw [← same]
    exact listed_row_readable listed
  · have cars := listed_names (List.subset_append_left carRows wheelRows)
    have wheels := listed_names (List.subset_append_right carRows wheelRows)
    simp only [carRows, wheelRows, List.map_cons, List.map_nil, List.cons.injEq, and_true]
      at cars wheels
    rcases listed_rows tableSection with rows | rows | rows
    · rw [rows]
      refine ⟨[octaneRow.text, dominusRow.text], [spacerRow.text], rfl, ?_, ?_⟩
      · simp only [List.forall_mem_cons, cars.1, cars.2.1]
        exact ⟨rfl, rfl, nofun⟩
      · exact List.forall_mem_singleton.mpr cars.2.2
    · rw [rows]
      refine ⟨[zombaRow.text], [], rfl, ?_, nofun⟩
      rw [List.forall_mem_singleton, wheels]
      rfl
    · rw [rows]
      exact ⟨[], [], rfl, nofun, nofun⟩

theorem shows_page_iff_listed :
    (namedRows listedPage).map (fun named => (listedPage.soup.fnl named.2, named.1)) =
        [(["Zomba"], " (Very Rare)"), (["Octane"], ""), (["Dominus"], "")] ∧
      ShowsPage asciiText listedPage := by
  constructor
  · decide +kernel
  · apply (shows_page_iff asciiText listed_page_readable).mpr
    intro named member
    have ⟨tableSection, _, inSection⟩ := List.mem_flatMap.mp member
    have ⟨text, held, same⟩ := List.mem_map.mp inSection
    have ⟨row, listed, written⟩ := listed_rows_written (List.mem_filter.mp held).1
    have ⟨price, read⟩ := listed_rows_priced row listed
    have priced := read.priced
    rw [← listed_prices listed] at priced
    rw [← same, ← written]
    exact List.forall_mem_map.mp ((texts_fit_iff (map_m_each priced)).mpr read.fits)

end RlInvestments.LocalPublication
