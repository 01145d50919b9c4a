import RlInvestments.CatalogueAssembly
import RlInvestments.CatalogueItems

/-!
# What the app reads of a published item

Every published attribute is `null` or a list of two integers, and the decoder
finds each of its 56 keys, so that `getColourPrice` on a decoded item is one
attribute of the published `price` object.
-/

namespace RlInvestments.PublishedPrices

open RlInvestments.JsonText RlInvestments.PriceCellParser RlInvestments.ScrapedTables
open RlInvestments.CatalogueAssembly RlInvestments.CatalogueItems

set_option autoImplicit false

inductive Colour where
  | default
  | black
  | white
  | grey
  | crimson
  | pink
  | cobalt
  | skyBlue
  | burntSienna
  | saffron
  | lime
  | forestGreen
  | orange
  | purple
deriving DecidableEq, Repr

def Colour.column : Colour → Nat
  | .default => 0
  | .black => 1
  | .white => 2
  | .grey => 3
  | .crimson => 4
  | .pink => 5
  | .cobalt => 6
  | .skyBlue => 7
  | .burntSienna => 8
  | .saffron => 9
  | .lime => 10
  | .forestGreen => 11
  | .orange => 12
  | .purple => 13

/-- What `getColourPrice` compares the colour's uppercased name with. -/
def Colour.title : Colour → String
  | .default => "DEFAULT"
  | .black => "BLACK"
  | .white => "TITANIUM WHITE"
  | .grey => "GREY"
  | .crimson => "CRIMSON"
  | .pink => "PINK"
  | .cobalt => "COBALT"
  | .skyBlue => "SKY BLUE"
  | .burntSienna => "BURNT SIENNA"
  | .saffron => "SAFFRON"
  | .lime => "LIME"
  | .forestGreen => "FOREST GREEN"
  | .orange => "ORANGE"
  | .purple => "PURPLE"

def Colour.keyStem : Colour → String
  | .default => ""
  | .black => "black_"
  | .white => "white_"
  | .grey => "grey_"
  | .crimson => "crimson_"
  | .pink => "pink_"
  | .cobalt => "cobalt_"
  | .skyBlue => "skyBlue_"
  | .burntSienna => "burntSienna_"
  | .saffron => "saffron_"
  | .lime => "lime_"
  | .forestGreen => "forestGreen_"
  | .orange => "orange_"
  | .purple => "purple_"

def Colour.ofPrices : Colour → ScrapedTables.Prices → Option PricePair
  | .default, prices => prices.default
  | .black, prices => prices.black
  | .white, prices => prices.white
  | .grey, prices => prices.grey
  | .crimson, prices => prices.crimson
  | .pink, prices => prices.pink
  | .cobalt, prices => prices.cobalt
  | .skyBlue, prices => prices.skyBlue
  | .burntSienna, prices => prices.burntSienna
  | .saffron, prices => prices.saffron
  | .lime, prices => prices.lime
  | .forestGreen, prices => prices.forestGreen
  | .orange, prices => prices.orange
  | .purple, prices => prices.purple

def platformTitle : TablePlatform → String
  | .pc => "PC"
  | .ps4 => "PS4"
  | .xbox => "XBOX"
  | .switch => "SWITCH"

def platformKey : TablePlatform → String
  | .pc => "pc_price"
  | .ps4 => "ps4_price"
  | .xbox => "xbox_price"
  | .switch => "switch_price"

/-- The published attribute of a column on a platform, `pc_price` for the default one. -/
def priceKey (colour : Colour) (platform : TablePlatform) : String :=
  colour.keyStem ++ platformKey platform

theorem item_object_column (tableData : List String) (colour : Colour) :
    colour.ofPrices (itemObject tableData) = priceString tableData colour.column := by
  cases colour <;> rfl

def pairList (pair : PricePair) : List Int := [pair.1, pair.2]

def PairFits (pair : PricePair) : Prop := FitsInt pair.1 ∧ FitsInt pair.2

instance (pair : PricePair) : Decidable (PairFits pair) :=
  inferInstanceAs (Decidable (_ ∧ _))

theorem decode_int_of_int {value : Int} (fits : FitsInt value) :
    decodeInt (.number (.ofInt value)) = some value := by
  simp [decodeInt, Decimal.ofInt, fits]

def published (ranges : Price) : List (String × Json) :=
  ranges.map fun entry => (entry.1, priceJson entry.2)

def priceAttribute (ranges : Price) (key : String) : Option (List Int) :=
  ((ranges.lookup key).getD none).map pairList

theorem decode_price_published (ranges : Price)
    (fits : ∀ entry ∈ ranges, ∀ pair ∈ entry.2, PairFits pair) (key : String) :
    decodePrice (published ranges) key = some (priceAttribute ranges key) := by
  induction ranges with
  | nil => rfl
  | cons entry ranges induction =>
      obtain ⟨name, price⟩ := entry
      by_cases here : key = name
      · cases price with
        | none => simp [decodePrice, published, priceAttribute, priceJson, here]
        | some pair =>
            obtain ⟨lowerFits, upperFits⟩ := fits _ (List.mem_cons_self ..) pair rfl
            simp [decodePrice, published, priceAttribute, priceJson, here, decodeInts,
              decode_int_of_int lowerFits, decode_int_of_int upperFits, pairList]
      · have rest := induction fun entry member => fits entry (List.mem_cons_of_mem _ member)
        have elsewhere : (key == name) = false := beq_eq_false_iff_ne.mpr here
        simpa [decodePrice, published, priceAttribute, List.lookup_cons, elsewhere] using rest

theorem decode_prices_of_attributes (members : List (String × Json))
    (attributeNamed : String → Option (List Int))
    (decoded : ∀ key, decodePrice members key = some (attributeNamed key)) :
    decodePrices (.object members) = some (ofAttributes attributeNamed) := by
  simp only [decodePrices, decoded, Option.bind_eq_bind, Option.bind_some, ofAttributes]

/-- The item that the app holds for a published one. -/
def decodedItem (item : Item) : DecodingItem where
  itemName := item.itemName
  itemPriceRange := ofAttributes (priceAttribute item.itemPriceRange)
  itemUrlName := item.itemUrlName

theorem decode_item_to_json (item : Item)
    (fits : ∀ entry ∈ item.itemPriceRange, ∀ pair ∈ entry.2, PairFits pair) :
    decodeItem item.toJson = some (decodedItem item) := by
  have ranges := decode_prices_of_attributes (published item.itemPriceRange) _
    (decode_price_published item.itemPriceRange fits)
  simp only [decodeItem, Item.toJson, List.lookup_cons, decodeString]
  simp only [beq_self_eq_true, Option.bind_eq_bind, Option.bind_some]
  rw [show (("itemPriceRange" : String) == "itemName") = false by decide,
    show (("itemUrlName" : String) == "itemName") = false by decide,
    show (("itemUrlName" : String) == "itemPriceRange") = false by decide]
  simp only [Option.bind_some]
  rw [show (Json.object (item.itemPriceRange.map fun entry => (entry.1, priceJson entry.2))) =
    .object (published item.itemPriceRange) from rfl, ranges]
  rfl

theorem decode_items_catalogue (oldItems : List Item)
    (fits : ∀ item ∈ oldItems, ∀ entry ∈ item.itemPriceRange, ∀ pair ∈ entry.2, PairFits pair) :
    decodeItems (catalogueJson oldItems) = some ⟨oldItems.map decodedItem⟩ := by
  have items : (oldItems.map Item.toJson).mapM decodeItem = some (oldItems.map decodedItem) := by
    induction oldItems with
    | nil => rfl
    | cons item oldItems induction =>
        have first := decode_item_to_json item (fits item (List.mem_cons_self ..))
        have rest := induction fun other member => fits other (List.mem_cons_of_mem _ member)
        simp only [List.map_cons, List.mapM_cons, first, rest]
        rfl
  simp only [decodeItems, catalogueJson, List.lookup_cons, beq_self_eq_true, Option.bind_eq_bind,
    Option.bind_some, items]

/-- The whole way through the text: what the app decodes is what was assembled. -/
theorem decode_json_string (header : List Char) (shape : IsHeader header) (oldItems : List Item)
    (fits : ∀ item ∈ oldItems, ∀ entry ∈ item.itemPriceRange, ∀ pair ∈ entry.2, PairFits pair) :
    decode (jsonString header oldItems) = some ⟨oldItems.map decodedItem⟩ := by
  rw [decode, read_json_string header shape]
  exact decode_items_catalogue oldItems fits

def colours : List Colour :=
  [.default, .black, .white, .grey, .crimson, .pink, .cobalt, .skyBlue, .burntSienna, .saffron,
    .lime, .forestGreen, .orange, .purple]

/-- The copy into the `price` object takes every attribute from its own platform and
column, `pc_price` excepted: it is filled from the white column. -/
theorem new_price_columns (prices : TablePlatform → ScrapedTables.Prices) :
    newPrice (prices .pc) (prices .ps4) (prices .xbox) (prices .switch) =
      (priceKey .default .pc, Colour.white.ofPrices (prices .pc)) ::
        (colours.flatMap fun colour => [.pc, .ps4, .switch, .xbox].map fun platform =>
          (priceKey colour platform, colour.ofPrices (prices platform))).tail := rfl

theorem new_price_entry (prices : TablePlatform → ScrapedTables.Prices)
    {entry : String × Option PricePair}
    (member : entry ∈ newPrice (prices .pc) (prices .ps4) (prices .xbox) (prices .switch)) :
    ∃ colour platform, entry.2 = Colour.ofPrices colour (prices platform) := by
  rw [new_price_columns, List.mem_cons] at member
  rcases member with rfl | member
  · exact ⟨.white, .pc, rfl⟩
  · obtain ⟨colour, -, inColour⟩ := List.mem_flatMap.mp (List.mem_of_mem_tail member)
    obtain ⟨platform, -, rfl⟩ := List.mem_map.mp inColour
    exact ⟨colour, platform, rfl⟩

theorem platform_price_attribute (text : SwiftText) (onPlatform : String)
    (platform : TablePlatform) (spelled : text.uppercased onPlatform = platformTitle platform)
    (price : TablePlatform → Option (List Int)) :
    platformPrice text onPlatform (price .pc) (price .ps4) (price .switch) (price .xbox) =
      price platform := by
  cases platform <;> simp [platformPrice, spelled, platformTitle]

theorem get_colour_price_attribute (text : SwiftText) (item : DecodingItem)
    (attributeNamed : String → Option (List Int))
    (ranges : item.itemPriceRange = ofAttributes attributeNamed) (colour : Colour)
    (platform : TablePlatform) (colourText onPlatform : String)
    (spelledColour : text.uppercased colourText = colour.title)
    (spelledPlatform : text.uppercased onPlatform = platformTitle platform) :
    item.getColourPrice text colourText onPlatform =
      attributeNamed (priceKey colour platform) := by
  rw [← platform_price_attribute text onPlatform platform spelledPlatform
    fun platform => attributeNamed (priceKey colour platform)]
  cases colour <;>
    simp only [DecodingItem.getColourPrice, spelledColour, Colour.title] <;>
    rw [ranges] <;> rfl

/-- The column that the merge copies into an attribute. -/
def copiedColumn (colour : Colour) (platform : TablePlatform) : Colour :=
  if colour = .default ∧ platform = .pc then .white else colour

/-- The attributes of `price`, in the order in which they are assigned. -/
def priceKeys : List String :=
  (newPrice .none .none .none .none).map Prod.fst

theorem price_keys_distinct : priceKeys.Nodup := by decide +kernel

def position : TablePlatform → Nat
  | .pc => 0
  | .ps4 => 1
  | .switch => 2
  | .xbox => 3

theorem new_price_position (prices : TablePlatform → ScrapedTables.Prices)
    (colour : Colour) (platform : TablePlatform) :
    (newPrice (prices .pc) (prices .ps4) (prices .xbox) (prices .switch))[
        4 * colour.column + position platform]? =
      some (priceKey colour platform,
        (copiedColumn colour platform).ofPrices (prices platform)) := by
  cases colour <;> cases platform <;> rfl

theorem lookup_of_mem {ranges : Price} (distinct : (ranges.map Prod.fst).Nodup) {key : String}
    {value : Option PricePair} (member : (key, value) ∈ ranges) :
    ranges.lookup key = some value := by
  induction ranges with
  | nil => exact nomatch member
  | cons entry ranges induction =>
      obtain ⟨fresh, others⟩ := List.nodup_cons.mp distinct
      rcases List.mem_cons.mp member with rfl | later
      · exact List.lookup_cons_self
      · have differs : key ≠ entry.1 := by
          intro same
          exact fresh (same ▸ List.mem_map_of_mem later)
        rw [List.lookup_cons, beq_eq_false_iff_ne.mpr differs]
        exact induction others later

theorem price_attribute_new_price (prices : TablePlatform → ScrapedTables.Prices)
    (colour : Colour) (platform : TablePlatform) :
    priceAttribute (newPrice (prices .pc) (prices .ps4) (prices .xbox) (prices .switch))
        (priceKey colour platform) =
      ((copiedColumn colour platform).ofPrices (prices platform)).map pairList := by
  have found : (newPrice (prices .pc) (prices .ps4) (prices .xbox) (prices .switch)).lookup
      (priceKey colour platform) =
        some ((copiedColumn colour platform).ofPrices (prices platform)) := by
    apply lookup_of_mem
    · exact price_keys_distinct
    · exact List.mem_of_getElem? (new_price_position prices colour platform)
  rw [priceAttribute, found]
  rfl

structure CatalogueEntry where
  itemName : String
  attributeNamed : String → Option PricePair

def CatalogueEntry.toItem (entry : CatalogueEntry) : Item where
  itemName := entry.itemName
  itemPriceRange := priceKeys.map fun key => (key, entry.attributeNamed key)
  itemUrlName := entry.itemName

def CatalogueEntry.decoded (entry : CatalogueEntry) : DecodingItem where
  itemName := entry.itemName
  itemPriceRange := ofAttributes fun key => (entry.attributeNamed key).map pairList
  itemUrlName := entry.itemName

theorem lookup_map_key (keys : List String) (attributeNamed : String → Option PricePair)
    {key : String} (member : key ∈ keys) :
    (keys.map fun key => (key, attributeNamed key)).lookup key = some (attributeNamed key) := by
  induction keys with
  | nil => exact absurd member List.not_mem_nil
  | cons head tail induction =>
      by_cases same : key = head
      · simp [same]
      · have differs : (key == head) = false := beq_eq_false_iff_ne.mpr same
        rw [List.map_cons, List.lookup_cons, differs]
        exact induction ((List.mem_cons.mp member).resolve_left same)

theorem of_attributes_congr {first second : String → Option (List Int)}
    (same : ∀ key ∈ priceKeys, first key = second key) :
    ofAttributes first = ofAttributes second := by
  simp only [priceKeys, newPrice, List.map_cons, List.map_nil, List.forall_mem_cons] at same
  simp only [ofAttributes, same]

theorem decoded_item_to_item (entry : CatalogueEntry) :
    decodedItem entry.toItem = entry.decoded := by
  have ranges : ofAttributes (priceAttribute entry.toItem.itemPriceRange) =
      ofAttributes fun key => (entry.attributeNamed key).map pairList := by
    apply of_attributes_congr
    intro key member
    rw [priceAttribute, CatalogueEntry.toItem, lookup_map_key priceKeys _ member]
    rfl
  rw [decodedItem, ranges]
  rfl

theorem published_text_decodes (entries : List CatalogueEntry)
    (fits : ∀ entry ∈ entries, ∀ key ∈ priceKeys, ∀ pair ∈ entry.attributeNamed key,
      PairFits pair) :
    readDocument (jsonString Azure.header (entries.map CatalogueEntry.toItem)) =
        some (catalogueJson (entries.map CatalogueEntry.toItem)) ∧
      decode (jsonString Azure.header (entries.map CatalogueEntry.toItem)) =
        some ⟨entries.map CatalogueEntry.decoded⟩ := by
  have itemsFit : ∀ item ∈ entries.map CatalogueEntry.toItem, ∀ range ∈ item.itemPriceRange,
      ∀ pair ∈ range.2, PairFits pair := by
    intro item itemMember range rangeMember pair isPair
    obtain ⟨entry, entryMember, rfl⟩ := List.mem_map.mp itemMember
    obtain ⟨key, keyMember, rfl⟩ := List.mem_map.mp rangeMember
    exact fits entry entryMember key keyMember pair isPair
  apply And.intro
  · exact read_json_string Azure.header azure_header_shape _
  · have decodedItems : (entries.map CatalogueEntry.toItem).map decodedItem =
        entries.map CatalogueEntry.decoded := by
      rw [List.map_map]
      exact List.map_congr_left fun entry _ => decoded_item_to_item entry
    rw [decode_json_string Azure.header azure_header_shape _ itemsFit, decodedItems]

/-- A name with a quote, a comma and a bracket, and prices at both ends of the range. -/
def awkwardEntry : CatalogueEntry where
  itemName := "a\",[\n]\\"
  attributeNamed key :=
    if key = "pc_price" then some (-9223372036854775808, 9223372036854775807) else none

/-- Priced on one platform in white, on another not at all. -/
def plainEntry : CatalogueEntry where
  itemName := "Dominus"
  attributeNamed key := if key = "white_switch_price" then some (300, 340) else none

def awkwardEntries : List CatalogueEntry := [awkwardEntry, plainEntry]

theorem awkward_entries_fit :
    ∀ entry ∈ awkwardEntries, ∀ key ∈ priceKeys, ∀ pair ∈ entry.attributeNamed key,
      PairFits pair := by
  decide +kernel

theorem published_text_decodes_awkward :
    readDocument (jsonString Azure.header (awkwardEntries.map CatalogueEntry.toItem)) =
        some (catalogueJson (awkwardEntries.map CatalogueEntry.toItem)) ∧
      decode (jsonString Azure.header (awkwardEntries.map CatalogueEntry.toItem)) =
        some ⟨awkwardEntries.map CatalogueEntry.decoded⟩ :=
  published_text_decodes awkwardEntries awkward_entries_fit

end RlInvestments.PublishedPrices
