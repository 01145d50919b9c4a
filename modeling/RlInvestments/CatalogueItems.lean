import RlInvestments.JsonText

/-!
# The catalogue as the app sees it

The `Codable` structures, their decoding from JSON, and `getColourPrice`. Swift
compares strings up to canonical equivalence; a `String` here stands for its
class. The two Foundation operations on text that the app uses are a parameter,
with the facts about them that the app relies on.
-/

namespace RlInvestments.CatalogueItems

open RlInvestments.JsonText

set_option autoImplicit false

def asciiUppercase (text : String) : String := String.ofList (text.toList.map Char.toUpper)

structure SwiftText where
  uppercased : String → String
  contains : String → String → Bool
  uppercased_ascii : ∀ text : String, (text.toList.all fun c => decide (c.toNat < 128)) = true →
    uppercased text = asciiUppercase text
  uppercased_uppercased : ∀ text, uppercased (uppercased text) = uppercased text

theorem to_upper_to_upper (c : Char) : c.toUpper.toUpper = c.toUpper := by
  by_cases lower : 'a'.val ≤ c.val ∧ c.val ≤ 'z'.val
  · have raised : c.toUpper.val = c.val + ('A'.val - 'a'.val) := by
      delta Char.toUpper
      rw [dif_pos lower]
    have notLower : ¬ ('a'.val ≤ c.toUpper.val ∧ c.toUpper.val ≤ 'z'.val) := by
      rw [raised]
      obtain ⟨above, below⟩ := lower
      simp only [UInt32.le_iff_toNat_le, UInt32.toNat_add] at above below ⊢
      have shift : ('A'.val - 'a'.val).toNat = 4294967264 := by decide
      have first : 'a'.val.toNat = 97 := by decide
      have last : 'z'.val.toNat = 122 := by decide
      omega
    exact dif_neg notLower
  · have same : c.toUpper = c := dif_neg lower
    rw [same, same]

def asciiText : SwiftText where
  uppercased := asciiUppercase
  contains text part := (List.range (text.toList.length + 1)).any fun i =>
    part.toList.isPrefixOf (text.toList.drop i)
  uppercased_ascii _ _ := rfl
  uppercased_uppercased text := by
    simp only [asciiUppercase, String.toList_ofList, List.map_map, Function.comp_def,
      to_upper_to_upper]

/-- The signed 64-bit range of Swift's `Int`. -/
def FitsInt (value : Int) : Prop := -2 ^ 63 ≤ value ∧ value < 2 ^ 63

instance (value : Int) : Decidable (FitsInt value) :=
  inferInstanceAs (Decidable (_ ∧ _))

structure Prices where
  pcPrice : Option (List Int)
  ps4Price : Option (List Int)
  switchPrice : Option (List Int)
  xboxPrice : Option (List Int)
  blackPcPrice : Option (List Int)
  blackPs4Price : Option (List Int)
  blackSwitchPrice : Option (List Int)
  blackXboxPrice : Option (List Int)
  whitePcPrice : Option (List Int)
  whitePs4Price : Option (List Int)
  whiteSwitchPrice : Option (List Int)
  whiteXboxPrice : Option (List Int)
  greyPcPrice : Option (List Int)
  greyPs4Price : Option (List Int)
  greySwitchPrice : Option (List Int)
  greyXboxPrice : Option (List Int)
  crimsonPcPrice : Option (List Int)
  crimsonPs4Price : Option (List Int)
  crimsonSwitchPrice : Option (List Int)
  crimsonXboxPrice : Option (List Int)
  pinkPcPrice : Option (List Int)
  pinkPs4Price : Option (List Int)
  pinkSwitchPrice : Option (List Int)
  pinkXboxPrice : Option (List Int)
  cobaltPcPrice : Option (List Int)
  cobaltPs4Price : Option (List Int)
  cobaltSwitchPrice : Option (List Int)
  cobaltXboxPrice : Option (List Int)
  skyBluePcPrice : Option (List Int)
  skyBluePs4Price : Option (List Int)
  skyBlueSwitchPrice : Option (List Int)
  skyBlueXboxPrice : Option (List Int)
  burntSiennaPcPrice : Option (List Int)
  burntSiennaPs4Price : Option (List Int)
  burntSiennaSwitchPrice : Option (List Int)
  burntSiennaXboxPrice : Option (List Int)
  saffronPcPrice : Option (List Int)
  saffronPs4Price : Option (List Int)
  saffronSwitchPrice : Option (List Int)
  saffronXboxPrice : Option (List Int)
  limePcPrice : Option (List Int)
  limePs4Price : Option (List Int)
  limeSwitchPrice : Option (List Int)
  limeXboxPrice : Option (List Int)
  forestGreenPcPrice : Option (List Int)
  forestGreenPs4Price : Option (List Int)
  forestGreenSwitchPrice : Option (List Int)
  forestGreenXboxPrice : Option (List Int)
  orangePcPrice : Option (List Int)
  orangePs4Price : Option (List Int)
  orangeSwitchPrice : Option (List Int)
  orangeXboxPrice : Option (List Int)
  purplePcPrice : Option (List Int)
  purplePs4Price : Option (List Int)
  purpleSwitchPrice : Option (List Int)
  purpleXboxPrice : Option (List Int)

/-- The structure whose fields are read off a function of their JSON keys. -/
def ofAttributes (attributeNamed : String → Option (List Int)) : Prices where
  pcPrice := attributeNamed "pc_price"
  ps4Price := attributeNamed "ps4_price"
  switchPrice := attributeNamed "switch_price"
  xboxPrice := attributeNamed "xbox_price"
  blackPcPrice := attributeNamed "black_pc_price"
  blackPs4Price := attributeNamed "black_ps4_price"
  blackSwitchPrice := attributeNamed "black_switch_price"
  blackXboxPrice := attributeNamed "black_xbox_price"
  whitePcPrice := attributeNamed "white_pc_price"
  whitePs4Price := attributeNamed "white_ps4_price"
  whiteSwitchPrice := attributeNamed "white_switch_price"
  whiteXboxPrice := attributeNamed "white_xbox_price"
  greyPcPrice := attributeNamed "grey_pc_price"
  greyPs4Price := attributeNamed "grey_ps4_price"
  greySwitchPrice := attributeNamed "grey_switch_price"
  greyXboxPrice := attributeNamed "grey_xbox_price"
  crimsonPcPrice := attributeNamed "crimson_pc_price"
  crimsonPs4Price := attributeNamed "crimson_ps4_price"
  crimsonSwitchPrice := attributeNamed "crimson_switch_price"
  crimsonXboxPrice := attributeNamed "crimson_xbox_price"
  pinkPcPrice := attributeNamed "pink_pc_price"
  pinkPs4Price := attributeNamed "pink_ps4_price"
  pinkSwitchPrice := attributeNamed "pink_switch_price"
  pinkXboxPrice := attributeNamed "pink_xbox_price"
  cobaltPcPrice := attributeNamed "cobalt_pc_price"
  cobaltPs4Price := attributeNamed "cobalt_ps4_price"
  cobaltSwitchPrice := attributeNamed "cobalt_switch_price"
  cobaltXboxPrice := attributeNamed "cobalt_xbox_price"
  skyBluePcPrice := attributeNamed "skyBlue_pc_price"
  skyBluePs4Price := attributeNamed "skyBlue_ps4_price"
  skyBlueSwitchPrice := attributeNamed "skyBlue_switch_price"
  skyBlueXboxPrice := attributeNamed "skyBlue_xbox_price"
  burntSiennaPcPrice := attributeNamed "burntSienna_pc_price"
  burntSiennaPs4Price := attributeNamed "burntSienna_ps4_price"
  burntSiennaSwitchPrice := attributeNamed "burntSienna_switch_price"
  burntSiennaXboxPrice := attributeNamed "burntSienna_xbox_price"
  saffronPcPrice := attributeNamed "saffron_pc_price"
  saffronPs4Price := attributeNamed "saffron_ps4_price"
  saffronSwitchPrice := attributeNamed "saffron_switch_price"
  saffronXboxPrice := attributeNamed "saffron_xbox_price"
  limePcPrice := attributeNamed "lime_pc_price"
  limePs4Price := attributeNamed "lime_ps4_price"
  limeSwitchPrice := attributeNamed "lime_switch_price"
  limeXboxPrice := attributeNamed "lime_xbox_price"
  forestGreenPcPrice := attributeNamed "forestGreen_pc_price"
  forestGreenPs4Price := attributeNamed "forestGreen_ps4_price"
  forestGreenSwitchPrice := attributeNamed "forestGreen_switch_price"
  forestGreenXboxPrice := attributeNamed "forestGreen_xbox_price"
  orangePcPrice := attributeNamed "orange_pc_price"
  orangePs4Price := attributeNamed "orange_ps4_price"
  orangeSwitchPrice := attributeNamed "orange_switch_price"
  orangeXboxPrice := attributeNamed "orange_xbox_price"
  purplePcPrice := attributeNamed "purple_pc_price"
  purplePs4Price := attributeNamed "purple_ps4_price"
  purpleSwitchPrice := attributeNamed "purple_switch_price"
  purpleXboxPrice := attributeNamed "purple_xbox_price"

structure DecodingItem where
  itemName : String
  itemPriceRange : Prices
  itemUrlName : String

structure DecodingItems where
  items : List DecodingItem

/-- An `Int` is any number denoting an integer in range; `1.0` is one, `1.5` is not. -/
def decodeInt : Json → Option Int
  | .number value =>
      let scaled := if 0 ≤ value.exponent then value.mantissa * 10 ^ value.exponent.toNat
        else value.mantissa / 10 ^ (-value.exponent).toNat
      let exact := 0 ≤ value.exponent ∨ 10 ^ (-value.exponent).toNat ∣ value.mantissa
      if exact ∧ FitsInt scaled then some scaled else none
  | _ => none

def decodeInts : Json → Option (List Int)
  | .array elements => elements.mapM decodeInt
  | _ => none

def decodeString : Json → Option String
  | .string value => some value
  | _ => none

/-- `decodeIfPresent`: a missing key and `null` both give `nil`. -/
def decodePrice (members : List (String × Json)) (key : String) : Option (Option (List Int)) :=
  match members.lookup key with
  | none => some none
  | some .null => some none
  | some value => (decodeInts value).map some

def decodePrices : Json → Option Prices
  | .object members => do
      let pcPrice ← decodePrice members "pc_price"
      let ps4Price ← decodePrice members "ps4_price"
      let switchPrice ← decodePrice members "switch_price"
      let xboxPrice ← decodePrice members "xbox_price"
      let blackPcPrice ← decodePrice members "black_pc_price"
      let blackPs4Price ← decodePrice members "black_ps4_price"
      let blackSwitchPrice ← decodePrice members "black_switch_price"
      let blackXboxPrice ← decodePrice members "black_xbox_price"
      let whitePcPrice ← decodePrice members "white_pc_price"
      let whitePs4Price ← decodePrice members "white_ps4_price"
      let whiteSwitchPrice ← decodePrice members "white_switch_price"
      let whiteXboxPrice ← decodePrice members "white_xbox_price"
      let greyPcPrice ← decodePrice members "grey_pc_price"
      let greyPs4Price ← decodePrice members "grey_ps4_price"
      let greySwitchPrice ← decodePrice members "grey_switch_price"
      let greyXboxPrice ← decodePrice members "grey_xbox_price"
      let crimsonPcPrice ← decodePrice members "crimson_pc_price"
      let crimsonPs4Price ← decodePrice members "crimson_ps4_price"
      let crimsonSwitchPrice ← decodePrice members "crimson_switch_price"
      let crimsonXboxPrice ← decodePrice members "crimson_xbox_price"
      let pinkPcPrice ← decodePrice members "pink_pc_price"
      let pinkPs4Price ← decodePrice members "pink_ps4_price"
      let pinkSwitchPrice ← decodePrice members "pink_switch_price"
      let pinkXboxPrice ← decodePrice members "pink_xbox_price"
      let cobaltPcPrice ← decodePrice members "cobalt_pc_price"
      let cobaltPs4Price ← decodePrice members "cobalt_ps4_price"
      let cobaltSwitchPrice ← decodePrice members "cobalt_switch_price"
      let cobaltXboxPrice ← decodePrice members "cobalt_xbox_price"
      let skyBluePcPrice ← decodePrice members "skyBlue_pc_price"
      let skyBluePs4Price ← decodePrice members "skyBlue_ps4_price"
      let skyBlueSwitchPrice ← decodePrice members "skyBlue_switch_price"
      let skyBlueXboxPrice ← decodePrice members "skyBlue_xbox_price"
      let burntSiennaPcPrice ← decodePrice members "burntSienna_pc_price"
      let burntSiennaPs4Price ← decodePrice members "burntSienna_ps4_price"
      let burntSiennaSwitchPrice ← decodePrice members "burntSienna_switch_price"
      let burntSiennaXboxPrice ← decodePrice members "burntSienna_xbox_price"
      let saffronPcPrice ← decodePrice members "saffron_pc_price"
      let saffronPs4Price ← decodePrice members "saffron_ps4_price"
      let saffronSwitchPrice ← decodePrice members "saffron_switch_price"
      let saffronXboxPrice ← decodePrice members "saffron_xbox_price"
      let limePcPrice ← decodePrice members "lime_pc_price"
      let limePs4Price ← decodePrice members "lime_ps4_price"
      let limeSwitchPrice ← decodePrice members "lime_switch_price"
      let limeXboxPrice ← decodePrice members "lime_xbox_price"
      let forestGreenPcPrice ← decodePrice members "forestGreen_pc_price"
      let forestGreenPs4Price ← decodePrice members "forestGreen_ps4_price"
      let forestGreenSwitchPrice ← decodePrice members "forestGreen_switch_price"
      let forestGreenXboxPrice ← decodePrice members "forestGreen_xbox_price"
      let orangePcPrice ← decodePrice members "orange_pc_price"
      let orangePs4Price ← decodePrice members "orange_ps4_price"
      let orangeSwitchPrice ← decodePrice members "orange_switch_price"
      let orangeXboxPrice ← decodePrice members "orange_xbox_price"
      let purplePcPrice ← decodePrice members "purple_pc_price"
      let purplePs4Price ← decodePrice members "purple_ps4_price"
      let purpleSwitchPrice ← decodePrice members "purple_switch_price"
      let purpleXboxPrice ← decodePrice members "purple_xbox_price"
      some {
        pcPrice, ps4Price, switchPrice, xboxPrice,
        blackPcPrice, blackPs4Price, blackSwitchPrice, blackXboxPrice,
        whitePcPrice, whitePs4Price, whiteSwitchPrice, whiteXboxPrice,
        greyPcPrice, greyPs4Price, greySwitchPrice, greyXboxPrice,
        crimsonPcPrice, crimsonPs4Price, crimsonSwitchPrice, crimsonXboxPrice,
        pinkPcPrice, pinkPs4Price, pinkSwitchPrice, pinkXboxPrice,
        cobaltPcPrice, cobaltPs4Price, cobaltSwitchPrice, cobaltXboxPrice,
        skyBluePcPrice, skyBluePs4Price, skyBlueSwitchPrice, skyBlueXboxPrice,
        burntSiennaPcPrice, burntSiennaPs4Price, burntSiennaSwitchPrice, burntSiennaXboxPrice,
        saffronPcPrice, saffronPs4Price, saffronSwitchPrice, saffronXboxPrice,
        limePcPrice, limePs4Price, limeSwitchPrice, limeXboxPrice,
        forestGreenPcPrice, forestGreenPs4Price, forestGreenSwitchPrice, forestGreenXboxPrice,
        orangePcPrice, orangePs4Price, orangeSwitchPrice, orangeXboxPrice,
        purplePcPrice, purplePs4Price, purpleSwitchPrice, purpleXboxPrice }
  | _ => none

def decodeItem : Json → Option DecodingItem
  | .object members => do
      let itemName ← decodeString (← members.lookup "itemName")
      let itemPriceRange ← decodePrices (← members.lookup "itemPriceRange")
      let itemUrlName ← decodeString (← members.lookup "itemUrlName")
      some { itemName, itemPriceRange, itemUrlName }
  | _ => none

def decodeItems : Json → Option DecodingItems
  | .object members => do
      match ← members.lookup "items" with
      | .array elements => do
          let items ← elements.mapM decodeItem
          some { items }
      | _ => none
  | _ => none

/-- `JSONDecoder().decode(decodingitems.self, from: data)`; `none` is a thrown error. -/
def decode (text : List Char) : Option DecodingItems := do decodeItems (← readDocument text)

def platformPrice (text : SwiftText) (onPlatform : String)
    (pc ps4 switch xbox : Option (List Int)) : Option (List Int) :=
  if text.uppercased onPlatform = "PC" then pc
  else if text.uppercased onPlatform = "PS4" then ps4
  else if text.uppercased onPlatform = "SWITCH" then switch
  else if text.uppercased onPlatform = "XBOX" then xbox
  else none

def DecodingItem.getColourPrice (text : SwiftText) (item : DecodingItem)
    (colour onPlatform : String) : Option (List Int) :=
  let range := item.itemPriceRange
  if text.uppercased colour = "DEFAULT" then
    platformPrice text onPlatform range.pcPrice range.ps4Price range.switchPrice range.xboxPrice
  else if text.uppercased colour = "BLACK" then
    platformPrice text onPlatform range.blackPcPrice range.blackPs4Price
      range.blackSwitchPrice range.blackXboxPrice
  else if text.uppercased colour = "TITANIUM WHITE" then
    platformPrice text onPlatform range.whitePcPrice range.whitePs4Price
      range.whiteSwitchPrice range.whiteXboxPrice
  else if text.uppercased colour = "GREY" then
    platformPrice text onPlatform range.greyPcPrice range.greyPs4Price
      range.greySwitchPrice range.greyXboxPrice
  else if text.uppercased colour = "CRIMSON" then
    platformPrice text onPlatform range.crimsonPcPrice range.crimsonPs4Price
      range.crimsonSwitchPrice range.crimsonXboxPrice
  else if text.uppercased colour = "PINK" then
    platformPrice text onPlatform range.pinkPcPrice range.pinkPs4Price
      range.pinkSwitchPrice range.pinkXboxPrice
  else if text.uppercased colour = "COBALT" then
    platformPrice text onPlatform range.cobaltPcPrice range.cobaltPs4Price
      range.cobaltSwitchPrice range.cobaltXboxPrice
  else if text.uppercased colour = "SKY BLUE" then
    platformPrice text onPlatform range.skyBluePcPrice range.skyBluePs4Price
      range.skyBlueSwitchPrice range.skyBlueXboxPrice
  else if text.uppercased colour = "BURNT SIENNA" then
    platformPrice text onPlatform range.burntSiennaPcPrice range.burntSiennaPs4Price
      range.burntSiennaSwitchPrice range.burntSiennaXboxPrice
  else if text.uppercased colour = "SAFFRON" then
    platformPrice text onPlatform range.saffronPcPrice range.saffronPs4Price
      range.saffronSwitchPrice range.saffronXboxPrice
  else if text.uppercased colour = "LIME" then
    platformPrice text onPlatform range.limePcPrice range.limePs4Price
      range.limeSwitchPrice range.limeXboxPrice
  else if text.uppercased colour = "FOREST GREEN" then
    platformPrice text onPlatform range.forestGreenPcPrice range.forestGreenPs4Price
      range.forestGreenSwitchPrice range.forestGreenXboxPrice
  else if text.uppercased colour = "ORANGE" then
    platformPrice text onPlatform range.orangePcPrice range.orangePs4Price
      range.orangeSwitchPrice range.orangeXboxPrice
  else if text.uppercased colour = "PURPLE" then
    platformPrice text onPlatform range.purplePcPrice range.purplePs4Price
      range.purpleSwitchPrice range.purpleXboxPrice
  else none

/-- The lookup depends on the spellings only up to case. -/
theorem get_colour_price_uppercased (text : SwiftText) (item : DecodingItem)
    (colour onPlatform : String) :
    item.getColourPrice text (text.uppercased colour) (text.uppercased onPlatform) =
      item.getColourPrice text colour onPlatform := by
  simp only [DecodingItem.getColourPrice, platformPrice, text.uppercased_uppercased]

theorem platform_price_are {each : List Int → Prop} (text : SwiftText) (onPlatform : String)
    {pc ps4 switch xbox : Option (List Int)} (ofPc : ∀ price ∈ pc, each price)
    (ofPs4 : ∀ price ∈ ps4, each price) (ofSwitch : ∀ price ∈ switch, each price)
    (ofXbox : ∀ price ∈ xbox, each price) :
    ∀ price ∈ platformPrice text onPlatform pc ps4 switch xbox, each price := by
  unfold platformPrice
  split_ifs
  · exact ofPc
  · exact ofPs4
  · exact ofSwitch
  · exact ofXbox
  · exact nofun

/-- The 56 prices, four for each colour, in the order in which `getColourPrice` looks. -/
def Prices.byColour (prices : Prices) : List (List (Option (List Int))) :=
  [ [prices.pcPrice, prices.ps4Price, prices.switchPrice, prices.xboxPrice],
    [prices.blackPcPrice, prices.blackPs4Price, prices.blackSwitchPrice, prices.blackXboxPrice],
    [prices.whitePcPrice, prices.whitePs4Price, prices.whiteSwitchPrice, prices.whiteXboxPrice],
    [prices.greyPcPrice, prices.greyPs4Price, prices.greySwitchPrice, prices.greyXboxPrice],
    [prices.crimsonPcPrice, prices.crimsonPs4Price,
      prices.crimsonSwitchPrice, prices.crimsonXboxPrice],
    [prices.pinkPcPrice, prices.pinkPs4Price, prices.pinkSwitchPrice, prices.pinkXboxPrice],
    [prices.cobaltPcPrice, prices.cobaltPs4Price, prices.cobaltSwitchPrice, prices.cobaltXboxPrice],
    [prices.skyBluePcPrice, prices.skyBluePs4Price,
      prices.skyBlueSwitchPrice, prices.skyBlueXboxPrice],
    [prices.burntSiennaPcPrice, prices.burntSiennaPs4Price,
      prices.burntSiennaSwitchPrice, prices.burntSiennaXboxPrice],
    [prices.saffronPcPrice, prices.saffronPs4Price,
      prices.saffronSwitchPrice, prices.saffronXboxPrice],
    [prices.limePcPrice, prices.limePs4Price, prices.limeSwitchPrice, prices.limeXboxPrice],
    [prices.forestGreenPcPrice, prices.forestGreenPs4Price,
      prices.forestGreenSwitchPrice, prices.forestGreenXboxPrice],
    [prices.orangePcPrice, prices.orangePs4Price, prices.orangeSwitchPrice, prices.orangeXboxPrice],
    [prices.purplePcPrice, prices.purplePs4Price, prices.purpleSwitchPrice,
      prices.purpleXboxPrice] ]

theorem by_colour_injective : Function.Injective Prices.byColour := by
  intro first second same
  cases first
  cases second
  simp only [Prices.byColour, List.cons.injEq, and_true] at same
  simp only [Prices.mk.injEq]
  simp only [same, and_self]

instance : DecidableEq Prices := fun first second =>
  decidable_of_iff (first.byColour = second.byColour) by_colour_injective.eq_iff

theorem decoding_item_eq_iff (first second : DecodingItem) :
    (first.itemName = second.itemName ∧ first.itemPriceRange = second.itemPriceRange ∧
      first.itemUrlName = second.itemUrlName) ↔ first = second := by
  cases first
  cases second
  simp only [DecodingItem.mk.injEq]

instance : DecidableEq DecodingItem := fun first second =>
  decidable_of_iff _ (decoding_item_eq_iff first second)

def PricesAre (each : List Int → Prop) (prices : Prices) : Prop :=
  ∀ colour ∈ prices.byColour, ∀ field ∈ colour, ∀ price ∈ field, each price

instance (each : List Int → Prop) [DecidablePred each] (prices : Prices) :
    Decidable (PricesAre each prices) := inferInstanceAs (Decidable (∀ _ ∈ _, ∀ _ ∈ _, ∀ _ ∈ _, _))

theorem prices_are_of_attributes {each : List Int → Prop}
    {attributeNamed : String → Option (List Int)}
    (named : ∀ key, ∀ price ∈ attributeNamed key, each price) :
    PricesAre each (ofAttributes attributeNamed) := by
  simp only [PricesAre, Prices.byColour, List.forall_mem_cons]
  iterate 14
    refine ⟨⟨named _, named _, named _, named _, nofun⟩, ?_⟩
  exact nofun

/-- A price that is found is one of the 56. -/
theorem get_colour_price_are {each : List Int → Prop} {text : SwiftText} {item : DecodingItem}
    {colour onPlatform : String} {price : List Int} (are : PricesAre each item.itemPriceRange)
    (found : item.getColourPrice text colour onPlatform = some price) : each price := by
  have property : ∀ price ∈ item.getColourPrice text colour onPlatform, each price := by
    simp only [PricesAre, Prices.byColour, List.forall_mem_cons] at are
    unfold DecodingItem.getColourPrice
    iterate 14
      obtain ⟨⟨ofPc, ofPs4, ofSwitch, ofXbox, -⟩, are⟩ := are
      refine iteInduction (motive := fun found => ∀ price ∈ found, each price)
        (fun _ => platform_price_are text onPlatform ofPc ofPs4 ofSwitch ofXbox) fun _ => ?_
    exact nofun
  exact property price found

end RlInvestments.CatalogueItems
