import RlInvestments.StoredDefaults
import RlInvestments.UriText

/-!
# The price chart

`viewDidLoad` of `rlInsiderChart.swift` looks for the colour of the record in a list of
its own, builds the address of the chart from the record, and unwraps the `URL` of it.
Of the url name, which is a name of the catalogue, only the spaces are replaced.
-/

namespace RlInvestments.PriceChart

open RlInvestments.CatalogueItems RlInvestments.GuardedRuns RlInvestments.InvestmentStore
open RlInvestments.OverviewRows RlInvestments.AppMemory RlInvestments.OverviewHandlers
open RlInvestments.FormSheet RlInvestments.AppRuns RlInvestments.HandlerRules
open RlInvestments.StoredDefaults RlInvestments.UriText

set_option autoImplicit false

def asciiLowercase (text : String) : String := String.ofList (text.toList.map Char.toLower)

structure WebFoundation where
  lowercased : String → String
  /-- Whether `URL(string:)` has a value. -/
  readsUrl : String → Bool
  lowercased_ascii : ∀ text : String,
    (text.toList.all fun c => decide (c.toNat < 128)) = true → lowercased text = asciiLowercase text
  /-- A character that no address may have. -/
  forbidden_character : ∀ text : String,
    (∃ letter ∈ text.toList, isUriChar letter = false) → readsUrl text = false
  reads_https : ∀ text, HttpsUri text → readsUrl text = true

def asciiWeb : WebFoundation where
  lowercased := asciiLowercase
  readsUrl text := text.toList.all isUriChar
  lowercased_ascii _ _ := rfl
  forbidden_character text := by
    rintro ⟨letter, member, forbidden⟩
    exact List.all_eq_false.mpr ⟨letter, member, by rw [forbidden]; decide⟩
  reads_https _ := https_uri_chars

def colours : List String :=
  ["Default", "Black", "Titanium White", "Grey", "Crimson", "Pink", "Cobalt", "Sky Blue",
    "Burnt Sienna", "Saffron", "Lime", "Forest Green", "Orange", "Purple"]

def insiderColours : List String :=
  ["", "black", "white", "grey", "crimson", "pink", "cobalt", "sblue", "sienna", "saffron",
    "lime", "fgreen", "orange", "purple"]

/-- `replacingOccurrences(of: " ", with: "_")`. -/
def itemURLName (itemUrlName : String) : String :=
  String.ofList (itemUrlName.toList.map fun letter => if letter = ' ' then '_' else letter)

/-- The platform as it stands in the address. -/
def platformPath (text : SwiftText) (web : WebFoundation) (platform : String) : String :=
  if text.uppercased platform ≠ "PS4" then web.lowercased (text.uppercased platform) else "psn"

def insiderSite : String := "https://rl.insider.gg/en/"

def chartAddress (platform name colour : String) : String :=
  insiderSite ++ platform ++ "/" ++ name ++ "/" ++ colour

variable {Data : Type} (foundation : Foundation Data) (web : WebFoundation)

/-- The address that is loaded. The loop over the colours ends at the first position of the
record's colour, or past the last one. -/
def chartDidLoad (s : AppState Data) : Except Fault String :=
  match s.investments[s.cellTag]? with
  | none => .error .indexOutOfRange
  | some investment =>
      match insiderColours[colours.idxOf investment.colour]? with
      | none => .error .indexOutOfRange
      | some insiderColour =>
          let urlString := chartAddress (platformPath foundation.text web investment.platform)
            (itemURLName investment.item.itemUrlName) insiderColour
          if web.readsUrl urlString then .ok urlString else .error .unwrapNil

/-- Once its spaces are replaced, the name is text that may stand behind the host of an
address: of the allowed characters, with whole escapes and at most one number sign. -/
def AllowedUrlName (itemUrlName : String) : Prop :=
  uriRest 0 true (itemURLName itemUrlName).toList = true

instance (itemUrlName : String) : Decidable (AllowedUrlName itemUrlName) :=
  inferInstanceAs (Decidable (_ = true))

theorem chart_address_letters (platform name colour : String) :
    (chartAddress platform name colour).toList =
      insiderSite.toList ++ platform.toList ++ "/".toList ++ name.toList ++ "/".toList ++
        colour.toList := by
  simp only [chartAddress, String.toList_append]

theorem chart_address_https {platform name colour : String}
    (platformPlain : platform.toList.all isPlain = true)
    (colourPlain : colour.toList.all isPlain = true) (scanned : uriRest 0 true name.toList = true) :
    HttpsUri (chartAddress platform name colour) := by
  have site : insiderSite = "https://" ++ "rl.insider.gg" ++ "/" ++ "en/" := by decide
  have host : "rl.insider.gg".toList.all (fun letter => isUnreserved letter || isSubDelim letter) =
      true := by decide
  refine ⟨"rl.insider.gg", "en/" ++ platform ++ "/" ++ name ++ "/" ++ colour, ?_, by decide,
    List.all_eq_true.mp host, ?_⟩
  · rw [chartAddress, site]
    simp only [String.append_assoc]
  · have front : ("en/".toList ++ platform.toList ++ "/".toList).all isPlain = true := by
      simp only [List.all_append, platformPlain]
      decide
    have shape : ("en/" ++ platform ++ "/" ++ name ++ "/" ++ colour).toList =
        ("en/".toList ++ platform.toList ++ "/".toList) ++
          (name.toList ++ '/' :: colour.toList) := by
      simp only [String.toList_append, List.append_assoc]
      rfl
    have ends := uri_rest_plain colourPlain (true && !name.toList.contains '#') []
    rw [List.append_nil] at ends
    rw [shape, uri_rest_plain front, uri_rest_slash, scanned, ends]
    rfl

def platformSpellings : List String := ["PC", "PS4", "Switch", "Xbox", "SWITCH", "XBOX"]

theorem platform_path_plain (text : SwiftText) {platform : String}
    (spelt : platform ∈ platformSpellings) :
    (platformPath text web platform).toList.all isPlain = true := by
  have ascii : ∀ platform ∈ platformSpellings,
      (platform.toList.all fun c => decide (c.toNat < 128)) = true ∧
      ((asciiUppercase platform).toList.all fun c => decide (c.toNat < 128)) = true ∧
      (asciiLowercase (asciiUppercase platform)).toList.all isPlain = true := by decide
  have ⟨asciiPlatform, asciiUpper, plain⟩ := ascii platform spelt
  rw [platformPath, text.uppercased_ascii platform asciiPlatform]
  by_cases ps4 : asciiUppercase platform = "PS4"
  · rw [if_neg (not_not_intro ps4)]
    decide
  · rw [if_pos ps4, web.lowercased_ascii _ asciiUpper]
    exact plain

structure Charted (named : String → Prop) (record : InvestmentItem) : Prop where
  colour : record.colour ∈ pickerColours
  platform : record.platform ∈ platformSpellings
  urlName : named record.item.itemUrlName

theorem insider_colour_plain {record : InvestmentItem} {named : String → Prop}
    (charted : Charted named record) :
    ∃ insiderColour, insiderColours[colours.idxOf record.colour]? = some insiderColour ∧
      insiderColour.toList.all isPlain = true := by
  have plain : ∀ colour ∈ pickerColours, ∃ insiderColour ∈ insiderColours,
      insiderColours[colours.idxOf colour]? = some insiderColour ∧
        insiderColour.toList.all isPlain = true := by decide
  obtain ⟨insiderColour, -, found⟩ := plain record.colour charted.colour
  exact ⟨insiderColour, found⟩

variable {foundation web}

theorem chart_loads {s : AppState Data} {record : InvestmentItem}
    (there : s.investments[s.cellTag]? = some record) (charted : Charted AllowedUrlName record) :
    ∃ urlString, chartDidLoad foundation web s = .ok urlString := by
  obtain ⟨insiderColour, found, plain⟩ := insider_colour_plain charted
  have address := chart_address_https (platform_path_plain web foundation.text charted.platform)
    plain charted.urlName
  refine ⟨chartAddress (platformPath foundation.text web record.platform)
    (itemURLName record.item.itemUrlName) insiderColour, ?_⟩
  simp only [chartDidLoad, there, found]
  exact if_pos (web.reads_https _ address)

theorem chart_traps {s : AppState Data} {record : InvestmentItem} {named : String → Prop}
    (there : s.investments[s.cellTag]? = some record) (charted : Charted named record)
    {letter : Char} (member : letter ∈ record.item.itemUrlName.toList) (notSpace : letter ≠ ' ')
    (forbidden : isUriChar letter = false) :
    chartDidLoad foundation web s = .error .unwrapNil := by
  obtain ⟨insiderColour, found, -⟩ := insider_colour_plain charted
  simp only [chartDidLoad, there, found]
  refine if_neg ?_
  rw [web.forbidden_character _ ⟨letter, ?_, forbidden⟩]
  · exact Bool.false_ne_true
  · have kept : letter ∈ (itemURLName record.item.itemUrlName).toList := by
      rw [itemURLName, String.toList_ofList]
      exact List.mem_map.mpr ⟨letter, member, if_neg notSpace⟩
    simp only [chart_address_letters, List.mem_append]
    exact .inl (.inl (.inr kept))

end RlInvestments.PriceChart
