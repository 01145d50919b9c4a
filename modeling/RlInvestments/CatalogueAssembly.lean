import RlInvestments.JsonText
import RlInvestments.ScrapedTables

/-!
# Merging the platforms and writing the catalogue document

The second half of both scrapers: one `price` object of 56 attributes for every
scraped item, then the document that is put together by hand around the
`json.dumps` texts. The scrapers differ in a missing dictionary entry, which the
Azure function replaces by `None` prices and the local script does not catch, and
in the blanks of the document header.
-/

namespace RlInvestments.CatalogueAssembly

open RlInvestments.JsonText RlInvestments.PriceCellParser RlInvestments.ScrapedTables

set_option autoImplicit false

/-- `price.__dict__`: the attributes in the order in which they are assigned. -/
abbrev Price := List (String × Option PricePair)

def newPrice (pc ps4 xbox switch : Prices) : Price :=
  [("pc_price", pc.white),
    ("ps4_price", ps4.default),
    ("switch_price", switch.default),
    ("xbox_price", xbox.default),
    ("black_pc_price", pc.black),
    ("black_ps4_price", ps4.black),
    ("black_switch_price", switch.black),
    ("black_xbox_price", xbox.black),
    ("white_pc_price", pc.white),
    ("white_ps4_price", ps4.white),
    ("white_switch_price", switch.white),
    ("white_xbox_price", xbox.white),
    ("grey_pc_price", pc.grey),
    ("grey_ps4_price", ps4.grey),
    ("grey_switch_price", switch.grey),
    ("grey_xbox_price", xbox.grey),
    ("crimson_pc_price", pc.crimson),
    ("crimson_ps4_price", ps4.crimson),
    ("crimson_switch_price", switch.crimson),
    ("crimson_xbox_price", xbox.crimson),
    ("pink_pc_price", pc.pink),
    ("pink_ps4_price", ps4.pink),
    ("pink_switch_price", switch.pink),
    ("pink_xbox_price", xbox.pink),
    ("cobalt_pc_price", pc.cobalt),
    ("cobalt_ps4_price", ps4.cobalt),
    ("cobalt_switch_price", switch.cobalt),
    ("cobalt_xbox_price", xbox.cobalt),
    ("skyBlue_pc_price", pc.skyBlue),
    ("skyBlue_ps4_price", ps4.skyBlue),
    ("skyBlue_switch_price", switch.skyBlue),
    ("skyBlue_xbox_price", xbox.skyBlue),
    ("burntSienna_pc_price", pc.burntSienna),
    ("burntSienna_ps4_price", ps4.burntSienna),
    ("burntSienna_switch_price", switch.burntSienna),
    ("burntSienna_xbox_price", xbox.burntSienna),
    ("saffron_pc_price", pc.saffron),
    ("saffron_ps4_price", ps4.saffron),
    ("saffron_switch_price", switch.saffron),
    ("saffron_xbox_price", xbox.saffron),
    ("lime_pc_price", pc.lime),
    ("lime_ps4_price", ps4.lime),
    ("lime_switch_price", switch.lime),
    ("lime_xbox_price", xbox.lime),
    ("forestGreen_pc_price", pc.forestGreen),
    ("forestGreen_ps4_price", ps4.forestGreen),
    ("forestGreen_switch_price", switch.forestGreen),
    ("forestGreen_xbox_price", xbox.forestGreen),
    ("orange_pc_price", pc.orange),
    ("orange_ps4_price", ps4.orange),
    ("orange_switch_price", switch.orange),
    ("orange_xbox_price", xbox.orange),
    ("purple_pc_price", pc.purple),
    ("purple_ps4_price", ps4.purple),
    ("purple_switch_price", switch.purple),
    ("purple_xbox_price", xbox.purple)]

structure Item where
  itemName : String
  itemPriceRange : Price
  itemUrlName : String

def priceJson : Option PricePair → Json
  | none => .null
  | some (lower, upper) => .array [.number (.ofInt lower), .number (.ofInt upper)]

def Item.toJson (item : Item) : Json :=
  .object [("itemName", .string item.itemName),
    ("itemPriceRange", .object (item.itemPriceRange.map fun entry => (entry.1, priceJson entry.2))),
    ("itemUrlName", .string item.itemUrlName)]

/-- The document built by appending each dumped item and a comma to the header,
dropping the last character and closing both brackets. -/
def jsonString (header : List Char) (oldItems : List Item) : List Char :=
  (oldItems.foldl (fun text item => text ++ dumps item.toJson ++ [',']) header).dropLast ++
    [']', '}']

/-- What every published document is meant to denote. -/
def catalogueJson (oldItems : List Item) : Json :=
  .object [("items", .array (oldItems.map Item.toJson))]

namespace Azure

def header : List Char :=
  "\n                    \x7b\"items\" : [ \n                    ".toList

/-- A missing dictionary entry leaves the `prices(None, ...)` set before the `try`. -/
def oldItem (scraped : Scraped) (i : ItemData) : Item :=
  let pc := (scraped.pcItems.lookup i.itemID).getD .none
  let ps4 := (scraped.ps4Items.lookup i.itemID).getD .none
  let xbox := (scraped.xboxItems.lookup i.itemID).getD .none
  let switch := (scraped.switchItems.lookup i.itemID).getD .none
  ⟨i.itemName, newPrice pc ps4 xbox switch, i.itemName⟩

def oldItems (scraped : Scraped) : List Item := scraped.items.map (oldItem scraped)

def main (tables : PlatformTables) : Except PyError (List Char) := do
  let scraped ← ScrapedTables.Azure.scrape tables
  .ok (jsonString header (oldItems scraped))

end Azure

namespace JsScrapper

def header : List Char :=
  "\n                \x7b\"items\" : [ \n                 ".toList

def oldItem (scraped : Scraped) (i : ItemData) : Except PyError Item :=
  match scraped.pcItems.lookup i.itemID, scraped.ps4Items.lookup i.itemID,
    scraped.xboxItems.lookup i.itemID, scraped.switchItems.lookup i.itemID with
  | some pc, some ps4, some xbox, some switch =>
      .ok ⟨i.itemName, newPrice pc ps4 xbox switch, i.itemName⟩
  | _, _, _, _ => .error .keyError

def oldItems (scraped : Scraped) : Except PyError (List Item) :=
  scraped.items.mapM (oldItem scraped)

def main (tables : PlatformTables) : Except PyError (List Char) := do
  let scraped ← ScrapedTables.JsScrapper.scrape tables
  let items ← oldItems scraped
  .ok (jsonString header items)

end JsScrapper

/-- Blanks, the opening of the `items` array, and at least one more blank for the
final slice to remove when there are no items. -/
def IsHeader (header : List Char) : Prop :=
  ∃ lead gap, lead.all isBlank = true ∧ gap.all isBlank = true ∧ gap ≠ [] ∧
    header = lead ++ '{' :: (stringText "items" ++ ([' '] ++ ':' :: ([' '] ++ '[' :: gap)))

theorem azure_header_shape : IsHeader Azure.header :=
  ⟨"\n                    ".toList, " \n                    ".toList, by decide, by decide,
    by decide, by decide⟩

theorem js_header_shape : IsHeader JsScrapper.header :=
  ⟨"\n                ".toList, " \n                 ".toList, by decide, by decide,
    by decide, by decide⟩

theorem fold_texts (header : List Char) (oldItems : List Item) :
    oldItems.foldl (fun text item => text ++ dumps item.toJson ++ [',']) header =
      header ++ oldItems.flatMap fun item => dumps item.toJson ++ [','] := by
  induction oldItems generalizing header with
  | nil => simp
  | cons item items induction => rw [List.foldl_cons, induction]; simp

theorem commas_move_left (item : Item) (items : List Item) :
    ((item :: items).flatMap fun item => dumps item.toJson ++ [',']) =
      dumps item.toJson ++ (items.flatMap (fun item => ',' :: dumps item.toJson) ++ [',']) := by
  induction items generalizing item with
  | nil => simp
  | cons next items induction =>
      rw [List.flatMap_cons, induction next]
      simp

/-- The slice removes the last comma, or a blank of the header when there is no item. -/
theorem json_string_cons (header : List Char) (item : Item) (items : List Item) :
    jsonString header (item :: items) =
      header ++ (dumps item.toJson ++
        (items.flatMap (fun item => ',' :: dumps item.toJson) ++ [']', '}'])) := by
  rw [jsonString, fold_texts, commas_move_left, ← List.append_assoc, ← List.append_assoc,
    List.dropLast_concat]
  simp

theorem items_array_reads (gap : List Char) (blank : gap.all isBlank = true) (item : Item)
    (items : List Item) (fuel : Nat)
    (enough : ∀ other ∈ item :: items, depth other.toJson ≤ fuel) :
    Reads (readValue (fuel + 1))
      ('[' :: (gap ++ (dumps item.toJson ++
        (items.flatMap (fun item => ',' :: dumps item.toJson) ++ [']']))))
      (.array ((item :: items).map Item.toJson)) := by
  have array := read_value_array fuel gap [] blank rfl (dumps item.toJson, item.toJson)
    (items.map fun item => (dumps item.toJson, item.toJson))
    (by
      intro piece member
      rw [← List.map_cons (f := fun item : Item => (dumps item.toJson, item.toJson))] at member
      obtain ⟨other, present, rfl⟩ := List.mem_map.mp member
      exact dumps_reads other.toJson fuel (enough other present))
  simpa only [List.nil_append, List.map_map, Function.comp_def, List.map_cons,
    List.flatMap_map] using array

/-- Around a text that reads as `value`, a key and the outer braces read as the
object with that one member. -/
theorem document_reads (lead text : List Char) (leadBlank : lead.all isBlank = true)
    (key : String) (value : Json)
    (reads : ∀ fuel, text.length ≤ fuel → Reads (readValue fuel) text value) :
    readDocument (lead ++ '{' :: (stringText key ++ ([' '] ++ ':' :: ([' '] ++ text)) ++
      ['}'])) = some (.object [(key, value)]) := by
  obtain ⟨body, bodyEq⟩ : ∃ body, body =
      '{' :: (stringText key ++ ([' '] ++ ':' :: ([' '] ++ text)) ++ ['}']) := ⟨_, rfl⟩
  have enough : text.length ≤ (lead ++ body).length := by
    simp only [bodyEq, List.length_append, List.length_cons]
    omega
  have member := read_member_text (value_reader (lead ++ body).length) key [' '] [' '] text
    value rfl rfl (reads _ enough)
  have object := read_value_object (lead ++ body).length [] [] rfl rfl
    (stringText key ++ ([' '] ++ ':' :: ([' '] ++ text)), (key, value)) []
    (fun item only => List.mem_singleton.mp only ▸ member) [] delimited_nil
  rw [List.append_nil, List.nil_append, List.flatMap_nil, List.nil_append, ← bodyEq] at object
  have whole : readValue ((lead ++ body).length + 1) (lead ++ body) =
      some (.object [(key, value)], []) := by
    rw [(value_reader _).skip_gap lead body leadBlank]
    exact object
  rw [← bodyEq, readDocument, whole]
  rfl

/-- Whatever was scraped, the text denotes exactly the scraped items. -/
theorem read_json_string (header : List Char) (shape : IsHeader header) (oldItems : List Item) :
    readDocument (jsonString header oldItems) = some (catalogueJson oldItems) := by
  obtain ⟨lead, gap, leadBlank, gapBlank, nonempty, rfl⟩ := shape
  cases oldItems with
  | nil =>
      have shorter : gap.dropLast.all isBlank = true := by
        rw [List.all_eq_true] at gapBlank ⊢
        exact fun c member => gapBlank c (List.mem_of_mem_dropLast member)
      have array : ∀ fuel, ('[' :: (gap.dropLast ++ [']'])).length ≤ fuel →
          Reads (readValue fuel) ('[' :: (gap.dropLast ++ [']'])) (.array []) := by
        intro fuel enough
        obtain ⟨fuel, rfl⟩ : ∃ n, fuel = n + 1 := ⟨fuel - 1, by simp at enough; omega⟩
        exact read_value_array_empty fuel gap.dropLast shorter
      have read := document_reads lead _ leadBlank "items" _ array
      have cut : (lead ++ '{' :: (stringText "items" ++ ([' '] ++ ':' :: ([' '] ++
          '[' :: gap)))).dropLast = lead ++ '{' :: (stringText "items" ++ ([' '] ++ ':' ::
            ([' '] ++ '[' :: gap.dropLast))) := by
        simp [List.dropLast_append_of_ne_nil, nonempty, List.dropLast_cons_of_ne_nil]
      rw [catalogueJson, List.map_nil, ← read, jsonString, List.foldl_nil, cut]
      simp only [List.append_assoc, List.cons_append, List.nil_append]
  | cons item items =>
      have array : ∀ fuel, ('[' :: (gap ++ (dumps item.toJson ++
          (items.flatMap (fun item => ',' :: dumps item.toJson) ++ [']'])))).length ≤ fuel →
          Reads (readValue fuel) ('[' :: (gap ++ (dumps item.toJson ++
            (items.flatMap (fun item => ',' :: dumps item.toJson) ++ [']']))))
            (.array ((item :: items).map Item.toJson)) := by
        intro fuel enough
        obtain ⟨fuel, rfl⟩ : ∃ n, fuel = n + 1 := ⟨fuel - 1, by simp at enough; omega⟩
        refine items_array_reads gap gapBlank item items fuel ?_
        intro other member
        have deep := depth_le_length other.toJson
        have part : (dumps other.toJson).length ≤ (dumps item.toJson).length +
            (items.flatMap fun item => ',' :: dumps item.toJson).length := by
          rcases List.mem_cons.mp member with rfl | later
          · omega
          · have inside := (List.sublist_flatten_of_mem (List.mem_map_of_mem
              (f := fun item : Item => ',' :: dumps item.toJson) later)).length_le
            rw [← List.flatMap_def, List.length_cons] at inside
            omega
        simp only [List.length_cons, List.length_append] at enough
        omega
      have read := document_reads lead _ leadBlank "items" _ array
      rw [catalogueJson, ← read, json_string_cons]
      simp only [List.append_assoc, List.cons_append, List.nil_append]

end RlInvestments.CatalogueAssembly
