import RlInvestments.PlatformScan

/-!
# What the parser makes of a page

The format of a price cell: a text that leads to the word data, the object of prices
under a key that ends in k, the history object, and whatever follows. The parser finds
out which platforms the object names and takes the pairs of numbers as they come, so
that a platform's result is the pair that stands at its place in the fixed order.
-/

namespace RlInvestments.HoverDataFormat

open RlInvestments.JsonText RlInvestments.PriceCellParser RlInvestments.WhileLoops
open RlInvestments.WordSearch RlInvestments.HoverDataParser RlInvestments.PlatformScan

set_option autoImplicit false

inductive Platform where
  | pc
  | ps4
  | switch
  | xbox
deriving DecidableEq, Repr

def Platform.name : Platform → String
  | .pc => "pc"
  | .ps4 => "ps4"
  | .switch => "switch"
  | .xbox => "xbox"

def platformOrder : List Platform := [.pc, .ps4, .switch, .xbox]

structure Entry where
  platform : Platform
  low : Int
  high : Int
deriving DecidableEq, Repr

def Entry.pair (entry : Entry) : PricePair := (entry.low, entry.high)

def Entry.text (entry : Entry) : List Char :=
  '"' :: (entry.platform.name.toList ++ '"' :: ':' :: '[' ::
    (intText entry.low ++ ',' :: (intText entry.high ++ [']'])))

def remainingText (separator : Char) : List Entry → List Char
  | [] => ['}']
  | entry :: entries => separator :: (entry.text ++ remainingText ',' entries)

def objectText (entries : List Entry) : List Char := remainingText '{' entries

structure Surroundings where
  before : List Char
  between : List Char
  history : List Char
  after : List Char

def historyText (around : Surroundings) : List Char :=
  ',' :: '"' :: 'h' :: '"' :: ':' :: '{' :: (around.history ++ '}' :: around.after)

def pageText (around : Surroundings) (entries : List Entry) : List Char :=
  around.before ++ "data".toList ++ (around.between ++ 'k' :: '"' :: ':' ::
    (objectText entries ++ historyText around))

structure InFormat (around : Surroundings) (entries : List Entry) : Prop where
  nonempty : entries ≠ []
  noData : ¬ "data".toList <:+: around.before
  noK : 'k' ∉ around.between
  noHover : ¬ "noHover".toList <:+: pageText around entries

/-- The cell holds the text, which has no spaces of its own, with spaces anywhere. -/
def SpacedOut (cellText : String) (text : List Char) : Prop :=
  cellText.toList.filter (fun letter => decide (letter ≠ ' ')) = text

theorem int_text_letters (value : Int) :
    ∀ letter ∈ intText value, letter = '-' ∨ letter.isDigit = true := by
  cases value with
  | ofNat magnitude => exact fun letter member => .inr (to_digits_all magnitude letter member)
  | negSucc below =>
      intro letter member
      rcases List.mem_cons.mp member with rfl | digit
      · exact .inl rfl
      · exact .inr (to_digits_all (below + 1) letter digit)

theorem int_text_absent (value : Int) {letter : Char} (minus : letter ≠ '-')
    (digit : letter.isDigit = false) : letter ∉ intText value := by
  intro member
  rcases int_text_letters value letter member with rfl | isDigit
  · exact minus rfl
  · rw [digit] at isDigit
    exact nomatch isDigit

theorem numeral_letter {letter : Char} (allowed : letter = '-' ∨ letter.isDigit = true) :
    45 ≤ letter.toNat ∧ letter.toNat ≤ 57 := by
  rcases allowed with rfl | digit
  · decide
  · have range := Char.isDigit_iff_toNat.mp digit
    exact ⟨le_trans (by decide) range.1, range.2⟩

theorem split_sign_int_text (value : Int) :
    splitSign (intText value) = (decide (value < 0), Nat.toDigits 10 value.natAbs) := by
  cases value with
  | negSucc below => simp [intText, splitSign, Int.negSucc_lt_zero]
  | ofNat magnitude =>
      have absent : ∀ sign : Char, sign.isDigit = false → sign ∉ Nat.toDigits 10 magnitude := by
        intro sign notDigit member
        rw [to_digits_all magnitude sign member] at notDigit
        cases notDigit
      have positive : decide (Int.ofNat magnitude < 0) = false :=
        decide_eq_false (Int.not_lt.mpr (Int.natCast_nonneg magnitude))
      rw [positive]
      exact split_sign_none (absent '-' (by decide)) (absent '+' (by decide))

theorem py_int_text (value : Int) : pyInt (intText value) = some value := by
  have codes := fun letter member => numeral_letter (int_text_letters value letter member)
  have ascii : asciiForm (intText value) = some (intText value) := by
    refine if_pos (List.all_eq_true.mpr fun letter member => decide_eq_true ?_)
    have range := codes letter member
    omega
  have stripped : strip (intText value) = intText value := by
    refine strip_none fun letter member => ?_
    have range := codes letter member
    have notSpace : letter ≠ ' ' := by
      rintro rfl
      exact absurd range (by decide)
    simp only [isAsciiSpace, notSpace, decide_false, Bool.false_or, Bool.and_eq_false_iff,
      decide_eq_false_iff_not]
    omega
  have joined : dropUnderscores '\x00' (intText value) = some (intText value) :=
    drop_underscores_none (by decide) (int_text_absent value (by decide) (by decide))
  have digits : (Nat.toDigits 10 value.natAbs).all Char.isDigit = true :=
    List.all_eq_true.mpr (to_digits_all value.natAbs)
  unfold pyInt
  simp only [ascii, Option.bind_eq_bind, Option.bind_some, stripped, joined, split_sign_int_text,
    if_pos (And.intro Nat.toDigits_ne_nil digits), signed_text]

theorem read_number_text (stop : Char) (value : Int) (rest : List Char) (minus : stop ≠ '-')
    (digit : stop.isDigit = false) :
    HoverDataParser.readNumber stop (intText value ++ stop :: rest) = .ok (value, rest) := by
  rw [HoverDataParser.readNumber, split_until_append (int_text_absent value minus digit)]
  simp only [inRange, Bind.bind, Except.bind, py_int_text]
  rfl

theorem singleton_infix_iff (letter : Char) (list : List Char) :
    [letter] <:+: list ↔ letter ∈ list := by
  constructor
  · exact fun present => present.subset (List.mem_singleton_self letter)
  · intro member
    obtain ⟨before, after, rfl⟩ := List.append_of_mem member
    exact ⟨before, after, by simp⟩

theorem delete_until_letter {letter : Char} {before : List Char} (absent : letter ∉ before)
    (after : List Char) :
    deleteUntil [letter] (before ++ letter :: after) = some (letter :: after) := by
  have unbordered : Unbordered [letter] := by
    intro k below above
    simp only [List.length_singleton] at below
    omega
  have first := first_at_append unbordered (mt (singleton_infix_iff letter before).mp absent) after
  rw [List.append_assoc, List.singleton_append] at first
  rw [delete_until_first first, List.drop_left]

theorem name_letters (platform : Platform) :
    '[' ∉ platform.name.toList ∧ '"' ∉ platform.name.toList ∧ ',' ∉ platform.name.toList ∧
      ']' ∉ platform.name.toList := by
  cases platform <;> decide

theorem read_prices_entry (separator : Char) (entry : Entry) (rest : List Char)
    (separates : separator ≠ '[') :
    readPrices (separator :: (entry.text ++ rest)) = .ok (entry.pair, rest) := by
  have shape : separator :: (entry.text ++ rest) =
      (separator :: '"' :: (entry.platform.name.toList ++ ['"', ':'])) ++ '[' ::
        (intText entry.low ++ ',' :: (intText entry.high ++ ']' :: rest)) := by
    simp [Entry.text]
  have absent : '[' ∉ separator :: '"' :: (entry.platform.name.toList ++ ['"', ':']) := by
    simp only [List.mem_cons, List.mem_append, List.not_mem_nil, or_false, not_or]
    exact ⟨separates.symm, by decide, (name_letters entry.platform).1, by decide, by decide⟩
  rw [shape, readPrices, delete_until_letter absent]
  simp only [inRange, Bind.bind, Except.bind, List.tail_cons]
  rw [read_number_text ',' entry.low _ (by decide) (by decide)]
  dsimp only
  rw [read_number_text ']' entry.high _ (by decide) (by decide)]
  rfl

/-- Each platform that is present takes the next pair. -/
def assignPairs (present : Platform → Bool) : List Platform → List PricePair →
    List (Option PricePair)
  | [], _ => []
  | platform :: platforms, pairs =>
      if present platform then pairs.head? :: assignPairs present platforms pairs.tail
      else none :: assignPairs present platforms pairs

def readEach (platforms : List String) : List Platform → List Char →
    Except PyFault (List (Option PricePair))
  | [], _ => .ok []
  | platform :: order, list => do
      let (prices, list) ← readPlatform platform.name platforms list
      let rest ← readEach platforms order list
      .ok (prices :: rest)

theorem read_platforms_each (platforms : List String) (list : List Char) :
    readPlatforms platforms list = readEach platforms platformOrder list := by
  simp only [readPlatforms, readEach, platformOrder, Platform.name, Bind.bind, Except.bind]
  cases readPlatform "pc" platforms list with
  | error fault => rfl
  | ok first =>
      dsimp only
      cases readPlatform "ps4" platforms first.2 with
      | error fault => rfl
      | ok second =>
          dsimp only
          cases readPlatform "switch" platforms second.2 with
          | error fault => rfl
          | ok third =>
              dsimp only
              cases readPlatform "xbox" platforms third.2 with
              | error fault => rfl
              | ok fourth => rfl

theorem read_each_assigns {platforms : List String} {present : Platform → Bool}
    (detected : ∀ platform : Platform, platform.name ∈ platforms ↔ present platform = true)
    (order : List Platform) (entries : List Entry) (separator : Char) (separates : separator ≠ '[')
    (enough : (order.filter present).length ≤ entries.length) :
    readEach platforms order (remainingText separator entries) =
      .ok (assignPairs present order (entries.map Entry.pair)) := by
  induction order generalizing entries separator with
  | nil => rfl
  | cons platform order induction =>
      cases here : present platform with
      | false =>
          have absent : ¬ platform.name ∈ platforms := by simp [detected, here]
          rw [List.filter_cons_of_neg (by simp [here])] at enough
          simp only [readEach, readPlatform, if_neg absent, Bind.bind, Except.bind, assignPairs,
            here]
          rw [induction entries separator separates enough]
          rfl
      | true =>
          have named : platform.name ∈ platforms := (detected platform).mpr here
          rw [List.filter_cons_of_pos here, List.length_cons] at enough
          cases entries with
          | nil => exact absurd enough (by simp)
          | cons entry entries =>
              rw [List.length_cons] at enough
              simp only [readEach, readPlatform, if_pos named, remainingText, Bind.bind,
                Except.bind, assignPairs, here]
              rw [read_prices_entry separator entry _ separates]
              dsimp only
              rw [induction entries ',' (by decide) (by omega)]
              rfl

theorem name_letter (platform : Platform) :
    ∃ letter ∈ platform.name.toList, letter ≠ '-' ∧ letter.isDigit = false := by
  cases platform with
  | pc => exact ⟨'p', by decide, by decide, by decide⟩
  | ps4 => exact ⟨'p', by decide, by decide, by decide⟩
  | switch => exact ⟨'s', by decide, by decide, by decide⟩
  | xbox => exact ⟨'x', by decide, by decide, by decide⟩

theorem name_not_in_numeral (platform : Platform) (value : Int) :
    ¬ platform.name.toList <:+: intText value := by
  intro present
  obtain ⟨letter, member, minus, digit⟩ := name_letter platform
  exact int_text_absent value minus digit (present.subset member)

theorem name_not_single (platform : Platform) (letter : Char) :
    ¬ platform.name.toList <:+: [letter] := by
  intro present
  have long : 2 ≤ platform.name.toList.length := by cases platform <;> decide
  have short := present.length_le
  rw [List.length_singleton] at short
  omega

theorem name_infix_name (platform other : Platform) :
    platform.name.toList <:+: other.name.toList ↔ other = platform := by
  cases platform <;> cases other <;> decide

theorem name_infix_remaining (platform : Platform) (separator : Char) (entries : List Entry) :
    platform.name.toList <:+: remainingText separator entries ↔
      ∃ entry ∈ entries, entry.platform = platform := by
  induction entries generalizing separator with
  | nil =>
      refine iff_of_false (name_not_single platform '}') ?_
      rintro ⟨entry, member, -⟩
      exact nomatch member
  | cons entry entries induction =>
      obtain ⟨opening, quote, comma, closing⟩ := name_letters platform
      have shape : remainingText separator (entry :: entries) = [separator] ++ '"' ::
          (entry.platform.name.toList ++ '"' :: ([':'] ++ '[' :: (intText entry.low ++ ',' ::
            (intText entry.high ++ ']' :: remainingText ',' entries)))) := by
        simp [remainingText, Entry.text]
      rw [shape, infix_append_cons_iff quote, infix_append_cons_iff quote,
        infix_append_cons_iff opening, infix_append_cons_iff comma, infix_append_cons_iff closing,
        induction, name_infix_name, or_iff_right (name_not_single _ _),
        or_iff_right (name_not_single _ _), or_iff_right (name_not_in_numeral _ _),
        or_iff_right (name_not_in_numeral _ _), List.exists_mem_cons_iff]

/-- Between the braces stand neither a closing brace nor a capital. -/
theorem object_inner (separator : Char) (separates : separator ≠ '}' ∧ separator ≠ 'H')
    (entries : List Entry) :
    ∃ inner, remainingText separator entries = inner ++ ['}'] ∧ '}' ∉ inner ∧ 'H' ∉ inner := by
  induction entries generalizing separator with
  | nil => exact ⟨[], rfl, List.not_mem_nil, List.not_mem_nil⟩
  | cons entry entries induction =>
      obtain ⟨inner, shape, braceFree, capitalFree⟩ := induction ',' (by decide)
      have absent : ∀ letter : Char, letter ∉ entry.platform.name.toList → letter ≠ '-' →
          letter.isDigit = false → letter ∉ ['"', ':', '[', ',', ']'] → letter ∉ entry.text := by
        intro letter name minus digit punctuation
        have low := int_text_absent entry.low minus digit
        have high := int_text_absent entry.high minus digit
        simp only [List.mem_cons, List.not_mem_nil, or_false, not_or] at punctuation
        simp [Entry.text, name, low, high, punctuation]
      have brace : '}' ∉ entry.platform.name.toList := by cases entry.platform <;> decide
      have capital : 'H' ∉ entry.platform.name.toList := by cases entry.platform <;> decide
      refine ⟨separator :: (entry.text ++ inner), by simp [remainingText, shape], ?_, ?_⟩
      · simp only [List.mem_cons, List.mem_append, not_or]
        exact ⟨separates.1.symm, absent '}' brace (by decide) (by decide) (by decide), braceFree⟩
      · simp only [List.mem_cons, List.mem_append, not_or]
        exact ⟨separates.2.symm, absent 'H' capital (by decide) (by decide) (by decide),
          capitalFree⟩

theorem split_until_of_mem {stop : Char} {list : List Char} (member : stop ∈ list) :
    ∃ parts, splitUntil stop list = some parts := by
  induction list with
  | nil => exact nomatch member
  | cons letter list induction =>
      rw [splitUntil]
      split
      · exact ⟨_, rfl⟩
      · rename_i different
        obtain ⟨parts, found⟩ := induction ((List.mem_cons.mp member).resolve_left
          fun same => different same.symm)
        exact ⟨_, by rw [found]; rfl⟩

/-- The scan for the history may stop at an earlier h. There still is a closing brace behind. -/
theorem history_scan (front rest : List Char) (closed : '}' ∈ rest) :
    ∃ list, deleteUntil ['h'] (front ++ 'h' :: '"' :: ':' :: rest) = some list ∧
      3 ≤ list.length ∧ '}' ∈ list.drop 3 := by
  have somewhere : ['h'] <:+: front ++ 'h' :: '"' :: ':' :: rest :=
    (singleton_infix_iff _ _).mpr (by simp)
  obtain ⟨p, first⟩ := first_at_exists somewhere
  have early : p ≤ front.length := by
    by_contra late
    refine first.first front.length (by omega) ?_
    rw [List.drop_left]
    exact ⟨_, rfl⟩
  refine ⟨_, delete_until_first first, ?_, ?_⟩
  · simp only [List.length_drop, List.length_append, List.length_cons]
    omega
  · rw [List.drop_drop]
    have tail : (front ++ 'h' :: '"' :: ':' :: rest).drop (front.length + 3) = rest := by
      simp [List.drop_append]
    have later : rest <:+ (front ++ 'h' :: '"' :: ':' :: rest).drop (p + 3) := by
      have whole := List.drop_suffix_drop_left (front ++ 'h' :: '"' :: ':' :: rest)
        (Nat.add_le_add_right early 3)
      rwa [tail] at whole
    exact later.subset closed

theorem price_object_page (around : Surroundings) (entries : List Entry)
    (noData : ¬ "data".toList <:+: around.before) (noK : 'k' ∉ around.between) :
    priceObject (pageText around entries) = .ok (objectText entries) := by
  obtain ⟨inner, shape, absent, -⟩ := object_inner '{' (by decide) entries
  have object : objectText entries = inner ++ ['}'] := shape
  have dataFound : deleteUntil "data".toList (pageText around entries) =
      some (("data".toList ++ around.between) ++ 'k' :: '"' :: ':' ::
        (objectText entries ++ historyText around)) := by
    have first := first_at_append (by decide) noData
      (around.between ++ 'k' :: '"' :: ':' :: (objectText entries ++ historyText around))
    rw [pageText, delete_until_first first, List.append_assoc, List.drop_left, List.append_assoc]
  have noEarlierK : 'k' ∉ "data".toList ++ around.between := by
    simp only [List.mem_append, not_or]
    exact ⟨by decide, noK⟩
  have objectRead : splitUntil '}' (objectText entries ++ historyText around) =
      some (inner, '}' :: historyText around) := by
    rw [object, List.append_assoc]
    exact split_until_append absent _
  obtain ⟨historyList, historyFound, long, closed⟩ := history_scan
    (objectText entries ++ [',', '"']) ('{' :: (around.history ++ '}' :: around.after)) (by simp)
  have same : objectText entries ++ [',', '"'] ++ 'h' :: '"' :: ':' :: '{' ::
      (around.history ++ '}' :: around.after) = objectText entries ++ historyText around := by
    simp [historyText]
  rw [same] at historyFound
  obtain ⟨history, historyRead⟩ := split_until_of_mem closed
  have keyDeleted : deleteFirst 3 ('k' :: '"' :: ':' :: (objectText entries ++
      historyText around)) = .ok (objectText entries ++ historyText around) :=
    if_pos (by simp only [List.length_cons]; omega)
  have historyDeleted : deleteFirst 3 historyList = .ok (historyList.drop 3) := if_pos long
  simp only [priceObject, dataFound, inRange, Bind.bind, Except.bind,
    delete_until_letter noEarlierK, keyDeleted, objectRead, historyFound, historyDeleted,
    historyRead]
  rw [object]

theorem remove_whitespace_eq (list : List Char) :
    removeWhitespace list = list.filter fun letter => decide (letter ≠ ' ') := by
  induction list with
  | nil => rfl
  | cons letter list induction =>
      rw [removeWhitespace, List.filter_cons, induction]
      by_cases space : letter = ' ' <;> simp [space]

theorem has_no_hover_iff (list : List Char) :
    hasNoHover list = true ↔ "noHover".toList <:+: list := by
  have sevenLetters : "noHover".toList.length = 7 := by decide
  have loop : hasNoHover list = true ↔
      ∃ p < list.length, "noHover".toList <+: list.drop p := by
    refine for_positions_invariant
      (fun i noHover => noHover = true ↔ ∃ p < i, "noHover".toList <+: list.drop p) ?_ (by simp)
    intro i noHover below found
    have here : (list.drop i).take 7 = "noHover".toList ↔ "noHover".toList <+: list.drop i := by
      rw [List.prefix_iff_eq_take, sevenLetters, eq_comm]
    rw [Nat.exists_lt_succ_right, ← found, ← here]
    by_cases reads : i + 7 ≤ list.length
    · rw [if_pos reads]
      by_cases matched : (list.drop i).take 7 = "noHover".toList
      · rw [if_pos matched]
        exact iff_of_true rfl (.inr matched)
      · rw [if_neg matched, or_iff_left matched]
    · have short : ¬ (list.drop i).take 7 = "noHover".toList := by
        intro matched
        have length := congrArg List.length matched
        rw [List.length_take, List.length_drop, sevenLetters] at length
        omega
      rw [if_neg reads, or_iff_left short]
  rw [loop, infix_iff_occurs]
  refine ⟨fun ⟨p, _, occurs⟩ => ⟨p, occurs⟩, fun ⟨p, occurs⟩ => ⟨p, ?_, occurs⟩⟩
  have length := occurs.length_le
  rw [List.length_drop, sevenLetters] at length
  omega

/-- The platforms that the object names. -/
def namedIn (entries : List Entry) (platform : Platform) : Bool :=
  entries.any fun entry => decide (entry.platform = platform)

theorem named_in_iff (entries : List Entry) (platform : Platform) :
    namedIn entries platform = true ↔ ∃ entry ∈ entries, entry.platform = platform := by
  simp only [namedIn, List.any_eq_true, decide_eq_true_eq]

theorem object_long {entries : List Entry} (nonempty : entries ≠ []) :
    5 ≤ (objectText entries).length := by
  cases entries with
  | nil => exact absurd rfl nonempty
  | cons entry entries =>
      simp only [objectText, remainingText, Entry.text, List.length_cons, List.length_append]
      omega

theorem platforms_fit (entries : List Entry) :
    (platformOrder.filter (namedIn entries)).length ≤ entries.length := by
  have distinct : (platformOrder.filter (namedIn entries)).Nodup :=
    List.Nodup.filter _ (by decide)
  have subset : platformOrder.filter (namedIn entries) ⊆ entries.map Entry.platform := by
    intro platform chosen
    obtain ⟨entry, member, same⟩ := (named_in_iff entries platform).mp (List.mem_filter.mp chosen).2
    exact List.mem_map.mpr ⟨entry, member, same⟩
  have length := (List.subperm_of_subset distinct subset).length_le
  rwa [List.length_map] at length

theorem platform_listed (platform : Platform) : platform.name ∈ platformNames := by
  cases platform <;> decide

/-- Every page in the format: the platforms that the object names take its pairs in the
order in which the pairs are written. -/
theorem parseprice_in_format {around : Surroundings} {entries : List Entry}
    (inFormat : InFormat around entries) {cellText : String}
    (spaced : SpacedOut cellText (pageText around entries)) :
    parseprice cellText =
      .ok (assignPairs (namedIn entries) platformOrder (entries.map Entry.pair)) := by
  have letters : removeWhitespace cellText.toList = pageText around entries := by
    rw [remove_whitespace_eq]
    exact spaced
  have present : pageText around entries ≠ [] := by simp [pageText]
  have hovers : ¬ hasNoHover (pageText around entries) = true := fun noHover =>
    inFormat.noHover ((has_no_hover_iff _).mp noHover)
  obtain ⟨platforms, detects, exact_⟩ := detects_exactly_long (object_long inFormat.nonempty)
  have detected : ∀ platform : Platform,
      platform.name ∈ platforms ↔ namedIn entries platform = true := by
    intro platform
    rw [exact_ _ (platform_listed platform), objectText, name_infix_remaining, named_in_iff]
  have reads := read_each_assigns detected platformOrder entries '{' (by decide)
    (platforms_fit entries)
  unfold parseprice
  simp only [letters, if_neg present, if_neg hovers, Bind.bind, Except.bind,
    price_object_page around entries inFormat.noData inFormat.noK, liftFault, detects,
    read_platforms_each]
  rw [objectText, reads]

def sortedEntries (chosen : Platform → Option PricePair) (order : List Platform) : List Entry :=
  order.filterMap fun platform =>
    (chosen platform).map fun pair => ⟨platform, pair.1, pair.2⟩

theorem assign_sorted (chosen : Platform → Option PricePair) (order : List Platform) :
    assignPairs (fun platform => (chosen platform).isSome) order
      ((sortedEntries chosen order).map Entry.pair) = order.map chosen := by
  induction order with
  | nil => rfl
  | cons platform order induction =>
      unfold sortedEntries at induction ⊢
      cases choice : chosen platform with
      | none => simp [assignPairs, choice, induction]
      | some pair => simp [assignPairs, choice, induction, Entry.pair]

theorem named_in_sorted (chosen : Platform → Option PricePair) :
    namedIn (sortedEntries chosen platformOrder) = fun platform => (chosen platform).isSome := by
  funext platform
  have listed : platform ∈ platformOrder := by cases platform <;> decide
  rw [Bool.eq_iff_iff, named_in_iff]
  constructor
  · rintro ⟨entry, member, rfl⟩
    obtain ⟨other, -, made⟩ := List.mem_filterMap.mp member
    obtain ⟨pair, choice, rfl⟩ := Option.map_eq_some_iff.mp made
    exact Option.isSome_iff_exists.mpr ⟨pair, choice⟩
  · intro choice
    obtain ⟨pair, choice⟩ := Option.isSome_iff_exists.mp choice
    exact ⟨⟨platform, pair.1, pair.2⟩,
      List.mem_filterMap.mpr ⟨platform, listed, by rw [choice]; rfl⟩, rfl⟩

/-- For every choice of platforms and integers, and every surrounding text: the parser gives
back the pair of each chosen platform, and `None` for the others. -/
theorem parser_inverts_format (chosen : Platform → Option PricePair)
    (some_ : ∃ platform, (chosen platform).isSome = true) (around : Surroundings)
    (noData : ¬ "data".toList <:+: around.before) (noK : 'k' ∉ around.between)
    (noHover : ¬ "noHover".toList <:+: pageText around (sortedEntries chosen platformOrder))
    (cellText : String)
    (spaced : SpacedOut cellText (pageText around (sortedEntries chosen platformOrder))) :
    parseprice cellText = .ok [chosen .pc, chosen .ps4, chosen .switch, chosen .xbox] := by
  have nonempty : sortedEntries chosen platformOrder ≠ [] := by
    obtain ⟨platform, choice⟩ := some_
    have named : namedIn (sortedEntries chosen platformOrder) platform = true := by
      rw [named_in_sorted]
      exact choice
    obtain ⟨entry, member, -⟩ := (named_in_iff _ _).mp named
    exact List.ne_nil_of_mem member
  rw [parseprice_in_format ⟨nonempty, noData, noK, noHover⟩ spaced, named_in_sorted, assign_sorted]
  rfl

def twoChosen : Platform → Option PricePair
  | .switch => some (-3, 4)
  | .xbox => some (10, 2000)
  | _ => none

def cellAround : Surroundings where
  before := "<tdclass=\"priceDefaultpriceRange\"".toList
  between := "-info='\x7b\"".toList
  history := "\"switch\":1".toList
  after := "\x7d'></td>".toList

theorem parser_inverts_format_two_chosen :
    parseprice ("<td class=\"priceDefault priceRange\" " ++
      "data-info='\x7b \"k\": \x7b\"switch\": [-3, 4]," ++
      "\"xbox\":[10, 20 00]\x7d, \"h\":\x7b\"switch\":1\x7d \x7d'></td>") =
      .ok [none, none, some (-3, 4), some (10, 2000)] :=
  parser_inverts_format twoChosen ⟨.xbox, rfl⟩ cellAround (by decide +kernel) (by decide +kernel)
    (by decide +kernel) _ (by unfold SpacedOut; decide +kernel)

end RlInvestments.HoverDataFormat
