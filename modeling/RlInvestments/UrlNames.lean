import RlInvestments.HoverDataParser

/-!
# The url name of a row

`getItemsinSection` takes the url name out of the text of a row: it deletes up to the
letters url, collects up to the letters sprite, and cuts seven letters off the end and
five off the front. The first loop stops itself at the end of a row. The second one has
such a test too, but its comparison reads six letters and runs off the end before.
-/

namespace RlInvestments.UrlNames

open RlInvestments.WordSearch RlInvestments.HoverDataParser

set_option autoImplicit false

/-- Deletes from the front until `url` is there, or fewer than three letters are left. -/
def findUrl : List Char → Except PyFault (List Char)
  | [] => .error .indexError
  | letter :: rest =>
      if (letter :: rest).length < 3 then .error .indexError
      else if (letter :: rest).take 3 = "url".toList then .ok (letter :: rest)
      else if (rest.length : Int) - 3 < 0 then .ok rest
      else findUrl rest

/-- The letters before `sprite`, on `i` and what the list holds from `i` on. -/
def collectUrl (length : Nat) : Nat → List Char → Except PyFault (List Char)
  | _, [] => .error .indexError
  | i, letter :: rest =>
      if (letter :: rest).length < 6 then .error .indexError
      else if (letter :: rest).take 6 ≠ "sprite".toList ∧ 5 < length then
        if (length : Int) - 5 < i then .ok [letter]
        else do
          let urlString ← collectUrl length (i + 1) rest
          .ok (letter :: urlString)
      else .ok []

def deleteLast (count : Nat) (list : List Char) : Except PyFault (List Char) :=
  if count ≤ list.length then .ok (list.take (list.length - count)) else .error .indexError

def urlLetters (itemRow : List Char) : Except PyFault (List Char) := do
  let itemRowList ← findUrl itemRow
  if 5 < itemRowList.length then do
    let urlString ← collectUrl itemRowList.length 0 itemRowList
    let urlString ← deleteLast 7 urlString
    deleteFirst 5 urlString
  else .ok []

def extractUrl (itemRow : String) : Except PyFault String := do
  let urlString ← urlLetters itemRow.toList
  .ok (String.ofList urlString)

theorem find_url_at {list : List Char} {p : Nat} (first : FirstAt "url".toList list p) :
    findUrl list = .ok (list.drop p) := by
  have three : "url".toList.length = 3 := by decide
  induction list generalizing p with
  | nil => exact absurd (List.prefix_nil.mp (List.drop_nil ▸ first.occurs)) (by decide)
  | cons letter rest induction =>
      have long := (first_at_length first).resolve_right (by decide)
      rw [three, List.length_cons] at long
      rw [findUrl, if_neg (by rw [List.length_cons]; omega)]
      by_cases occurs : "url".toList <+: letter :: rest
      · obtain rfl := first_at_unique first (first_at_zero occurs)
        rw [if_pos (by rw [← three]; exact (List.prefix_iff_eq_take.mp occurs).symm),
          List.drop_zero]
      · rw [if_neg fun same =>
          occurs (List.prefix_iff_eq_take.mpr (by rw [three]; exact same.symm))]
        cases p with
        | zero => exact absurd first.occurs occurs
        | succ p =>
            rw [if_neg (by omega)]
            exact induction ((first_at_succ_iff occurs).mp first)

theorem find_url_absent {list : List Char} (three : 3 ≤ list.length)
    (absent : ¬ "url".toList <:+: list) : ∃ rest, findUrl list = .ok rest ∧ rest.length = 2 := by
  induction list with
  | nil => exact absurd three (by decide)
  | cons letter rest induction =>
      rw [List.length_cons] at three
      have elsewhere : ¬ (letter :: rest).take 3 = "url".toList := fun same =>
        absent (same ▸ (List.take_prefix 3 (letter :: rest)).isInfix)
      rw [findUrl, if_neg (by rw [List.length_cons]; omega), if_neg elsewhere]
      by_cases short : (rest.length : Int) - 3 < 0
      · exact ⟨rest, if_pos short, by omega⟩
      · rw [if_neg short]
        exact induction (by omega) fun later => absent (later.trans (List.suffix_cons _ _).isInfix)

theorem find_url_short {list : List Char} (short : list.length < 3) :
    findUrl list = .error .indexError := by
  cases list with
  | nil => rfl
  | cons letter rest => rw [findUrl, if_pos short]

theorem collect_url_at {length i q : Nat} {list : List Char} (position : i + list.length = length)
    (long : 5 < length) (first : FirstAt "sprite".toList list q) :
    collectUrl length i list = .ok (list.take q) := by
  have six : "sprite".toList.length = 6 := by decide
  induction list generalizing i q with
  | nil => exact absurd (List.prefix_nil.mp (List.drop_nil ▸ first.occurs)) (by decide)
  | cons letter rest induction =>
      have fits := (first_at_length first).resolve_right (by decide)
      rw [six, List.length_cons] at fits
      rw [List.length_cons] at position
      have reads :
          (letter :: rest).take 6 = "sprite".toList ↔ "sprite".toList <+: letter :: rest := by
        rw [List.prefix_iff_eq_take, six, eq_comm]
      rw [collectUrl, if_neg (by rw [List.length_cons]; omega)]
      by_cases occurs : "sprite".toList <+: letter :: rest
      · obtain rfl := first_at_unique first (first_at_zero occurs)
        rw [if_neg (fun different => different.1 (reads.mpr occurs)), List.take_zero]
      · -- The test for the end is never met: six letters have just been read.
        rw [if_pos ⟨mt reads.mp occurs, long⟩, if_neg (by omega)]
        cases q with
        | zero => exact absurd first.occurs occurs
        | succ q =>
            rw [induction (by omega) ((first_at_succ_iff occurs).mp first)]
            rfl

theorem collect_url_absent {length i : Nat} {list : List Char}
    (position : i + list.length = length) (long : 5 < length)
    (absent : ¬ "sprite".toList <:+: list) :
    collectUrl length i list = .error .indexError := by
  induction list generalizing i with
  | nil => rfl
  | cons letter rest induction =>
      rw [List.length_cons] at position
      have elsewhere : ¬ (letter :: rest).take 6 = "sprite".toList := fun same =>
        absent (same ▸ (List.take_prefix 6 (letter :: rest)).isInfix)
      rw [collectUrl]
      by_cases short : (letter :: rest).length < 6
      · rw [if_pos short]
      · have left : 5 ≤ rest.length := by
          rw [List.length_cons] at short
          omega
        rw [if_neg short, if_pos ⟨elsewhere, long⟩, if_neg (by omega),
          induction (by omega) fun later => absent (later.trans (List.suffix_cons _ _).isInfix)]
        rfl

variable {row : List Char}

theorem url_letters_absent (three : 3 ≤ row.length) (absent : ¬ "url".toList <:+: row) :
    urlLetters row = .ok [] := by
  obtain ⟨rest, found, two⟩ := find_url_absent three absent
  simp only [urlLetters, found, Bind.bind, Except.bind]
  exact if_neg (by omega)

theorem url_letters_short {p : Nat} (first : FirstAt "url".toList row p)
    (short : (row.drop p).length ≤ 5) : urlLetters row = .ok [] := by
  simp only [urlLetters, find_url_at first, Bind.bind, Except.bind]
  exact if_neg (by omega)

theorem url_letters_no_sprite {p : Nat} (first : FirstAt "url".toList row p)
    (long : 5 < (row.drop p).length) (absent : ¬ "sprite".toList <:+: row.drop p) :
    urlLetters row = .error .indexError := by
  simp only [urlLetters, find_url_at first, Bind.bind, Except.bind, if_pos long,
    collect_url_absent (Nat.zero_add _) long absent]

theorem sprite_fits {list : List Char} {q : Nat} (sprite : FirstAt "sprite".toList list q) :
    q + 6 ≤ list.length :=
  (first_at_length sprite).resolve_right (by decide)

/-- Cutting seven letters and then five off what was collected needs twelve of them. -/
theorem url_letters_sprite {p q : Nat} (first : FirstAt "url".toList row p)
    (long : 5 < (row.drop p).length) (sprite : FirstAt "sprite".toList (row.drop p) q) :
    urlLetters row =
      if 12 ≤ q then .ok (((row.drop p).take (q - 7)).drop 5) else .error .indexError := by
  have fits := sprite_fits sprite
  have collected : ((row.drop p).take q).length = q := List.length_take_of_le (by omega)
  simp only [urlLetters, find_url_at first, Bind.bind, Except.bind, if_pos long,
    collect_url_at (Nat.zero_add _) long sprite]
  by_cases enough : 12 ≤ q
  · have cut : ((row.drop p).take (q - 7)).length = q - 7 := List.length_take_of_le (by omega)
    have last : deleteLast 7 ((row.drop p).take q) = .ok ((row.drop p).take (q - 7)) := by
      rw [deleteLast, collected, if_pos (by omega), List.take_take, Nat.min_eq_left (by omega)]
    rw [if_pos enough, last]
    exact if_pos (by omega)
  · rw [if_neg enough, deleteLast, collected]
    by_cases seven : 7 ≤ q
    · have cut : (((row.drop p).take q).take (q - 7)).length = q - 7 :=
        List.length_take_of_le (by omega)
      rw [if_pos seven]
      exact if_neg (by omega)
    · rw [if_neg seven]

/-- One row read exactly: the loops complete, a name between the two markers is
given back, and the name is empty where a marker is missing. -/
structure UrlExact (row : List Char) (urlString : List Char) : Prop where
  marked : ∀ before name after : List Char,
    row = before ++ "url=\"".toList ++ (name ++ "\" data-sprite".toList ++ after) →
    ¬ "url".toList <:+: before →
    FirstAt "sprite".toList (name ++ "\" data-sprite".toList ++ after) (name.length + 7) →
    urlString = name
  missing : (∀ p, FirstAt "url".toList row p → ¬ "sprite".toList <:+: row.drop p) → urlString = []

def ExtractsExactly (itemRow : String) : Prop :=
  ∃ name, extractUrl itemRow = .ok name ∧ UrlExact itemRow.toList name.toList

/-- From the first url on there are at most five letters, or the first sprite behind it begins
at the twelfth letter or later. A row without url is readable. -/
def Readable (row : List Char) : Prop :=
  ∀ p, FirstAt "url".toList row p →
    (row.drop p).length ≤ 5 ∨ ∃ q, FirstAt "sprite".toList (row.drop p) q ∧ 12 ≤ q

theorem marked_first {before name after : List Char} (noUrl : ¬ "url".toList <:+: before)
    (sprite : FirstAt "sprite".toList (name ++ "\" data-sprite".toList ++ after)
      (name.length + 7)) :
    FirstAt "url".toList (before ++ "url=\"".toList ++ (name ++ "\" data-sprite".toList ++ after))
        before.length ∧
      FirstAt "sprite".toList ("url=\"".toList ++ (name ++ "\" data-sprite".toList ++ after))
        (name.length + 12) := by
  constructor
  · have first := first_at_append (by decide) noUrl
      ("=\"".toList ++ (name ++ "\" data-sprite".toList ++ after))
    rw [List.append_assoc, ← List.append_assoc "url".toList] at first
    rw [List.append_assoc]
    exact first
  · -- None of the five letters of the first marker begins the second one.
    have shape : "url=\"".toList ++ (name ++ "\" data-sprite".toList ++ after) =
        'u' :: 'r' :: 'l' :: '=' :: '"' :: (name ++ "\" data-sprite".toList ++ after) := rfl
    rw [shape, show name.length + 12 = name.length + 7 + 1 + 1 + 1 + 1 + 1 from rfl]
    iterate 5 refine (first_at_succ_iff (by simp)).mpr ?_
    exact sprite

theorem extract_url_letters {itemRow : String} {urlString : List Char}
    (reads : urlLetters itemRow.toList = .ok urlString) :
    extractUrl itemRow = .ok (String.ofList urlString) := by
  simp only [extractUrl, reads, Bind.bind, Except.bind]

theorem extract_url_error {itemRow : String} {fault : PyFault}
    (raises : urlLetters itemRow.toList = .error fault) : extractUrl itemRow = .error fault := by
  simp only [extractUrl, raises, Bind.bind, Except.bind]

theorem readable_of_completes {itemRow name : String} (completes : extractUrl itemRow = .ok name) :
    Readable itemRow.toList := by
  intro p first
  by_cases long : 5 < (itemRow.toList.drop p).length
  · right
    by_cases present : "sprite".toList <:+: itemRow.toList.drop p
    · obtain ⟨q, sprite⟩ := first_at_exists present
      have letters := url_letters_sprite first long sprite
      by_cases enough : 12 ≤ q
      · exact ⟨q, sprite, enough⟩
      · rw [if_neg enough] at letters
        rw [extract_url_error letters] at completes
        exact nomatch completes
    · rw [extract_url_error (url_letters_no_sprite first long present)] at completes
      exact nomatch completes
  · exact .inl (Nat.le_of_not_lt long)

theorem empty_exact {row : List Char}
    (unmarked : ∀ before name after : List Char,
      row = before ++ "url=\"".toList ++ (name ++ "\" data-sprite".toList ++ after) →
      ¬ "url".toList <:+: before →
      ¬ FirstAt "sprite".toList (name ++ "\" data-sprite".toList ++ after) (name.length + 7)) :
    UrlExact row [] :=
  ⟨fun before name after same noUrl sprite =>
    absurd sprite (unmarked before name after same noUrl), fun _ => rfl⟩

theorem exact_of_readable {itemRow : String} (three : 3 ≤ itemRow.toList.length)
    (readable : Readable itemRow.toList) : ExtractsExactly itemRow := by
  by_cases present : "url".toList <:+: itemRow.toList
  · obtain ⟨p, first⟩ := first_at_exists present
    rcases readable p first with short | ⟨q, sprite, enough⟩
    · refine ⟨_, extract_url_letters (url_letters_short first short), empty_exact ?_⟩
      intro before name after same noUrl marked
      have there := (marked_first noUrl marked).1
      rw [← same] at there
      obtain rfl := first_at_unique first there
      rw [same, List.append_assoc, List.drop_left] at short
      have length : "\" data-sprite".toList.length = 13 := by decide
      simp only [List.length_append, length] at short
      omega
    · have long : 5 < (itemRow.toList.drop p).length := by
        have fits := sprite_fits sprite
        omega
      have letters := url_letters_sprite first long sprite
      rw [if_pos enough] at letters
      refine ⟨_, extract_url_letters letters, ?_, ?_⟩
      · intro before name after same noUrl marked
        have ⟨urlThere, spriteThere⟩ := marked_first noUrl marked
        rw [← same] at urlThere
        obtain rfl := first_at_unique first urlThere
        rw [same, List.append_assoc, List.drop_left] at sprite
        obtain rfl := first_at_unique sprite spriteThere
        have five : "url=\"".toList.length = 5 := by decide
        rw [String.toList_ofList, same, List.append_assoc, List.drop_left,
          show name.length + 12 - 7 = 5 + name.length by omega, List.drop_take, ← five,
          List.drop_left, Nat.add_sub_cancel_left, List.append_assoc, List.take_left]
      · exact fun absent => absurd ((infix_iff_occurs _ _).mpr ⟨q, sprite.occurs⟩) (absent p first)
  · refine ⟨_, extract_url_letters (url_letters_absent three present), empty_exact ?_⟩
    intro before name after same noUrl marked
    have there := (marked_first noUrl marked).1
    rw [← same] at there
    exact absurd ((infix_iff_occurs _ _).mpr ⟨_, there.occurs⟩) present

/-- For every row of at least three letters. -/
theorem extracts_exactly_iff (itemRow : String) (three : 3 ≤ itemRow.toList.length) :
    ExtractsExactly itemRow ↔ Readable itemRow.toList :=
  ⟨fun ⟨_, completes, _⟩ => readable_of_completes completes, exact_of_readable three⟩

theorem extract_url_completes_iff (itemRow : String) :
    (∃ name, extractUrl itemRow = .ok name) ↔
      3 ≤ itemRow.toList.length ∧ Readable itemRow.toList := by
  constructor
  · intro ⟨name, completes⟩
    refine ⟨?_, readable_of_completes completes⟩
    by_contra short
    have raises : urlLetters itemRow.toList = .error .indexError := by
      simp only [urlLetters, find_url_short (Nat.lt_of_not_le short), Bind.bind, Except.bind]
    rw [extract_url_error raises] at completes
    exact nomatch completes
  · intro ⟨three, readable⟩
    obtain ⟨name, completes, -⟩ := exact_of_readable three readable
    exact ⟨name, completes⟩

/-- A row with both markers, and the name `item_octane` between them. -/
def octaneRow : String := "<tr data-itemurl=\"item_octane\" data-sprite=\"9\">"

theorem extracts_exactly_iff_octane :
    3 ≤ octaneRow.toList.length ∧
      (ExtractsExactly octaneRow ↔ Readable octaneRow.toList) :=
  ⟨by decide +kernel, extracts_exactly_iff octaneRow (by decide +kernel)⟩

/-- Without a sprite behind the url the second loop reads past the end of the row. -/
theorem no_sprite_raises :
    ¬ ∀ itemRow : String, 3 ≤ itemRow.toList.length → ExtractsExactly itemRow := by
  intro exactly
  obtain ⟨name, completes, -⟩ := exactly "<tr data-itemurl=\"x\">" (by decide +kernel)
  have raises : extractUrl "<tr data-itemurl=\"x\">" = .error .indexError := by decide +kernel
  rw [raises] at completes
  exact nomatch completes

example : extractUrl octaneRow = .ok "item_octane" := by decide +kernel

end RlInvestments.UrlNames
