import Mathlib.Data.List.Basic
import Mathlib.Tactic

/-!
# JSON values, their text, and a reader that inverts the writer

The writer lays a value out the way `json.dumps` does by default: `", "` and
`": "` as separators and every character outside printable ASCII escaped. The
reader is a strict recursive descent over the RFC 8259 grammar. Its two counters
bound nesting depth and sequence length; both are shown to suffice for written
text.
-/

namespace RlInvestments.JsonText

set_option autoImplicit false

/-- The number `mantissa * 10 ^ exponent`, which is what JSON number text denotes. -/
structure Decimal where
  mantissa : Int
  exponent : Int
deriving DecidableEq, Repr

def Decimal.ofInt (value : Int) : Decimal := ⟨value, 0⟩

inductive Json where
  | null
  | boolean (value : Bool)
  | number (value : Decimal)
  | string (value : String)
  | array (elements : List Json)
  | object (members : List (String × Json))

def hexDigit (value : Nat) : Char :=
  if value < 10 then Char.ofNat (48 + value) else Char.ofNat (87 + value)

def unitText (unit : Nat) : List Char :=
  ['\\', 'u', hexDigit (unit / 4096 % 16), hexDigit (unit / 256 % 16),
    hexDigit (unit / 16 % 16), hexDigit (unit % 16)]

/-- The short escapes, then printable ASCII as it is, then one or two UTF-16 units. -/
def escapeChar (c : Char) : List Char :=
  if c = '"' then ['\\', '"']
  else if c = '\\' then ['\\', '\\']
  else if c = '\n' then ['\\', 'n']
  else if c = '\r' then ['\\', 'r']
  else if c = '\t' then ['\\', 't']
  else if c = '\x0c' then ['\\', 'f']
  else if c = '\x08' then ['\\', 'b']
  else if 32 ≤ c.toNat ∧ c.toNat ≤ 126 then [c]
  else if c.toNat < 0x10000 then unitText c.toNat
  else
    unitText (0xD800 + (c.toNat - 0x10000) / 1024) ++
      unitText (0xDC00 + (c.toNat - 0x10000) % 1024)

def stringText (value : String) : List Char :=
  '"' :: (value.toList.flatMap escapeChar ++ ['"'])

def intText : Int → List Char
  | .ofNat magnitude => Nat.toDigits 10 magnitude
  | .negSucc below => '-' :: Nat.toDigits 10 (below + 1)

def numberText (value : Decimal) : List Char :=
  if value.exponent = 0 then intText value.mantissa
  else intText value.mantissa ++ 'e' :: intText value.exponent

mutual

def dumps : Json → List Char
  | .null => ['n', 'u', 'l', 'l']
  | .boolean true => ['t', 'r', 'u', 'e']
  | .boolean false => ['f', 'a', 'l', 's', 'e']
  | .number value => numberText value
  | .string value => stringText value
  | .array [] => ['[', ']']
  | .array (element :: elements) => '[' :: (dumps element ++ dumpElements elements)
  | .object [] => ['{', '}']
  | .object ((key, value) :: members) =>
      '{' :: (stringText key ++ ':' :: ' ' :: (dumps value ++ dumpMembers members))

def dumpElements : List Json → List Char
  | [] => [']']
  | element :: elements => ',' :: ' ' :: (dumps element ++ dumpElements elements)

def dumpMembers : List (String × Json) → List Char
  | [] => ['}']
  | (key, value) :: members =>
      ',' :: ' ' :: (stringText key ++ ':' :: ' ' :: (dumps value ++ dumpMembers members))

end

mutual

def depth : Json → Nat
  | .array elements => 1 + elementsDepth elements
  | .object members => 1 + membersDepth members
  | _ => 1

def elementsDepth : List Json → Nat
  | [] => 0
  | element :: elements => max (depth element) (elementsDepth elements)

def membersDepth : List (String × Json) → Nat
  | [] => 0
  | (_, value) :: members => max (depth value) (membersDepth members)

end

def isBlank (c : Char) : Bool := c = ' ' || c = '\n' || c = '\r' || c = '\t'

def skipBlanks (text : List Char) : List Char := text.dropWhile isBlank

def hexValue (c : Char) : Option Nat :=
  if 48 ≤ c.toNat ∧ c.toNat ≤ 57 then some (c.toNat - 48)
  else if 97 ≤ c.toNat ∧ c.toNat ≤ 102 then some (c.toNat - 87)
  else if 65 ≤ c.toNat ∧ c.toNat ≤ 70 then some (c.toNat - 55)
  else none

def readUnit : List Char → Option (Nat × List Char)
  | a :: b :: c :: d :: rest => do
      let a ← hexValue a
      let b ← hexValue b
      let c ← hexValue c
      let d ← hexValue d
      some (a * 4096 + b * 256 + c * 16 + d, rest)
  | _ => none

/-- The text after `\u`: one unit, or a high and a low surrogate as one character. -/
def readUnicode (text : List Char) : Option (Char × List Char) := do
  let (unit, rest) ← readUnit text
  if 0xD800 ≤ unit ∧ unit < 0xDC00 then
    match rest with
    | '\\' :: 'u' :: lowText => do
        let (low, suffix) ← readUnit lowText
        if 0xDC00 ≤ low ∧ low < 0xE000 then
          some (Char.ofNat (0x10000 + (unit - 0xD800) * 1024 + (low - 0xDC00)), suffix)
        else none
    | _ => none
  else if 0xDC00 ≤ unit ∧ unit < 0xE000 then none
  else some (Char.ofNat unit, rest)

def readEscape : List Char → Option (Char × List Char)
  | [] => none
  | c :: rest =>
      if c = 'u' then readUnicode rest
      else if c = 'n' then some ('\n', rest)
      else if c = 'r' then some ('\r', rest)
      else if c = 't' then some ('\t', rest)
      else if c = 'f' then some ('\x0c', rest)
      else if c = 'b' then some ('\x08', rest)
      else if c = '"' ∨ c = '\\' ∨ c = '/' then some (c, rest)
      else none

def readChar : List Char → Option (Char × List Char)
  | [] => none
  | c :: rest =>
      if c = '\\' then readEscape rest
      else if c = '"' ∨ c.toNat < 32 then none
      else some (c, rest)

def readStringBody : Nat → List Char → Option (List Char × List Char)
  | 0, _ => none
  | _ + 1, [] => none
  | fuel + 1, c :: rest =>
      if c = '"' then some ([], rest)
      else do
        let (decoded, afterChar) ← readChar (c :: rest)
        let (tail, suffix) ← readStringBody fuel afterChar
        some (decoded :: tail, suffix)

def readString (text : List Char) : Option (String × List Char) := do
  let (characters, suffix) ← readStringBody (text.length + 1) text
  some (String.ofList characters, suffix)

def readDigits (text : List Char) : Option (List Char × List Char) :=
  match text.span Char.isDigit with
  | ([], _) => none
  | (digits, rest) => some (digits, rest)

def readWhole (text : List Char) : Option (List Char × List Char) := do
  let (digits, rest) ← readDigits text
  if digits.head? = some '0' ∧ digits.length ≠ 1 then none else some (digits, rest)

def readFraction : List Char → Option (List Char × List Char)
  | '.' :: rest => readDigits rest
  | text => some ([], text)

def readSign : List Char → Bool × List Char
  | '-' :: rest => (true, rest)
  | text => (false, text)

def signed (negative : Bool) (magnitude : Nat) : Int :=
  if negative then -(magnitude : Int) else magnitude

def readExponentDigits (text : List Char) : Option (Int × List Char) :=
  let (negative, afterSign) := match text with
    | '+' :: rest => (false, rest)
    | _ => readSign text
  do
    let (digits, rest) ← readDigits afterSign
    some (signed negative (Nat.ofDigitChars 10 digits 0), rest)

def readExponent : List Char → Option (Int × List Char)
  | [] => some (0, [])
  | c :: rest => if c = 'e' ∨ c = 'E' then readExponentDigits rest else some (0, c :: rest)

def readNumber (text : List Char) : Option (Decimal × List Char) :=
  let (negative, afterSign) := readSign text
  do
    let (whole, afterWhole) ← readWhole afterSign
    let (fraction, afterFraction) ← readFraction afterWhole
    let (exponent, suffix) ← readExponent afterFraction
    some (⟨signed negative (Nat.ofDigitChars 10 (whole ++ fraction) 0),
      exponent - fraction.length⟩, suffix)

section Sequences

variable {Item : Type}

def readMore (read : List Char → Option (Item × List Char)) (close : Char) :
    Nat → List Char → Option (List Item × List Char)
  | 0, _ => none
  | fuel + 1, text =>
      match skipBlanks text with
      | [] => none
      | c :: rest =>
          if c = close then some ([], rest)
          else if c = ',' then do
            let (item, afterItem) ← read rest
            let (items, suffix) ← readMore read close fuel afterItem
            some (item :: items, suffix)
          else none

def readSequence (read : List Char → Option (Item × List Char)) (close : Char)
    (text : List Char) : Option (List Item × List Char) :=
  match skipBlanks text with
  | [] => none
  | c :: rest =>
      if c = close then some ([], rest)
      else do
        let (item, afterItem) ← read text
        let (items, suffix) ← readMore read close (text.length + 1) afterItem
        some (item :: items, suffix)

def readMember (read : List Char → Option (Item × List Char)) (text : List Char) :
    Option ((String × Item) × List Char) :=
  match skipBlanks text with
  | [] => none
  | c :: rest =>
      if c = '"' then do
        let (key, afterKey) ← readString rest
        match skipBlanks afterKey with
        | ':' :: afterColon => do
            let (value, suffix) ← read afterColon
            some ((key, value), suffix)
        | _ => none
      else none

def readLiteral (word : List Char) (value : Item) (text : List Char) :
    Option (Item × List Char) :=
  if word <+: text then some (value, text.drop word.length) else none

end Sequences

def readValue : Nat → List Char → Option (Json × List Char)
  | 0, _ => none
  | fuel + 1, text =>
      match skipBlanks text with
      | [] => none
      | c :: rest =>
          if c = '"' then (readString rest).map fun read => (.string read.1, read.2)
          else if c = '[' then
            (readSequence (readValue fuel) ']' rest).map fun read => (.array read.1, read.2)
          else if c = '{' then
            (readSequence (readMember (readValue fuel)) '}' rest).map fun read =>
              (.object read.1, read.2)
          else if c = 'n' then readLiteral ['n', 'u', 'l', 'l'] .null (c :: rest)
          else if c = 't' then readLiteral ['t', 'r', 'u', 'e'] (.boolean true) (c :: rest)
          else if c = 'f' then readLiteral ['f', 'a', 'l', 's', 'e'] (.boolean false) (c :: rest)
          else (readNumber (c :: rest)).map fun read => (.number read.1, read.2)

/-- A whole document: one value with nothing but blanks after it. -/
def readDocument (text : List Char) : Option Json := do
  let (value, suffix) ← readValue (text.length + 1) text
  if skipBlanks suffix = [] then some value else none

@[simp] theorem skip_blanks_nil : skipBlanks [] = [] := rfl

theorem skip_blanks_append (gap text : List Char) (blank : gap.all isBlank = true) :
    skipBlanks (gap ++ text) = skipBlanks text := by
  induction gap with
  | nil => rfl
  | cons c gap induction =>
      simp only [List.all_cons, Bool.and_eq_true] at blank
      rw [List.cons_append, skipBlanks, List.dropWhile_cons_of_pos blank.1]
      exact induction blank.2

theorem skip_blanks_of_not_blank (c : Char) (text : List Char) (solid : isBlank c = false) :
    skipBlanks (c :: text) = c :: text := by
  simp [skipBlanks, solid]

@[simp] theorem skip_blanks_skip_blanks (text : List Char) :
    skipBlanks (skipBlanks text) = skipBlanks text := by
  induction text with
  | nil => rfl
  | cons c text induction =>
      by_cases blank : isBlank c = true
      · simpa [skipBlanks, blank] using induction
      · simp [skipBlanks, blank]

/-- What may stand right after a written value: a separator, a bracket or a blank. -/
def Delimited (rest : List Char) : Prop :=
  ∀ c ∈ rest.head?, c = ',' ∨ c = ']' ∨ c = '}' ∨ isBlank c = true

theorem delimited_nil : Delimited [] := by simp [Delimited]

theorem delimited_cons (c : Char) (rest : List Char)
    (mark : c = ',' ∨ c = ']' ∨ c = '}' ∨ isBlank c = true) : Delimited (c :: rest) := by
  simpa [Delimited] using mark

theorem delimited_head (rest : List Char) (delimited : Delimited rest) (c : Char)
    (head : c ∈ rest.head?) : c.isDigit = false ∧ c ≠ '.' ∧ c ≠ 'e' ∧ c ≠ 'E' := by
  rcases delimited c head with rfl | rfl | rfl | blank
  · decide
  · decide
  · decide
  · simp only [isBlank, Bool.or_eq_true, decide_eq_true_eq] at blank
    rcases blank with ((rfl | rfl) | rfl) | rfl <;> decide

theorem hex_value_digit (value : Nat) (small : value < 16) :
    hexValue (hexDigit value) = some value := by
  have all : ∀ digit : Fin 16, hexValue (hexDigit digit.val) = some digit.val := by decide
  exact all ⟨value, small⟩

theorem read_unit_text (unit : Nat) (small : unit < 65536) (rest : List Char) :
    readUnit (hexDigit (unit / 4096 % 16) :: hexDigit (unit / 256 % 16) ::
      hexDigit (unit / 16 % 16) :: hexDigit (unit % 16) :: rest) = some (unit, rest) := by
  have total : unit / 4096 % 16 * 4096 + unit / 256 % 16 * 256 + unit / 16 % 16 * 16 +
      unit % 16 = unit := by omega
  simp [readUnit, hex_value_digit _ (Nat.mod_lt _ (by decide : 0 < 16)), total]

theorem char_not_surrogate (c : Char) : c.toNat < 0xD800 ∨ 0xE000 ≤ c.toNat := by
  rcases c.valid with below | above
  · exact Or.inl below
  · exact Or.inr (by have := above.1; simp only [Char.toNat, UInt32.toNat] at *; omega)

theorem char_to_nat_lt (c : Char) : c.toNat < 0x110000 := by
  rcases c.valid with below | above
  · simp only [Char.toNat]
    omega
  · exact above.2

theorem read_unicode_basic (c : Char) (basic : c.toNat < 0x10000) (rest : List Char) :
    readUnicode (hexDigit (c.toNat / 4096 % 16) :: hexDigit (c.toNat / 256 % 16) ::
      hexDigit (c.toNat / 16 % 16) :: hexDigit (c.toNat % 16) :: rest) = some (c, rest) := by
  have notSurrogate := char_not_surrogate c
  have high : ¬ (0xD800 ≤ c.toNat ∧ c.toNat < 0xDC00) := by omega
  have low : ¬ (0xDC00 ≤ c.toNat ∧ c.toNat < 0xE000) := by omega
  rw [readUnicode, read_unit_text c.toNat basic rest]
  simp only [Option.bind_eq_bind, Option.bind_some, if_neg high, if_neg low, Char.ofNat_toNat]

theorem read_unicode_pair (c : Char) (offset : Nat) (above : c.toNat = 0x10000 + offset)
    (rest : List Char) :
    readUnicode ((unitText (0xD800 + offset / 1024)).drop 2 ++
      (unitText (0xDC00 + offset % 1024) ++ rest)) = some (c, rest) := by
  have bounded := char_to_nat_lt c
  have high := read_unit_text (0xD800 + offset / 1024) (by omega)
    (unitText (0xDC00 + offset % 1024) ++ rest)
  have low := read_unit_text (0xDC00 + offset % 1024) (by omega) rest
  have highRange : 0xD800 ≤ 0xD800 + offset / 1024 ∧ 0xD800 + offset / 1024 < 0xDC00 := by
    omega
  have lowRange : 0xDC00 ≤ 0xDC00 + offset % 1024 ∧ 0xDC00 + offset % 1024 < 0xE000 := by
    omega
  have joined : 0x10000 + (0xD800 + offset / 1024 - 0xD800) * 1024 +
      (0xDC00 + offset % 1024 - 0xDC00) = c.toNat := by omega
  simp only [unitText, List.drop_succ_cons, List.drop_zero, List.cons_append, List.nil_append,
    readUnicode] at high low ⊢
  simp only [high, low, Option.bind_eq_bind, Option.bind_some, if_pos highRange,
    if_pos lowRange, joined, Char.ofNat_toNat]

/-- The four forms of an escaped character: a mark after a backslash, the character itself,
one unit or a pair of units. -/
theorem escape_char_cases (c : Char) :
    (∃ mark, escapeChar c = ['\\', mark] ∧ ∀ rest, readEscape (mark :: rest) = some (c, rest)) ∨
      (c ≠ '"' ∧ c ≠ '\\' ∧ 32 ≤ c.toNat ∧ escapeChar c = [c]) ∨
      (c.toNat < 0x10000 ∧ escapeChar c = unitText c.toNat) ∨
      (0x10000 ≤ c.toNat ∧ escapeChar c =
        unitText (0xD800 + (c.toNat - 0x10000) / 1024) ++
          unitText (0xDC00 + (c.toNat - 0x10000) % 1024)) := by
  by_cases quote : c = '"'
  · subst quote
    exact .inl ⟨'"', rfl, fun _ => rfl⟩
  by_cases backslash : c = '\\'
  · subst backslash
    exact .inl ⟨'\\', rfl, fun _ => rfl⟩
  by_cases newline : c = '\n'
  · subst newline
    exact .inl ⟨'n', rfl, fun _ => rfl⟩
  by_cases carriage : c = '\r'
  · subst carriage
    exact .inl ⟨'r', rfl, fun _ => rfl⟩
  by_cases tab : c = '\t'
  · subst tab
    exact .inl ⟨'t', rfl, fun _ => rfl⟩
  by_cases feed : c = '\x0c'
  · subst feed
    exact .inl ⟨'f', rfl, fun _ => rfl⟩
  by_cases back : c = '\x08'
  · subst back
    exact .inl ⟨'b', rfl, fun _ => rfl⟩
  right
  rw [escapeChar, if_neg quote, if_neg backslash, if_neg newline, if_neg carriage, if_neg tab,
    if_neg feed, if_neg back]
  by_cases printable : 32 ≤ c.toNat ∧ c.toNat ≤ 126
  · rw [if_pos printable]
    exact .inl ⟨quote, backslash, printable.1, rfl⟩
  · rw [if_neg printable]
    right
    by_cases basic : c.toNat < 0x10000
    · rw [if_pos basic]
      exact .inl ⟨basic, rfl⟩
    · rw [if_neg basic]
      exact .inr ⟨not_lt.mp basic, rfl⟩

theorem read_char_escape (c : Char) (rest : List Char) :
    readChar (escapeChar c ++ rest) = some (c, rest) := by
  rcases escape_char_cases c with ⟨mark, escaped, read⟩ | ⟨quote, backslash, printable, escaped⟩ |
    ⟨basic, escaped⟩ | ⟨large, escaped⟩
  · rw [escaped]
    exact read rest
  · have visible : ¬ (c = '"' ∨ c.toNat < 32) := by
      rintro (isQuote | control)
      · exact quote isQuote
      · omega
    rw [escaped, List.singleton_append, readChar, if_neg backslash, if_neg visible]
  · rw [escaped]
    exact read_unicode_basic c basic rest
  · obtain ⟨offset, above⟩ := Nat.exists_eq_add_of_le large
    have pair := read_unicode_pair c offset above rest
    rw [escaped, above, Nat.add_sub_cancel_left, List.append_assoc]
    exact pair

theorem escape_char_head (c : Char) :
    ∃ head tail, escapeChar c = head :: tail ∧ head ≠ '"' := by
  rcases escape_char_cases c with ⟨mark, escaped, -⟩ | ⟨quote, -, -, escaped⟩ | ⟨-, escaped⟩ |
    ⟨-, escaped⟩
  · exact ⟨_, _, escaped, by decide⟩
  · exact ⟨_, _, escaped, quote⟩
  · exact ⟨_, _, escaped, by decide⟩
  · exact ⟨_, _, escaped, by decide⟩

theorem read_string_body_text (characters rest : List Char) (fuel : Nat)
    (enough : characters.length < fuel) :
    readStringBody fuel (characters.flatMap escapeChar ++ '"' :: rest) =
      some (characters, rest) := by
  induction characters generalizing fuel with
  | nil =>
      obtain ⟨fuel, rfl⟩ : ∃ n, fuel = n + 1 := ⟨fuel - 1, by simp at enough; omega⟩
      simp [readStringBody]
  | cons c characters induction =>
      obtain ⟨fuel, rfl⟩ : ∃ n, fuel = n + 1 := ⟨fuel - 1, by simp at enough; omega⟩
      obtain ⟨head, tail, shape, notQuote⟩ := escape_char_head c
      have first := read_char_escape c (characters.flatMap escapeChar ++ '"' :: rest)
      have others := induction fuel (by simpa using enough)
      rw [shape, List.cons_append] at first
      rw [List.flatMap_cons, List.append_assoc, shape, List.cons_append, readStringBody,
        if_neg notQuote, first]
      simp only [Option.bind_eq_bind, Option.bind_some, others]

theorem flat_map_escape_length (characters : List Char) :
    characters.length ≤ (characters.flatMap escapeChar).length := by
  induction characters with
  | nil => simp
  | cons c characters induction =>
      obtain ⟨head, tail, shape, -⟩ := escape_char_head c
      simp only [List.flatMap_cons, List.length_append, List.length_cons, shape]
      omega

theorem read_string_text (value : String) (rest : List Char) :
    readString (value.toList.flatMap escapeChar ++ '"' :: rest) = some (value, rest) := by
  have size := flat_map_escape_length value.toList
  rw [readString, read_string_body_text value.toList rest _
    (by simp only [List.length_append, List.length_cons]; omega)]
  simp only [Option.bind_eq_bind, Option.bind_some, String.ofList_toList]

theorem span_digits (digits rest : List Char) (all : ∀ c ∈ digits, c.isDigit = true)
    (stop : ∀ c ∈ rest.head?, c.isDigit = false) :
    (digits ++ rest).span Char.isDigit = (digits, rest) := by
  rw [List.span_eq_takeWhile_dropWhile, List.takeWhile_append_of_pos all,
    List.dropWhile_append_of_pos all]
  cases rest with
  | nil => simp
  | cons c rest => simp [stop c (by simp)]

theorem to_digits_all (magnitude : Nat) : ∀ c ∈ Nat.toDigits 10 magnitude, c.isDigit = true :=
  fun _ member => Nat.isDigit_of_mem_toDigits (by decide) (by decide) member

theorem to_digits_head (magnitude : Nat) (positive : 0 < magnitude) :
    (Nat.toDigits 10 magnitude).head? ≠ some '0' := by
  induction magnitude using Nat.strong_induction_on with
  | _ magnitude induction =>
      by_cases small : magnitude < 10
      · rw [Nat.toDigits_of_lt_base small]
        interval_cases magnitude <;> decide
      · rw [Nat.toDigits_of_base_le (by decide) (by omega)]
        have upper := induction (magnitude / 10) (by omega) (by omega)
        have nonempty : Nat.toDigits 10 (magnitude / 10) ≠ [] := Nat.toDigits_ne_nil
        simpa [List.head?_append_of_ne_nil _ nonempty] using upper

theorem read_digits_text (magnitude : Nat) (rest : List Char)
    (stop : ∀ c ∈ rest.head?, c.isDigit = false) :
    readDigits (Nat.toDigits 10 magnitude ++ rest) = some (Nat.toDigits 10 magnitude, rest) := by
  rw [readDigits, span_digits _ _ (to_digits_all magnitude) stop]
  cases shape : Nat.toDigits 10 magnitude with
  | nil => exact absurd shape Nat.toDigits_ne_nil
  | cons c digits => rfl

theorem read_whole_text (magnitude : Nat) (rest : List Char)
    (stop : ∀ c ∈ rest.head?, c.isDigit = false) :
    readWhole (Nat.toDigits 10 magnitude ++ rest) = some (Nat.toDigits 10 magnitude, rest) := by
  have canonical : ¬ ((Nat.toDigits 10 magnitude).head? = some '0' ∧
      (Nat.toDigits 10 magnitude).length ≠ 1) := by
    rintro ⟨zero, long⟩
    rcases Nat.eq_zero_or_pos magnitude with rfl | positive
    · exact long rfl
    · exact to_digits_head magnitude positive zero
  rw [readWhole, read_digits_text magnitude rest stop]
  simp only [Option.bind_eq_bind, Option.bind_some, if_neg canonical]

theorem read_sign_text (value : Int) (rest : List Char) :
    readSign (intText value ++ rest) =
      (decide (value < 0), Nat.toDigits 10 value.natAbs ++ rest) := by
  cases value with
  | negSucc below => simp [intText, readSign, Int.negSucc_lt_zero]
  | ofNat magnitude =>
      cases shape : Nat.toDigits 10 magnitude with
      | nil => exact absurd shape Nat.toDigits_ne_nil
      | cons c digits =>
          have digit := to_digits_all magnitude c (by simp [shape])
          have notSign : c ≠ '-' := by rintro rfl; exact absurd digit (by decide)
          simp [intText, shape, readSign, notSign]

theorem signed_text (value : Int) :
    signed (decide (value < 0)) (Nat.ofDigitChars 10 (Nat.toDigits 10 value.natAbs) 0) = value := by
  rw [Nat.ofDigitChars_ten_toDigits, signed]
  by_cases negative : value < 0
  · simp only [negative, decide_true, if_true]
    omega
  · simp only [negative, decide_false, Bool.false_eq_true, if_false]
    omega

theorem read_exponent_digits_text (value : Int) (rest : List Char)
    (stop : ∀ c ∈ rest.head?, c.isDigit = false) :
    readExponentDigits (intText value ++ rest) = some (value, rest) := by
  have sign := read_sign_text value rest
  have noPlus : ∀ tail, intText value ++ rest ≠ '+' :: tail := by
    intro tail same
    cases value with
    | negSucc below => simp [intText] at same
    | ofNat magnitude =>
        cases shape : Nat.toDigits 10 magnitude with
        | nil => exact absurd shape Nat.toDigits_ne_nil
        | cons c digits =>
            have digit := to_digits_all magnitude c (by simp [shape])
            simp only [intText, shape, List.cons_append, List.cons.injEq] at same
            rw [same.1] at digit
            exact absurd digit (by decide)
  unfold readExponentDigits
  split
  rename_i negative afterSign split
  split at split
  · rename_i tail same
    exact absurd same (noPlus tail)
  · rw [sign] at split
    obtain ⟨rfl, rfl⟩ := Prod.mk.inj split
    simp only [read_digits_text _ rest stop, Option.bind_eq_bind, Option.bind_some, signed_text]

theorem read_number_text (value : Decimal) (rest : List Char) (delimited : Delimited rest) :
    readNumber (numberText value ++ rest) = some (value, rest) := by
  have stop : ∀ c ∈ rest.head?, c.isDigit = false :=
    fun c head => (delimited_head rest delimited c head).1
  have noFraction : readFraction rest = some ([], rest) := by
    cases rest with
    | nil => rfl
    | cons c rest =>
        have notPoint := (delimited_head _ delimited c (by simp)).2.1
        simp [readFraction, notPoint]
  have noExponent : readExponent rest = some (0, rest) := by
    cases rest with
    | nil => rfl
    | cons c rest =>
        have marks := (delimited_head _ delimited c (by simp)).2.2
        simp [readExponent, marks.1, marks.2]
  by_cases plain : value.exponent = 0
  · simp only [numberText, if_pos plain, readNumber, read_sign_text, read_whole_text _ rest stop,
      noFraction, noExponent, Option.bind_eq_bind, Option.bind_some, List.append_nil, signed_text,
      List.length_nil]
    cases value
    simp_all
  · have afterMantissa : ∀ c ∈ ('e' :: (intText value.exponent ++ rest)).head?,
        c.isDigit = false := by
      intro c head
      obtain rfl : 'e' = c := by simpa using head
      decide
    have fraction : readFraction ('e' :: (intText value.exponent ++ rest)) =
        some ([], 'e' :: (intText value.exponent ++ rest)) := by simp [readFraction]
    have exponent : readExponent ('e' :: (intText value.exponent ++ rest)) =
        some (value.exponent, rest) := by
      simp only [readExponent, true_or, if_true]
      exact read_exponent_digits_text value.exponent rest stop
    simp only [numberText, if_neg plain, List.append_assoc, List.cons_append, readNumber,
      read_sign_text, read_whole_text _ _ afterMantissa, fraction, exponent, Option.bind_eq_bind,
      Option.bind_some, List.append_nil, signed_text, List.length_nil]
    simp

section Sequences

variable {Item : Type}

/-- `read` consumes exactly `text`, whatever delimited text follows it. -/
def Reads (read : List Char → Option (Item × List Char)) (text : List Char) (item : Item) :
    Prop :=
  ∀ rest, Delimited rest → read (text ++ rest) = some (item, rest)

/-- What a sequence needs of its item reader: it passes over blanks and never
accepts an empty text or the closing bracket. -/
structure ItemReader (read : List Char → Option (Item × List Char)) (close : Char) : Prop where
  skips : ∀ text, read (skipBlanks text) = read text
  empty : read [] = none
  closed : ∀ rest, read (close :: rest) = none
  bracket : close = ']' ∨ close = '}'

variable {read : List Char → Option (Item × List Char)} {close : Char}

theorem ItemReader.solid (reader : ItemReader read close) : isBlank close = false := by
  rcases reader.bracket with rfl | rfl <;> decide

theorem ItemReader.skip_gap (reader : ItemReader read close) (gap text : List Char)
    (blank : gap.all isBlank = true) : read (gap ++ text) = read text := by
  rw [← reader.skips, skip_blanks_append gap text blank, reader.skips]

theorem separated_delimited (reader : ItemReader read close) (gap : List Char)
    (pieces : List (List Char × Item)) (rest : List Char) :
    Delimited (pieces.flatMap (fun piece => ',' :: (gap ++ piece.1)) ++ close :: rest) := by
  cases pieces with
  | nil => exact delimited_cons close rest (by rcases reader.bracket with h | h <;> simp [h])
  | cons piece pieces => exact delimited_cons ',' _ (Or.inl rfl)

theorem read_more_pieces (reader : ItemReader read close) (gap : List Char)
    (blank : gap.all isBlank = true) (pieces : List (List Char × Item))
    (each : ∀ piece ∈ pieces, Reads read piece.1 piece.2) (rest : List Char) (fuel : Nat)
    (enough : pieces.length < fuel) :
    readMore read close fuel
        (pieces.flatMap (fun piece => ',' :: (gap ++ piece.1)) ++ close :: rest) =
      some (pieces.map Prod.snd, rest) := by
  induction pieces generalizing fuel with
  | nil =>
      obtain ⟨fuel, rfl⟩ : ∃ n, fuel = n + 1 := ⟨fuel - 1, by simp at enough; omega⟩
      simp [readMore, skip_blanks_of_not_blank close rest reader.solid]
  | cons piece pieces induction =>
      obtain ⟨fuel, rfl⟩ : ∃ n, fuel = n + 1 := ⟨fuel - 1, by simp at enough; omega⟩
      set following := pieces.flatMap (fun piece => ',' :: (gap ++ piece.1)) ++ close :: rest
        with followingEq
      have delimited : Delimited following := separated_delimited reader gap pieces rest
      have first := each piece (by simp) following delimited
      have others := induction (fun item member => each item (by simp [member])) fuel
        (by simpa using enough)
      have comma : ',' ≠ close := by rcases reader.bracket with rfl | rfl <;> decide
      rw [List.flatMap_cons, List.append_assoc, ← followingEq, List.cons_append, readMore,
        skip_blanks_of_not_blank ',' _ (by decide)]
      simp only [if_neg comma, if_true, List.append_assoc, reader.skip_gap gap _ blank, first,
        Option.bind_eq_bind, Option.bind_some, others, List.map_cons]

theorem read_sequence_pieces (reader : ItemReader read close) (lead gap : List Char)
    (leadBlank : lead.all isBlank = true) (blank : gap.all isBlank = true)
    (piece : List Char × Item) (pieces : List (List Char × Item))
    (each : ∀ item ∈ piece :: pieces, Reads read item.1 item.2) (rest : List Char) :
    readSequence read close (lead ++ (piece.1 ++
        (pieces.flatMap (fun piece => ',' :: (gap ++ piece.1)) ++ close :: rest))) =
      some (piece.2 :: pieces.map Prod.snd, rest) := by
  set following := pieces.flatMap (fun piece => ',' :: (gap ++ piece.1)) ++ close :: rest
    with followingEq
  have delimited : Delimited following := separated_delimited reader gap pieces rest
  have first := each piece (by simp) following delimited
  have count : pieces.length ≤ following.length := by
    rw [followingEq, List.length_append, List.length_flatMap]
    have total : (pieces.map fun _ => 1).sum ≤
        (pieces.map fun piece => (',' :: (gap ++ piece.1)).length).sum :=
      List.sum_le_sum fun piece _ => by simp
    simp only [List.map_const', List.sum_replicate, smul_eq_mul, mul_one] at total
    omega
  have others := read_more_pieces reader gap blank pieces
    (fun item member => each item (by simp [member])) rest
    ((lead ++ (piece.1 ++ following)).length + 1)
    (by simp only [List.length_append]; omega)
  rw [← followingEq] at others
  rw [readSequence, skip_blanks_append lead _ leadBlank]
  cases shape : skipBlanks (piece.1 ++ following) with
  | nil =>
      rw [← reader.skips, shape, reader.empty] at first
      simp at first
  | cons c tail =>
      have notClose : c ≠ close := by
        rintro rfl
        rw [← reader.skips, shape, reader.closed] at first
        simp at first
      simp only [if_neg notClose, reader.skip_gap lead _ leadBlank, first, Option.bind_eq_bind,
        Option.bind_some, others]

theorem read_sequence_empty (reader : ItemReader read close) (lead rest : List Char)
    (leadBlank : lead.all isBlank = true) :
    readSequence read close (lead ++ close :: rest) = some ([], rest) := by
  rw [readSequence, skip_blanks_append lead _ leadBlank,
    skip_blanks_of_not_blank close rest reader.solid]
  simp

theorem read_member_text (reader : ItemReader read ']') (key : String)
    (before gap text : List Char) (item : Item) (beforeBlank : before.all isBlank = true)
    (blank : gap.all isBlank = true) (reads : Reads read text item) :
    Reads (readMember read) (stringText key ++ (before ++ ':' :: (gap ++ text))) (key, item) := by
  intro rest delimited
  have value := reads rest delimited
  have key := read_string_text key (before ++ ':' :: (gap ++ (text ++ rest)))
  simp only [stringText, List.cons_append, List.append_assoc, List.nil_append, readMember,
    skip_blanks_of_not_blank '"' _ (by decide), if_true, key, Option.bind_eq_bind,
    Option.bind_some, skip_blanks_append before _ beforeBlank,
    skip_blanks_of_not_blank ':' _ (by decide), reader.skip_gap gap _ blank, value]

end Sequences

theorem value_reader (fuel : Nat) : ItemReader (readValue fuel) ']' where
  skips text := by
    cases fuel with
    | zero => rfl
    | succ fuel => simp only [readValue, skip_blanks_skip_blanks]
  empty := by cases fuel <;> rfl
  closed rest := by cases fuel <;> rfl
  bracket := Or.inl rfl

theorem member_reader (fuel : Nat) : ItemReader (readMember (readValue fuel)) '}' where
  skips text := by simp only [readMember, skip_blanks_skip_blanks]
  empty := rfl
  closed rest := rfl
  bracket := Or.inr rfl

theorem dump_elements_pieces (elements : List Json) (rest : List Char) :
    dumpElements elements ++ rest =
      (elements.map fun element => (dumps element, element)).flatMap
        (fun piece => ',' :: ([' '] ++ piece.1)) ++ ']' :: rest := by
  induction elements with
  | nil => rfl
  | cons element elements induction =>
      simpa [dumpElements] using induction

theorem dump_members_pieces (members : List (String × Json)) (rest : List Char) :
    dumpMembers members ++ rest =
      (members.map fun member =>
        (stringText member.1 ++ ([] ++ ':' :: ([' '] ++ dumps member.2)), member)).flatMap
        (fun piece => ',' :: ([' '] ++ piece.1)) ++ '}' :: rest := by
  induction members with
  | nil => rfl
  | cons member members induction =>
      simpa [dumpMembers] using induction

theorem number_text_head (value : Decimal) :
    ∃ c tail, numberText value = c :: tail ∧ (c = '-' ∨ c.isDigit = true) := by
  have mantissa : ∃ c tail, intText value.mantissa = c :: tail ∧
      (c = '-' ∨ c.isDigit = true) := by
    cases value.mantissa with
    | negSucc below => exact ⟨_, _, rfl, Or.inl rfl⟩
    | ofNat magnitude =>
        cases shape : Nat.toDigits 10 magnitude with
        | nil => exact absurd shape Nat.toDigits_ne_nil
        | cons c digits =>
            exact ⟨c, digits, by simp [intText, shape],
              Or.inr (to_digits_all magnitude c (by simp [shape]))⟩
  obtain ⟨c, tail, shape, head⟩ := mantissa
  unfold numberText
  split
  · exact ⟨c, tail, shape, head⟩
  · exact ⟨c, tail ++ 'e' :: intText value.exponent, by simp [shape], head⟩

theorem read_value_number (value : Decimal) (fuel : Nat) :
    Reads (readValue (fuel + 1)) (numberText value) (.number value) := by
  intro rest delimited
  have number := read_number_text value rest delimited
  obtain ⟨c, tail, shape, head⟩ := number_text_head value
  have marks : isBlank c = false ∧ c ≠ '"' ∧ c ≠ '[' ∧ c ≠ '{' ∧ c ≠ 'n' ∧ c ≠ 't' ∧
      c ≠ 'f' := by
    rcases head with rfl | digit
    · decide
    · refine ⟨?_, ?_, ?_, ?_, ?_, ?_, ?_⟩
      · by_contra blank
        simp only [Bool.not_eq_false, isBlank, Bool.or_eq_true, decide_eq_true_eq] at blank
        rcases blank with ((rfl | rfl) | rfl) | rfl <;> exact absurd digit (by decide)
      all_goals
        rintro rfl
        exact absurd digit (by decide)
  obtain ⟨solid, quote, bracket, brace, n, t, f⟩ := marks
  rw [shape, List.cons_append] at number ⊢
  rw [readValue, skip_blanks_of_not_blank c _ solid]
  simp only [if_neg quote, if_neg bracket, if_neg brace, if_neg n, if_neg t, if_neg f, number,
    Option.map_some]

theorem read_value_array (fuel : Nat) (lead gap : List Char) (leadBlank : lead.all isBlank = true)
    (blank : gap.all isBlank = true) (piece : List Char × Json) (pieces : List (List Char × Json))
    (each : ∀ item ∈ piece :: pieces, Reads (readValue fuel) item.1 item.2) :
    Reads (readValue (fuel + 1))
      ('[' :: (lead ++ (piece.1 ++
        (pieces.flatMap (fun piece => ',' :: (gap ++ piece.1)) ++ [']']))))
      (.array (piece.2 :: pieces.map Prod.snd)) := by
  intro rest _
  have sequence := read_sequence_pieces (value_reader fuel) lead gap leadBlank blank piece pieces
    each rest
  simp only [List.cons_append, List.append_assoc, List.nil_append, readValue,
    skip_blanks_of_not_blank '[' _ (by decide), sequence, Option.map_some]
  simp

theorem read_value_array_empty (fuel : Nat) (lead : List Char)
    (leadBlank : lead.all isBlank = true) :
    Reads (readValue (fuel + 1)) ('[' :: (lead ++ [']'])) (.array []) := by
  intro rest _
  have sequence := read_sequence_empty (value_reader fuel) lead rest leadBlank
  simp only [List.cons_append, List.append_assoc, List.nil_append, readValue,
    skip_blanks_of_not_blank '[' _ (by decide), sequence, Option.map_some]
  simp

theorem read_value_object (fuel : Nat) (lead gap : List Char)
    (leadBlank : lead.all isBlank = true) (blank : gap.all isBlank = true)
    (piece : List Char × (String × Json)) (pieces : List (List Char × (String × Json)))
    (each : ∀ item ∈ piece :: pieces, Reads (readMember (readValue fuel)) item.1 item.2) :
    Reads (readValue (fuel + 1))
      ('{' :: (lead ++ (piece.1 ++
        (pieces.flatMap (fun piece => ',' :: (gap ++ piece.1)) ++ ['}']))))
      (.object (piece.2 :: pieces.map Prod.snd)) := by
  intro rest _
  have sequence := read_sequence_pieces (member_reader fuel) lead gap leadBlank blank piece pieces
    each rest
  simp only [List.cons_append, List.append_assoc, List.nil_append, readValue,
    skip_blanks_of_not_blank '{' _ (by decide), sequence, Option.map_some]
  simp

theorem read_value_object_empty (fuel : Nat) :
    Reads (readValue (fuel + 1)) ['{', '}'] (.object []) := by
  intro rest _
  have sequence := read_sequence_empty (member_reader fuel) [] rest rfl
  rw [List.nil_append] at sequence
  simp only [List.cons_append, List.nil_append, readValue,
    skip_blanks_of_not_blank '{' _ (by decide), sequence, Option.map_some]
  simp

mutual

theorem dumps_reads : ∀ (value : Json) (fuel : Nat), depth value ≤ fuel →
    Reads (readValue fuel) (dumps value) value
  | .null, fuel, enough => by
      obtain ⟨fuel, rfl⟩ : ∃ n, fuel = n + 1 := ⟨fuel - 1, by simp [depth] at enough; omega⟩
      intro rest _
      simp [dumps, readValue, readLiteral, skipBlanks, isBlank]
  | .boolean value, fuel, enough => by
      obtain ⟨fuel, rfl⟩ : ∃ n, fuel = n + 1 := ⟨fuel - 1, by simp [depth] at enough; omega⟩
      intro rest _
      cases value <;> simp [dumps, readValue, readLiteral, skipBlanks, isBlank]
  | .number value, fuel, enough => by
      obtain ⟨fuel, rfl⟩ : ∃ n, fuel = n + 1 := ⟨fuel - 1, by simp [depth] at enough; omega⟩
      exact read_value_number value fuel
  | .string value, fuel, enough => by
      obtain ⟨fuel, rfl⟩ : ∃ n, fuel = n + 1 := ⟨fuel - 1, by simp [depth] at enough; omega⟩
      intro rest _
      have body := read_string_text value rest
      simp only [dumps, stringText, List.cons_append, List.append_assoc, List.nil_append,
        readValue, skip_blanks_of_not_blank '"' _ (by decide), if_true, body, Option.map_some]
  | .array [], fuel, enough => by
      obtain ⟨fuel, rfl⟩ : ∃ n, fuel = n + 1 := ⟨fuel - 1, by simp [depth] at enough; omega⟩
      exact read_value_array_empty fuel [] rfl
  | .array (element :: elements), fuel, enough => by
      obtain ⟨fuel, rfl⟩ : ∃ n, fuel = n + 1 := ⟨fuel - 1, by simp [depth] at enough; omega⟩
      have inner : elementsDepth (element :: elements) ≤ fuel := by
        simp only [depth] at enough
        omega
      have each := dump_elements_read (element :: elements) fuel inner
      have array := read_value_array fuel [] [' '] rfl rfl
        (dumps element, element) (elements.map fun element => (dumps element, element))
        (by
          intro piece member
          rw [← List.map_cons (f := fun element => (dumps element, element))] at member
          obtain ⟨other, present, rfl⟩ := List.mem_map.mp member
          exact each other present)
      rw [← dump_elements_pieces, List.append_nil] at array
      simpa only [dumps, List.nil_append, List.map_map, Function.comp_def, List.map_id'] using array
  | .object [], fuel, enough => by
      obtain ⟨fuel, rfl⟩ : ∃ n, fuel = n + 1 := ⟨fuel - 1, by simp [depth] at enough; omega⟩
      exact read_value_object_empty fuel
  | .object ((key, value) :: members), fuel, enough => by
      obtain ⟨fuel, rfl⟩ : ∃ n, fuel = n + 1 := ⟨fuel - 1, by simp [depth] at enough; omega⟩
      have inner : membersDepth ((key, value) :: members) ≤ fuel := by
        simp only [depth] at enough
        omega
      have each := dump_members_read ((key, value) :: members) fuel inner
      have object := read_value_object fuel [] [' '] rfl rfl
        (stringText key ++ ([] ++ ':' :: ([' '] ++ dumps value)), (key, value))
        (members.map fun member =>
          (stringText member.1 ++ ([] ++ ':' :: ([' '] ++ dumps member.2)), member))
        (by
          intro piece among
          rw [← List.map_cons (f := fun member : String × Json =>
            (stringText member.1 ++ ([] ++ ':' :: ([' '] ++ dumps member.2)), member))
            (a := (key, value))] at among
          obtain ⟨other, present, rfl⟩ := List.mem_map.mp among
          exact read_member_text (value_reader fuel) other.1 [] [' '] (dumps other.2) other.2 rfl
            rfl (each other present))
      rw [← dump_members_pieces, List.append_nil] at object
      simpa only [dumps, List.nil_append, List.append_assoc, List.cons_append, List.map_map,
        Function.comp_def, List.map_id'] using object

theorem dump_elements_read : ∀ (elements : List Json) (fuel : Nat),
    elementsDepth elements ≤ fuel →
    ∀ element ∈ elements, Reads (readValue fuel) (dumps element) element
  | [], _, _, _, member => by simp at member
  | element :: elements, fuel, enough, other, member => by
      simp only [elementsDepth, Nat.max_le] at enough
      rcases List.mem_cons.mp member with same | later
      · rw [same]
        exact dumps_reads element fuel enough.1
      · exact dump_elements_read elements fuel enough.2 other later

theorem dump_members_read : ∀ (members : List (String × Json)) (fuel : Nat),
    membersDepth members ≤ fuel →
    ∀ member ∈ members, Reads (readValue fuel) (dumps member.2) member.2
  | [], _, _, _, present => by simp at present
  | (key, value) :: members, fuel, enough, other, present => by
      simp only [membersDepth, Nat.max_le] at enough
      rcases List.mem_cons.mp present with same | later
      · rw [same]
        exact dumps_reads value fuel enough.1
      · exact dump_members_read members fuel enough.2 other later

end

mutual

theorem depth_le_length : ∀ value : Json, depth value ≤ (dumps value).length
  | .null => by simp [depth, dumps]
  | .boolean value => by cases value <;> simp [depth, dumps]
  | .number value => by
      obtain ⟨c, tail, shape, -⟩ := number_text_head value
      simp [depth, dumps, shape]
  | .string value => by simp [depth, dumps, stringText]
  | .array [] => by simp [depth, elementsDepth, dumps]
  | .array (element :: elements) => by
      have first := depth_le_length element
      have others := elements_depth_le_length elements
      simp only [depth, elementsDepth, dumps, List.length_cons, List.length_append]
      omega
  | .object [] => by simp [depth, membersDepth, dumps]
  | .object ((key, value) :: members) => by
      have first := depth_le_length value
      have others := members_depth_le_length members
      simp only [depth, membersDepth, dumps, List.length_cons, List.length_append]
      omega

theorem elements_depth_le_length : ∀ elements : List Json,
    elementsDepth elements ≤ (dumpElements elements).length
  | [] => by simp [elementsDepth]
  | element :: elements => by
      have first := depth_le_length element
      have others := elements_depth_le_length elements
      simp only [elementsDepth, dumpElements, List.length_cons, List.length_append]
      omega

theorem members_depth_le_length : ∀ members : List (String × Json),
    membersDepth members ≤ (dumpMembers members).length
  | [] => by simp [membersDepth]
  | (key, value) :: members => by
      have first := depth_le_length value
      have others := members_depth_le_length members
      simp only [membersDepth, dumpMembers, List.length_cons, List.length_append]
      omega

end

theorem read_document_dumps (value : Json) : readDocument (dumps value) = some value := by
  have bound := depth_le_length value
  have read := dumps_reads value ((dumps value).length + 1) (by omega) [] delimited_nil
  rw [List.append_nil] at read
  simp [readDocument, read]

end RlInvestments.JsonText
