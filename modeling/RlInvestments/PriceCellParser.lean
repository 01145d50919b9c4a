import Mathlib.Data.List.Basic
import RlInvestments.Binary64Rounding

/-!
# The price cell parser

The body of the inner `try` of `parseTable`, which is the same in both scrapers.
`none` is the `None` that the catch-all handler appends when any step raises.
Python's `float` is given by its grammar: the digits and spaces of any script
become ASCII, single underscores may separate digits, and what is left is a
decimal literal, an infinity or a NaN.
-/

namespace RlInvestments.PriceCellParser

open RlInvestments.Binary64Rounding

set_option autoImplicit false

def isAsciiSpace (c : Char) : Bool := c = ' ' || (9 ≤ c.toNat && c.toNat ≤ 13)

def isWideSpace (c : Char) : Bool :=
  c.toNat ∈ [0x85, 0xA0, 0x1680, 0x2028, 0x2029, 0x202F, 0x205F, 0x3000] ||
    (0x2000 ≤ c.toNat && c.toNat ≤ 0x200A)

/-- The code points of the zeros of the scripts with decimal digits; each script's
ten digits are consecutive. -/
def wideZeros : List Nat :=
  [0x660, 0x6F0, 0x7C0, 0x966, 0x9E6, 0xA66, 0xAE6, 0xB66, 0xBE6, 0xC66, 0xCE6, 0xD66, 0xDE6,
    0xE50, 0xED0, 0xF20, 0x1040, 0x1090, 0x17E0, 0x1810, 0x1946, 0x19D0, 0x1A80, 0x1A90, 0x1B50,
    0x1BB0, 0x1C40, 0x1C50, 0xA620, 0xA8D0, 0xA900, 0xA9D0, 0xA9F0, 0xAA50, 0xABF0, 0xFF10,
    0x104A0, 0x10D30, 0x11066, 0x110F0, 0x11136, 0x111D0, 0x112F0, 0x11450, 0x114D0, 0x11650,
    0x116C0, 0x11730, 0x118E0, 0x11950, 0x11C50, 0x11D50, 0x11DA0, 0x16A60, 0x16AC0, 0x16B50,
    0x1D7CE, 0x1D7D8, 0x1D7E2, 0x1D7EC, 0x1D7F6, 0x1E140, 0x1E2F0, 0x1E950, 0x1FBF0]

def wideDigit (c : Char) : Option Char :=
  (wideZeros.find? fun base => base ≤ c.toNat && c.toNat < base + 10).map fun base =>
    Nat.digitChar (c.toNat - base)

/-- ASCII text stays as it is, other text is rewritten character by character;
`none` stands for a character that no number can contain. -/
def asciiForm (text : List Char) : Option (List Char) :=
  if text.all fun c => c.toNat < 128 then some text
  else text.mapM fun c =>
    if c.toNat < 127 then some c
    else if isWideSpace c then some ' '
    else wideDigit c

def strip (text : List Char) : List Char :=
  ((text.dropWhile isAsciiSpace).reverse.dropWhile isAsciiSpace).reverse

/-- Underscores may stand only between two digits. -/
def dropUnderscores (previous : Char) : List Char → Option (List Char)
  | [] => if previous = '_' then none else some []
  | c :: rest =>
      if c = '_' then
        if previous.isDigit then dropUnderscores c rest else none
      else if previous = '_' && !c.isDigit then none
      else (dropUnderscores c rest).map (c :: ·)

def splitSign : List Char → Bool × List Char
  | '-' :: rest => (true, rest)
  | '+' :: rest => (false, rest)
  | text => (false, text)

def exponentPart : List Char → Option Int
  | [] => some 0
  | c :: rest =>
      if c = 'e' ∨ c = 'E' then
        let (negative, digits) := splitSign rest
        if digits ≠ [] ∧ digits.all Char.isDigit then
          let magnitude : Int := Nat.ofDigitChars 10 digits 0
          some (if negative then -magnitude else magnitude)
        else none
      else none

def decimalLiteral (text : List Char) : Option ℚ :=
  let (whole, afterWhole) := text.span Char.isDigit
  let (fraction, afterFraction) := match afterWhole with
    | '.' :: rest => rest.span Char.isDigit
    | _ => ([], afterWhole)
  if whole ++ fraction = [] then none
  else
    (exponentPart afterFraction).map fun exponent : Int =>
      Nat.ofDigitChars 10 (whole ++ fraction) 0 * (10 : ℚ) ^ (exponent - fraction.length)

def numberLiteral (text : List Char) : Option Binary64 :=
  let (negative, body) := splitSign text
  let word := body.map Char.toLower
  if word = ['i', 'n', 'f'] ∨ word = ['i', 'n', 'f', 'i', 'n', 'i', 't', 'y'] then
    some (.infinite negative)
  else if word = ['n', 'a', 'n'] then some .nan
  else (decimalLiteral body).map fun value => ofRational (if negative then -value else value)

/-- `float(text)`; `none` is the `ValueError`. -/
def pyFloat (text : List Char) : Option Binary64 := do
  let ascii ← asciiForm text
  let digits ← dropUnderscores '\x00' (strip ascii)
  numberLiteral digits

theorem drop_while_none {keep : Char → Bool} {text : List Char}
    (none : ∀ c ∈ text, keep c = false) : text.dropWhile keep = text := by
  cases text with
  | nil => rfl
  | cons c rest => rw [List.dropWhile_cons, if_neg (by simp [none c (List.mem_cons_self ..)])]

theorem strip_none {text : List Char} (none : ∀ c ∈ text, isAsciiSpace c = false) :
    strip text = text := by
  rw [strip, drop_while_none none, drop_while_none, List.reverse_reverse]
  intro c member
  exact none c (List.mem_reverse.mp member)

theorem drop_underscores_none {previous : Char} {text : List Char} (start : previous ≠ '_')
    (absent : '_' ∉ text) : dropUnderscores previous text = some text := by
  induction text generalizing previous with
  | nil => rw [dropUnderscores, if_neg start]
  | cons c rest induction =>
      have notUnderscore : c ≠ '_' := by
        rintro rfl
        exact absent (List.mem_cons_self ..)
      rw [dropUnderscores, if_neg notUnderscore, if_neg (by simp [start]),
        induction notUnderscore (mt (List.mem_cons_of_mem _) absent)]
      rfl

theorem split_sign_none {text : List Char} (noMinus : '-' ∉ text) (noPlus : '+' ∉ text) :
    splitSign text = (false, text) := by
  unfold splitSign
  split
  · exact absurd (List.mem_cons_self ..) noMinus
  · exact absurd (List.mem_cons_self ..) noPlus
  · rfl

abbrev PricePair := Int × Int

def hairSpace : Char := Char.ofNat 0x200A
def emSpace : Char := Char.ofNat 0x2003

def removeSpaces (text : List Char) : List Char :=
  (text.filter (· ≠ hairSpace)).filter (· ≠ emSpace)

def scaled (k : Bool) (number : Binary64) : Binary64 :=
  if k then mul number (.finite 1000) else number

def parsePrice (cellText : String) : Option PricePair := do
  let currentPrice := removeSpaces cellText.toList
  -- `currentPrice[len(currentPrice) - 1]` raises on the empty text only.
  let last ← currentPrice.getLast?
  let k := decide (last = 'k')
  let currentPrice := if k then currentPrice.dropLast else currentPrice
  let splitPrice := currentPrice.splitOn '-'
  let num1 ← pyFloat (← splitPrice[0]?)
  let num2 ← pyFloat (← splitPrice[1]?)
  let lower ← truncate (scaled k num1)
  let upper ← truncate (scaled k num2)
  some (lower, upper)

example : parsePrice "1.5-2.25k" = some (1500, 2250) := by decide +kernel

end RlInvestments.PriceCellParser
