import RlInvestments.JsonText
import RlInvestments.PriceCellParser
import RlInvestments.WhileLoops
import RlInvestments.WordSearch

/-!
# The hover-data parser

`parseprice` of `RL_Insider_Scrapper_P2.py`. A price cell carries its numbers in a text
that the page's script reads; the parser takes them out of a list of letters by
deleting and comparing. Each loop is the loop of the source: one that deletes from the
front goes down the list, one with a moving index keeps the index. Indexing past the
end raises, and so does `int` on what is not a numeral.
-/

namespace RlInvestments.HoverDataParser

open RlInvestments.JsonText RlInvestments.PriceCellParser RlInvestments.WhileLoops
open RlInvestments.WordSearch

set_option autoImplicit false

inductive PyFault where
  | indexError
  | valueError
deriving DecidableEq, Repr

/-- A loop that runs off the end of its list raises there. -/
def inRange {Value : Type} : Option Value → Except PyFault Value
  | none => .error .indexError
  | some value => .ok value

def lettersAt (list : List Char) (i count : Nat) : Except PyFault (List Char) :=
  if i + count ≤ list.length then .ok ((list.drop i).take count) else .error .indexError

def deleteFirst (count : Nat) (list : List Char) : Except PyFault (List Char) :=
  if count ≤ list.length then .ok (list.drop count) else .error .indexError

/-- The loop deletes in place, so the index moves only past the letters that stay. -/
def removeWhitespace : List Char → List Char
  | [] => []
  | letter :: rest =>
      if letter = ' ' then removeWhitespace rest else letter :: removeWhitespace rest

/-- `int(tempString)`; `none` is the `ValueError`. The interpreter has no limit on the length. -/
def pyInt (text : List Char) : Option Int := do
  let ascii ← asciiForm text
  let digits ← dropUnderscores '\x00' (strip ascii)
  let (negative, magnitude) := splitSign digits
  if magnitude ≠ [] ∧ magnitude.all Char.isDigit then
    some (signed negative (Nat.ofDigitChars 10 magnitude 0))
  else none

/-- The comparison is made only where seven letters are left. -/
def hasNoHover (list : List Char) : Bool :=
  forPositions list.length (fun noHover i =>
    if i + 7 ≤ list.length then
      if (list.drop i).take 7 = "noHover".toList then true else noHover
    else noHover) false

/-- The price object with its braces. The history object is looked for in the same way,
and not used. -/
def priceObject (list : List Char) : Except PyFault (List Char) := do
  let list ← inRange (deleteUntil "data".toList list)
  let list ← inRange (deleteUntil ['k'] list)
  let list ← deleteFirst 3 list
  let (tempList, _) ← inRange (splitUntil '}' list)
  let historyList ← inRange (deleteUntil ['h'] list)
  let historyList ← deleteFirst 3 historyList
  let _ ← inRange (splitUntil '}' historyList)
  .ok (tempList ++ ['}'])

/-- One round of a detection loop, on `i` and `platforms`. -/
def comparePlatform (name : String) (list : List Char) (scan : Nat × List String) :
    Except (Stop PyFault) (Nat × List String) := do
  let (i, platforms) := scan
  let letters ← liftFault (lettersAt list i name.toList.length)
  .ok (i + 1, if letters = name.toList then platforms ++ [name] else platforms)

/-- `while i != (len(List) - back)`, where the bound may be negative. A round either raises or
moves the index inside the list, so no more rounds than letters are ever made. -/
def detectPlatform (name : String) (back : Nat) (list : List Char) (platforms : List String) :
    Except (Stop PyFault) (List String) := do
  let (_, platforms) ← runWhile (fun scan => decide ((scan.1 : Int) ≠ list.length - back))
    (comparePlatform name list) (list.length + 1) (0, platforms)
  .ok platforms

def detectPlatforms (list : List Char) : Except (Stop PyFault) (List String) := do
  let platforms ← detectPlatform "pc" 1 list []
  let platforms ← detectPlatform "ps4" 2 list platforms
  let platforms ← detectPlatform "switch" 5 list platforms
  detectPlatform "xbox" 3 list platforms

def readNumber (stop : Char) (list : List Char) : Except PyFault (Int × List Char) := do
  let (tempString, list) ← inRange (splitUntil stop list)
  match pyInt tempString with
  | none => .error .valueError
  | some value => .ok (value, list.tail)

/-- The next two numbers in brackets, whatever platform they stand for. -/
def readPrices (list : List Char) : Except PyFault (PricePair × List Char) := do
  let list ← inRange (deleteUntil ['['] list)
  let (low, list) ← readNumber ',' list.tail
  let (high, list) ← readNumber ']' list
  .ok ((low, high), list)

/-- The block of one platform. -/
def readPlatform (name : String) (platforms : List String) (list : List Char) :
    Except PyFault (Option PricePair × List Char) :=
  if name ∈ platforms then do
    let (prices, list) ← readPrices list
    .ok (some prices, list)
  else .ok (none, list)

def readPlatforms (platforms : List String) (list : List Char) :
    Except PyFault (List (Option PricePair)) := do
  let (pcPrices, list) ← readPlatform "pc" platforms list
  let (ps4Prices, list) ← readPlatform "ps4" platforms list
  let (switchPrices, list) ← readPlatform "switch" platforms list
  let (xboxPrices, _) ← readPlatform "xbox" platforms list
  .ok [pcPrices, ps4Prices, switchPrices, xboxPrices]

def parseprice (unparsed : String) : Except (Stop PyFault) (List (Option PricePair)) :=
  let list := removeWhitespace unparsed.toList
  if list = [] then .ok [none, none, none, none]
  else if hasNoHover list then .ok [none, none, none, none]
  else do
    let list ← liftFault (priceObject list)
    let platforms ← detectPlatforms list
    liftFault (readPlatforms platforms list)

example :
    parseprice "<td data-x=\"k\":\x7b\"pc\": [10, 20],\"switch\":[-3,4]\x7d,\"h\":\x7b\x7d\">" =
      .ok [some (10, 20), none, some (-3, 4), none] := by decide +kernel

end RlInvestments.HoverDataParser
