import Mathlib.Data.Int.Log
import Mathlib.Data.Rat.Floor
import Mathlib.Tactic

/-!
# IEEE-754 binary64 values as rationals

A finite value is the rational it denotes; the sign of zero is not kept. Every
arithmetic result is the exact rational rounded once, to the nearest multiple of
the quantum of its binade and to an even significand on a tie. Subnormals share
the smallest quantum, and results of magnitude `2 ^ 1024` or more overflow.
-/

namespace RlInvestments.Binary64Rounding

set_option autoImplicit false

inductive Binary64 where
  | finite (value : ℚ)
  | infinite (negative : Bool)
  | nan
deriving DecidableEq, Repr

def roundHalfEven (q : ℚ) : ℤ :=
  let below := ⌊q⌋
  if q - below < 1 / 2 then below
  else if 1 / 2 < q - below then below + 1
  else if below % 2 = 0 then below else below + 1

/-- The distance between neighbouring values in the binade of `q`. -/
def quantum (q : ℚ) : ℚ := 2 ^ max (Int.log 2 |q| - 52) (-1074)

def ofRational (q : ℚ) : Binary64 :=
  if q = 0 then .finite 0
  else
    let value := roundHalfEven (q / quantum q) * quantum q
    if 2 ^ 1024 ≤ |value| then .infinite (q < 0) else .finite value

def mul : Binary64 → Binary64 → Binary64
  | .finite x, .finite y => ofRational (x * y)
  | .infinite negative, .finite y =>
      if y = 0 then .nan else .infinite (xor negative (y < 0))
  | .finite x, .infinite negative =>
      if x = 0 then .nan else .infinite (xor negative (x < 0))
  | .infinite left, .infinite right => .infinite (xor left right)
  | .nan, _ => .nan
  | _, .nan => .nan

/-- Rounding towards zero; infinities and NaN have no integer part. -/
def truncate : Binary64 → Option ℤ
  | .finite value => some (if 0 ≤ value then ⌊value⌋ else ⌈value⌉)
  | .infinite _ => none
  | .nan => none

end RlInvestments.Binary64Rounding
