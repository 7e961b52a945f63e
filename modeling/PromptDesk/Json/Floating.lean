/-! Binary floating-point numbers of 64 bits, as a sign, a mantissa and an exponent of two. A
quotient is rounded to the nearest number once, exactly, and ties go to the even mantissa; a
number is written with the fewest digits that read back. -/
namespace PromptDesk.Json

/-- The number ± mantissa * 2^exponent. The mantissa of a rounded number is below 2^53 and the
exponent lies between -1074 and 971. -/
structure Floating where
  negative : Bool
  mantissa : Nat
  exponent : Int
  deriving DecidableEq, Inhabited, Repr

namespace Floating

def pow2 (e : Int) : Nat := Nat.pow 2 e.toNat

/-- The exponent at which the quotient has 53 bits before the point, or the least one there is. -/
def scaleOf (num den : Nat) : Int :=
  let guess : Int := num.log2 - den.log2 - 53
  let e : Int :=
    if num * pow2 (-guess - 1) < den * pow2 (guess + 1) * pow2 52 then guess else guess + 1
  max e (-1074)

/-- The number nearest to num / den; none beyond the largest one. -/
def ofRatio? (negative : Bool) (num den : Nat) : Option Floating :=
  if num = 0 then some ⟨negative, 0, 0⟩ else
  let e := scaleOf num den
  let n := num * pow2 (-e)
  let d := den * pow2 e
  let q := n / d
  let r := n % d
  let q := if 2 * r > d || (2 * r == d && q % 2 == 1) then q + 1 else q
  let (q, e) := if q = pow2 53 then (pow2 52, e + 1) else (q, e)
  if e > 971 then none else some ⟨negative, q, e⟩

/-- The number as a quotient of natural numbers, its sign aside. -/
def ratio (x : Floating) : Nat × Nat := (x.mantissa * pow2 x.exponent, pow2 (-x.exponent))

/-- The product, rounded. -/
def mul? (x y : Floating) : Option Floating :=
  ofRatio? (x.negative != y.negative) (x.ratio.1 * y.ratio.1) (x.ratio.2 * y.ratio.2)

/-- The quotient by a number that is not zero, rounded. -/
def div? (x y : Floating) : Option Floating :=
  ofRatio? (x.negative != y.negative) (x.ratio.1 * y.ratio.2) (x.ratio.2 * y.ratio.1)

/-- The number nearest to a power of ten. -/
def pow10 (k : Nat) : Floating := (ofRatio? false (Nat.pow 10 k) 1).getD ⟨false, 0, 0⟩

/-- Scales by a power of ten, in steps that a table of 308 powers allows: too large a number is
none, too small a one becomes zero. -/
def scale? (x : Floating) (e : Int) : Nat → Option Floating
  | 0 => some x
  | fuel + 1 =>
    let k := e.natAbs
    if k ≤ 308 then if e ≥ 0 then x.mul? (pow10 k) else x.div? (pow10 k)
    else if x.mantissa = 0 then some x
    else if e ≥ 0 then none
    else match x.div? (pow10 308) with
      | some y => y.scale? (e + 308) fuel
      | none => none

/-- A significand below 2^64 times a power of ten: first the significand is rounded, then its
product or quotient. -/
def ofDecimal? (negative : Bool) (significand : Nat) (e : Int) : Option Floating :=
  match ofRatio? negative significand 1 with
  | some x => x.scale? e (e.natAbs / 308 + 1)
  | none => none

/-- The least number below a bound that passes a test, or the bound. -/
def leastBelow (bound : Nat) (p : Nat → Bool) : Nat := ((List.range bound).find? p).getD bound

/-- How many decimal digits stand before the point of num / den, zero or less for a fraction
without leading tenths. -/
def decimalPlace (num den : Nat) : Int :=
  if den ≤ num then leastBelow 400 fun k => num < den * Nat.pow 10 k
  else 1 - (leastBelow 400 fun k => den ≤ num * Nat.pow 10 k : Nat)

/-- The decimal with a given number of digits that is nearest to the number, if it reads back. -/
def digitsAt? (x : Floating) (n : Nat) : Option (Nat × Int) :=
  let (num, den) := x.ratio
  let unit : Int := decimalPlace num den - n
  let n' := num * Nat.pow 10 (-unit).toNat
  let d' := den * Nat.pow 10 unit.toNat
  let low := n' / d'
  let reads (c : Nat) : Bool :=
    ofRatio? false (c * Nat.pow 10 unit.toNat) (Nat.pow 10 (-unit).toNat) ==
      some { x with negative := false }
  let r := n' % d'
  let nearer := if 2 * r > d' || (2 * r == d' && low % 2 == 1) then low + 1 else low
  let other := if nearer = low then low + 1 else low
  if reads nearer then some (nearer, unit) else if reads other then some (other, unit) else none

/-- The fewest digits that read back, without zeros on the right, and the power of ten of the last
of them. -/
def shortest (x : Floating) : List Char × Int :=
  let found := ((List.range 18).drop 1).findSome? fun n => x.digitsAt? n
  let (digits, e) := found.getD (0, 0)
  let cs := Nat.toDigits 10 digits
  let zeros := (cs.reverse.takeWhile (· == '0')).length
  if digits = 0 then (['0'], 0) else (cs.take (cs.length - zeros), e + zeros)

/-- Positional up to sixteen places before the point and down to five after it, with an exponent
beyond. -/
def text (x : Floating) : List Char :=
  let sign := if x.negative then ['-'] else []
  if x.mantissa = 0 then sign ++ ['0', '.', '0'] else
  let (ds, e) := x.shortest
  let point : Int := ds.length + e
  let exponent (k : Int) : List Char :=
    'e' :: (if k < 0 then '-' :: Nat.toDigits 10 k.natAbs else Nat.toDigits 10 k.natAbs)
  sign ++
    if 0 ≤ e && point ≤ 16 then ds ++ List.replicate e.toNat '0' ++ ['.', '0']
    else if 0 < point && point ≤ 16 then ds.take point.toNat ++ '.' :: ds.drop point.toNat
    else if -5 < point && point ≤ 0 then
      '0' :: '.' :: List.replicate (-point).toNat '0' ++ ds
    else match ds with
      | [d] => d :: exponent (point - 1)
      | d :: rest => d :: '.' :: rest ++ exponent (point - 1)
      | [] => []

end Floating

end PromptDesk.Json
