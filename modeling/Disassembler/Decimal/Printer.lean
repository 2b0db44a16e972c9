import Disassembler.Decimal.Binary
import Disassembler.Text.Number

/-!
# Writing floating point numbers

The decimal digits of a binary number: to a number of places, to a number of
digits, or the fewest digits that read back as the same number.
-/

namespace Disassembler

/-- The decimal number `0.d₁d₂… · 10^point`. -/
structure DecimalDigits where
  digits : List Char
  point : Int
  deriving Repr

namespace Binary

def ratio (m : Nat) (e : Int) : Nat × Nat :=
  scale 2 m 1 e

def digitCount (n : Nat) : Nat :=
  (Nat.toDigits 10 n).length

/-- The exponent of the first decimal digit: the greatest `k` such that the
ratio is at least `10^k`. -/
def firstExponent (num den : Nat) : Int :=
  let guess : Int := digitCount num - digitCount den
  let (n, d) := scale 10 num den (-guess)
  if n < d then guess - 1 else guess

/-! ## A given number of digits -/

/-- The digits of a grid point, where the first digit has the exponent `k` and
there are `count` digits. -/
def ofGrid (k : Int) (count grid : Nat) : DecimalDigits :=
  { digits := Nat.toDigits 10 grid
    point := k + 1 + (digitCount grid - count) }

/-- No number of a format has as many decimal digits or places.  All further
ones are zeros. -/
def maxDigits : Nat := 1100

def significant (num den count : Nat) : DecimalDigits :=
  if num = 0 then { digits := ['0'], point := 1 }
  else
    let count := min count maxDigits
    let k := firstExponent num den
    let (n, d) := scale 10 num den (count - 1 - k)
    let grid := roundDiv n d
    let r := ofGrid k count grid
    { r with digits := r.digits.take count }

def rounded (num den places : Nat) : DecimalDigits :=
  let places := min places maxDigits
  let (n, d) := scale 10 num den places
  let digits := Nat.toDigits 10 (roundDiv n d)
  { digits, point := digits.length - places }

def dropZeros (digits : List Char) : List Char :=
  (digits.reverse.dropWhile (· == '0')).reverse

/-! ## The fewest digits -/

/-- The ends of the interval of ratios that are rounded to a magnitude, over a
common denominator, and whether they belong to it. -/
structure Interval where
  low : Nat
  high : Nat
  den : Nat
  closed : Bool

/-- The interval of a magnitude.  Below a power of two the numbers are closer
together. -/
def interval (f : FloatFormat) (m : Nat) (e : Int) : Interval :=
  let (unit, den) := ratio 1 (e - 2)
  let narrow := m == 1 <<< (f.precision - 1) && f.minExponent < e
  { low := (4 * m - if narrow then 1 else 2) * unit
    high := (4 * m + 2) * unit
    den
    closed := m % 2 == 0 }

def Interval.contains (i : Interval) (num den : Nat) : Bool :=
  if i.closed then i.low * den ≤ num * i.den && num * i.den ≤ i.high * den
  else i.low * den < num * i.den && num * i.den < i.high * den

/-- The point of the grid with `count` digits that lies in the interval and is
nearest to the ratio. -/
def gridPoint? (i : Interval) (num den : Nat) (k : Int) (count : Nat) : Option Nat :=
  let (n, d) := scale 10 num den (count - 1 - k)
  let below := n / d
  let isIn (grid : Nat) : Bool :=
    let (gn, gd) := scale 10 grid 1 (k + 1 - count)
    i.contains gn gd
  let nearest := roundDiv n d
  let other := if nearest = below then below + 1 else below
  if isIn nearest then some nearest
  else if isIn other then some other
  else none

/-- The fewest digits that read back as the same number. -/
def shortest (f : FloatFormat) (m : Nat) (e : Int) : DecimalDigits :=
  if m = 0 then { digits := ['0'], point := 1 }
  else
    let (num, den) := ratio m e
    let k := firstExponent num den
    let i := interval f m e
    let found := (List.range 17).findSome? fun c =>
      (gridPoint? i num den k (c + 1)).map fun grid => ofGrid k (c + 1) grid
    let r := found.getD (significant num den 17)
    { r with digits := dropZeros r.digits }

/-! ## Layouts -/

def takeDigits (n : Nat) (digits : List Char) : String :=
  (String.ofList (digits.take n)).pushn '0' (n - digits.length)

/-- Digits after a point, which is left out without them. -/
def fraction (places : Nat) (digits : List Char) : String :=
  if places = 0 then "" else "." ++ takeDigits places digits

def positional (d : DecimalDigits) (places : Nat) : String :=
  let whole := if d.point ≤ 0 then "0" else takeDigits d.point.toNat d.digits
  whole ++ fraction places (List.replicate (-d.point).toNat '0' ++ d.digits.drop d.point.toNat)

def exponentText (e : Int) : String :=
  (if e < 0 then "-" else "+") ++ Number.padZero 2 (Number.decDigits e.natAbs)

def scientific (d : DecimalDigits) (places : Nat) (letter : Char) : String :=
  let exponent : Int := if d.digits.all (· == '0') then 0 else d.point - 1
  takeDigits 1 d.digits ++ fraction places (d.digits.drop 1) ++ String.singleton letter
    ++ exponentText exponent

/-- Positional form unless the exponent is small or not below the limit; then
scientific form. -/
def general (d : DecimalDigits) (limit : Int) (letter : Char) : String :=
  let exponent := d.point - 1
  if exponent < -4 || limit ≤ exponent then scientific d (d.digits.length - 1) letter
  else positional d (d.digits.length - d.point).toNat

/-! ## Powers of two -/

def powerForm (m : Nat) (e : Int) : String :=
  Number.decDigits m ++ "p" ++ (if 0 ≤ e then "+" else "") ++ Number.signedDigits e

def hexDigitsOf (count n : Nat) : List Char :=
  (Number.hexPadded count n).toList

/-- The fewest hexadecimal places of `m / 2^log2 m` after its first digit. -/
def hexPlaces (m : Nat) : List Char :=
  let bits := Nat.log2 m
  let count := (bits + 3) / 4
  if count = 0 then [] else dropZeros (hexDigitsOf count ((m - 1 <<< bits) <<< (4 * count - bits)))

/-- Hexadecimal places of `m / 2^log2 m` after its first digit, and whether
rounding them carries over to the next power of two. -/
def hexRounded (m places : Nat) : List Char × Bool :=
  let places := min places 15
  let grid := roundDiv (m <<< (4 * places)) (1 <<< Nat.log2 m)
  let carries := grid = 2 <<< (4 * places)
  (if places = 0 || carries then [] else hexDigitsOf places (grid - 1 <<< (4 * places)), carries)

/-- Hexadecimal form with a power of two.  The first digit is one, unless the
number is zero. -/
def hexForm (m : Nat) (e : Int) (places : Option Nat) : String :=
  let first := if m = 0 then "0" else "1"
  let exponent : Int := if m = 0 then 0 else e + Nat.log2 m
  let (after, exponent) : String × Int := match places with
    | none =>
        let digits := if m = 0 then [] else hexPlaces m
        (fraction digits.length digits, exponent)
    | some n =>
        let (digits, carries) := if m = 0 then ([], false) else hexRounded m n
        (fraction n digits, if carries then exponent + 1 else exponent)
  "0x" ++ first ++ after ++ "p" ++ exponentText exponent

/-! ## Numbers -/

inductive Layout where
  /-- Positional, with a number of places. -/
  | fixed (places : Nat)
  /-- Scientific, with a number of places. -/
  | exponent (places : Nat) (letter : Char)
  /-- Whatever is shorter, with a number of significant digits. -/
  | digits (count : Nat) (letter : Char)
  /-- Whatever is shorter, with the fewest digits that read back. -/
  | fewest (letter : Char)
  /-- An integer and a power of two. -/
  | power
  /-- Hexadecimal digits and a power of two. -/
  | hexadecimal (places : Option Nat)
  deriving Repr

/-- The exponent from which on the fewest digits are in scientific form. -/
def fewestLimit : Int := 6

def magnitudeText (f : FloatFormat) (layout : Layout) (m : Nat) (e : Int) : String :=
  let (num, den) := ratio m e
  match layout with
  | .fixed places => positional (rounded num den places) places
  | .exponent places letter => scientific (significant num den (places + 1)) places letter
  | .digits count letter =>
      let count := max count 1
      let d := significant num den count
      let trimmed := dropZeros d.digits
      let trimmed := if trimmed.isEmpty then ['0'] else trimmed
      let limit : Int := if trimmed.length < count ∧ d.point ≤ trimmed.length
        then trimmed.length else count
      general { d with digits := trimmed } limit letter
  | .fewest letter => general (shortest f m e) fewestLimit letter
  | .power => powerForm m e
  | .hexadecimal places => hexForm m e places

def text (f : FloatFormat) (layout : Layout) : Binary -> String
  | undefined => "NaN"
  | signed negative .infinite => if negative then "-Inf" else "+Inf"
  | signed negative (.finite m e) =>
      (if negative then "-" else "") ++ magnitudeText f layout m e

end Binary

end Disassembler
