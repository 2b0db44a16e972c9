/-!
# Binary floating point

Numbers of the form `m · 2^q` with a bounded mantissa and exponent, infinities
and an undefined value, together with rounding a ratio to the nearest of them.
-/

namespace Disassembler

/-- How many bits a mantissa has, and which exponents there are. -/
structure FloatFormat where
  precision : Nat
  minExponent : Int
  maxExponent : Int
  deriving DecidableEq, Repr

namespace FloatFormat

def binary64 : FloatFormat := ⟨53, -1074, 971⟩

def binary32 : FloatFormat := ⟨24, -149, 104⟩

end FloatFormat

/-- A floating point number, its sign apart. -/
inductive Magnitude where
  /-- The number `mantissa · 2^exponent`. -/
  | finite (mantissa : Nat) (exponent : Int)
  | infinite
  deriving DecidableEq, Repr

inductive Binary where
  | signed (negative : Bool) (m : Magnitude)
  | undefined
  deriving DecidableEq, Repr

namespace Binary

def zero : Binary :=
  signed false (.finite 0 FloatFormat.binary64.minExponent)

/-! ## Rounding -/

/-- The quotient, to the nearest integer.  A tie goes to the even one. -/
def roundDiv (num den : Nat) : Nat :=
  let q := num / den
  let twice := 2 * (num % den)
  if twice < den then q
  else if den < twice then q + 1
  else if q % 2 = 0 then q
  else q + 1

/-- The ratio `num / den` times `base ^ e`, as a ratio. -/
def scale (base num den : Nat) (e : Int) : Nat × Nat :=
  if 0 ≤ e then (num * Nat.pow base e.toNat, den) else (num, den * Nat.pow base (-e).toNat)

/-- The exponent for a ratio: the least one that leaves at most `precision`
bits before the point. -/
def exponentFor (f : FloatFormat) (num den : Nat) : Int :=
  let guess : Int := Nat.log2 num - Nat.log2 den - f.precision
  let (n, d) := scale 2 num den (-guess)
  let e := if n < d <<< f.precision then guess else guess + 1
  max e f.minExponent

/-- The number of a format that is nearest to a ratio. -/
def roundRatio (f : FloatFormat) (num den : Nat) : Magnitude :=
  if num = 0 then .finite 0 f.minExponent
  else
    let e := exponentFor f num den
    let (n, d) := scale 2 num den (-e)
    let m := roundDiv n d
    let (m, e) := if m = 1 <<< f.precision then (1 <<< (f.precision - 1), e + 1) else (m, e)
    if f.maxExponent < e then .infinite else .finite m e

def ofInt (f : FloatFormat) (n : Int) : Binary :=
  signed (n < 0) (roundRatio f n.natAbs 1)

def widen : Binary -> Binary
  | signed negative (.finite m e) =>
      let (n, d) := scale 2 m 1 e
      signed negative (roundRatio .binary64 n d)
  | x => x

/-! ## Bits -/

def magnitudeBits : Magnitude -> Nat
  | .infinite => 0x7ff <<< 52
  | .finite m e =>
      if m < 1 <<< 52 then m else (e + 1075).toNat <<< 52 + (m - 1 <<< 52)

/-- The encoding of a number in 64 bits; the undefined value has none. -/
def bits? : Binary -> Option Nat
  | signed negative m => some (magnitudeBits m + if negative then 1 <<< 63 else 0)
  | undefined => none

end Binary

end Disassembler
