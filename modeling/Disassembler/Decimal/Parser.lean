import Disassembler.Decimal.Binary
import Disassembler.Text.Literal

/-!
# Reading floating point numbers

Decimal and hexadecimal numbers with an optional exponent, and the words for
infinity and for the undefined value, in any letter case.
-/

namespace Disassembler
namespace Binary

structure Mantissa where
  digits : Nat := 0
  /-- How many digits stand after the point. -/
  places : Nat := 0
  sawPoint : Bool := false
  sawDigit : Bool := false

/-- Read digits, a point and underscores as far as they go. -/
def readMantissa (base : Nat) (m : Mantissa) : List Char -> Mantissa × List Char
  | [] => (m, [])
  | c :: cs =>
      if c == '_' then readMantissa base m cs
      else if c == '.' && !m.sawPoint then readMantissa base { m with sawPoint := true } cs
      else match Literal.digit? c with
        | none => (m, c :: cs)
        | some d =>
            if base ≤ d then (m, c :: cs)
            else readMantissa base
              { m with
                digits := m.digits * base + d
                places := if m.sawPoint then m.places + 1 else m.places
                sawDigit := true } cs

/-- The digits of an exponent.  Those after the fifth do not matter. -/
def readExponentDigits (n : Nat) : List Char -> Nat × List Char
  | [] => (n, [])
  | c :: cs =>
      if c == '_' then readExponentDigits n cs
      else if '0' ≤ c ∧ c ≤ '9' then
        readExponentDigits (if n < 10000 then n * 10 + (c.toNat - '0'.toNat) else n) cs
      else (n, c :: cs)

def readExponent? (cs : List Char) : Option (Int × List Char) :=
  let negative := cs.head? == some '-'
  match Literal.dropSign cs with
  | [] => none
  | d :: ds =>
      if '0' ≤ d ∧ d ≤ '9' then
        let (n, rest) := readExponentDigits 0 (d :: ds)
        some (if negative then -n else n, rest)
      else none

/-- The ratio of a mantissa of the given base to a power of the exponent's
base. -/
def ratioOf (base exponentBase : Nat) (m : Mantissa) (exponent : Int) : Nat × Nat :=
  scale exponentBase m.digits (Nat.pow base m.places) exponent

def readMagnitude? (f : FloatFormat) (cs : List Char) : Option Magnitude :=
  let hex := match cs with
    | '0' :: x :: _ :: _ => x.toLower == 'x'
    | _ => false
  let (m, rest) :=
    if hex then readMantissa 16 {} (cs.drop 2) else readMantissa 10 {} cs
  let finish (exponent : Int) : Magnitude :=
    let (num, den) := if hex then ratioOf 16 2 m exponent else ratioOf 10 10 m exponent
    roundRatio f num den
  if !m.sawDigit then none
  else match rest with
    | [] => if hex then none else some (finish 0)
    | c :: rest =>
        if c.toLower == (if hex then 'p' else 'e') then
          match readExponent? rest with
          | some (e, []) => some (finish e)
          | _ => none
        else none

def isInfinityWord (cs : List Char) : Bool :=
  let s := String.ofList (cs.map Char.toLower)
  s == "inf" || s == "infinity"

def isUndefinedWord (cs : List Char) : Bool :=
  String.ofList (cs.map Char.toLower) == "nan"

/-- A floating point number of a format.  Underscores stand between digits, and
a number that rounds to infinity is out of range. -/
def parse (f : FloatFormat) (s : String) : Except Literal.Error Binary :=
  let cs := s.toList
  let negative := cs.head? == some '-'
  let digits := Literal.dropSign cs
  if isInfinityWord digits then .ok (signed negative .infinite)
  else if isUndefinedWord cs then .ok undefined
  else match readMagnitude? f digits with
    | none => .error .malformed
    | some m =>
        if cs.contains '_' && !Literal.underscoresOk cs then .error .malformed
        else if m = .infinite then .error .outOfRange
        else .ok (signed negative m)

end Binary
end Disassembler
