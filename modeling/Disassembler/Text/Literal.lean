/-!
# Integer literals

Integers with an optional base: `0b`, `0o` or `0` and `0x` in front of the
digits.  Underscores may stand between digits and after the base.
-/

namespace Disassembler
namespace Literal

inductive Error where
  | malformed
  | outOfRange
  deriving DecidableEq, Repr

namespace Error

def message : Error -> String
  | malformed => "invalid syntax"
  | outOfRange => "value out of range"

end Error

/-! ## Digits -/

/-- The value of a digit.  Letters of either case go on after nine. -/
def digit? (c : Char) : Option Nat :=
  if '0' ≤ c ∧ c ≤ '9' then some (c.toNat - '0'.toNat)
  else if 'a' ≤ c ∧ c ≤ 'z' then some (c.toNat - 'a'.toNat + 10)
  else if 'A' ≤ c ∧ c ≤ 'Z' then some (c.toNat - 'A'.toNat + 10)
  else none

/-- Read digits after those that make up `n`.  The first fault counts: a
character that is no digit of the base, or a value above the limit. -/
def readDigits (base limit : Nat) (underscores : Bool) (n : Nat) : List Char -> Except Error Nat
  | [] => .ok n
  | c :: cs =>
      if underscores && c == '_' then readDigits base limit underscores n cs
      else match digit? c with
        | none => .error .malformed
        | some d =>
            if base ≤ d then .error .malformed
            else if limit < n * base + d then .error .outOfRange
            else readDigits base limit underscores (n * base + d) cs

/-! ## Underscores -/

/-- What stands before a character, as far as underscores are concerned. -/
inductive Before where
  | digit
  | underscore
  | other
  deriving DecidableEq

/-- Every underscore stands after a digit and before one. -/
def underscoresFrom (hex : Bool) (before : Before) : List Char -> Bool
  | [] => before != .underscore
  | c :: cs =>
      let isDigit := match digit? c with
        | some d => d < 10 || (hex && d < 16)
        | none => false
      if isDigit then underscoresFrom hex .digit cs
      else if c == '_' then before == .digit && underscoresFrom hex .underscore cs
      else before != .underscore && underscoresFrom hex .other cs

def dropSign : List Char -> List Char
  | '+' :: cs => cs
  | '-' :: cs => cs
  | cs => cs

/-- Whether the underscores of a literal are well placed.  A base counts as a
digit. -/
def underscoresOk (cs : List Char) : Bool :=
  match dropSign cs with
  | '0' :: b :: rest =>
      if b.toLower == 'x' then underscoresFrom true .digit rest
      else if b.toLower == 'b' || b.toLower == 'o' then underscoresFrom false .digit rest
      else underscoresFrom false .other ('0' :: b :: rest)
  | rest => underscoresFrom false .other rest

/-! ## Literals -/

/-- The base that the start of a literal names, and the digits after it. -/
def baseOf : List Char -> Nat × List Char
  | '0' :: b :: d :: rest =>
      if b.toLower == 'b' then (2, d :: rest)
      else if b.toLower == 'o' then (8, d :: rest)
      else if b.toLower == 'x' then (16, d :: rest)
      else (8, b :: d :: rest)
  | '0' :: rest => (8, rest)
  | cs => (10, cs)

def unsignedList (limit : Nat) (cs : List Char) : Except Error Nat :=
  if cs.isEmpty then .error .malformed
  else
    match readDigits (baseOf cs).1 limit true 0 (baseOf cs).2 with
    | .error e => .error e
    | .ok n => if cs.contains '_' && !underscoresOk cs then .error .malformed else .ok n

def unsigned (limit : Nat) (s : String) : Except Error Nat :=
  unsignedList limit s.toList

def maxUnsigned : Nat := 0xffffffffffffffff

def signed (s : String) : Except Error Int :=
  let negative := s.toList.head? == some '-'
  match unsignedList maxUnsigned (dropSign s.toList) with
  | .error .malformed => .error .malformed
  | .error .outOfRange => .error .outOfRange
  | .ok n =>
      if negative then if n ≤ 0x8000000000000000 then .ok (-n) else .error .outOfRange
      else if n < 0x8000000000000000 then .ok n else .error .outOfRange

/-- Hexadecimal digits without a base or underscores, up to a limit. -/
def hexadecimal (limit : Nat) (s : String) : Except Error Nat :=
  if s.isEmpty then .error .malformed else readDigits 16 limit false 0 s.toList

end Literal
end Disassembler
