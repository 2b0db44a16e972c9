import Disassembler.Binary.Word
import Disassembler.Text.Column

/-!
# Number text

How addresses, displacements and raw instruction units are spelled in a
listing.
-/

namespace Disassembler

/-- How signed displacements are spelled. -/
inductive Style where
  | decimal
  | hex
  deriving DecidableEq, Repr

namespace Style

def name : Style -> String
  | decimal => "decimal"
  | hex => "hex"

/-- Styles by number; every number but one is decimal. -/
def ofNumber (n : Int) : Style :=
  if n = 1 then hex else decimal

end Style

namespace Number

def hexDigits (n : Nat) : String :=
  String.ofList (Nat.toDigits 16 n)

def decDigits (n : Nat) : String :=
  String.ofList (Nat.toDigits 10 n)

def signedDigits (n : Int) : String :=
  if n < 0 then "-" ++ decDigits n.natAbs else decDigits n.natAbs

/-- Put zeros in front of a text that has fewer than `width` characters. -/
def padZero (width : Nat) (s : String) : String :=
  String.ofList (List.replicate (width - s.length) '0') ++ s

def hexPadded (width n : Nat) : String :=
  padZero width (hexDigits n)

def hex (v : UInt32) : String :=
  "$" ++ hexDigits v.toNat

/-- A 16-bit absolute address.  Addresses with bit 15 set are shown sign
extended to 32 bits. -/
def absWord (v : UInt16) : String :=
  if v.toNat.testBit 15 then "$ffff" ++ hexPadded 4 v.toNat else "$" ++ hexDigits v.toNat

/-- A displacement.  In hexadecimal style the sign stands before the `$`. -/
def signed (style : Style) (v : Int32) : String :=
  match style with
  | .decimal => signedDigits v.toInt
  | .hex =>
      if v.toInt < 0 then "-$" ++ hexDigits v.toInt.natAbs else "$" ++ hexDigits v.toInt.natAbs

/-- The bytes of an instruction as big-endian words with blanks between them.
An odd byte at the end stands alone. -/
def byteGroups : Bytes -> List String
  | high :: low :: rest => (hexPadded 2 high.toNat ++ hexPadded 2 low.toNat) :: byteGroups rest
  | [last] => [hexPadded 2 last.toNat]
  | [] => []

def bytecode (mem : Bytes) : String :=
  Text.join " " (byteGroups mem)

def bytecode24 (mem : List Word24) : String :=
  Text.join " " (mem.map fun w => hexPadded 6 w.toNat)

end Number

end Disassembler
