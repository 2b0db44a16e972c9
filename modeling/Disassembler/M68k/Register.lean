import Disassembler.Text.Number

/-!
# Registers

Register names, the index registers of an address and snapshots of register
values.
-/

namespace Disassembler
namespace M68k

inductive Register where
  | d (n : Fin 8)
  | a (n : Fin 8)
  | pc | sr | usp | isp | caar | cacr | dfc | msp | sfc | vbr | ex
  deriving DecidableEq, Repr

namespace Register

/-- All registers in their usual order. -/
def all : List Register :=
  (List.finRange 8).map d ++ (List.finRange 8).map a
    ++ [pc, sr, usp, isp, caar, cacr, dfc, msp, sfc, vbr, ex]

def name : Register -> String
  | d n => "D" ++ Number.decDigits n.val
  | a n => "A" ++ Number.decDigits n.val
  | pc => "PC"
  | sr => "SR"
  | usp => "USP"
  | isp => "ISP"
  | caar => "CAAR"
  | cacr => "CACR"
  | dfc => "DFC"
  | msp => "MSP"
  | sfc => "SFC"
  | vbr => "VBR"
  | ex => "EX"

/-- The name of the register at a place of the list, `?` outside of it. -/
def nameOfNumber (n : Int) : String :=
  if n < 0 then "?" else ((all[n.toNat]?).map name).getD "?"

end Register

/-! ## Bit names -/

def statusBitNames : List (Nat × String) :=
  [(0, "C"), (1, "V"), (2, "Z"), (3, "N"), (4, "X"), (8, "I0"), (9, "I1"), (10, "I2"),
    (12, "M"), (13, "S"), (14, "T0"), (15, "T1")]

def cacheControlBitNames : List (Nat × String) :=
  [(0, "EI"), (1, "FI"), (2, "CEI"), (3, "CI"), (4, "IBE"), (8, "ED"), (9, "FD"),
    (10, "CED"), (11, "CD"), (12, "DBE"), (13, "WA")]

/-! ## Index registers -/

/-- A register that can be an index, or the base of a full extension. -/
inductive IndexReg where
  | d (n : Fin 8)
  | a (n : Fin 8)
  | pc
  | absent
  /-- A number that stands for no register. -/
  | unlisted (n : Nat)
  deriving DecidableEq, Repr

namespace IndexReg

/-- Data registers come first, then address registers, the program counter
and the mark for no register. -/
def ofNumber (n : Nat) : IndexReg :=
  if h : n < 8 then d ⟨n, h⟩
  else if h : n < 16 then a ⟨n - 8, by omega⟩
  else if n = 16 then pc
  else if n = 17 then absent
  else unlisted n

def number : IndexReg -> Nat
  | d n => n.val
  | a n => n.val + 8
  | pc => 16
  | absent => 17
  | unlisted n => n

def name : IndexReg -> String
  | d n => "d" ++ Number.decDigits n.val
  | a n => "a" ++ Number.decDigits n.val
  | pc => "pc"
  | absent => ""
  | unlisted _ => "?"

end IndexReg

/-! ## Snapshots -/

/-- The values of all registers at one moment. -/
structure Registers where
  value : Register -> UInt32

namespace Registers

def zero : Registers where
  value _ := 0

def get (s : Registers) (r : Register) : UInt32 :=
  s.value r

def set (s : Registers) (r : Register) (v : UInt32) : Registers where
  value r' := if r' = r then v else s.value r'

/-- A data register.  Only the low three bits of the number count. -/
def data (s : Registers) (n : Nat) : UInt32 :=
  s.get (.d (low3 n))

/-- An address register.  Only the low three bits of the number count. -/
def address (s : Registers) (n : Nat) : UInt32 :=
  s.get (.a (low3 n))

/-- The value of an index register, zero if there is none. -/
def index (s : Registers) : IndexReg -> UInt32
  | .d n => s.get (.d n)
  | .a n => s.get (.a n)
  | .pc => s.get .pc
  | .absent | .unlisted _ => 0

end Registers

end M68k
end Disassembler
