import Disassembler.M68k.Decode.Immediate

/-!
# Moves

Data movement between effective addresses, register lists and control
registers.
-/

namespace Disassembler
namespace M68k
namespace Decoder

open Word16 (bit field)

/-- A source of any mode, except that a byte cannot come from an address
register. -/
def anySource (size : Suffix) (m : Mode) : Bool :=
  if size = .byte then m.isData else true

/-- `move` and `movea` of the given size.  The destination has its register
field before its mode field. -/
def moveSized (cpu : Cpu) (w : UInt16) (size : Suffix) : Decoder Operation := do
  let src <- effective cpu w size (anySource size)
  if field w 6 3 = 1 then
    Fetch.ensure (size != .byte)
    return .binary .movea size src (addrRegOf w 9)
  else
    let dst <- operandOf cpu (field3 w 6) (field3 w 9) size Mode.isDataAlterable
    return .binary .move size src dst

def moveQuick (w : UInt16) : Decoder Operation := do
  Fetch.ensure (!bit w 8)
  return .binary .moveq .none (.immediate (Word16.lowSigned w).toInt32.toUInt32) (dataRegOf w 9)

/-! ## Register lists -/

def reverseMask (mask : UInt16) : UInt16 :=
  let reversed := (List.range 16).filter fun i => bit mask (15 - i)
  UInt16.ofNat (reversed.foldr (fun i m => 1 <<< i ||| m) 0)

/-- `movem`.  The predecrement mode has its mask in reverse order. -/
def moveMultiple (cpu : Cpu) (w : UInt16) : Decoder Operation := do
  let size := if bit w 6 then Suffix.long else Suffix.word
  let mask <- Fetch.next
  if bit w 10 then
    let src <- effective cpu w size fun m => m.isControl || m = .postInc
    return .binary .movem size src (.regList mask)
  else
    let dst <- effective cpu w size fun m => m.isControlAlterable || m = .preDec
    let mask := if field w 3 3 = 4 then reverseMask mask else mask
    return .binary .movem size (.regList mask) dst

/-! ## Control registers -/

/-- The control registers of `movec` with their names. -/
def controlRegNames : List (UInt16 × String) :=
  [(0x000, "sfc"), (0x001, "dfc"), (0x002, "cacr"), (0x800, "usp"), (0x801, "vbr"),
    (0x802, "caar"), (0x803, "msp"), (0x804, "isp")]

def hasControlReg (cpu : Cpu) (code : UInt16) : Bool :=
  if code ∈ [0x000, 0x001, 0x800, 0x801] then true
  else if code ∈ [0x002, 0x802, 0x803, 0x804] then cpu.is020
  else false

def moveControl (cpu : Cpu) (w : UInt16) : Decoder Operation := do
  Fetch.ensure cpu.is010
  let ext <- Fetch.next
  let code := ext % 4096
  Fetch.ensure (hasControlReg cpu code)
  let reg := registerOf (field ext 12 4)
  return if bit w 0 then .binary .movec .none reg (.controlReg code)
    else .binary .movec .none (.controlReg code) reg

end Decoder
end M68k
end Disassembler
