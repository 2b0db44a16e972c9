import Disassembler.M68k.Decode.Shift

/-!
# Control and single-operand instructions

The instructions whose first word begins with the digit 4.
-/

namespace Disassembler
namespace M68k
namespace Decoder

open Word16 (bit field)

def single (cpu : Cpu) (w : UInt16) (op : Opcode) (size : Suffix) (allowed : Mode -> Bool) :
    Decoder Operation := do
  let x <- effective cpu w size allowed
  return .unary op size x

/-- The first words that are a whole instruction, or all of it but one
immediate word. -/
def fixed? (cpu : Cpu) (w : UInt16) : Option (Decoder Operation) :=
  match w.toNat with
  | 0x4afc => some (return .nullary .illegal .none)
  | 0x4e70 => some (return .nullary .reset .none)
  | 0x4e71 => some (return .nullary .nop .none)
  | 0x4e72 => some do
      let imm <- immediate .word
      return .unary .stop .none imm
  | 0x4e73 => some (return .nullary .rte .none)
  | 0x4e74 => some do
      Fetch.ensure cpu.is010
      let imm <- immediate .word
      return .unary .rtd .none imm
  | 0x4e75 => some (return .nullary .rts .none)
  | 0x4e76 => some (return .nullary .trapv .none)
  | 0x4e77 => some (return .nullary .rtr .none)
  | 0x4e7a | 0x4e7b => some (moveControl cpu w)
  | _ => none

/-- The instructions with only a register number, or a trap number, in their
first word. -/
def numbered? (cpu : Cpu) (w : UInt16) : Option (Decoder Operation) :=
  let reg := field w 0 3
  match field w 3 13 with
  | 0x9c8 | 0x9c9 =>
      some (return .unary .trap .none (.immediate (UInt32.ofNat (field w 0 4))))
  | 0x9ca => some do
      let imm <- immediate .word
      return .binary .link .word (.addrReg reg) imm
  | 0x901 => some do
      Fetch.ensure cpu.is020
      let imm <- immediate .long
      return .binary .link .long (.addrReg reg) imm
  | 0x9cb => some (return .unary .unlk .none (.addrReg reg))
  | 0x9cc => some (return .binary .move .long (.addrReg reg) .usp)
  | 0x9cd => some (return .binary .move .long .usp (.addrReg reg))
  | 0x908 => some (return .unary .swap .none (.dataReg reg))
  | 0x909 => some do
      Fetch.ensure cpu.is010
      return .unary .bkpt .none (.immediate (UInt32.ofNat reg))
  | 0x910 => some (return .unary .ext .word (.dataReg reg))
  | 0x918 => some (return .unary .ext .long (.dataReg reg))
  | 0x938 => some do
      Fetch.ensure cpu.is020
      return .unary .extb .long (.dataReg reg)
  | _ => none

def addressed? (cpu : Cpu) (w : UInt16) : Option (Decoder Operation) :=
  match field w 6 10 with
  | 0x13a => some (single cpu w .jsr .none Mode.isControl)
  | 0x13b => some (single cpu w .jmp .none Mode.isControl)
  | 0x121 => some (single cpu w .pea .none Mode.isControl)
  | 0x120 => some (single cpu w .nbcd .none Mode.isDataAlterable)
  | 0x12b => some (single cpu w .tas .none Mode.isDataAlterable)
  | 0x103 => some do
      let dst <- effective cpu w .word Mode.isDataAlterable
      return .binary .move .word .sr dst
  | 0x10b => some do
      Fetch.ensure cpu.is010
      let dst <- effective cpu w .word Mode.isDataAlterable
      return .binary .move .word .ccr dst
  | 0x113 => some do
      let src <- effective cpu w .word Mode.isData
      return .binary .move .word src .ccr
  | 0x11b => some do
      let src <- effective cpu w .word Mode.isData
      return .binary .move .word src .sr
  | 0x130 => some (multiplyLong cpu w)
  | 0x131 => some (divideLong cpu w)
  | 0x122 | 0x123 | 0x132 | 0x133 => some (moveMultiple cpu w)
  | _ => none

def check (cpu : Cpu) (w : UInt16) (size : Suffix) : Decoder Operation := do
  let src <- effective cpu w size Mode.isData
  return .binary .chk size src (dataRegOf w 9)

def checked? (cpu : Cpu) (w : UInt16) : Option (Decoder Operation) :=
  match field w 6 3 with
  | 7 => some do
      let src <- effective cpu w .long Mode.isControl
      return .binary .lea .none src (addrRegOf w 9)
  | 6 => some (check cpu w .word)
  | 4 => some do
      Fetch.ensure cpu.is020
      check cpu w .long
  | _ => none

/-- What `tst` can look at.  From the 68020 on it is everything but the byte
of an address register. -/
def testTarget (cpu : Cpu) (size : Suffix) (m : Mode) : Bool :=
  if cpu.is020 then anySource size m else m.isDataAlterable

def sizedSingle (cpu : Cpu) (w : UInt16) : Decoder Operation :=
  match sizeField? w, field w 8 4 with
  | some size, 0x0 => single cpu w .negx size Mode.isDataAlterable
  | some size, 0x2 => single cpu w .clr size Mode.isDataAlterable
  | some size, 0x4 => single cpu w .neg size Mode.isDataAlterable
  | some size, 0x6 => single cpu w .not size Mode.isDataAlterable
  | some size, 0xa => single cpu w .tst size (testTarget cpu size)
  | _, _ => .fail

/-- First words that begin with the digit 4.  The more special encodings come
first. -/
def line4 (cpu : Cpu) (w : UInt16) : Decoder Operation :=
  (fixed? cpu w <|> numbered? cpu w <|> addressed? cpu w <|> checked? cpu w).getD
    (sizedSingle cpu w)

end Decoder
end M68k
end Disassembler
