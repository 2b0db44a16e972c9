import Disassembler.M68k.Decode.Move

/-!
# Arithmetic and logic

Two-operand arithmetic between registers and effective addresses, decimal
arithmetic, multiplication and division.
-/

namespace Disassembler
namespace M68k
namespace Decoder

open Word16 (bit field)

/-- Between two data registers or two predecremented addresses. -/
def registerOrPreDec (w : UInt16) (op : Opcode) (size : Suffix) : Operation :=
  if bit w 3 then
    .binary op size (.preDec (field w 0 3)) (.preDec (field w 9 3))
  else
    .binary op size (.dataReg (field w 0 3)) (.dataReg (field w 9 3))

/-- `pack` and `unpk`, which have an adjustment after their operands. -/
def packed (cpu : Cpu) (w : UInt16) (op : Opcode) : Decoder Operation := do
  Fetch.ensure cpu.is020
  let adjustment <- Fetch.next
  return { registerOrPreDec w op .none with third := some (.immediate adjustment.toUInt32) }

/-- A data register and an effective address, in the direction of bit 8. -/
def logic (cpu : Cpu) (w : UInt16) (op : Opcode) : Decoder Operation :=
  match sizeField? w with
  | none => .fail
  | some size =>
      if bit w 8 then do
        let dst <- effective cpu w size Mode.isMemoryAlterable
        return .binary op size (dataRegOf w 9) dst
      else do
        let src <- effective cpu w size Mode.isData
        return .binary op size src (dataRegOf w 9)

def multiplyWord (cpu : Cpu) (w : UInt16) (op : Opcode) : Decoder Operation := do
  let src <- effective cpu w .word Mode.isData
  return .binary op .word src (dataRegOf w 9)

/-- First words that begin with the digit 8. -/
def line8 (cpu : Cpu) (w : UInt16) : Decoder Operation :=
  let registers := field w 3 3 ≤ 1
  match field w 6 3 with
  | 3 => multiplyWord cpu w .divu
  | 7 => multiplyWord cpu w .divs
  | 4 => if registers then return registerOrPreDec w .sbcd .none else logic cpu w .or
  | 5 => if registers then packed cpu w .pack else logic cpu w .or
  | 6 => if registers then packed cpu w .unpk else logic cpu w .or
  | _ => logic cpu w .or

def lineC (cpu : Cpu) (w : UInt16) : Decoder Operation :=
  match field w 6 3, field w 3 3 with
  | 5, 0 => return .binary .exg .none (dataRegOf w 9) (dataRegOf w 0)
  | 5, 1 => return .binary .exg .none (addrRegOf w 9) (addrRegOf w 0)
  | 6, 1 => return .binary .exg .none (dataRegOf w 9) (addrRegOf w 0)
  | 3, _ => multiplyWord cpu w .mulu
  | 7, _ => multiplyWord cpu w .muls
  | 4, 0 | 4, 1 => return registerOrPreDec w .abcd .none
  | _, _ => logic cpu w .and

def addressOp (cpu : Cpu) (w : UInt16) (op : Opcode) (size : Suffix) : Decoder Operation := do
  let src <- effective cpu w size fun _ => true
  return .binary op size src (addrRegOf w 9)

def dataOp (cpu : Cpu) (w : UInt16) (op : Opcode) (size : Suffix) : Decoder Operation := do
  let src <- effective cpu w size (anySource size)
  return .binary op size src (dataRegOf w 9)

def addSub (cpu : Cpu) (w : UInt16) (op opAddr opExtend : Opcode) : Decoder Operation :=
  match sizeField? w with
  | none => addressOp cpu w opAddr (if bit w 8 then .long else .word)
  | some size =>
      if bit w 8 then
        if field w 3 3 ≤ 1 then
          return registerOrPreDec w opExtend size
        else do
          let dst <- effective cpu w size Mode.isMemoryAlterable
          return .binary op size (dataRegOf w 9) dst
      else
        dataOp cpu w op size

def lineB (cpu : Cpu) (w : UInt16) : Decoder Operation :=
  match sizeField? w with
  | none => addressOp cpu w .cmpa (if bit w 8 then .long else .word)
  | some size =>
      if bit w 8 then
        if field w 3 3 = 1 then
          return .binary .cmpm size (.postInc (field w 0 3)) (.postInc (field w 9 3))
        else do
          let dst <- effective cpu w size Mode.isDataAlterable
          return .binary .eor size (dataRegOf w 9) dst
      else
        dataOp cpu w .cmp size

/-! ## Long multiplication and division -/

/-- The extension word of a long multiplication or division.  The bits
outside its fields are zero. -/
def longExtension (cpu : Cpu) : Decoder UInt16 := do
  Fetch.ensure cpu.is020
  let ext <- Fetch.next
  Fetch.ensure (field ext 3 7 == 0 && !bit ext 15)
  return ext

def multiplyLong (cpu : Cpu) (w : UInt16) : Decoder Operation := do
  let ext <- longExtension cpu
  let src <- effective cpu w .long Mode.isData
  let op := if bit ext 11 then Opcode.muls else Opcode.mulu
  let low := field ext 12 3
  return if bit ext 10 then .binary op .long src (.regPair (field ext 0 3) low)
    else .binary op .long src (.dataReg low)

/-- The long divisions, which differ in the size of the dividend and in
whether the remainder is kept. -/
def divideLong (cpu : Cpu) (w : UInt16) : Decoder Operation := do
  let ext <- longExtension cpu
  let src <- effective cpu w .long Mode.isData
  let signed := bit ext 11
  let quotient := field ext 12 3
  let remainder := field ext 0 3
  let op := if signed then Opcode.divs else Opcode.divu
  let opLong := if signed then Opcode.divsl else Opcode.divul
  return if bit ext 10 then .binary op .long src (.regPair remainder quotient)
    else if remainder = quotient then .binary op .long src (.dataReg quotient)
    else .binary opLong .long src (.regPair remainder quotient)

end Decoder
end M68k
end Disassembler
