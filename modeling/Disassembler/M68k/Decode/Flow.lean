import Disassembler.M68k.Decode.Arithmetic

/-!
# Branches, loops and quick arithmetic

The instructions whose first word begins with the digits 5 and 6.
-/

namespace Disassembler
namespace M68k
namespace Decoder

open Word16 (bit field)

/-- The branch on a condition code; the code of the condition that never
holds is a subroutine call. -/
def branchOpcode (n : Nat) : Opcode :=
  match Condition.ofCode n with
  | .f => .bsr
  | c => .branch c

/-- First words that begin with the digit 6.  The displacement is in the first
word, or in one or two extension words; it counts from the word after the
first. -/
def line6 (cpu : Cpu) (w : UInt16) : Decoder Operation :=
  let op := branchOpcode (field w 8 4)
  match field w 0 8 with
  | 0 => do
      let (i, ext) <- Fetch.nextAt
      return .unary op .word (.branch (byteOffset i + ext.toInt16.toInt32))
  | 255 => do
      Fetch.ensure cpu.is020
      let (i, high) <- Fetch.nextAt
      let low <- Fetch.next
      return .unary op .long (.branch (byteOffset i + (Word32.ofWords high low).toInt32))
  | _ => return .unary op .short (.branch (byteOffset 1 + (Word16.lowSigned w).toInt32))

/-- A trap on a condition, with no operand or an operand that the hardware
ignores. -/
def trapOnCondition (cpu : Cpu) (w : UInt16) (c : Condition) : Decoder Operation := do
  Fetch.ensure cpu.is020
  match field w 0 3 with
  | 2 => return .unary (.trapOn c) .word (<- immediate .word)
  | 3 => return .unary (.trapOn c) .long (<- immediate .long)
  | _ => return .nullary (.trapOn c) .none

def conditional (cpu : Cpu) (w : UInt16) : Decoder Operation :=
  let c := Condition.ofCode (field w 8 4)
  if field w 3 3 = 1 then do
    let (i, disp) <- Fetch.nextAt
    return .binary (.loop c) .none (dataRegOf w 0)
      (.branch (byteOffset i + disp.toInt16.toInt32))
  else if field w 3 3 = 7 ∧ 2 ≤ field w 0 3 ∧ field w 0 3 ≤ 4 then
    trapOnCondition cpu w c
  else do
    let dst <- effective cpu w .byte Mode.isDataAlterable
    return .unary (.set c) .none dst

def quick (n : Nat) : Operand :=
  .immediate (if n = 0 then 8 else UInt32.ofNat n)

def line5 (cpu : Cpu) (w : UInt16) : Decoder Operation :=
  match sizeField? w with
  | none => conditional cpu w
  | some size => do
      let dst <- effective cpu w size fun m => m.isAlterable && anySource size m
      let op := if bit w 8 then Opcode.subq else Opcode.addq
      return .binary op size (quick (field w 9 3)) dst

end Decoder
end M68k
end Disassembler
