import Disassembler.M68k.Print

/-!
# Effective addresses

The address that an operand refers to.  What depends on register values is
only known if there is a snapshot of the registers.
-/

namespace Disassembler
namespace M68k

def Index.value (i : Index) (regs : Registers) : UInt32 :=
  let v := regs.index i.reg
  let v := if i.long then v else v.toUInt16.toInt16.toInt32.toUInt32
  if i.reg = .absent then 0 else UInt32.ofNat (v.toNat <<< i.scale)

/-- The sum of base, base displacement and, if it is asked for, index.  Without
registers only an address relative to the program counter is known, and then
without its index. -/
def FullExt.address? (e : FullExt) (withIndex : Bool) (regs : Option Registers) (addr : UInt32) :
    Option UInt32 :=
  let relativeToPc := e.hasBase && e.base = .pc
  match regs with
  | none => if relativeToPc then some (relative addr e.baseDisp) else none
  | some regs =>
      let base := if relativeToPc then addr else if e.hasBase then regs.index e.base else 0
      let index := if withIndex && e.hasIndex then e.index.value regs else 0
      some (e.baseDisp.toUInt32 + base + index)

def Operand.address? (op : Operand) (regs : Option Registers) (addr : UInt32) : Option UInt32 :=
  match op with
  | indirect r | postInc r | preDec r => regs.map fun s => s.address r
  | disp16 r d => regs.map fun s => s.address r + d.toInt32.toUInt32
  | indexed r d i => regs.map fun s => s.address r + i.value s + d.toInt32.toUInt32
  | absWord a => some a.toInt16.toInt32.toUInt32
  | absLong a => some a
  | pcDisp d | branch d => some (relative addr d)
  | pcIndexed d i => some (relative addr d + (regs.map i.value).getD 0)
  | usp => regs.map fun s => s.get .usp
  | noMemoryIndirect e | preIndexed e => e.address? true regs addr
  | postIndexed e | memoryIndirect e => e.address? false regs addr
  | dataReg _ | addrReg _ | regList _ | immediate _ | sr | ccr | controlReg _ | regPair _ _
  | indirectPair _ _ => none

end M68k
end Disassembler
