/-!
# Addressing modes

The twelve ways in which the mode and register fields of an instruction can
describe an operand, and the categories of the programmer's reference.
-/

namespace Disassembler
namespace M68k

inductive Mode where
  | dataReg | addrReg | indirect | postInc | preDec | disp | index
  | absWord | absLong | pcDisp | pcIndex | immediate
  deriving DecidableEq, Repr

namespace Mode

def ofFields? (mode reg : Nat) : Option Mode :=
  match mode, reg with
  | 0, _ => some dataReg
  | 1, _ => some addrReg
  | 2, _ => some indirect
  | 3, _ => some postInc
  | 4, _ => some preDec
  | 5, _ => some disp
  | 6, _ => some index
  | _, 0 => some absWord
  | _, 1 => some absLong
  | _, 2 => some pcDisp
  | _, 3 => some pcIndex
  | _, 4 => some immediate
  | _, _ => none

/-! ## Categories -/

/-- Everything but an address register. -/
def isData (m : Mode) : Bool :=
  m != addrReg

/-- A place in memory, or immediate data in the instruction. -/
def isMemory (m : Mode) : Bool :=
  m.isData && m != dataReg

/-- An address that can be a jump target. -/
def isControl : Mode -> Bool
  | indirect | disp | index | absWord | absLong | pcDisp | pcIndex => true
  | _ => false

/-- Something that can be written to. -/
def isAlterable : Mode -> Bool
  | pcDisp | pcIndex | immediate => false
  | _ => true

def isDataAlterable (m : Mode) : Bool :=
  m.isData && m.isAlterable

def isMemoryAlterable (m : Mode) : Bool :=
  m.isMemory && m.isAlterable

def isControlAlterable (m : Mode) : Bool :=
  m.isControl && m.isAlterable

end Mode

end M68k
end Disassembler
