import Disassembler.Dsp56k.Print

/-!
# Analysis

Effective addresses, calls, whether a jump is taken and where it goes.
-/

namespace Disassembler
namespace Dsp56k

/-! ## Effective addresses -/

/-- The 16-bit address that an operand refers to.  Indirect operands need a
snapshot of the registers; an update after the access does not matter. -/
def Operand.address? (op : Operand) (regs : Option Registers) : Option UInt32 :=
  match op with
  | absShort _ a | absLong _ a => some (a % 0x10000)
  | ioShort _ a => some ((ioBase + a) % 0x10000)
  | indirect mode _ r =>
      regs.map fun s =>
        let base := s.address r
        let base := match mode with
          | .indexedN => base + s.offset r
          | .preDec => base - 1
          | _ => base
        base.toUInt32 % 0x10000
  | immShort _ | immLong _ | reg _ => none

namespace Instruction

/-! ## Jumps -/

def isSubroutine (i : Instruction) : Bool :=
  match i.opcode with
  | .jsr | .jsclr | .jsset | .callOn _ => true
  | _ => false

/-- Whether the bit that a jump looks at is set, for a bit in a register. -/
def testedBit? (i : Instruction) (regs : Registers) : Option Bool :=
  match i.first, i.second with
  | some (.immShort n), some (.reg r) => some ((regs.get r).toNat.testBit (n.toNat % 32))
  | _, _ => none

/-- Whether a jump is taken, `none` if the instruction is no jump or looks at
a bit in memory. -/
def wouldBranch? (i : Instruction) (regs : Registers) : Option Bool :=
  match i.opcode with
  | .jmp | .jsr => some true
  | .jset | .jsset => i.testedBit? regs
  | .jclr | .jsclr => (i.testedBit? regs).map not
  | .jumpOn c | .callOn c => some (c.holds (Flags.ofStatus (regs.get .sr)))
  | _ => none

def absolute? : Option Operand -> Option UInt32
  | some (.absShort _ a) | some (.absLong _ a) => some a
  | _ => none

/-- Where a jump goes or a loop ends. -/
structure Target where
  address : UInt32
  /-- The address is where a loop ends, and is not jumped to. -/
  reversed : Bool
  deriving DecidableEq, Repr

def target? (i : Instruction) (addr : UInt32) : Option Target :=
  match i.opcode with
  | .jmp | .jsr | .jumpOn _ | .callOn _ => (absolute? i.first).map (⟨·, false⟩)
  | .jclr | .jset | .jsclr | .jsset => (absolute? i.third).map (⟨·, false⟩)
  | .doLoop => (absolute? i.second).map (⟨·, true⟩)
  | .rep => some ⟨addr + UInt32.ofNat i.length, true⟩
  | _ => none

/-! ## Comments -/

def registersAt (regs : Option Registers) (addr : UInt32) : Option Registers :=
  regs.filter fun s => (s.get .pc).toUInt32 == addr

/-- The address of an indirect or peripheral operand, after its space. -/
def memoryText? (regs : Option Registers) (op : Operand) : Option String :=
  match op with
  | .indirect _ space _ | .ioShort space _ =>
      (op.address? regs).map fun a => space.text ++ "$" ++ Number.hexPadded 4 a.toNat
  | _ => none

def memoryOperands (i : Instruction) : List Operand :=
  (i.operands ++ i.moveX.operands ++ i.moveY.operands).filterMap id

/-- A comment on the addresses of the operands.  Registers count only if the
instruction is the one at the program counter. -/
def addressComment (i : Instruction) (addr : UInt32) (regs : Option Registers) : String :=
  Text.join "  " (i.memoryOperands.filterMap (memoryText? (registersAt regs addr)))

def takenText : Bool -> String
  | true => "[TAKEN]"
  | false => "[NOT TAKEN]"

def branchComment (i : Instruction) (addr : UInt32) (regs : Option Registers) : String :=
  (((registersAt regs addr).bind i.wouldBranch?).map takenText).getD ""

end Instruction

end Dsp56k
end Disassembler
