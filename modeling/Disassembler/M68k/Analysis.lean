import Disassembler.M68k.EffectiveAddress

/-!
# Analysis

What an instruction would do next: calls, traps, loops, whether a branch is
taken and where it goes.
-/

namespace Disassembler
namespace M68k
namespace Instruction

/-! ## Kinds of instruction -/

def isSubroutine (i : Instruction) : Bool :=
  i.opcode = .jsr || i.opcode = .bsr

def isTrap (i : Instruction) : Bool :=
  match i.opcode with
  | .trap | .trapv | .trapOn _ => true
  | _ => false

/-- A counted loop: a `dbf` that goes backwards or to itself. -/
def isBackLoop (i : Instruction) : Bool :=
  match i.opcode, i.second with
  | .loop .f, some (.branch d) => d.toInt ≤ 0
  | _, _ => false

/-! ## Branches -/

/-- Whether a conditional branch is taken, `none` if the instruction is no
conditional branch.  A loop goes on while its condition is false and its
counter is not zero; the counter is not decremented. -/
def wouldBranch? (i : Instruction) (regs : Registers) : Option Bool :=
  let flags := Flags.ofStatus (regs.get .sr)
  match i.opcode, i.first with
  | .branch c, _ => some (c.holds flags)
  | .loop c, some (.dataReg r) => some (regs.data r % 65536 != 0 && !c.holds flags)
  | _, _ => none

/-- The operand that holds the target of a relative branch. -/
def targetOperand? (i : Instruction) : Option Operand :=
  match i.opcode with
  | .branch _ | .bsr => i.first
  | .loop _ => i.second
  | _ => none

def target? (i : Instruction) (addr : UInt32) : Option UInt32 :=
  match i.targetOperand? with
  | some (.branch d) => some (relative addr d)
  | _ => none

/-! ## Comments -/

def registersAt (regs : Option Registers) (addr : UInt32) : Option Registers :=
  regs.filter fun s => s.get .pc == addr

/-- The addresses that the first two operands refer to, on the 24-bit bus.
Registers count only if the instruction is the one at the program counter. -/
def addresses (i : Instruction) (addr : UInt32) (regs : Option Registers) : List UInt32 :=
  [i.first, i.second].filterMap fun op =>
    (op.bind fun op => op.address? (registersAt regs addr) addr).map (· % 0x1000000)

def addressComment (i : Instruction) (addr : UInt32) (regs : Option Registers) : String :=
  Text.join "  " ((i.addresses addr regs).map Number.hex)

def takenText : Bool -> String
  | true => "[TAKEN]"
  | false => "[NOT TAKEN]"

/-- A comment on the conditional branch at the program counter. -/
def branchComment (i : Instruction) (addr : UInt32) (regs : Option Registers) : String :=
  (((registersAt regs addr).bind i.wouldBranch?).map takenText).getD ""

end Instruction
end M68k
end Disassembler
