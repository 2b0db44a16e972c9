import Disassembler.M68k.Opcode
import Disassembler.M68k.Register

/-!
# Instructions

The operands of an instruction, and the instruction itself.
-/

namespace Disassembler
namespace M68k

/-! ## Operands -/

structure Index where
  reg : IndexReg
  /-- A word index is sign extended before it is scaled. -/
  long : Bool
  /-- The index is multiplied by two to this power. -/
  scale : Nat
  deriving DecidableEq, Repr

/-- What a full extension word says.  The displacement of an address relative
to the program counter counts from the start of the instruction. -/
structure FullExt where
  base : IndexReg
  baseDisp : Int32
  index : Index
  outerDisp : Int32
  hasBaseDisp : Bool
  hasBase : Bool
  hasIndex : Bool
  hasOuterDisp : Bool
  deriving DecidableEq, Repr

inductive Operand where
  | dataReg (reg : Nat)
  | addrReg (reg : Nat)
  | indirect (reg : Nat)
  | postInc (reg : Nat)
  | preDec (reg : Nat)
  | disp16 (reg : Nat) (disp : Int16)
  | indexed (reg : Nat) (disp : Int8) (index : Index)
  | absWord (addr : UInt16)
  | absLong (addr : UInt32)
  /-- The displacement counts from the start of the instruction. -/
  | pcDisp (disp : Int32)
  /-- The displacement counts from the start of the instruction. -/
  | pcIndexed (disp : Int32) (index : Index)
  /-- The displacement counts from the start of the instruction. -/
  | branch (disp : Int32)
  /-- Bit 0 stands for `d0` and bit 15 for `a7`, whatever the mode. -/
  | regList (mask : UInt16)
  | immediate (value : UInt32)
  | sr
  | ccr
  | usp
  | controlReg (code : UInt16)
  | regPair (first second : Nat)
  | indirectPair (first second : IndexReg)
  | postIndexed (ext : FullExt)
  | preIndexed (ext : FullExt)
  | memoryIndirect (ext : FullExt)
  | noMemoryIndirect (ext : FullExt)
  deriving DecidableEq, Repr

/-- The offset and width of a bit field instruction, each a number or a data
register. -/
structure Bitfield where
  offsetIsReg : Bool
  offset : Nat
  widthIsReg : Bool
  width : Nat
  deriving DecidableEq, Repr

/-! ## Instructions -/

/-- What an instruction does: its opcode, its size and its operands in
assembler order.  A bit field belongs to the operand it follows. -/
structure Operation where
  opcode : Opcode
  suffix : Suffix := .none
  first : Option Operand := none
  second : Option Operand := none
  third : Option Operand := none
  firstField : Option Bitfield := none
  secondField : Option Bitfield := none
  deriving DecidableEq, Repr

structure Instruction extends Operation where
  header : UInt16
  length : Nat
  deriving DecidableEq, Repr

namespace Operation

def nullary (op : Opcode) (suffix : Suffix) : Operation :=
  { opcode := op, suffix }

def unary (op : Opcode) (suffix : Suffix) (x : Operand) : Operation :=
  { opcode := op, suffix, first := some x }

def binary (op : Opcode) (suffix : Suffix) (x y : Operand) : Operation :=
  { opcode := op, suffix, first := some x, second := some y }

def ternary (op : Opcode) (suffix : Suffix) (x y z : Operand) : Operation :=
  { opcode := op, suffix, first := some x, second := some y, third := some z }

end Operation

namespace Instruction

/-- The single word of data that stands for an unknown encoding. -/
def data (header : UInt16) : Instruction :=
  { opcode := .data, header, length := 2 }

/-- The operands in order, absent ones included. -/
def operands (i : Instruction) : List (Option Operand) :=
  [i.first, i.second, i.third]

end Instruction

end M68k
end Disassembler
