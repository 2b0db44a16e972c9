import Disassembler.Dsp56k.Opcode
import Disassembler.Dsp56k.Register

/-!
# Instructions

The operands of an instruction, its parallel moves, and the instruction
itself.
-/

namespace Disassembler
namespace Dsp56k

/-! ## Operands -/

inductive Space where
  | none
  | x
  | y
  | l
  | p
  /-- A number that stands for no space. -/
  | unlisted (n : Int)
  deriving DecidableEq, Repr

namespace Space

def ofNumber : Int -> Space
  | 0 => none
  | 1 => x
  | 2 => y
  | 3 => l
  | 4 => p
  | n => unlisted n

def number : Space -> Int
  | none => 0
  | x => 1
  | y => 2
  | l => 3
  | p => 4
  | unlisted n => n

def text : Space -> String
  | none => ""
  | x => "x:"
  | y => "y:"
  | l => "l:"
  | p => "p:"
  | unlisted _ => "?"

end Space

/-- How an address register is used and updated. -/
inductive IndirectMode where
  | postDecN
  | postIncN
  | postDec
  | postInc
  | noUpdate
  | indexedN
  | preDec
  /-- A number that stands for no mode. -/
  | unlisted (n : Int)
  deriving DecidableEq, Repr

namespace IndirectMode

/-- Modes by the number that encodes them.  Number 6 is used for absolute
addresses and immediate data. -/
def ofNumber : Int -> IndirectMode
  | 0 => postDecN
  | 1 => postIncN
  | 2 => postDec
  | 3 => postInc
  | 4 => noUpdate
  | 5 => indexedN
  | 7 => preDec
  | n => unlisted n

def number : IndirectMode -> Int
  | postDecN => 0
  | postIncN => 1
  | postDec => 2
  | postInc => 3
  | noUpdate => 4
  | indexedN => 5
  | preDec => 7
  | unlisted n => n

end IndirectMode

inductive Operand where
  /-- Immediate data in the first word. -/
  | immShort (value : UInt32)
  /-- Immediate data in the extension word. -/
  | immLong (value : UInt32)
  | reg (r : Register)
  | indirect (mode : IndirectMode) (space : Space) (r : Nat)
  /-- An absolute address in the first word. -/
  | absShort (space : Space) (addr : UInt32)
  /-- An absolute address in the extension word. -/
  | absLong (space : Space) (addr : UInt32)
  /-- A peripheral, counted from the first one. -/
  | ioShort (space : Space) (addr : UInt32)
  deriving DecidableEq, Repr

/-- The address of the first peripheral. -/
def ioBase : UInt32 := 0xffc0

/-- A transfer of data, or the update of an address register if there is no
destination. -/
structure Move where
  source : Option Operand := none
  destination : Option Operand := none
  deriving DecidableEq, Repr

/-! ## Instructions -/

structure Operation where
  opcode : Opcode
  first : Option Operand := none
  second : Option Operand := none
  third : Option Operand := none
  /-- The address register transfer of a conditional transfer. -/
  transfer : Move := {}
  /-- The two moves in the same cycle. -/
  moveX : Move := {}
  moveY : Move := {}
  /-- The product is negated. -/
  negated : Bool := false
  deriving DecidableEq, Repr

/-- An operation with the value of its first word and its length in words. -/
structure Instruction extends Operation where
  header : Nat
  length : Nat
  deriving DecidableEq, Repr

namespace Operation

def nullary (op : Opcode) : Operation :=
  { opcode := op }

def unary (op : Opcode) (x : Operand) : Operation :=
  { opcode := op, first := some x }

def binary (op : Opcode) (x y : Operand) : Operation :=
  { opcode := op, first := some x, second := some y }

def ternary (op : Opcode) (x y z : Operand) : Operation :=
  { opcode := op, first := some x, second := some y, third := some z }

end Operation

namespace Move

/-- A move from a source to a destination. -/
def between (src dst : Operand) : Move :=
  { source := some src, destination := some dst }

/-- The operands of a move, absent ones included. -/
def operands (m : Move) : List (Option Operand) :=
  [m.source, m.destination]

end Move

namespace Instruction

/-- The single word of data that stands for an unknown encoding. -/
def data (header : Nat) : Instruction :=
  { opcode := .data, header, length := 1 }

/-- The operands in order, absent ones included. -/
def operands (i : Instruction) : List (Option Operand) :=
  [i.first, i.second, i.third]

end Instruction

end Dsp56k
end Disassembler
