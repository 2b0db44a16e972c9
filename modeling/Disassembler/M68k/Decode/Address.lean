import Disassembler.Binary.Fetch
import Disassembler.Binary.Word
import Disassembler.M68k.Cpu
import Disassembler.M68k.Instruction
import Disassembler.M68k.Mode

/-!
# Operands in extension words

Operands that are described by the mode and register fields of an instruction
continue in extension words.  A displacement from the program counter counts
from the extension word that begins the operand; it is kept relative to the
start of the instruction.
-/

namespace Disassembler
namespace M68k

/-- A decision tree over the words of an instruction.  The first word is at
offset zero. -/
abbrev Decoder (α : Type) := Fetch UInt16 α

namespace Decoder

def long : Decoder UInt32 := do
  let high <- Fetch.next
  let low <- Fetch.next
  return Word32.ofWords high low

def byteOffset (i : Nat) : Int32 :=
  Int32.ofNat (2 * i)

/-- Immediate data.  A byte takes the low half of a word. -/
def immediate (size : Suffix) : Decoder Operand :=
  match size with
  | .long => do
      let v <- long
      return .immediate v
  | .byte => do
      let w <- Fetch.next
      return .immediate (w.toUInt32 % 256)
  | _ => do
      let w <- Fetch.next
      return .immediate w.toUInt32

/-! ## Indexed addresses -/

inductive Base where
  | pc
  | addr (n : Fin 8)
  deriving DecidableEq, Repr

def Base.toIndexReg : Base -> IndexReg
  | pc => .pc
  | addr n => .a n

/-- The index register, size and scale in an extension word. -/
def indexOf (ext : UInt16) : Index where
  reg := .ofNumber (Word16.field ext 12 4)
  long := Word16.bit ext 11
  scale := Word16.field ext 9 2

/-- A displacement of null, word or long size, if the two bit code allows
one; code 0 is reserved. -/
def displacement (code : Nat) : Decoder (Option Int32) :=
  match code with
  | 2 => do
      let w <- Fetch.next
      return some w.toInt16.toInt32
  | 3 => do
      let v <- long
      return some v.toInt32
  | _ => return none

/-- The kind of operand that the selection field of a full extension word
asks for. -/
def indirection? (hasIndex : Bool) (selection : Nat) : Option (FullExt -> Operand) :=
  match hasIndex, selection with
  | _, 0 => some .noMemoryIndirect
  | true, 1 | true, 2 | true, 3 => some .preIndexed
  | true, 5 | true, 6 | true, 7 => some .postIndexed
  | false, 1 | false, 2 | false, 3 => some .memoryIndirect
  | _, _ => none

def brief (base : Base) (pc : Int32) (ext : UInt16) : Operand :=
  match base with
  | .pc => .pcIndexed (pc + (Word16.lowSigned ext).toInt32) (indexOf ext)
  | .addr n => .indexed n.val (Word16.lowSigned ext) (indexOf ext)

/-- The operand of a full extension word and of the displacements after it. -/
def full (base : Base) (pc : Int32) (ext : UInt16) : Decoder Operand := do
  Fetch.ensure (!Word16.bit ext 3)
  let hasBase := !Word16.bit ext 7
  let hasIndex := !Word16.bit ext 6
  Fetch.ensure (Word16.field ext 4 2 != 0)
  let baseDisp? <- displacement (Word16.field ext 4 2)
  let outerDisp? <- displacement (Word16.field ext 0 2)
  match indirection? hasIndex (Word16.field ext 0 3) with
  | none => .fail
  | some kind =>
      let baseDisp := baseDisp?.getD 0
      return kind
        { base := base.toIndexReg
          baseDisp := if base = .pc ∧ hasBase then baseDisp + pc else baseDisp
          index := if hasIndex then indexOf ext else { reg := .absent, long := false, scale := 0 }
          outerDisp := outerDisp?.getD 0
          hasBaseDisp := baseDisp?.isSome
          hasBase
          hasIndex
          hasOuterDisp := outerDisp?.isSome }

/-- An address with an index.  Scales and full extension words need a 68020. -/
def indexed (cpu : Cpu) (base : Base) : Decoder Operand := do
  let (i, ext) <- Fetch.nextAt
  if Word16.bit ext 8 then
    Fetch.ensure cpu.is020
    full base (byteOffset i) ext
  else
    Fetch.ensure (cpu.is020 || Word16.field ext 9 2 == 0)
    return brief base (byteOffset i) ext

/-! ## The mode and register fields -/

def operand (cpu : Cpu) (mode : Mode) (reg : Fin 8) (size : Suffix) : Decoder Operand :=
  match mode with
  | .dataReg => return .dataReg reg.val
  | .addrReg => return .addrReg reg.val
  | .indirect => return .indirect reg.val
  | .postInc => return .postInc reg.val
  | .preDec => return .preDec reg.val
  | .disp => do
      let w <- Fetch.next
      return .disp16 reg.val w.toInt16
  | .index => indexed cpu (.addr reg)
  | .absWord => do
      let w <- Fetch.next
      return .absWord w
  | .absLong => do
      let v <- long
      return .absLong v
  | .pcDisp => do
      let (i, w) <- Fetch.nextAt
      return .pcDisp (byteOffset i + w.toInt16.toInt32)
  | .pcIndex => indexed cpu .pc
  | .immediate => immediate size

def field3 (w : UInt16) (low : Nat) : Fin 8 :=
  ⟨Word16.field w low 3, bits_lt _ _ 3⟩

/-- The operand of a mode field and a register field, provided that the mode
is allowed. -/
def operandOf (cpu : Cpu) (mode reg : Fin 8) (size : Suffix) (allowed : Mode -> Bool) :
    Decoder Operand :=
  match Mode.ofFields? mode.val reg.val with
  | some m => if allowed m then operand cpu m reg size else .fail
  | none => .fail

def effective (cpu : Cpu) (w : UInt16) (size : Suffix) (allowed : Mode -> Bool) :
    Decoder Operand :=
  operandOf cpu (field3 w 3) (field3 w 0) size allowed

end Decoder

end M68k
end Disassembler
