import Disassembler.M68k.Decode.Address

/-!
# Immediate, bit and bounds instructions

The instructions whose first word begins with the digit 0.
-/

namespace Disassembler
namespace M68k
namespace Decoder

open Word16 (bit field)

/-- The size in bits 7 and 6; the fourth code is no size. -/
def sizeField? (w : UInt16) : Option Suffix :=
  match field w 6 2 with
  | 0 => some .byte
  | 1 => some .word
  | 2 => some .long
  | _ => none

/-- A register from a four bit number, address registers after data
registers. -/
def registerOf (n : Nat) : Operand :=
  if n < 8 then .dataReg n else .addrReg (n - 8)

def dataRegOf (w : UInt16) (low : Nat) : Operand :=
  .dataReg (field3 w low).val

def addrRegOf (w : UInt16) (low : Nat) : Operand :=
  .addrReg (field3 w low).val

/-! ## Bounds and compare-and-swap -/

/-- `cmp2` and `chk2`. -/
def bounds (cpu : Cpu) (w : UInt16) : Decoder Operation := do
  Fetch.ensure cpu.is020
  let size <- match field w 9 2 with
    | 0 => Fetch.done Suffix.byte
    | 1 => Fetch.done Suffix.word
    | 2 => Fetch.done Suffix.long
    | _ => Fetch.fail
  let ext <- Fetch.next
  let src <- effective cpu w size Mode.isControl
  let op := if bit ext 11 then Opcode.chk2 else Opcode.cmp2
  return .binary op size src (registerOf (field ext 12 4))

/-- The two register pairs and the memory operands of `cas2`. -/
def compareSwap2 (size : Suffix) : Decoder Operation := do
  let ext1 <- Fetch.next
  let ext2 <- Fetch.next
  return .ternary .cas2 size
    (.regPair (field ext1 0 3) (field ext2 0 3))
    (.regPair (field ext1 6 3) (field ext2 6 3))
    (.indirectPair (.ofNumber (field ext1 12 4)) (.ofNumber (field ext2 12 4)))

/-- `cas` and `cas2`.  The latter takes the place of the immediate mode and
has no byte size. -/
def compareSwap (cpu : Cpu) (w : UInt16) : Decoder Operation := do
  Fetch.ensure cpu.is020
  let size <- match field w 9 2 with
    | 1 => Fetch.done Suffix.byte
    | 2 => Fetch.done Suffix.word
    | 3 => Fetch.done Suffix.long
    | _ => Fetch.fail
  if field w 0 6 = 0x3c then
    Fetch.ensure (size != .byte)
    compareSwap2 size
  else
    let ext <- Fetch.next
    let dst <- effective cpu w size Mode.isMemoryAlterable
    return .ternary .cas size (dataRegOf ext 0) (dataRegOf ext 6) dst

/-! ## Immediate operations -/

def worksOnStatus : Opcode -> Bool
  | .ori | .andi | .eori => true
  | _ => false

/-- Where the result of an immediate operation can go.  From the 68020 on a
comparison can also look at program memory. -/
def immediateTarget (cpu : Cpu) (op : Opcode) (m : Mode) : Bool :=
  if op = .cmpi ∧ cpu.is020 then m.isData && m != .immediate else m.isDataAlterable

def immediateSized (cpu : Cpu) (w : UInt16) (op : Opcode) (size : Suffix) :
    Decoder Operation := do
  let imm <- immediate size
  if field w 0 6 = 0x3c ∧ worksOnStatus op then
    match size with
    | .byte => return .binary op size imm .ccr
    | .word => return .binary op size imm .sr
    | _ => .fail
  else
    let dst <- effective cpu w size (immediateTarget cpu op)
    return .binary op size imm dst

/-- What takes the place of the fourth size of an immediate operation. -/
def immediateUnsized (cpu : Cpu) (w : UInt16) : Opcode -> Decoder Operation
  | .ori | .andi | .subi => bounds cpu w
  | .eori | .cmpi => compareSwap cpu w
  | _ => .fail

def immediateOp (cpu : Cpu) (w : UInt16) (op : Opcode) : Decoder Operation :=
  match sizeField? w with
  | some size => immediateSized cpu w op size
  | none => immediateUnsized cpu w op

/-! ## Single bits -/

def bitOpcode (w : UInt16) : Opcode :=
  match field w 6 2 with
  | 0 => .btst
  | 1 => .bchg
  | 2 => .bclr
  | _ => .bset

def bitStatic (cpu : Cpu) (w : UInt16) : Decoder Operation := do
  let n <- Fetch.next
  let op := bitOpcode w
  let dst <- effective cpu w .byte fun m =>
    if op = .btst then m.isData && m != .immediate else m.isDataAlterable
  return .binary op .none (.immediate (n.toUInt32 % 256)) dst

def bitDynamic (cpu : Cpu) (w : UInt16) : Decoder Operation := do
  let op := bitOpcode w
  let dst <- effective cpu w .byte fun m => if op = .btst then m.isData else m.isDataAlterable
  return .binary op .none (dataRegOf w 9) dst

/-! ## Peripheral and space moves -/

/-- `movep`, in the encoding of a dynamic bit operation on an address
register. -/
def movePeripheral (w : UInt16) : Decoder Operation := do
  let disp <- Fetch.next
  let mem := Operand.disp16 (field w 0 3) disp.toInt16
  let reg := dataRegOf w 9
  let size := if bit w 6 then Suffix.long else Suffix.word
  return if bit w 7 then .binary .movep size reg mem else .binary .movep size mem reg

def moveSpace (cpu : Cpu) (w : UInt16) : Decoder Operation := do
  Fetch.ensure cpu.is010
  match sizeField? w with
  | none => .fail
  | some size =>
      let ext <- Fetch.next
      let mem <- effective cpu w size Mode.isMemoryAlterable
      let reg := registerOf (field ext 12 4)
      return if bit ext 11 then .binary .moves size reg mem else .binary .moves size mem reg

/-! ## The line -/

def line0 (cpu : Cpu) (w : UInt16) : Decoder Operation :=
  if bit w 8 then
    if field w 3 3 = 1 then movePeripheral w else bitDynamic cpu w
  else
    match field w 9 3 with
    | 0 => immediateOp cpu w .ori
    | 1 => immediateOp cpu w .andi
    | 2 => immediateOp cpu w .subi
    | 3 => immediateOp cpu w .addi
    | 4 => bitStatic cpu w
    | 5 => immediateOp cpu w .eori
    | 6 => immediateOp cpu w .cmpi
    | _ => if field w 6 2 = 3 then compareSwap cpu w else moveSpace cpu w

end Decoder
end M68k
end Disassembler
