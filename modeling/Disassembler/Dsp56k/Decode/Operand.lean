import Disassembler.Binary.Fetch
import Disassembler.Binary.Word
import Disassembler.Dsp56k.Instruction

/-!
# Operands

Register fields, the effective address field and the memory spaces.
-/

namespace Disassembler
namespace Dsp56k

/-- A decision tree over the words of an instruction.  The first word is at
offset zero. -/
abbrev Decoder (α : Type) := Fetch Word24 α

namespace Decoder

open Word24 (bit field)

def value (w : Word24) (low count : Nat) : UInt32 :=
  UInt32.ofNat (field w low count)

def whole (w : Word24) : UInt32 :=
  UInt32.ofNat w.toNat

def field3 (w : Word24) (low : Nat) : Fin 8 :=
  ⟨field w low 3, bits_lt _ _ 3⟩

def hasBits (w mask bits : Word24) : Bool :=
  w &&& mask == bits

/-! ## Registers -/

/-- The six bit register field. -/
def register6? (code : Nat) : Option Register :=
  match code with
  | 0x04 => some .x0
  | 0x05 => some .x1
  | 0x06 => some .y0
  | 0x07 => some .y1
  | 0x08 => some .a0
  | 0x09 => some .b0
  | 0x0a => some .a2
  | 0x0b => some .b2
  | 0x0c => some .a1
  | 0x0d => some .b1
  | 0x0e => some .a
  | 0x0f => some .b
  | 0x39 => some .sr
  | 0x3a => some .omr
  | 0x3b => some .sp
  | 0x3c => some .ssh
  | 0x3d => some .ssl
  | 0x3e => some .la
  | 0x3f => some .lc
  | _ =>
      let i := low3 code
      match code / 8 with
      | 2 => some (.r i)
      | 3 => some (.n i)
      | 4 => some (.m i)
      | _ => none

def reg6 (w : Word24) (low : Nat) : Decoder Operand :=
  match register6? (field w low 6) with
  | some r => return .reg r
  | none => .fail

def reg5 (code : Nat) : Decoder Operand :=
  match register6? code with
  | some r => return .reg r
  | none => .fail

/-- A control register, from the upper half of the six bit codes. -/
def regControl (w : Word24) : Decoder Operand :=
  reg5 (0x20 + field w 0 5)

def accumulator (b : Bool) : Operand :=
  .reg (if b then .b else .a)

def xRegister (n : Nat) : Operand :=
  .reg <| match n % 4 with
    | 0 => .x0
    | 1 => .x1
    | 2 => .a
    | _ => .b

def yRegister (n : Nat) : Operand :=
  .reg <| match n % 4 with
    | 0 => .y0
    | 1 => .y1
    | 2 => .a
    | _ => .b

def longRegister (n : Nat) : Operand :=
  .reg <| match n % 8 with
    | 0 => .a10
    | 1 => .b10
    | 2 => .x
    | 3 => .y
    | 4 => .a
    | 5 => .b
    | 6 => .ab
    | _ => .ba

def inputRegister (n : Nat) : Operand :=
  .reg <| match n % 4 with
    | 0 => .x0
    | 1 => .y0
    | 2 => .x1
    | _ => .y1

/-! ## Memory -/

/-- The X or Y space, as a bit selects. -/
def dataSpace (b : Bool) : Space :=
  if b then .y else .x

/-- The effective address in bits 8 to 13.  Mode 6 continues in the next word:
with an absolute address, or with immediate data where that is allowed. -/
def effective (w : Word24) (space : Space) (allowImmediate : Bool) : Decoder Operand :=
  match field w 11 3, field w 8 3 with
  | 6, 0 => do
      let ext <- Fetch.next
      return .absLong space (whole ext)
  | 6, 4 => do
      Fetch.ensure allowImmediate
      let ext <- Fetch.next
      return .immLong (whole ext)
  | 6, _ => .fail
  | mode, r => return .indirect (.ofNumber mode) space r

/-- An absolute address in the first word. -/
def shortAddress (w : Word24) (space : Space) : Operand :=
  .absShort space (value w 8 6)

/-- A memory operand.  Bit 14 selects between an effective address and an
absolute address in the first word. -/
def memory (w : Word24) (space : Space) (allowImmediate : Bool) : Decoder Operand :=
  if bit w 14 then effective w space allowImmediate else return shortAddress w space

/-- The address registers and their updates in the moves without a memory
access. -/
def update (w : Word24) : Operand :=
  .indirect (.ofNumber (field w 11 2)) .none (field w 8 3)

end Decoder

end Dsp56k
end Disassembler
