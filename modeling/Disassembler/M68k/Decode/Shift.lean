import Disassembler.M68k.Decode.Flow

/-!
# Shifts, rotations and bit fields

The instructions whose first word begins with the digit e.
-/

namespace Disassembler
namespace M68k
namespace Decoder

open Word16 (bit field)

/-- A shift or rotation by its kind and direction. -/
def shiftOpcode (kind : Nat) (left : Bool) : Opcode :=
  match kind, left with
  | 0, false => .asr
  | 0, true => .asl
  | 1, false => .lsr
  | 1, true => .lsl
  | 2, false => .roxr
  | 2, true => .roxl
  | _, false => .ror
  | _, true => .rol

def bitfieldOpcode (n : Nat) : Opcode :=
  match n with
  | 0 => .bftst
  | 1 => .bfextu
  | 2 => .bfchg
  | 3 => .bfexts
  | 4 => .bfclr
  | 5 => .bfffo
  | 6 => .bfset
  | _ => .bfins

/-- The offset and width in an extension word.  A width of zero stands for
thirty-two. -/
def bitfieldOf (ext : UInt16) : Bitfield :=
  let offsetIsReg := bit ext 11
  let widthIsReg := bit ext 5
  { offsetIsReg
    offset := if offsetIsReg then field ext 6 3 else field ext 6 5
    widthIsReg
    width :=
      if widthIsReg then field ext 0 3
      else if field ext 0 5 = 0 then 32
      else field ext 0 5 }

/-- Where a bit field can be.  One that is only read can be in program
memory. -/
def bitfieldTarget (op : Opcode) (m : Mode) : Bool :=
  m = .dataReg ||
    match op with
    | .bftst | .bfextu | .bfexts | .bfffo => m.isControl
    | _ => m.isControlAlterable

def bitfield (cpu : Cpu) (w : UInt16) : Decoder Operation := do
  Fetch.ensure cpu.is020
  let ext <- Fetch.next
  let op := bitfieldOpcode (field w 8 3)
  let target <- effective cpu w .none (bitfieldTarget op)
  let reg := dataRegOf ext 12
  return match op with
    | .bfextu | .bfexts | .bfffo =>
        { Operation.binary op .none target reg with firstField := some (bitfieldOf ext) }
    | .bfins =>
        { Operation.binary op .none reg target with secondField := some (bitfieldOf ext) }
    | _ => { Operation.unary op .none target with firstField := some (bitfieldOf ext) }

def lineE (cpu : Cpu) (w : UInt16) : Decoder Operation :=
  match sizeField? w with
  | none =>
      if bit w 11 then bitfield cpu w
      else do
        let dst <- effective cpu w .word Mode.isMemoryAlterable
        return .unary (shiftOpcode (field w 9 2) (bit w 8)) .word dst
  | some size =>
      let count := if bit w 5 then dataRegOf w 9 else quick (field w 9 3)
      return .binary (shiftOpcode (field w 3 2) (bit w 8)) size count (dataRegOf w 0)

end Decoder
end M68k
end Disassembler
