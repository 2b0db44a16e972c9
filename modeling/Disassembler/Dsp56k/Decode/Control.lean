import Disassembler.Dsp56k.Decode.Parallel

/-!
# Control instructions

The instructions without a move field: program control, bit manipulation,
transfers to and from control registers, program memory and peripherals.
-/

namespace Disassembler
namespace Dsp56k
namespace Decoder

open Word24 (bit field)

/-- The first words that are a whole instruction. -/
def fixed? (w : Word24) : Option Opcode :=
  match w.toNat with
  | 0x000000 => some .nop
  | 0x000004 => some .rti
  | 0x000005 => some .illegal
  | 0x000006 => some .swi
  | 0x00000c => some .rts
  | 0x000084 => some .reset
  | 0x000086 => some .wait
  | 0x000087 => some .stop
  | 0x00008c => some .enddo
  | _ => none

def statusLogic (w : Word24) : Decoder Operation :=
  let operation? : Option (Opcode × Register) :=
    match field w 0 8 with
    | 0xb8 => some (.andi, .mr)
    | 0xb9 => some (.andi, .ccr)
    | 0xba => some (.andi, .omr)
    | 0xf8 => some (.ori, .mr)
    | 0xf9 => some (.ori, .ccr)
    | 0xfa => some (.ori, .omr)
    | _ => none
  match operation? with
  | some (op, reg) => return .binary op (.immShort (value w 8 8)) (.reg reg)
  | none => .fail

def divideOrNormalize (w : Word24) : Decoder Operation :=
  if hasBits w 0xffffc7 0x018040 then
    return .binary .div (inputRegister (field w 4 2)) (accumulator (bit w 3))
  else if hasBits w 0xfff8f7 0x01d815 then
    return .binary .norm (.reg (.r (field3 w 8))) (accumulator (bit w 3))
  else
    .fail

/-- A transfer on a condition.  The longer form also transfers between address
registers. -/
def conditionalTransfer (w : Word24) : Decoder Operation := do
  Fetch.ensure (!bit w 7)
  let src <- match field w 4 3 with
    | 0 => Fetch.done (accumulator (!bit w 3))
    | 1 | 2 | 3 => Fetch.fail
    | n => Fetch.done (inputRegister n)
  let operation :=
    Operation.binary (.transferOn (.ofCode (field w 12 4))) src (accumulator (bit w 3))
  if bit w 16 then
    Fetch.ensure (!bit w 11)
    return { operation with
      transfer := .between (.reg (.r (field3 w 8))) (.reg (.r (field3 w 0))) }
  else
    Fetch.ensure (field w 8 4 == 0 && field w 0 3 == 0)
    return operation

def loadUpdated (w : Word24) : Decoder Operation :=
  let reg := if bit w 3 then Register.n (field3 w 0) else Register.r (field3 w 0)
  return .binary .lua (update w) (.reg reg)

/-- An operation in the direction that a bit selects. -/
def ordered (op : Opcode) (forward : Bool) (x y : Operand) : Operation :=
  if forward then .binary op x y else .binary op y x

def moveControlRegister (w : Word24) : Decoder Operation := do
  let ctrl <- regControl w
  Fetch.ensure (bit w 14 && field w 5 3 == 5)
  let reg <- reg6 w 8
  return ordered .movec (bit w 15) reg ctrl

/-- A move between a control register and memory, or of short immediate
data. -/
def moveControlMemory (w : Word24) : Decoder Operation := do
  let ctrl <- regControl w
  if field w 5 3 = 5 then
    return .binary .movec (.immShort (value w 8 8)) ctrl
  else
    Fetch.ensure (bit w 5 && !bit w 7)
    let mem <- memory w (dataSpace (bit w 6)) (bit w 15)
    return ordered .movec (bit w 15) mem ctrl

def moveProgram (w : Word24) : Decoder Operation := do
  Fetch.ensure (!bit w 6 && bit w 7 == bit w 14)
  let reg <- reg6 w 0
  let mem <- memory w .p (bit w 15)
  return ordered .movem (bit w 15) mem reg

def movePeripheral (w : Word24) : Decoder Operation := do
  let io := Operand.ioShort (dataSpace (bit w 16)) (value w 0 6)
  let other <-
    if bit w 7 then effective w (dataSpace (bit w 6)) (bit w 15)
    else if bit w 6 then effective w .p (bit w 15)
    else reg6 w 8
  return ordered .movep (bit w 15) other io

/-! ## Loops and jumps -/

/-- The number of repetitions of a loop. -/
def loopCount (w : Word24) : Decoder Operand :=
  if bit w 7 then do
    Fetch.ensure (!bit w 6 && !bit w 4)
    return .immShort (UInt32.ofNat (256 * field w 0 4 + field w 8 8))
  else do
    Fetch.ensure (field w 0 5 == 0)
    match field w 14 2 with
    | 0 => return shortAddress w (dataSpace (bit w 6))
    | 1 => effective w (dataSpace (bit w 6)) false
    | 3 => do
        Fetch.ensure (!bit w 6)
        reg6 w 8
    | _ => .fail

/-- `rep` and `do`.  The extension word of the latter is the last address of
the loop; its operand is the address after it. -/
def loop (w : Word24) : Decoder Operation := do
  let count <- loopCount w
  if bit w 5 then
    return .unary .rep count
  else
    let ext <- Fetch.next
    return .binary .doLoop count (.absLong .none ((whole ext + 1) % 0x10000))

def jump (w : Word24) : Decoder Operation := do
  let call := bit w 16
  let cond := Condition.ofCode (field w 0 4)
  let op <- match field w 4 4, field w 0 4 with
    | 0x8, 0 => Fetch.done (if call then Opcode.jsr else Opcode.jmp)
    | 0xa, _ => Fetch.done (if call then Opcode.callOn cond else Opcode.jumpOn cond)
    | _, _ => Fetch.fail
  let target <- effective w .none false
  return .unary op target

def jumpShort (w : Word24) : Decoder Operation :=
  let target := Operand.absShort .none (value w 0 12)
  let cond := Condition.ofCode (field w 12 4)
  match field w 16 2, field w 12 4 with
  | 0, 0 => return .unary .jmp target
  | 1, 0 => return .unary .jsr target
  | 2, _ => return .unary (.jumpOn cond) target
  | 3, _ => return .unary (.callOn cond) target
  | _, _ => .fail

/-! ## Bits -/

/-- The operation on a bit: clear or set, change or test. -/
def bitOpcode (upper value : Bool) : Opcode :=
  match upper, value with
  | false, false => .bclr
  | false, true => .bset
  | true, false => .bchg
  | true, true => .btst

def bitJumpOpcode (call value : Bool) : Opcode :=
  match call, value with
  | false, false => .jclr
  | false, true => .jset
  | true, false => .jsclr
  | true, true => .jsset

/-- The place of a bit, and whether the instruction is a jump. -/
def bitPlace (w : Word24) : Decoder (Operand × Bool) :=
  match field w 14 2 with
  | 0 => return (shortAddress w (dataSpace (bit w 6)), bit w 7)
  | 1 => do
      let mem <- effective w (dataSpace (bit w 6)) false
      return (mem, bit w 7)
  | 2 => return (.ioShort (dataSpace (bit w 6)) (value w 8 6), bit w 7)
  | _ => do
      let reg <- reg6 w 8
      Fetch.ensure (!bit w 7)
      return (reg, !bit w 6)

def bitOperation (w : Word24) : Decoder Operation := do
  let number := Operand.immShort (value w 0 5)
  let (place, isJump) <- bitPlace w
  if isJump then
    let ext <- Fetch.next
    return .ternary (bitJumpOpcode (bit w 16) (bit w 5)) number place
      (.absLong .none (whole ext % 0x10000))
  else
    return .binary (bitOpcode (bit w 16) (bit w 5)) number place

/-! ## First words -/

/-- First words without a move field, by their upper byte. -/
def control (w : Word24) : Decoder Operation :=
  match fixed? w with
  | some op => return .nullary op
  | none =>
      match field w 16 8 with
      | 0x00 => statusLogic w
      | 0x01 => divideOrNormalize w
      | 0x02 | 0x03 => conditionalTransfer w
      | 0x04 => if hasBits w 0xffe0f0 0x044010 then loadUpdated w else moveControlRegister w
      | 0x05 => moveControlMemory w
      | 0x06 => loop w
      | 0x07 => moveProgram w
      | 0x08 | 0x09 => if bit w 14 then movePeripheral w else exchange w
      | 0x0a | 0x0b =>
          if field w 14 2 = 3 ∧ bit w 7 then jump w else bitOperation w
      | 0x0c | 0x0d | 0x0e | 0x0f => jumpShort w
      | _ => .fail

end Decoder
end Dsp56k
end Disassembler
