import Disassembler.Dsp56k.Decode.Operand

/-!
# Parallel instructions

A data ALU operation in the low byte, together with up to two moves in the
upper sixteen bits.
-/

namespace Disassembler
namespace Dsp56k
namespace Decoder

open Word24 (bit field)

/-! ## The data ALU operation -/

def factors (n : Nat) : Register × Register :=
  match n with
  | 0 => (.x0, .x0)
  | 1 => (.y0, .y0)
  | 2 => (.x1, .x0)
  | 3 => (.y1, .y0)
  | 4 => (.x0, .y1)
  | 5 => (.y0, .x0)
  | 6 => (.x1, .y0)
  | _ => (.y1, .x1)

def productOpcode (n : Nat) : Opcode :=
  match n with
  | 0 => .mpy
  | 1 => .mpyr
  | 2 => .mac
  | _ => .macr

def product (w : Word24) : Operation :=
  let (left, right) := factors (field w 4 3)
  { Operation.ternary (productOpcode (field w 0 2)) (.reg left) (.reg right)
      (accumulator (bit w 3)) with
    negated := bit w 2 }

/-- The operations on an accumulator that do not multiply, by the source field
and the operation field. -/
def accumulate? (w : Word24) : Option Operation :=
  let dst := accumulator (bit w 3)
  let other := accumulator (!bit w 3)
  match field w 4 3, field w 0 3 with
  | 0, 0 => if bit w 3 then none else some (.nullary .move)
  | 0, 1 => some (.binary .tfr other dst)
  | 0, 2 => some (.binary .addr other dst)
  | 0, 3 => some (.unary .tst dst)
  | 0, 5 => some (.binary .cmp other dst)
  | 0, 6 => some (.binary .subr other dst)
  | 0, 7 => some (.binary .cmpm other dst)
  | 0, _ => none
  | 1, 0 => some (.binary .add other dst)
  | 1, 1 => some (.unary .rnd dst)
  | 1, 2 => some (.binary .addl other dst)
  | 1, 3 => some (.unary .clr dst)
  | 1, 4 => some (.binary .sub other dst)
  | 1, 6 => some (.binary .subl other dst)
  | 1, 7 => some (.unary .not dst)
  | 1, _ => none
  | 2, 0 => some (.binary .add (.reg .x) dst)
  | 2, 1 => some (.binary .adc (.reg .x) dst)
  | 2, 2 => some (.unary .asr dst)
  | 2, 3 => some (.unary .lsr dst)
  | 2, 4 => some (.binary .sub (.reg .x) dst)
  | 2, 5 => some (.binary .sbc (.reg .x) dst)
  | 2, 6 => some (.unary .abs dst)
  | 2, _ => some (.unary .ror dst)
  | 3, 0 => some (.binary .add (.reg .y) dst)
  | 3, 1 => some (.binary .adc (.reg .y) dst)
  | 3, 2 => some (.unary .asl dst)
  | 3, 3 => some (.unary .lsl dst)
  | 3, 4 => some (.binary .sub (.reg .y) dst)
  | 3, 5 => some (.binary .sbc (.reg .y) dst)
  | 3, 6 => some (.unary .neg dst)
  | 3, _ => some (.unary .rol dst)
  | n, 0 => some (.binary .add (inputRegister n) dst)
  | n, 1 => some (.binary .tfr (inputRegister n) dst)
  | n, 2 => some (.binary .or (inputRegister n) dst)
  | n, 3 => some (.binary .eor (inputRegister n) dst)
  | n, 4 => some (.binary .sub (inputRegister n) dst)
  | n, 5 => some (.binary .cmp (inputRegister n) dst)
  | n, 6 => some (.binary .and (inputRegister n) dst)
  | n, _ => some (.binary .cmpm (inputRegister n) dst)

def alu? (w : Word24) : Option Operation :=
  if bit w 7 then some (product w) else accumulate? w

/-! ## Moves -/

structure Moves where
  first : Move := {}
  second : Move := {}

/-- A move between memory and a register.  The bit is set if memory is the
source. -/
def directed (fromMemory : Bool) (mem reg : Operand) : Move :=
  if fromMemory then .between mem reg else .between reg mem

/-- No move, an address register update, a register move or short immediate
data. -/
def immediateOrRegister (w : Word24) : Decoder Moves :=
  if field w 8 16 = 0x2000 then
    return {}
  else if field w 13 11 = 0x102 then
    return { first := { source := some (update w) } }
  else if field w 18 6 = 0x08 then do
    let src <- reg5 (field w 13 5)
    let dst <- reg5 (field w 8 5)
    return { first := .between src dst }
  else do
    let dst <- reg5 (field w 16 5)
    return { first := .between (.immShort (value w 8 8)) dst }

def oneSpace (w : Word24) : Decoder Moves := do
  let reg <- reg5 (field w 16 3 + 8 * field w 20 2)
  let mem <- memory w (dataSpace (bit w 19)) (bit w 15)
  return { first := directed (bit w 15) mem reg }

def longSpace (w : Word24) : Decoder Moves := do
  let mem <- memory w .l false
  return { first := directed (bit w 15) mem (longRegister (4 * field w 19 1 + field w 16 2)) }

/-- A memory move in one space, and a register move in place of the other. -/
def spaceAndRegister (w : Word24) : Decoder Moves :=
  if bit w 14 then do
    let mem <- effective w .y (bit w 15)
    return {
      first := .between (accumulator (bit w 19)) (xRegister (field w 18 1))
      second := directed (bit w 15) mem (yRegister (field w 16 2)) }
  else do
    let mem <- effective w .x (bit w 15)
    return {
      first := directed (bit w 15) mem (xRegister (field w 18 2))
      second := .between (accumulator (bit w 17)) (yRegister (field w 16 1)) }

def bothMode (n : Nat) : IndirectMode :=
  match n with
  | 0 => .noUpdate
  | 1 => .postIncN
  | 2 => .postDec
  | _ => .postInc

/-- A move in both spaces.  The address registers come from different
banks. -/
def bothSpaces (w : Word24) : Moves :=
  let xr := field w 8 3
  let yr := field w 13 2 + (if xr < 4 then 4 else 0)
  { first := directed (bit w 15) (.indirect (bothMode (field w 11 2)) .x xr)
      (xRegister (field w 18 2))
    second := directed (bit w 22) (.indirect (bothMode (field w 20 2)) .y yr)
      (yRegister (field w 16 2)) }

/-- The moves in the upper sixteen bits. -/
def moves (w : Word24) : Decoder Moves :=
  if bit w 23 then return bothSpaces w
  else match field w 20 4 with
    | 1 => spaceAndRegister w
    | 2 | 3 => immediateOrRegister w
    | 4 => if bit w 18 then oneSpace w else longSpace w
    | _ => oneSpace w

def withMoves (operation : Operation) (m : Moves) : Operation :=
  { operation with moveX := m.first, moveY := m.second }

/-- First words with a move field. -/
def parallel (w : Word24) : Decoder Operation :=
  match alu? w with
  | none => .fail
  | some operation => do
      let m <- moves w
      return withMoves operation m

/-- The moves that store an accumulator and load it from an input register. -/
def exchange (w : Word24) : Decoder Operation :=
  match alu? w with
  | none => .fail
  | some operation =>
      let acc := accumulator (bit w 16)
      if bit w 15 then do
        let mem <- effective w .y false
        return withMoves operation
          { first := .between (.reg .y0) acc, second := .between acc mem }
      else do
        let mem <- effective w .x false
        return withMoves operation
          { first := .between acc mem, second := .between (.reg .x0) acc }

end Decoder
end Dsp56k
end Disassembler
