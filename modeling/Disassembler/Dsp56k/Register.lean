import Disassembler.Text.Number

/-!
# Registers

Register names and snapshots of register values.  The accumulators and the
input registers have parts; writing a part also writes the whole.
-/

namespace Disassembler
namespace Dsp56k

inductive Register where
  | x1 | x0 | y1 | y0
  | a2 | a1 | a0 | b2 | b1 | b0
  | r (n : Fin 8)
  | n (n : Fin 8)
  | m (n : Fin 8)
  | sr | omr | sp | ssh | ssl | la | lc
  | a | b | x | y
  | pc
  | a10 | b10 | ab | ba
  | mr | ccr
  /-- A register outside the register set. -/
  | unlisted
  deriving DecidableEq, Repr

namespace Register

/-- The registers that have a value in a snapshot, in their usual order. -/
def stored : List Register :=
  [x1, x0, y1, y0, a2, a1, a0, b2, b1, b0]
    ++ (List.finRange 8).map r ++ (List.finRange 8).map n ++ (List.finRange 8).map m
    ++ [sr, omr, sp, ssh, ssl, la, lc, a, b, x, y, pc]

/-- The registers that only appear as operands: pairs of a long move and
halves of the status register. -/
def operandOnly : List Register :=
  [a10, b10, ab, ba, mr, ccr]

def name : Register -> String
  | x1 => "x1"
  | x0 => "x0"
  | y1 => "y1"
  | y0 => "y0"
  | a2 => "a2"
  | a1 => "a1"
  | a0 => "a0"
  | b2 => "b2"
  | b1 => "b1"
  | b0 => "b0"
  | r i => "r" ++ Number.decDigits i.val
  | n i => "n" ++ Number.decDigits i.val
  | m i => "m" ++ Number.decDigits i.val
  | sr => "sr"
  | omr => "omr"
  | sp => "sp"
  | ssh => "ssh"
  | ssl => "ssl"
  | la => "la"
  | lc => "lc"
  | a => "a"
  | b => "b"
  | x => "x"
  | y => "y"
  | pc => "pc"
  | a10 => "a10"
  | b10 => "b10"
  | ab => "ab"
  | ba => "ba"
  | mr => "mr"
  | ccr => "ccr"
  | unlisted => "?"

def ofName (s : String) : Register :=
  ((stored ++ operandOnly).find? fun r => r.name == s).getD unlisted

/-- The register at a place of the register set.  One place between the stored
registers and the others is not used. -/
def ofNumber (i : Int) : Register :=
  if i < 0 then unlisted
  else (stored ++ [unlisted] ++ operandOnly).getD i.toNat unlisted

/-- The name at a place of the register set.  The place that is not used has
the empty name. -/
def nameOfNumber (i : Int) : String :=
  if i = stored.length then "" else (ofNumber i).name

def isStored (r : Register) : Bool :=
  match r with
  | a10 | b10 | ab | ba | mr | ccr | unlisted => false
  | _ => true

end Register

/-! ## Snapshots -/

structure Registers where
  value : Register -> UInt64

namespace Registers

def zero : Registers where
  value _ := 0

def get (s : Registers) (r : Register) : UInt64 :=
  if r.isStored then s.value r else 0

def put (s : Registers) (r : Register) (v : UInt64) : Registers where
  value r' := if r' = r then v else s.value r'

def accumulator (high middle low : UInt64) : UInt64 :=
  high <<< 48 ||| middle <<< 24 ||| low

def input (high low : UInt64) : UInt64 :=
  high <<< 24 ||| low

/-- Compute the combined register that a register is a part of. -/
def combine (s : Registers) (r : Register) : Registers :=
  match r with
  | .a2 | .a1 | .a0 => s.put .a (accumulator (s.value .a2) (s.value .a1) (s.value .a0))
  | .b2 | .b1 | .b0 => s.put .b (accumulator (s.value .b2) (s.value .b1) (s.value .b0))
  | .x1 | .x0 => s.put .x (input (s.value .x1) (s.value .x0))
  | .y1 | .y0 => s.put .y (input (s.value .y1) (s.value .y0))
  | _ => s

/-- Write a register, and the combined register that it is a part of.  A
register that is not stored cannot be written. -/
def set (s : Registers) (r : Register) (v : UInt64) : Registers :=
  if r.isStored then (s.put r v).combine r else s

/-- An address register.  Only the low three bits of the number count. -/
def address (s : Registers) (i : Nat) : UInt64 :=
  s.get (.r (low3 i))

def offset (s : Registers) (i : Nat) : UInt64 :=
  s.get (.n (low3 i))

end Registers

end Dsp56k
end Disassembler
