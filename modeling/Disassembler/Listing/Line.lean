import Disassembler.Dsp56k.Analysis
import Disassembler.M68k.Analysis

/-!
# Lines

A line of a listing is an instruction with its address and the units of memory
it was decoded from.  The two processors differ in their units and in how they
are decoded; everything else about lines is common to both.
-/

namespace Disassembler

/-- What a listing has to know about a processor. -/
structure Machine (u i : Type) where
  decode : List u -> i
  length : i -> Nat
  /-- A line begins only where at least this many units remain. -/
  least : Nat
  /-- How many units a line keeps. -/
  keep : Nat
  /-- The word for encodings that are no instruction. -/
  isData : i -> Bool
  least_pos : 0 < least
  length_pos : ∀ units, 0 < length (decode units)

namespace Machine

def m68k (cpu : M68k.Cpu) : Machine UInt8 M68k.Instruction where
  decode := M68k.decode cpu
  length i := i.length
  least := 2
  keep := 10
  isData i := i.opcode = .data
  least_pos := by decide
  length_pos := M68k.decode_length_pos cpu

def dsp56k : Machine Word24 Dsp56k.Instruction where
  decode := Dsp56k.decode
  length i := i.length
  least := 1
  keep := 6
  isData i := i.opcode = .data
  least_pos := by decide
  length_pos := Dsp56k.decode_length_pos

variable {u i : Type}

def peek (m : Machine u i) (units : List u) : i × List u :=
  let inst := m.decode units
  (inst, units.take (m.length inst))

end Machine

/-- An instruction at an address. -/
structure Line (u i : Type) where
  address : UInt32
  inst : i
  /-- The first units of the instruction. -/
  mem : List u
  deriving Repr

namespace Line

variable {u i : Type}

def endAddress (m : Machine u i) (l : Line u i) : UInt32 :=
  l.address + UInt32.ofNat (m.length l.inst)

end Line

abbrev Line68 := Line UInt8 M68k.Instruction

abbrev Line56 := Line Word24 Dsp56k.Instruction

namespace Machine

variable {u i : Type}

/-- The line at the front of a sequence of units. -/
def line (m : Machine u i) (address : UInt32) (units : List u) : Line u i :=
  let (inst, mem) := m.peek units
  { address, inst, mem := mem.take m.keep }

/-- The 68k code of `n` instructions that do nothing. -/
def nops (n : Nat) : Bytes :=
  n.fold (fun _ _ code => 0x4e :: 0x71 :: code) []

/-- There is no room for the code of more instructions. -/
def maxNops : Nat := 1 <<< 47

/-- The 68k code of a number of instructions that do nothing, if there can be as
many. -/
def nops? (n : Int) : Option Bytes :=
  if 0 ≤ n ∧ n.toNat ≤ maxNops then some (nops n.toNat) else none

end Machine

end Disassembler
