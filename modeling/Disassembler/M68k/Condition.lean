/-!
# Condition codes

The sixteen conditions of branches, loops, sets and traps, and their meaning
for the flags of the status register.
-/

namespace Disassembler
namespace M68k

inductive Condition where
  | t | f | hi | ls | cc | cs | ne | eq | vc | vs | pl | mi | ge | lt | gt | le
  deriving DecidableEq, Repr

namespace Condition

/-- The conditions in the order of their codes. -/
def all : List Condition :=
  [t, f, hi, ls, cc, cs, ne, eq, vc, vs, pl, mi, ge, lt, gt, le]

def name : Condition -> String
  | t => "t"
  | f => "f"
  | hi => "hi"
  | ls => "ls"
  | cc => "cc"
  | cs => "cs"
  | ne => "ne"
  | eq => "eq"
  | vc => "vc"
  | vs => "vs"
  | pl => "pl"
  | mi => "mi"
  | ge => "ge"
  | lt => "lt"
  | gt => "gt"
  | le => "le"

/-- The condition with the code `n`, of which only the low four bits count. -/
def ofCode (n : Nat) : Condition :=
  match n % 16 with
  | 0 => t
  | 1 => f
  | 2 => hi
  | 3 => ls
  | 4 => cc
  | 5 => cs
  | 6 => ne
  | 7 => eq
  | 8 => vc
  | 9 => vs
  | 10 => pl
  | 11 => mi
  | 12 => ge
  | 13 => lt
  | 14 => gt
  | _ => le

def code : Condition -> Nat
  | t => 0
  | f => 1
  | hi => 2
  | ls => 3
  | cc => 4
  | cs => 5
  | ne => 6
  | eq => 7
  | vc => 8
  | vs => 9
  | pl => 10
  | mi => 11
  | ge => 12
  | lt => 13
  | gt => 14
  | le => 15

@[simp] theorem ofCode_code (c : Condition) : ofCode c.code = c := by
  cases c <;> rfl

end Condition

/-! ## Flags -/

/-- The arithmetic flags. -/
structure Flags where
  negative : Bool
  zero : Bool
  overflow : Bool
  carry : Bool
  deriving DecidableEq, Repr

namespace Flags

/-- The flags held in a status register. -/
def ofStatus (sr : UInt32) : Flags where
  negative := sr.toNat.testBit 3
  zero := sr.toNat.testBit 2
  overflow := sr.toNat.testBit 1
  carry := sr.toNat.testBit 0

end Flags

def Condition.holds (c : Condition) (s : Flags) : Bool :=
  match c with
  | t => true
  | f => false
  | hi => !s.carry && !s.zero
  | ls => s.carry || s.zero
  | cc => !s.carry
  | cs => s.carry
  | ne => !s.zero
  | eq => s.zero
  | vc => !s.overflow
  | vs => s.overflow
  | pl => !s.negative
  | mi => s.negative
  | ge => s.negative == s.overflow
  | lt => s.negative != s.overflow
  | gt => !s.zero && s.negative == s.overflow
  | le => s.zero || s.negative != s.overflow

end M68k
end Disassembler
