/-!
# Condition codes

The sixteen conditions of jumps and transfers, and their meaning for the flags
of the status register.
-/

namespace Disassembler
namespace Dsp56k

inductive Condition where
  | cc | ge | ne | pl | nn | ec | lc | gt | cs | lt | eq | mi | nr | es | ls | le
  deriving DecidableEq, Repr

namespace Condition

/-- The conditions in the order of their codes. -/
def all : List Condition :=
  [cc, ge, ne, pl, nn, ec, lc, gt, cs, lt, eq, mi, nr, es, ls, le]

def name : Condition -> String
  | cc => "cc"
  | ge => "ge"
  | ne => "ne"
  | pl => "pl"
  | nn => "nn"
  | ec => "ec"
  | lc => "lc"
  | gt => "gt"
  | cs => "cs"
  | lt => "lt"
  | eq => "eq"
  | mi => "mi"
  | nr => "nr"
  | es => "es"
  | ls => "ls"
  | le => "le"

/-- The condition with the code `n`, of which only the low four bits count. -/
def ofCode (n : Nat) : Condition :=
  match n % 16 with
  | 0 => cc
  | 1 => ge
  | 2 => ne
  | 3 => pl
  | 4 => nn
  | 5 => ec
  | 6 => lc
  | 7 => gt
  | 8 => cs
  | 9 => lt
  | 10 => eq
  | 11 => mi
  | 12 => nr
  | 13 => es
  | 14 => ls
  | _ => le

def code : Condition -> Nat
  | cc => 0
  | ge => 1
  | ne => 2
  | pl => 3
  | nn => 4
  | ec => 5
  | lc => 6
  | gt => 7
  | cs => 8
  | lt => 9
  | eq => 10
  | mi => 11
  | nr => 12
  | es => 13
  | ls => 14
  | le => 15

@[simp] theorem ofCode_code (c : Condition) : ofCode c.code = c := by
  cases c <;> rfl

end Condition

/-! ## Flags -/

structure Flags where
  carry : Bool
  overflow : Bool
  zero : Bool
  negative : Bool
  unnormalized : Bool
  extension : Bool
  limit : Bool
  deriving DecidableEq, Repr

namespace Flags

/-- The flags held in a status register. -/
def ofStatus (sr : UInt64) : Flags where
  carry := sr.toNat.testBit 0
  overflow := sr.toNat.testBit 1
  zero := sr.toNat.testBit 2
  negative := sr.toNat.testBit 3
  unnormalized := sr.toNat.testBit 4
  extension := sr.toNat.testBit 5
  limit := sr.toNat.testBit 6

/-- The result is normalized. -/
def normalized (s : Flags) : Bool :=
  s.zero || (!s.unnormalized && !s.extension)

end Flags

def Condition.holds (c : Condition) (s : Flags) : Bool :=
  match c with
  | cc => !s.carry
  | ge => s.negative == s.overflow
  | ne => !s.zero
  | pl => !s.negative
  | nn => !s.normalized
  | ec => !s.extension
  | lc => !s.limit
  | gt => !(s.zero || s.negative != s.overflow)
  | cs => s.carry
  | lt => s.negative != s.overflow
  | eq => s.zero
  | mi => s.negative
  | nr => s.normalized
  | es => s.extension
  | ls => s.limit
  | le => s.zero || s.negative != s.overflow

end Dsp56k
end Disassembler
