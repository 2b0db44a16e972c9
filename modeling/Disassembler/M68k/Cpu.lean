/-!
# Processor models

The members of the 68000 family, in the order in which each one extends the
one before it.
-/

namespace Disassembler
namespace M68k

inductive Cpu where
  | m68000
  | m68010
  | m68020
  | m68030
  deriving DecidableEq, Repr

namespace Cpu

def all : List Cpu :=
  [m68000, m68010, m68020, m68030]

def name : Cpu -> String
  | m68000 => "68000"
  | m68010 => "68010"
  | m68020 => "68020"
  | m68030 => "68030"

/-- The model of that name. -/
def ofName? (s : String) : Option Cpu :=
  all.find? fun c => c.name == s

/-- The 68010 and everything after it. -/
def is010 : Cpu -> Bool
  | m68000 => false
  | _ => true

/-- The 68020 and everything after it. -/
def is020 : Cpu -> Bool
  | m68000 | m68010 => false
  | _ => true

end Cpu

end M68k
end Disassembler
