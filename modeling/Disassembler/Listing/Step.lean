import Disassembler.Listing.Line

/-!
# Stepping

Where a debugger stops when it steps over a line.
-/

namespace Disassembler
namespace Line

/-- The address after a call, a trap or a loop that goes back.  A loop that
the registers say is about to end is not stepped over. -/
def stepOver68? (l : Line68) (regs : Option M68k.Registers) : Option UInt32 :=
  let after := l.address + UInt32.ofNat l.inst.length
  if l.inst.isSubroutine || l.inst.isTrap then some after
  else if l.inst.isBackLoop && (regs.bind l.inst.wouldBranch?) != some false then some after
  else none

def stepOver56? (l : Line56) : Option UInt32 :=
  let after := l.address + UInt32.ofNat l.inst.length
  let toItself := l.inst.target? l.address = some ⟨l.address, false⟩
  if l.inst.isSubroutine || toItself then some after else none

end Line
end Disassembler
