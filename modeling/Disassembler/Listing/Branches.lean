import Disassembler.Display.Branch
import Disassembler.Listing.Line
import Disassembler.Search

/-!
# Branches of a listing

The branches of a block of lines, as arrows between the lines.
-/

namespace Disassembler
namespace Listing

variable {u i : Type}

/-- The index of the first line at or after an address: minus one below the
first line, and the number of lines above the last.  The lines are given by
their addresses. -/
def lineAt (addresses : Array UInt32) (target : UInt32) : Int :=
  let from? (k : Nat) : Bool := target ≤ addresses.getD k 0
  if addresses.isEmpty || target < addresses.getD 0 0 then -1
  else searchFirst from? 0 addresses.size

def branchesTo (target? : Line u i -> Option UInt32) (lines : List (Line u i)) : List Branch :=
  let addresses := (lines.map Line.address).toArray
  lines.zipIdx.filterMap fun (l, k) =>
    (target? l).map fun target => { start := k, stop := lineAt addresses target }

def branches68 (lines : List Line68) : List Branch :=
  branchesTo (fun l => l.inst.target? l.address) lines

def branches56 (lines : List Line56) : List Branch :=
  branchesTo (fun l => (l.inst.target? l.address).map (·.address)) lines

end Listing

end Disassembler
