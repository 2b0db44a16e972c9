import Mathlib
import Disassembler.Listing.Branches
import Disassembler.Search

/-!
# Targets of branches

The line that a branch leads to is found by halving.  In lines that are sorted
by their addresses it is the first one at or after the target.
-/

namespace Disassembler
namespace Listing

variable {u i : Type}

/-! ## Lines in the order of their addresses -/

/-- Lines whose addresses increase. -/
def Increasing (lines : List (Line u i)) : Prop :=
  lines.Pairwise fun a b => a.address < b.address

instance (lines : List (Line u i)) : Decidable (Increasing lines) :=
  inferInstanceAs (Decidable (lines.Pairwise fun a b => a.address < b.address))

theorem lineAt_eq {lines : List (Line u i)} (hlines : Increasing lines) (hne : lines ≠ [])
    (target : UInt32) :
    lineAt (lines.map Line.address).toArray target =
      if ∃ l ∈ lines.head?, target < l.address then -1
      else ((lines.findIdx fun l => target ≤ l.address : Nat) : Int) := by
  cases lines with
  | nil => exact absurd rfl hne
  | cons l lines =>
      have hsearch := searchFirst_address hlines target
      have hfirst : ((l :: lines).map Line.address).toArray.getD 0 0 = l.address := rfl
      simp only [lineAt, hfirst, hsearch]
      simp

end Listing
end Disassembler
