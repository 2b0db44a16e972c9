/-!
# Branch arrows

Branches are drawn as arrows in lanes to the left of the rows of a listing.
Each branch has a lane of its own in all the rows that it passes.
-/

namespace Disassembler

/-- The end of the rows that the target of a branch lies beyond. -/
inductive Clip where
  | none
  | top
  | bottom
  deriving DecidableEq, Repr

/-- A branch between two rows.  Deeper lanes are further to the left. -/
structure Branch where
  start : Int
  stop : Int
  depth : Int := 0
  clip : Clip := .none
  deriving DecidableEq, Repr

namespace Branch

def low (b : Branch) : Int :=
  min b.start b.stop

def high (b : Branch) : Int :=
  max b.start b.stop

def covers (b : Branch) (row : Int) : Bool :=
  b.low ≤ row && row ≤ b.high

/-! ## Layout -/

/-- The part of a branch that is visible in a number of rows.  A target beyond
the rows is moved to the nearest row; a branch that starts beyond them is not
visible. -/
def clipTo? (rows : Int) (b : Branch) : Option Branch :=
  if b.start < 0 || rows ≤ b.start then Option.none
  else if b.stop < 0 then some { start := b.start, stop := 0, clip := .top }
  else if rows ≤ b.stop then some { start := b.start, stop := rows - 1, clip := .bottom }
  else some { start := b.start, stop := b.stop }

/-- The numbers of the rows of a branch, and zero for all other rows. -/
def within (b : Branch) (numbers : List Nat) : List Nat :=
  numbers.mapIdx fun row n => if b.covers row then n else 0

def endCounts (rows : Nat) (all : List Branch) : List Nat :=
  all.foldl (fun counts b =>
    (counts.modify b.start.toNat (· + 1)).modify b.stop.toNat (· + 1)) (List.replicate rows 0)

def score (ends : List Nat) (b : Branch) : Nat :=
  (b.within ends).foldl (· + ·) 0

/-- The first lane that is deeper than those taken in the rows of a branch.
Only the number of lanes up to the deepest one is known of each row. -/
def freeDepth (taken : List Nat) (b : Branch) : Nat :=
  (b.within taken).foldl max 0

def occupy (taken : List Nat) (b : Branch) (depth : Nat) : List Nat :=
  taken.mapIdx fun row n => if b.covers row then depth + 1 else n

def place (taken : List Nat) : List (Branch × Nat) -> List (Branch × Nat)
  | [] => []
  | (b, k) :: rest =>
      let depth := freeDepth taken b
      ({ b with depth := depth }, k) :: place (occupy taken b depth) rest

/-- The visible branches, in their order, with their lanes.  Branches that pass
fewer ends are closer to the rows. -/
def layout (branches : List Branch) (rows : Int) : List Branch :=
  let visible := branches.filterMap (clipTo? rows)
  let ends := endCounts rows.toNat visible
  let byScore := visible.zipIdx.mergeSort fun a b => score ends a.1 ≤ score ends b.1
  let placed := place (List.replicate rows.toNat 0) byScore
  (placed.mergeSort fun a b => a.2 ≤ b.2).map Prod.fst

end Branch

end Disassembler
