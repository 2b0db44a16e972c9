import Disassembler.Display.Branch

/-!
# Gutter

The lanes of branches drawn with characters.  The last column is next to the
rows and holds the heads of the arrows.
-/

namespace Disassembler

abbrev Canvas := List (Array Char)

namespace Gutter

def onRow (canvas : Canvas) (row : Int) (f : Array Char -> Array Char) : Canvas :=
  canvas.modify row.toNat f

/-- The number of columns that the lanes and the heads need. -/
def width (branches : List Branch) : Nat :=
  ((branches.map fun (b : Branch) => b.depth + 2).foldl max 1).toNat

def lane (width : Nat) (b : Branch) : Nat :=
  (width - 2 - b.depth).toNat

/-- Both ends of a branch are rows of the canvas. -/
def fits (rows : Int) (b : Branch) : Bool :=
  0 ≤ b.start && b.start < rows && 0 ≤ b.stop && b.stop < rows

/-- Whether all lanes are in the columns.  A lane can be at most in the column
of the heads. -/
def isDrawable (branches : List Branch) (rows : Int) : Bool :=
  (branches.filter (fits rows)).all fun b => -2 < b.depth

def drawLane (width : Nat) (canvas : Canvas) (b : Branch) : Canvas :=
  canvas.mapIdx fun row cs => if b.covers row then cs.setIfInBounds (lane width b) '|' else cs

/-- Draw the end of a branch in a row: a corner in its lane, a line through
the empty columns to its right, and a head unless an arrow ends there. -/
def endInRow (column : Nat) (head : Char) (cs : Array Char) : Array Char :=
  cs.mapIdx fun i c =>
    if i + 1 = cs.size then if c = '>' ∧ i ≠ column then c else head
    else if i = column then '+'
    else if column < i ∧ c = ' ' then '-'
    else c

def drawEnds (width : Nat) (canvas : Canvas) (b : Branch) : Canvas :=
  let column := lane width b
  let canvas := onRow canvas b.start (endInRow column '-')
  match b.clip with
  | .top => onRow canvas b.stop fun cs => cs.setIfInBounds column '^'
  | .bottom => onRow canvas b.stop fun cs => cs.setIfInBounds column 'v'
  | .none => onRow canvas b.stop (endInRow column '>')

/-- Draw branches that have their lanes: first all lanes, then all ends. -/
def draw (branches : List Branch) (rows : Int) : List String :=
  let w := width branches
  let drawn := branches.filter (fits rows)
  let blank : Canvas := List.replicate rows.toNat (Array.replicate w ' ')
  let canvas := drawn.foldl (drawEnds w) (drawn.foldl (drawLane w) blank)
  canvas.map fun cs => String.ofList cs.toList

end Gutter

end Disassembler
