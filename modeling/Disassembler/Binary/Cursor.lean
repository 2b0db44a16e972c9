import Disassembler.Binary.Word

/-!
# Cursors

A cursor is a position in a fixed sequence of units.  Cursors are values: an
operation gives a new cursor and leaves every other one as it was.
-/

namespace Disassembler

/-- A position in a sequence, at most at its end. -/
structure Cursor (u : Type) where
  units : List u
  position : Nat := 0
  position_le : position ≤ units.length := by simp

namespace Cursor

variable {u : Type}

def ofList (units : List u) : Cursor u :=
  { units }

def rest (c : Cursor u) : List u :=
  c.units.drop c.position

def remaining (c : Cursor u) : Nat :=
  c.units.length - c.position

end Cursor

end Disassembler
