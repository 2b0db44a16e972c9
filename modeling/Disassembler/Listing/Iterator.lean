import Disassembler.Binary.Cursor
import Disassembler.Listing.Block

/-!
# Iterators

Disassembling one line at a time, from any address in the data.
-/

namespace Disassembler

/-- A cursor over data whose first unit is at an address. -/
structure LineIterator (u : Type) where
  address : UInt32
  cursor : Cursor u

namespace LineIterator

variable {u i : Type}

def ofList (address : UInt32) (units : List u) : LineIterator u :=
  { address, cursor := .ofList units }

def seek (it : LineIterator u) (offset : Nat) : LineIterator u :=
  { it with
    cursor :=
      { units := it.cursor.units
        position := min offset it.cursor.units.length
        position_le := Nat.min_le_right _ _ } }

def next (m : Machine u i) (it : LineIterator u) : Option (Line u i) × LineIterator u :=
  if it.cursor.remaining < m.least then (none, it)
  else
    let l := m.line (it.address + UInt32.ofNat it.cursor.position) it.cursor.rest
    (some l, it.seek (it.cursor.position + m.length l.inst))

/-- Whether an address is outside of the data.  The number of units counts in 32
bits. -/
def isOutside (it : LineIterator u) (address : UInt32) : Bool :=
  address < it.address || UInt32.ofNat it.cursor.units.length ≤ address - it.address

/-- The line at an address.  From an address outside of the data the iterator
goes to the end. -/
def start (m : Machine u i) (it : LineIterator u) (address : UInt32) :
    Option (Line u i) × LineIterator u :=
  if it.isOutside address then (none, it.seek it.cursor.units.length)
  else (it.seek (address - it.address).toNat).next m

def linesFrom (m : Machine u i) (it : LineIterator u) (address : UInt32) (limit : Int) :
    List (Line u i) :=
  if it.isOutside address then []
  else m.block address limit (it.cursor.units.drop (address - it.address).toNat)

end LineIterator

end Disassembler
