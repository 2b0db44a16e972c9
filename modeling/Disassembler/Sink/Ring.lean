import Disassembler.Binary.Word
import Disassembler.Message.Fault

/-!
# Rings

A sink with room for a fixed number of bytes.  New bytes take the place of the
oldest ones.
-/

namespace Disassembler

/-- A ring of bytes. -/
structure RingSink where
  /-- How many bytes there is room for. -/
  size : Nat
  /-- The cells that have been written to, from the first one on. -/
  cells : Bytes := []
  /-- Where the next byte is put. -/
  cursor : Nat := 0
  /-- Whether all cells have been written to. -/
  wrapped : Bool := false
  cursor_lt : cursor < size
  length_le : cells.length ≤ size
  cursor_le : cursor ≤ cells.length
  length_eq : wrapped = true -> cells.length = size

namespace RingSink

def create (n : Int) : Except Fault RingSink :=
  if h : 0 < n then
    .ok
      { size := n.toNat
        cursor_lt := by omega
        length_le := Nat.zero_le _
        cursor_le := Nat.zero_le _
        length_eq := fun hwrapped => absurd hwrapped Bool.false_ne_true }
  else
    .error (.plain ("invalid size for RingWriter (" ++ Number.signedDigits n ++ ")"))

def contents (r : RingSink) : Bytes :=
  if r.wrapped then r.cells.drop r.cursor ++ r.cells.take r.cursor else r.cells.take r.cursor

/-- Forget all bytes.  They stay in the cells, where they cannot be seen. -/
def clear (r : RingSink) : RingSink :=
  { size := r.size
    cells := r.cells
    cursor_lt := Nat.zero_lt_of_lt r.cursor_lt
    length_le := r.length_le
    cursor_le := Nat.zero_le _
    length_eq := fun hwrapped => absurd hwrapped Bool.false_ne_true }

/-- Put bytes over those that stand from an offset on, as far as there is
room. -/
def overwrite (size : Nat) (cells : Bytes) (offset : Nat) (bytes : Bytes) : Bytes :=
  cells.take offset ++ bytes.take (size - offset) ++ cells.drop (offset + bytes.length)

theorem length_overwrite_of_le {size offset : Nat} {cells bytes : Bytes}
    (hoffset : offset ≤ cells.length) (hsize : cells.length ≤ size)
    (h : size ≤ offset + bytes.length) : (overwrite size cells offset bytes).length = size := by
  simp only [overwrite, List.length_append, List.length_take, List.length_drop]
  omega

theorem length_overwrite_of_lt {size offset : Nat} {cells bytes : Bytes}
    (hoffset : offset ≤ cells.length) (h : offset + bytes.length < size) :
    (overwrite size cells offset bytes).length =
      max cells.length (offset + bytes.length) := by
  simp only [overwrite, List.length_append, List.length_take, List.length_drop]
  omega

/-- The cells after bytes have been put behind the cursor.  Those that do not
fit there go to the front. -/
def cellsAfter (r : RingSink) (bytes : Bytes) : Bytes :=
  let room := r.size - r.cursor
  let cells := overwrite r.size r.cells r.cursor bytes
  if room ≤ bytes.length then overwrite r.size cells 0 (bytes.drop room) else cells

theorem length_cellsAfter_of_le {r : RingSink} {bytes : Bytes}
    (h : r.size ≤ r.cursor + bytes.length) : (r.cellsAfter bytes).length = r.size := by
  have hlt := r.cursor_lt
  have hfirst := length_overwrite_of_le r.cursor_le r.length_le h
  rw [cellsAfter, if_pos (by omega)]
  by_cases hfront : r.size ≤ 0 + (bytes.drop (r.size - r.cursor)).length
  · exact length_overwrite_of_le (Nat.zero_le _) (Nat.le_of_eq hfirst) hfront
  · rw [length_overwrite_of_lt (Nat.zero_le _) (Nat.lt_of_not_le hfront)]
    omega

theorem length_cellsAfter_of_lt {r : RingSink} {bytes : Bytes}
    (h : r.cursor + bytes.length < r.size) :
    (r.cellsAfter bytes).length = max r.cells.length (r.cursor + bytes.length) := by
  rw [cellsAfter, if_neg (by omega), length_overwrite_of_lt r.cursor_le h]

def put (r : RingSink) (bytes : Bytes) : RingSink where
  size := r.size
  cells := r.cellsAfter bytes
  cursor := (r.cursor + bytes.length) % r.size
  wrapped := r.wrapped || decide (r.size - r.cursor ≤ bytes.length)
  cursor_lt := Nat.mod_lt _ (Nat.zero_lt_of_lt r.cursor_lt)
  length_le := by
    have hle := r.length_le
    rcases Nat.lt_or_ge (r.cursor + bytes.length) r.size with h | h
    · rw [length_cellsAfter_of_lt h]
      omega
    · exact Nat.le_of_eq (length_cellsAfter_of_le h)
  cursor_le := by
    rcases Nat.lt_or_ge (r.cursor + bytes.length) r.size with h | h
    · rw [Nat.mod_eq_of_lt h, length_cellsAfter_of_lt h]
      omega
    · rw [length_cellsAfter_of_le h]
      exact Nat.le_of_lt (Nat.mod_lt _ (Nat.zero_lt_of_lt r.cursor_lt))
  length_eq := by
    intro hwrapped
    rcases Nat.lt_or_ge (r.cursor + bytes.length) r.size with h | h
    · rw [decide_eq_false (by omega), Bool.or_false] at hwrapped
      rw [length_cellsAfter_of_lt h, r.length_eq hwrapped]
      omega
    · exact length_cellsAfter_of_le h

/-- Put the last bytes of too many into all cells. -/
def refill (r : RingSink) (bytes : Bytes) (h : r.size ≤ bytes.length) : RingSink :=
  have hlength : (bytes.drop (bytes.length - r.size)).length = r.size := by
    rw [List.length_drop]
    omega
  { size := r.size
    cells := bytes.drop (bytes.length - r.size)
    cursor := 0
    wrapped := true
    cursor_lt := Nat.zero_lt_of_lt r.cursor_lt
    length_le := Nat.le_of_eq hlength
    cursor_le := Nat.zero_le _
    length_eq := fun _ => hlength }

/-- Write bytes.  The result is how many they are, although only the last ones
of too many can be seen afterwards. -/
def write (r : RingSink) (bytes : Bytes) : Nat × RingSink :=
  if h : r.size ≤ bytes.length then (bytes.length, r.refill bytes h)
  else (bytes.length, r.put bytes)

end RingSink

end Disassembler
