import Disassembler.Listing.Line
import Disassembler.Log

/-!
# Blocks

Disassembling a whole sequence of units, one line after the other.
-/

namespace Disassembler
namespace Machine

variable {u i : Type}

/-! ## Lines -/

/-- The lines of a sequence of units that begins at an address.  Each line
begins where the one before it ends. -/
def lines (m : Machine u i) (address : UInt32) (units : List u) : List (Line u i) :=
  if units.length < m.least then []
  else
    let l := m.line address units
    l :: m.lines (l.endAddress m) (units.drop (m.length (m.decode units)))
  termination_by units.length
  decreasing_by
    have h1 := m.least_pos
    have h2 := m.length_pos units
    simp only [List.length_drop]
    omega

/-- Every line takes at least one unit. -/
theorem length_lines_le (m : Machine u i) (address : UInt32) (units : List u) :
    (m.lines address units).length ≤ units.length := by
  fun_induction lines m address units with
  | case1 => simp
  | case2 address units h l ih =>
      have h1 := m.least_pos
      have h2 := m.length_pos units
      simp only [List.length_drop] at ih
      simp only [List.length_cons]
      omega

/-! ## Collecting lines -/

/-- Whether too few units remain for a line.  Only as many of them are looked
at as a line needs. -/
def isShort (m : Machine u i) (units : List u) : Bool :=
  (units.drop (m.least - 1)).isEmpty

theorem isShort_iff (m : Machine u i) (units : List u) :
    m.isShort units = true ↔ units.length < m.least := by
  have h := m.least_pos
  simp only [isShort, List.isEmpty_iff, List.drop_eq_nil_iff]
  omega

/-- At most `count` lines after those that are done, the last of which comes
first. -/
def collect (m : Machine u i) (done : List (Line u i)) :
    Nat -> UInt32 -> List u -> List (Line u i)
  | 0, _, _ => done.reverse
  | count + 1, address, units =>
      if m.isShort units then done.reverse
      else
        let l := m.line address units
        m.collect (l :: done) count (l.endAddress m) (units.drop (m.length l.inst))

theorem collect_eq (m : Machine u i) (done : List (Line u i)) (count : Nat)
    (address : UInt32) (units : List u) :
    m.collect done count address units =
      done.reverse ++ (m.lines address units).take count := by
  induction count generalizing done address units with
  | zero => simp [collect]
  | succ count ih =>
      rw [collect, lines]
      by_cases h : units.length < m.least
      · simp [(m.isShort_iff units).2 h, h]
      · have hs : m.isShort units = false := by
          rw [Bool.eq_false_iff, ne_eq, m.isShort_iff]
          exact h
        simp only [hs, Bool.false_eq_true, if_false, h, ih, List.reverse_cons,
          List.append_assoc, List.singleton_append, List.take_succ_cons]
        rfl

/-- The first lines of a sequence; there is no limit if `limit` is not
positive. -/
def block (m : Machine u i) (address : UInt32) (limit : Int) (units : List u) :
    List (Line u i) :=
  m.collect [] (if limit ≤ 0 then units.length else limit.toNat) address units

theorem block_eq_lines (m : Machine u i) (address : UInt32) (limit : Int) (units : List u)
    (h : limit ≤ 0) : m.block address limit units = m.lines address units := by
  simp [block, h, collect_eq, List.take_of_length_le (m.length_lines_le address units)]

theorem block_eq_take (m : Machine u i) (address : UInt32) (limit : Int) (units : List u)
    (h : 0 < limit) :
    m.block address limit units = (m.lines address units).take limit.toNat := by
  simp [block, Int.not_le.2 h, collect_eq]

/-! ## Logging -/

/-- The detail that is logged for a block. -/
def blockSummary (m : Machine u i) (name : String) (block : List (Line u i)) : String :=
  let undecodable := (block.filter fun l => m.isData l.inst).length
  name ++ ": " ++ Number.decDigits block.length ++ " lines ("
    ++ Number.decDigits undecodable ++ " undecodable)"

def loggedBlock (m : Machine u i) (name : String) (address : UInt32) (limit : Int)
    (units : List u) (log : Log) : List (Line u i) × Log :=
  let block := m.block address limit units
  (block, log.add "disassembly" (m.blockSummary name block))

def dspName : String := "dsp56000"

end Machine
end Disassembler
