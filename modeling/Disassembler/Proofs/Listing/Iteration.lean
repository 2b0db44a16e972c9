import Mathlib
import Disassembler.Listing.Iterator
import Disassembler.Proofs.Binary.Cursor
import Disassembler.Proofs.Listing.Tiling

/-!
# Iteration

An iterator is driven by calls, in any order, and keeps a position between
them.  Where the calls of `next` are all that is left to make, the lines that
they give are those of a block.

A start forgets the position.  What follows it therefore depends on the data
only, whatever the calls before it were.
-/

namespace Disassembler
namespace LineIterator

variable {u i : Type} {m : Machine u i}

/-! ## Calls -/

/-- What can be asked of an iterator. -/
inductive Call where
  | start (address : UInt32)
  | next
  deriving Repr

def Call.run (m : Machine u i) (it : LineIterator u) :
    Call -> Option (Line u i) × LineIterator u
  | .start address => it.start m address
  | .next => it.next m

/-- The iterator after a number of calls. -/
def after (m : Machine u i) (it : LineIterator u) : List Call -> LineIterator u
  | [] => it
  | c :: calls => (c.run m it).2.after m calls

/-- Two positions in the same data. -/
def SameData (it it' : LineIterator u) : Prop :=
  it.address = it'.address ∧ it.cursor.units = it'.cursor.units

theorem SameData.trans {it it' it'' : LineIterator u} (h : it.SameData it')
    (h' : it'.SameData it'') : it.SameData it'' :=
  ⟨h.1.trans h'.1, h.2.trans h'.2⟩

theorem sameData_seek (it : LineIterator u) (offset : Nat) : (it.seek offset).SameData it :=
  ⟨rfl, rfl⟩

theorem sameData_next (it : LineIterator u) : (it.next m).2.SameData it := by
  rw [next]
  split
  · exact ⟨rfl, rfl⟩
  · exact sameData_seek it _

theorem sameData_start (it : LineIterator u) (address : UInt32) :
    (it.start m address).2.SameData it := by
  rw [start]
  split
  · exact sameData_seek it _
  · exact (sameData_next _).trans (sameData_seek it _)

theorem sameData_after (it : LineIterator u) (calls : List Call) :
    (it.after m calls).SameData it := by
  induction calls generalizing it with
  | nil => exact ⟨rfl, rfl⟩
  | cons c calls ih =>
      cases c with
      | start address => exact (ih _).trans (sameData_start it address)
      | next => exact (ih _).trans (sameData_next it)

theorem SameData.start_eq {it it' : LineIterator u} (h : it.SameData it') (address : UInt32) :
    it.start m address = it'.start m address := by
  rcases it with ⟨base, units, position, _⟩
  rcases it' with ⟨base', units', position', _⟩
  rcases h with ⟨rfl, rfl⟩
  rfl

/-! ## The next line -/

theorem next_eq_none {it : LineIterator u} (h : it.cursor.remaining < m.least) :
    it.next m = (none, it) := by
  rw [next, if_pos h]

theorem next_eq_some {it : LineIterator u} (h : m.least ≤ it.cursor.remaining) :
    it.next m =
      (some (m.line (it.address + UInt32.ofNat it.cursor.position) it.cursor.rest),
        it.seek (it.cursor.position + m.length (m.decode it.cursor.rest))) := by
  rw [next, if_neg (Nat.not_lt.2 h)]
  rfl

theorem remaining_of_next {it : LineIterator u} (h : (it.next m).1 = none) :
    it.cursor.remaining < m.least := by
  rcases Nat.lt_or_ge it.cursor.remaining m.least with hlt | hge
  · exact hlt
  · rw [next_eq_some hge] at h
    cases h

/-! ## Until there are no more lines -/

/-- The lines that calls of `next` give, up to the first one that fails. -/
inductive Drains (m : Machine u i) : LineIterator u -> List (Line u i) -> Prop where
  | done {it : LineIterator u} : (it.next m).1 = none -> Drains m it []
  | more {it : LineIterator u} {l : Line u i} {ls : List (Line u i)} :
      (it.next m).1 = some l -> Drains m (it.next m).2 ls -> Drains m it (l :: ls)

/-- The lines of a start and of the calls of `next` after it. -/
def DrainsFrom (m : Machine u i) (it : LineIterator u) (address : UInt32)
    (ls : List (Line u i)) : Prop :=
  ∃ rest, Drains m (it.start m address).2 rest ∧
    ls = (it.start m address).1.toList ++ rest

theorem Drains.after_next {it : LineIterator u} {ls : List (Line u i)} (h : Drains m it ls) :
    ∃ rest, Drains m (it.next m).2 rest ∧ ls = (it.next m).1.toList ++ rest := by
  cases h with
  | done hnone =>
      rw [next_eq_none (remaining_of_next hnone)]
      exact ⟨[], .done hnone, rfl⟩
  | more hsome hrest =>
      rw [hsome]
      exact ⟨_, hrest, rfl⟩

/-- Behind a line, what is left to read begins where the line ends. -/
theorem rest_seek_line (hm : m.Fits) {it : LineIterator u}
    (h : m.least ≤ it.cursor.remaining) :
    let next := it.seek (it.cursor.position + m.length (m.decode it.cursor.rest))
    next.cursor.position = it.cursor.position + m.length (m.decode it.cursor.rest) ∧
      next.cursor.rest = it.cursor.rest.drop (m.length (m.decode it.cursor.rest)) := by
  have hle := hm it.cursor.rest (by rwa [Cursor.length_rest])
  rw [Cursor.length_rest, Cursor.remaining] at hle
  have hpos := it.cursor.position_le
  have hmin : min (it.cursor.position + m.length (m.decode it.cursor.rest))
      it.cursor.units.length = it.cursor.position + m.length (m.decode it.cursor.rest) := by
    omega
  refine ⟨hmin, ?_⟩
  show it.cursor.units.drop (min _ _) = _
  rw [hmin, ← List.drop_drop]
  rfl

theorem drains_lines (hm : m.Fits) (it : LineIterator u) :
    Drains m it (m.lines (it.address + UInt32.ofNat it.cursor.position) it.cursor.rest) := by
  -- Both sides go on with the units behind the first line.
  generalize haddress : it.address + UInt32.ofNat it.cursor.position = address
  generalize hunits : it.cursor.rest = units
  induction address, units using Machine.lines.induct m generalizing it with
  | case1 address units h =>
      rw [m.lines_eq_nil address h]
      rw [← hunits, Cursor.length_rest] at h
      refine .done ?_
      rw [next_eq_none h]
  | case2 address units h l =>
      rename_i ih
      rw [m.lines_eq_cons address (Nat.not_lt.1 h)]
      rw [← hunits, Cursor.length_rest] at h
      have hnext := next_eq_some (Nat.not_lt.1 h)
      rcases rest_seek_line hm (Nat.not_lt.1 h) with ⟨hposition, hrest⟩
      refine .more (by rw [hnext, haddress, hunits]) (ih _ ?_ ?_)
      · rw [hnext]
        show it.address + UInt32.ofNat (Cursor.position _) = l.endAddress m
        rw [hposition, UInt32.ofNat_add, ← UInt32.add_assoc, haddress, hunits]
        rfl
      · rw [hnext, ← hunits]
        exact hrest

/-! ## Starting -/

theorem isOutside_iff {it : LineIterator u} (h : it.cursor.units.length < 2 ^ 32)
    (address : UInt32) :
    it.isOutside address = true ↔
      ¬(it.address ≤ address ∧ (address - it.address).toNat < it.cursor.units.length) := by
  have hcount : (UInt32.ofNat it.cursor.units.length).toNat = it.cursor.units.length :=
    UInt32.toNat_ofNat_of_lt' h
  rw [isOutside, Bool.or_eq_true, decide_eq_true_iff, decide_eq_true_iff, UInt32.le_iff_toNat_le,
    hcount, not_and_or, UInt32.not_le, Nat.not_lt]

theorem le_add_ofNat {base : UInt32} {n : Nat} (h : base.toNat + n < 2 ^ 32) :
    base ≤ base + UInt32.ofNat n := by
  rw [UInt32.le_iff_toNat_le, UInt32.toNat_add, UInt32.toNat_ofNat', Nat.add_mod_mod,
    Nat.mod_eq_of_lt h]
  exact Nat.le_add_right _ _

theorem toNat_add_ofNat_sub (base : UInt32) {n : Nat} (h : base.toNat + n < 2 ^ 32) :
    (base + UInt32.ofNat n - base).toNat = n := by
  rw [UInt32.add_comm, UInt32.add_sub_cancel]
  exact UInt32.toNat_ofNat_of_lt' (Nat.lt_of_le_of_lt (Nat.le_add_left _ _) h)

/-- From an address in the data on, an iterator gives the lines of the data
there. -/
theorem drainsFrom_lines (hm : m.Fits) (it : LineIterator u)
    (hunits : it.cursor.units.length < 2 ^ 32) {address : UInt32}
    (hle : it.address ≤ address)
    (hlt : (address - it.address).toNat < it.cursor.units.length) :
    DrainsFrom m it address
      (m.lines address (it.cursor.units.drop (address - it.address).toNat)) := by
  have hinside : ¬(it.isOutside address = true) := by
    rw [isOutside_iff hunits, not_not]
    exact ⟨hle, hlt⟩
  have hstart : it.start m address = (it.seek (address - it.address).toNat).next m := by
    rw [start, if_neg hinside]
  have hposition : (it.seek (address - it.address).toNat).cursor.position =
      (address - it.address).toNat := Nat.min_eq_left (Nat.le_of_lt hlt)
  have hdrains := drains_lines hm (it.seek (address - it.address).toNat)
  rw [Cursor.rest, hposition, UInt32.ofNat_toNat] at hdrains
  have haddress : (it.seek (address - it.address).toNat).address + (address - it.address) =
      address := by
    show it.address + (address - it.address) = address
    rw [UInt32.add_comm, UInt32.sub_add_cancel]
  rw [haddress] at hdrains
  rw [DrainsFrom, hstart]
  exact hdrains.after_next

/-! ## Failure -/

/-- Calls among which no start succeeds. -/
inductive Fruitless (m : Machine u i) : LineIterator u -> List Call -> Prop where
  | nil (it : LineIterator u) : Fruitless m it []
  | start {it : LineIterator u} {address : UInt32} {calls : List Call} :
      (it.start m address).1 = none -> Fruitless m (it.start m address).2 calls ->
        Fruitless m it (.start address :: calls)
  | next {it : LineIterator u} {calls : List Call} :
      Fruitless m (it.next m).2 calls -> Fruitless m it (.next :: calls)

theorem remaining_of_start {it : LineIterator u} {address : UInt32}
    (h : (it.start m address).1 = none) :
    (it.start m address).2.cursor.remaining < m.least := by
  rw [start] at h ⊢
  split
  · show it.cursor.units.length - min _ _ < m.least
    rw [Nat.min_self, Nat.sub_self]
    exact m.least_pos
  · rename_i hinside
    rw [if_neg hinside] at h
    have hshort := remaining_of_next h
    rwa [next_eq_none hshort]

theorem Fruitless.remaining_after {it : LineIterator u} {calls : List Call}
    (h : Fruitless m it calls) (hit : it.cursor.remaining < m.least) :
    (it.after m calls).cursor.remaining < m.least := by
  induction h with
  | nil => exact hit
  | start hnone _ ih => exact ih (remaining_of_start hnone)
  | next _ ih =>
      refine ih ?_
      rwa [next_eq_none hit]

end LineIterator

/-! ## Iterators and blocks -/

namespace Machine

open LineIterator

variable {u i : Type}

/-- Iterators over some data agree with the blocks of the data. -/
structure Follows (m : Machine u i) (base : UInt32) (units : List u) : Prop where
  fresh : Drains m (ofList base units) (m.block base 0 units)
  restart : ∀ (calls : List Call) (address : UInt32),
    base ≤ address -> (address - base).toNat < units.length ->
      DrainsFrom m ((ofList base units).after m calls) address
        (m.block address 0 (units.drop (address - base).toNat))
  /-- The addresses up to that of the line must not wrap around. -/
  restart_line : ∀ (calls : List Call) (k : Nat) (hk : k < (m.block base 0 units).length),
    base.toNat + m.offset (m.block base 0 units) k < 2 ^ 32 ->
      DrainsFrom m ((ofList base units).after m calls) (m.block base 0 units)[k].address
        ((m.block base 0 units).drop k)
  outside : ∀ (calls : List Call) (address : UInt32),
    ¬(base ≤ address ∧ (address - base).toNat < units.length) ->
      let failed := ((ofList base units).after m calls).start m address
      failed.1 = none ∧
        ∀ more, Fruitless m failed.2 more -> ((failed.2.after m more).next m).1 = none

/-- A line begins in front of the end of the data. -/
theorem offset_lt (m : Machine u i) {address : UInt32} {units : List u} {k : Nat}
    (hk : k < (m.lines address units).length) :
    m.offset (m.lines address units) k < units.length := by
  have hne : (m.lines address units).drop k ≠ [] := by
    rw [List.drop_eq_getElem_cons hk]
    exact List.cons_ne_nil _ _
  rw [m.drop_lines address units (Nat.le_of_lt hk)] at hne
  by_contra hge
  refine hne (m.lines_eq_nil _ ?_)
  rw [List.length_drop, Nat.sub_eq_zero_of_le (Nat.not_lt.1 hge)]
  exact m.least_pos

theorem Fits.follows {m : Machine u i} (hm : m.Fits) (base : UInt32) {units : List u}
    (hunits : units.length < 2 ^ 32) : m.Follows base units := by
  have hblock : ∀ (address : UInt32) (rest : List u),
      m.block address 0 rest = m.lines address rest := by
    intro address rest
    exact block_eq_lines m address 0 rest (Int.le_refl 0)
  have hstart : ∀ (calls : List Call) (address : UInt32),
      ((ofList base units).after m calls).start m address =
        (ofList base units).start m address := by
    intro calls address
    exact (sameData_after _ calls).start_eq address
  have hrestart : ∀ address : UInt32, base ≤ address ->
      (address - base).toNat < units.length ->
        DrainsFrom m (ofList base units) address
          (m.lines address (units.drop (address - base).toNat)) := by
    intro address
    exact drainsFrom_lines hm (ofList base units) hunits
  constructor
  · have hdrains := drains_lines hm (ofList base units)
    rw [hblock]
    rwa [show (ofList base units).address + UInt32.ofNat (ofList base units).cursor.position
      = base from UInt32.add_zero base] at hdrains
  · intro calls address hle hlt
    rw [hblock, DrainsFrom, hstart]
    exact hrestart address hle hlt
  · intro calls k
    rw [hblock]
    intro hk hwrap
    rw [DrainsFrom, hstart, (m.tiles_lines base units).address_eq k hk,
      m.drop_lines base units (Nat.le_of_lt hk)]
    have hlt := m.offset_lt hk
    have hoffset := toNat_add_ofNat_sub base hwrap
    have h := hrestart _ (le_add_ofNat hwrap) (by rwa [hoffset])
    rwa [hoffset] at h
  · intro calls address hout failed
    have hfailed : failed.1 = none := by
      show (LineIterator.start m _ address).1 = none
      rw [hstart, start, if_pos ((isOutside_iff hunits address).2 hout)]
    refine ⟨hfailed, ?_⟩
    intro more hmore
    rw [next_eq_none (hmore.remaining_after (remaining_of_start hfailed))]

/-- From data of either processor, iterators give the lines of blocks.  For the
signal processor an address counts words, of which the data from a word on has
those from it on. -/
theorem iterators_follow_blocks (base : UInt32) (data : Bytes) (hdata : data.length < 2 ^ 32) :
    (∀ cpu : M68k.Cpu, (m68k cpu).Follows base data) ∧
      dsp56k.Follows base (Word24.unpack data) ∧
      ∀ n, (Word24.unpack data).drop n = Word24.unpack (data.drop (3 * n)) := by
  refine ⟨fun cpu => (m68k_fits cpu).follows base hdata, dsp56k_fits.follows base ?_, ?_⟩
  · rw [Word24.length_unpack]
    omega
  · intro n
    exact (Word24.unpack_drop data n).symm

/-- An iterator that was at the end goes back to the second instruction, and
fails behind the odd byte. -/
theorem iterators_follow_blocks_nops :
    [0x4e, 0x71, 0x4e, 0x71, 0x4e].length < 2 ^ 32 ∧
      DrainsFrom (m68k .m68000)
        ((ofList 0x1000 [0x4e, 0x71, 0x4e, 0x71, 0x4e]).after (m68k .m68000)
          [.next, .next, .next])
        0x1002 ((m68k .m68000).block 0x1002 0 [0x4e, 0x71, 0x4e]) ∧
      ((ofList 0x1000 [0x4e, 0x71, 0x4e, 0x71, 0x4e]).start (m68k .m68000) 0x1005).1 = none := by
  have h := (iterators_follow_blocks 0x1000 [0x4e, 0x71, 0x4e, 0x71, 0x4e] (by decide)).1 .m68000
  exact ⟨by decide, h.restart [.next, .next, .next] 0x1002 (by decide) (by decide),
    (h.outside [] 0x1005 (by decide)).1⟩

end Machine
end Disassembler
