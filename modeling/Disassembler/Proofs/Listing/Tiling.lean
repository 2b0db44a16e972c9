import Mathlib
import Disassembler.Listing.Block
import Disassembler.Proofs.Binary.Cursor
import Disassembler.Proofs.Dsp56k.Extent
import Disassembler.Proofs.M68k.Extent

/-!
# Tiling

The lines of a block lie next to each other without a gap.  Each one is decoded
at the sum of the lengths of those before it, and together they cover the data
but for what is no whole unit at its end.
-/

namespace Disassembler
namespace Machine

variable {u i : Type}

/-! ## Offsets -/

/-- The number of units that lines take together. -/
def extent (m : Machine u i) (ls : List (Line u i)) : Nat :=
  (ls.map fun l => m.length l.inst).sum

/-- The offset at which a line begins. -/
def offset (m : Machine u i) (ls : List (Line u i)) (k : Nat) : Nat :=
  m.extent (ls.take k)

@[simp] theorem extent_nil (m : Machine u i) : m.extent [] = 0 :=
  rfl

@[simp] theorem extent_cons (m : Machine u i) (l : Line u i) (ls : List (Line u i)) :
    m.extent (l :: ls) = m.length l.inst + m.extent ls := by
  simp [extent]

@[simp] theorem offset_zero (m : Machine u i) (ls : List (Line u i)) : m.offset ls 0 = 0 := by
  simp [offset]

@[simp] theorem offset_cons_succ (m : Machine u i) (l : Line u i) (ls : List (Line u i))
    (k : Nat) : m.offset (l :: ls) (k + 1) = m.length l.inst + m.offset ls k := by
  simp [offset]

theorem offset_succ (m : Machine u i) (ls : List (Line u i)) {k : Nat} (hk : k < ls.length) :
    m.offset ls (k + 1) = m.offset ls k + m.length ls[k].inst := by
  induction ls generalizing k with
  | nil => simp at hk
  | cons l ls ih =>
      cases k with
      | zero => simp
      | succ k =>
          have hk' : k < ls.length := by simpa using hk
          rw [offset_cons_succ, offset_cons_succ, ih hk', List.getElem_cons_succ,
            Nat.add_assoc]

/-! ## Lines -/

theorem lines_eq_nil (m : Machine u i) (address : UInt32) {units : List u}
    (h : units.length < m.least) : m.lines address units = [] := by
  rw [lines, if_pos h]

theorem lines_eq_cons (m : Machine u i) (address : UInt32) {units : List u}
    (h : m.least ≤ units.length) :
    m.lines address units = m.line address units ::
      m.lines ((m.line address units).endAddress m)
        (units.drop (m.length (m.decode units))) := by
  rw [lines, if_neg (Nat.not_lt.2 h)]

/-- Without those in front, the lines are the lines from an offset on. -/
theorem drop_lines (m : Machine u i) (address : UInt32) (units : List u) {k : Nat}
    (hk : k ≤ (m.lines address units).length) :
    (m.lines address units).drop k =
      m.lines (address + UInt32.ofNat (m.offset (m.lines address units) k))
        (units.drop (m.offset (m.lines address units) k)) := by
  -- The lines after the first one are those of the remaining units, where every
  -- offset is smaller by the length of the first line.
  induction address, units using lines.induct m generalizing k with
  | case1 address units h =>
      have hzero : k = 0 := by simpa [lines_eq_nil m address h] using hk
      simp [hzero]
  | case2 address units h l =>
      rename_i ih
      have hcons := lines_eq_cons m address (Nat.not_lt.1 h)
      cases k with
      | zero => simp
      | succ k =>
          rw [hcons] at hk ⊢
          have hk' : k ≤ (m.lines (l.endAddress m)
              (units.drop (m.length (m.decode units)))).length := Nat.le_of_succ_le_succ hk
          rw [List.drop_succ_cons, offset_cons_succ, ih hk', List.drop_drop, Line.endAddress,
            UInt32.ofNat_add, UInt32.add_assoc]
          rfl

/-- Every line is the line at its offset. -/
theorem getElem_lines (m : Machine u i) (address : UInt32) (units : List u) {k : Nat}
    (hk : k < (m.lines address units).length) :
    (m.lines address units)[k] =
      m.line (address + UInt32.ofNat (m.offset (m.lines address units) k))
        (units.drop (m.offset (m.lines address units) k)) := by
  have hdrop := drop_lines m address units (Nat.le_of_lt hk)
  rw [List.drop_eq_getElem_cons hk] at hdrop
  rcases Nat.lt_or_ge (units.drop (m.offset (m.lines address units) k)).length m.least with h | h
  · rw [lines_eq_nil m _ h] at hdrop
    cases hdrop
  · rw [lines_eq_cons m _ h] at hdrop
    exact (List.cons.inj hdrop).1

/-- A line is decoded only where enough units remain. -/
theorem mem_lines {m : Machine u i} {address : UInt32} {units : List u} {l : Line u i}
    (hl : l ∈ m.lines address units) :
    ∃ a rest, m.least ≤ rest.length ∧ l = m.line a rest := by
  fun_induction lines m address units with
  | case1 => simp at hl
  | case2 address units h l' ih =>
      rcases List.mem_cons.1 hl with rfl | hl
      · exact ⟨address, units, Nat.not_lt.1 h, rfl⟩
      · exact ih hl

/-! ## Decoding what is there -/

/-- No instruction takes more units than there are. -/
def Fits (m : Machine u i) : Prop :=
  ∀ units : List u, m.least ≤ units.length -> m.length (m.decode units) ≤ units.length

/-- Less than a line is left at the end. -/
theorem Fits.extent_lines {m : Machine u i} (hm : m.Fits) (address : UInt32)
    (units : List u) :
    m.extent (m.lines address units) ≤ units.length ∧
      units.length < m.extent (m.lines address units) + m.least := by
  fun_induction lines m address units with
  | case1 address units h => simpa using h
  | case2 address units h l ih =>
      have hle : m.length l.inst ≤ units.length := hm units (Nat.not_lt.1 h)
      have hinst : m.length (m.decode units) = m.length l.inst := rfl
      rw [List.length_drop, hinst] at ih
      rw [extent_cons, hinst]
      omega

/-- A line keeps all of its units, up to the limit. -/
theorem Fits.length_mem {m : Machine u i} (hm : m.Fits) {address : UInt32} {units : List u}
    {l : Line u i} (hl : l ∈ m.lines address units) :
    l.mem.length = min (m.length l.inst) m.keep := by
  rcases mem_lines hl with ⟨a, rest, hrest, rfl⟩
  have hle : m.length (m.decode rest) ≤ rest.length := hm rest hrest
  simp only [line, peek, List.length_take]
  omega

/-! ## Tiling -/

/-- Lines that lie next to each other on the data. -/
structure Tiles (m : Machine u i) (address : UInt32) (units : List u)
    (ls : List (Line u i)) : Prop where
  /-- A line is decoded at its offset. -/
  inst_eq : ∀ k (hk : k < ls.length), ls[k].inst = m.decode (units.drop (m.offset ls k))
  /-- Addresses wrap around. -/
  address_eq : ∀ k (hk : k < ls.length),
    ls[k].address = address + UInt32.ofNat (m.offset ls k)
  /-- A line ends where the next one begins. -/
  endAddress_eq : ∀ k (hk : k + 1 < ls.length), ls[k].endAddress m = ls[k + 1].address
  /-- A line keeps the units it was decoded from, up to a limit. -/
  mem_eq : ∀ k (hk : k < ls.length),
    ls[k].mem = (units.drop (m.offset ls k)).take (min (m.length ls[k].inst) m.keep)

theorem tiles_lines (m : Machine u i) (address : UInt32) (units : List u) :
    m.Tiles address units (m.lines address units) where
  inst_eq k hk := by
    rw [getElem_lines m address units hk]
    rfl
  address_eq k hk := by
    rw [getElem_lines m address units hk]
    rfl
  endAddress_eq k hk := by
    have hk' : k < (m.lines address units).length := by omega
    rw [Line.endAddress]
    have h1 := getElem_lines m address units hk'
    have h2 := getElem_lines m address units hk
    rw [h2, offset_succ m _ hk', UInt32.ofNat_add, ← UInt32.add_assoc]
    congr 1
    rw [h1]
    rfl
  mem_eq k hk := by
    rw [getElem_lines m address units hk]
    simp only [line, peek, List.take_take, Nat.min_comm]

/-! ## The two processors -/

theorem m68k_fits (cpu : M68k.Cpu) : (m68k cpu).Fits := by
  intro units h
  show (M68k.decode cpu units).length ≤ units.length
  by_cases hop : (M68k.decode cpu units).opcode = .data
  · rw [M68k.decode_eq_data hop]
    exact h
  · exact (M68k.encodes_take hop).1

theorem m68k_even (cpu : M68k.Cpu) (units : Bytes) : (M68k.decode cpu units).length % 2 = 0 := by
  by_cases hop : (M68k.decode cpu units).opcode = .data
  · rw [M68k.decode_eq_data hop]
    simp [M68k.Instruction.data]
  · have hcode := (M68k.encodes_take hop).2
    rw [hcode.length_eq]
    exact hcode.even_length

/-- Before the 68020 no instruction is longer than what a line keeps. -/
theorem m68k_length_le {cpu : M68k.Cpu} (hcpu : cpu ∈ [.m68000, .m68010]) (units : Bytes) :
    (M68k.decode cpu units).length ≤ (m68k cpu).keep := by
  show (M68k.decode cpu units).length ≤ 10
  by_cases hop : (M68k.decode cpu units).opcode = .data
  · rw [M68k.decode_eq_data hop]
    exact Nat.le_add_left 2 8
  · have hcode := (M68k.encodes_take hop).2
    have hle := Nat.le_trans hcode.length_le (M68k.operandWords_le cpu)
    rw [if_pos hcpu] at hle
    rw [hcode.length_eq]
    exact hle

theorem extent_m68k_even (cpu : M68k.Cpu) (address : UInt32) (units : Bytes) :
    (m68k cpu).extent ((m68k cpu).lines address units) % 2 = 0 := by
  fun_induction lines (m68k cpu) address units with
  | case1 => rfl
  | case2 address units h l ih =>
      have hlength : (m68k cpu).length l.inst % 2 = 0 := m68k_even cpu units
      rw [extent_cons]
      omega

theorem dsp56k_fits : dsp56k.Fits := by
  intro units h
  exact (Dsp56k.decode_length_le (List.length_pos_iff.1 h)).1

theorem dsp56k_length_le {units : List Word24} (h : 1 ≤ units.length) :
    (Dsp56k.decode units).length ≤ dsp56k.keep := by
  have hle : (Dsp56k.decode units).length ≤ 3 :=
    (Dsp56k.decode_length_le (List.length_pos_iff.1 h)).2
  exact Nat.le_trans hle (by decide)

/-! ## Blocks -/

/-- The lines of a block without a limit lie next to each other and cover the
data but for an incomplete unit at its end.  A line keeps the units of its
instruction, of which only the 68020 and its successors can have more than it
keeps.  A limit cuts off the lines after it. -/
theorem blocks_tile_data (address : UInt32) {limit : Int} (hlimit : limit ≤ 0)
    (data : Bytes) :
    (∀ cpu : M68k.Cpu,
      let m := m68k cpu
      let ls := m.block address limit data
      m.Tiles address data ls ∧
        m.extent ls = 2 * (data.length / 2) ∧
        (∀ l ∈ ls, l.mem.length = min l.inst.length 10) ∧
        (cpu ∈ [.m68000, .m68010] -> ∀ l ∈ ls, l.mem.length = l.inst.length) ∧
        ∀ count : Int, 0 < count -> m.block address count data = ls.take count.toNat) ∧
    (let words := Word24.unpack data
      let ls := dsp56k.block address limit words
      dsp56k.Tiles address words ls ∧
        dsp56k.extent ls = data.length / 3 ∧
        (∀ l ∈ ls, l.mem.length = l.inst.length) ∧
        ∀ count : Int, 0 < count ->
          dsp56k.block address count words = ls.take count.toNat) := by
  refine ⟨fun cpu => ?_, ?_⟩
  · simp only [block_eq_lines _ address limit _ hlimit]
    have hextent := (m68k_fits cpu).extent_lines address data
    have heven := extent_m68k_even cpu address data
    have hleast : (m68k cpu).least = 2 := rfl
    refine ⟨tiles_lines _ address data, by omega, ?_, ?_,
      fun count => block_eq_take _ address count data⟩
    · intro l hl
      exact (m68k_fits cpu).length_mem hl
    · intro hcpu l hl
      have hmem := (m68k_fits cpu).length_mem hl
      rcases mem_lines hl with ⟨a, rest, _, rfl⟩
      exact hmem.trans (Nat.min_eq_left (m68k_length_le hcpu rest))
  · simp only [block_eq_lines _ address limit _ hlimit]
    have hextent := dsp56k_fits.extent_lines address (Word24.unpack data)
    have hleast : dsp56k.least = 1 := rfl
    rw [Word24.length_unpack] at hextent
    refine ⟨tiles_lines _ address _, by omega, ?_, fun count => block_eq_take _ address count _⟩
    intro l hl
    have hmem := dsp56k_fits.length_mem hl
    rcases mem_lines hl with ⟨a, rest, hrest, rfl⟩
    exact hmem.trans (Nat.min_eq_left (dsp56k_length_le hrest))

/-- Two instructions and a byte that is left over, and a word of the signal
processor. -/
theorem blocks_tile_data_nops :
    (0 : Int) ≤ 0 ∧
      (m68k .m68000).extent
        ((m68k .m68000).block 0x1000 0 [0x4e, 0x71, 0x4e, 0x71, 0x4e]) = 4 ∧
      dsp56k.extent
        (dsp56k.block 0x1000 0 (Word24.unpack [0x4e, 0x71, 0x4e, 0x71, 0x4e])) = 1 := by
  have h := blocks_tile_data 0x1000 (Int.le_refl 0) [0x4e, 0x71, 0x4e, 0x71, 0x4e]
  exact ⟨Int.le_refl 0, (h.1 .m68000).2.1, h.2.2.1⟩

end Machine
end Disassembler
