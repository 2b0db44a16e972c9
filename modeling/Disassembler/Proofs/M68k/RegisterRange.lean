import Disassembler.Proofs.M68k.RegisterList

/-!
# Ranges of registers

A register list is a list of ranges.  Its ranges are in increasing order, each of
them is as long as it can be without leaving its bank, and the list can be read
in no other way.
-/

namespace Disassembler
namespace M68k
namespace RegList

open Word16 (bit)

/-! ## Runs of numbers -/

theorem mem_span {r : Nat × Nat} {n : Nat} : n ∈ span r ↔ r.1 ≤ n ∧ n ≤ r.2 := by
  rw [span, List.mem_range'_1]
  omega

/-- A range begins with a number that it was made of. -/
theorem fst_mem_of_mem_ranges {ns : List Nat} {r : Nat × Nat} (hr : r ∈ ranges ns) :
    r.1 ∈ ns := by
  rw [← flatMap_span_ranges ns]
  exact List.mem_flatMap_of_mem hr (mem_span.2 ⟨Nat.le_refl _, (mem_ranges hr).1⟩)

/-- Between the ranges of an increasing list there are numbers that it does not
have. -/
theorem pairwise_ranges {ns : List Nat} (hns : ns.Pairwise (· < ·)) :
    (ranges ns).Pairwise fun r s => r.2 + 1 < s.1 := by
  fun_induction ranges ns with
  | case1 => exact List.Pairwise.nil
  | case2 n rest high more heq ih =>
      -- The first range of the rest only gets another beginning.
      rw [List.pairwise_cons] at hns
      rw [heq] at ih
      exact List.pairwise_cons.2 (List.pairwise_cons.1 (ih hns.2))
  | case3 n rest low high more heq hlow ih =>
      rw [List.pairwise_cons] at hns
      rw [heq] at ih
      have hmore := ih hns.2
      have hmem : (low, high) ∈ ranges rest := by simp [heq]
      have hlt : n < low := hns.1 low (fst_mem_of_mem_ranges hmem)
      have hle : low ≤ high := (mem_ranges hmem).1
      refine List.pairwise_cons.2 ⟨?_, hmore⟩
      intro s hs
      show n + 1 < s.1
      rcases List.mem_cons.1 hs with rfl | hs
      · show n + 1 < low
        omega
      · have hbehind : high + 1 < s.1 := (List.pairwise_cons.1 hmore).1 s hs
        omega
  | case4 n rest heq ih => exact List.pairwise_singleton _ _

/-- A range ends where the numbers do. -/
theorem not_mem_of_mem_ranges {ns : List Nat} (hns : ns.Pairwise (· < ·)) {r : Nat × Nat}
    (hr : r ∈ ranges ns) {n : Nat} (hn : n + 1 = r.1 ∨ n = r.2 + 1) : n ∉ ns := by
  intro hmem
  rw [← flatMap_span_ranges ns, List.mem_flatMap] at hmem
  rcases hmem with ⟨s, hs, hspan⟩
  rw [mem_span] at hspan
  have hle := (mem_ranges hr).1
  by_cases heq : r = s
  · subst heq
    omega
  · -- There is a gap between any two ranges, and the number is too close to one of them.
    have hapart : (ranges ns).Pairwise fun r s => r.2 + 1 < s.1 ∨ s.2 + 1 < r.1 :=
      (pairwise_ranges hns).imp Or.inl
    have hsymm : Std.Symm fun r s : Nat × Nat => r.2 + 1 < s.1 ∨ s.2 + 1 < r.1 :=
      ⟨fun _ _ => Or.symm⟩
    rcases hapart.forall hr hs heq with h | h
    · omega
    · omega

/-! ## Reading -/

/-- The names of the registers in the order of their numbers. -/
def registerNames : List String :=
  ["d0", "d1", "d2", "d3", "d4", "d5", "d6", "d7", "a0", "a1", "a2", "a3", "a4", "a5", "a6", "a7"]

/-- The number of the register with a name. -/
def readRegister? (name : List Char) : Option Nat :=
  (registerNames.map String.toList).idxOf? name

/-- The first and the last register of a part of a list.  A range has two
registers at least. -/
def readRange? : List Char -> Option (Nat × Nat)
  | [bank, first] => (readRegister? [bank, first]).map fun n => (n, n)
  | [bank, first, '-', bank', last] =>
      match readRegister? [bank, first], readRegister? [bank', last] with
      | some m, some n => if m < n then some (m, n) else none
      | _, _ => none
  | _ => none

/-- What the parts of a list say.  A list without text has no parts. -/
def readRanges (s : List Char) : List (Option (Nat × Nat)) :=
  if s = [] then [] else (s.splitOn '/').map readRange?

/-! ## Ranges of a mask -/

/-- The ranges of both banks, by the numbers of their registers. -/
def maskRanges (mask : UInt16) : List (Nat × Nat) :=
  ranges (members mask 0) ++ (ranges (members mask 8)).map fun r => (8 + r.1, 8 + r.2)

theorem readRange?_rangeText {bank : String} {c : Char} (hbank : bank.toList = [c]) {low : Nat}
    (hregister : ∀ n < 8, readRegister? [c, Nat.digitChar n] = some (low + n))
    {r : Nat × Nat} (hr : r.1 ≤ r.2) (hlt : r.2 < 8) :
    readRange? (rangeText bank r).toList = some (low + r.1, low + r.2) := by
  have hfirst := hregister r.1 (by omega)
  have hlast := hregister r.2 hlt
  rw [toList_rangeText hbank hr hlt]
  split
  · rename_i heq
    rw [readRange?, hfirst, heq]
    rfl
  · rename_i hne
    have hbetween : low + r.1 < low + r.2 := by omega
    simp only [readRange?, hfirst, hlast, if_pos hbetween]

theorem members_sorted (mask : UInt16) (low : Nat) : (members mask low).Pairwise (· < ·) :=
  List.pairwise_lt_range.filter _

theorem readRange?_bank {bank : String} {c : Char} (hbank : bank.toList = [c]) {low : Nat}
    (hregister : ∀ n < 8, readRegister? [c, Nat.digitChar n] = some (low + n)) (mask : UInt16) :
    (((ranges (members mask low)).map (rangeText bank)).map String.toList).map readRange? =
      ((ranges (members mask low)).map fun r => (low + r.1, low + r.2)).map some := by
  simp only [List.map_map]
  apply List.map_congr_left
  intro r hr
  have hbounds := mem_ranges hr
  exact readRange?_rangeText hbank hregister hbounds.1 (members_lt hbounds.2)

theorem readRange?_parts (mask : UInt16) :
    ((parts mask).map String.toList).map readRange? = (maskRanges mask).map some := by
  have hdata : ∀ n < 8, readRegister? ['d', Nat.digitChar n] = some (0 + n) := by decide
  have haddress : ∀ n < 8, readRegister? ['a', Nat.digitChar n] = some (8 + n) := by decide
  rw [parts, List.map_append, List.map_append, readRange?_bank rfl hdata,
    readRange?_bank rfl haddress, maskRanges, List.map_append]
  simp

theorem part_ne_empty {mask : UInt16} {s : String} (hs : s ∈ parts mask) : s ≠ "" := by
  rintro rfl
  rcases List.mem_append.1 hs with hs | hs
  · rcases exists_cons_of_mem_bank (c := 'd') rfl hs with ⟨cs, h⟩
    cases h
  · rcases exists_cons_of_mem_bank (c := 'a') rfl hs with ⟨cs, h⟩
    cases h

/-- The text of a mask is read part by part. -/
theorem readRanges_text (mask : UInt16) :
    readRanges (text mask).toList = (maskRanges mask).map some := by
  rw [← readRange?_parts]
  by_cases hparts : parts mask = []
  · rw [text, hparts]
    rfl
  · have hne : (text mask).toList ≠ [] := by
      rw [ne_eq, String.toList_eq_nil_iff]
      exact Text.join_ne_empty hparts fun s hs => part_ne_empty hs
    rw [readRanges, if_neg hne, splitOn_text hparts]

/-! ## The registers of a mask -/

theorem span_add (low : Nat) (r : Nat × Nat) :
    span (low + r.1, low + r.2) = (span r).map (low + ·) := by
  have hlength : low + r.2 + 1 - (low + r.1) = r.2 + 1 - r.1 := by omega
  rw [span, span, List.map_add_range', hlength]

/-- The ranges of both banks hold the registers of the mask in increasing order. -/
theorem flatMap_span_maskRanges (mask : UInt16) :
    (maskRanges mask).flatMap span = (List.range 16).filter (bit mask) := by
  have haddress : ((ranges (members mask 8)).map fun r => (8 + r.1, 8 + r.2)).flatMap span =
      (members mask 8).map (8 + ·) := by
    simp only [List.flatMap_map, span_add]
    rw [← List.map_flatMap, flatMap_span_ranges]
  rw [maskRanges, List.flatMap_append, flatMap_span_ranges, haddress,
    show List.range 16 = List.range 8 ++ (List.range 8).map (8 + ·) from rfl, List.filter_append,
    List.filter_map]
  simp only [members, Nat.zero_add]
  rfl

theorem mem_maskRanges {mask : UInt16} {r : Nat × Nat} (hr : r ∈ maskRanges mask) :
    ∃ low s, (low = 0 ∨ low = 8) ∧ s ∈ ranges (members mask low) ∧ r = (low + s.1, low + s.2) := by
  rcases List.mem_append.1 hr with hr | hr
  · exact ⟨0, r, Or.inl rfl, hr, by simp⟩
  · rcases List.mem_map.1 hr with ⟨s, hs, rfl⟩
    exact ⟨8, s, Or.inr rfl, hs, rfl⟩

/-- What the ranges of a register list have to satisfy.  Registers with the same
number divided by eight are in the same bank. -/
structure IsRegisterList (rs : List (Nat × Nat)) : Prop where
  increasing : (rs.flatMap span).Pairwise (· < ·)
  bank : ∀ r ∈ rs, r.1 ≤ r.2 ∧ r.1 / 8 = r.2 / 8
  /-- The registers next to a range are not in the list, unless they are in the other bank. -/
  maximal : ∀ r ∈ rs, ∀ n, n + 1 = r.1 ∨ n = r.2 + 1 -> n / 8 = r.1 / 8 -> n ∉ rs.flatMap span

theorem mem_flatMap_span_maskRanges {mask : UInt16} {n : Nat} :
    n ∈ (maskRanges mask).flatMap span ↔ n < 16 ∧ bit mask n = true := by
  rw [flatMap_span_maskRanges, List.mem_filter, List.mem_range]

theorem isRegisterList_maskRanges (mask : UInt16) : IsRegisterList (maskRanges mask) := by
  constructor
  · rw [flatMap_span_maskRanges]
    exact List.pairwise_lt_range.filter _
  · intro r hr
    rcases mem_maskRanges hr with ⟨low, s, hlow, hs, rfl⟩
    have hle := (mem_ranges hs).1
    have hlt := members_lt (mem_ranges hs).2
    constructor
    · show low + s.1 ≤ low + s.2
      omega
    · show (low + s.1) / 8 = (low + s.2) / 8
      omega
  · intro r hr n hn hbank hmem
    rcases mem_maskRanges hr with ⟨low, s, hlow, hs, rfl⟩
    have hlt := members_lt (mem_ranges hs).2
    have hle := (mem_ranges hs).1
    -- Within its bank the number is next to a range of that bank alone.
    have hsame : low ≤ n ∧ n - low < 8 := by
      simp only at hn hbank
      omega
    have hnext : (n - low) + 1 = s.1 ∨ n - low = s.2 + 1 := by
      simp only at hn
      omega
    apply not_mem_of_mem_ranges (members_sorted mask low) hs hnext
    rw [members, List.mem_filter, List.mem_range, Nat.add_sub_cancel' hsame.1]
    exact ⟨hsame.2, (mem_flatMap_span_maskRanges.1 hmem).2⟩

/-- Registers that are next to each other in two banks make up no range. -/
example : text 0x0180 = "d7/a0" := by decide

/-- Nothing is printed for an empty mask alone. -/
theorem text_eq_empty_iff (mask : UInt16) : text mask = "" ↔ mask = 0 := by
  constructor
  · intro htext
    rw [← readMask_text mask, htext]
    decide
  · rintro rfl
    decide

end RegList
end M68k
end Disassembler
