import Mathlib
import Disassembler.Proofs.Binary.Cursor
import Disassembler.Proofs.Listing.Tiling

/-!
# Growing data

Data that comes in piece by piece is disassembled again when there is more of
it.  Lines that were complete stay as they are: only the end of the listing,
where an instruction may have been cut off, can change.
-/

namespace Disassembler
namespace Machine

variable {u i : Type} {m : Machine u i}

/-! ## Codes -/

/-- The units that instructions are decoded from, and what is made of units
that are no instruction. -/
structure Coded (m : Machine u i) (Encodes : List u -> i -> Prop) (data : List u -> i) :
    Prop where
  decode_append : ∀ {code inst}, Encodes code inst -> ∀ rest, m.decode (code ++ rest) = inst
  length_eq : ∀ {code inst}, Encodes code inst -> m.length inst = code.length
  cases : ∀ units, (∃ code rest, units = code ++ rest ∧ Encodes code (m.decode units)) ∨
    m.decode units = data units
  data_append : ∀ {units}, m.least ≤ units.length -> ∀ more, data (units ++ more) = data units

/-- Units behind an instruction do not change it, and neither do they turn data
into an instruction that ends before them. -/
theorem Coded.decode_eq {Encodes : List u -> i -> Prop} {data : List u -> i}
    (hm : m.Coded Encodes data) {units : List u} (hleast : m.least ≤ units.length)
    (more : List u) (hlength : m.length (m.decode (units ++ more)) ≤ units.length) :
    m.decode units = m.decode (units ++ more) := by
  rcases hm.cases (units ++ more) with ⟨code, rest, hcode, hencodes⟩ | hdata
  · rw [hm.length_eq hencodes] at hlength
    obtain ⟨tail, rfl⟩ : code <+: units :=
      List.prefix_of_prefix_length_le ⟨rest, hcode.symm⟩ (List.prefix_append units more) hlength
    exact hm.decode_append hencodes tail
  · rcases hm.cases units with ⟨code, rest, hcode, hencodes⟩ | hdata'
    · have happend := hm.decode_append hencodes (rest ++ more)
      rw [← List.append_assoc, ← hcode] at happend
      exact happend.symm
    · rw [hdata, hdata', hm.data_append hleast]

theorem m68k_coded (cpu : M68k.Cpu) :
    (m68k cpu).Coded (M68k.Encodes cpu) fun units => .data (M68k.leadingWord units) where
  decode_append hcode := hcode.decode_append
  length_eq hcode := hcode.length_eq
  cases := M68k.decode_cases cpu
  data_append {units} hleast more := by
    match units, hleast with
    | high :: low :: rest, _ => rfl

theorem dsp56k_coded :
    dsp56k.Coded Dsp56k.Encodes fun units => .data (Dsp56k.leadingWord units) where
  decode_append hcode := hcode.decode_append
  length_eq hcode := hcode.length_eq
  cases := Dsp56k.decode_cases
  data_append {units} hleast more := by
    match units, hleast with
    | word :: rest, _ => rfl

theorem m68k_least_le (cpu : M68k.Cpu) (units : Bytes) :
    (m68k cpu).least ≤ (m68k cpu).length ((m68k cpu).decode units) := by
  have hpos : 0 < (M68k.decode cpu units).length := M68k.decode_length_pos cpu units
  have heven := m68k_even cpu units
  show 2 ≤ (M68k.decode cpu units).length
  omega

/-! ## Complete lines -/

/-- The lines that end within a number of units. -/
def endingWithin (m : Machine u i) (n : Nat) (ls : List (Line u i)) : List (Line u i) :=
  (ls.zipIdx.filter fun (_, k) => m.offset ls (k + 1) ≤ n).map Prod.fst

@[simp] theorem endingWithin_nil (n : Nat) : m.endingWithin n [] = [] :=
  rfl

theorem endingWithin_cons_of_le {l : Line u i} {n : Nat} (h : m.length l.inst ≤ n)
    (ls : List (Line u i)) :
    m.endingWithin n (l :: ls) = l :: m.endingWithin (n - m.length l.inst) ls := by
  have hend : ∀ k, m.length l.inst + m.offset ls k ≤ n ↔ m.offset ls k ≤ n - m.length l.inst := by
    intro k
    omega
  simp [endingWithin, List.zipIdx_cons, List.zipIdx_succ, List.filter_map, Function.comp_def,
    hend]

theorem endingWithin_cons_of_lt {l : Line u i} {n : Nat} (h : n < m.length l.inst)
    (ls : List (Line u i)) : m.endingWithin n (l :: ls) = [] := by
  rw [endingWithin, List.map_eq_nil_iff, List.filter_eq_nil_iff]
  rintro ⟨l', k⟩ _ hend
  rw [decide_eq_true_iff, offset_cons_succ] at hend
  omega

/-- The induction is on the lines of the data without the units behind it, for
as long as both listings have the same lines. -/
theorem Coded.endingWithin_lines {Encodes : List u -> i -> Prop} {data : List u -> i}
    (hm : m.Coded Encodes data) (hleast : ∀ units, m.least ≤ m.length (m.decode units))
    (address : UInt32) (units more : List u) :
    m.endingWithin units.length (m.lines address (units ++ more)) <+: m.lines address units := by
  fun_induction lines m address units with
  | case1 address units h =>
      rcases Nat.lt_or_ge (units ++ more).length m.least with hshort | hlong
      · rw [m.lines_eq_nil address hshort, endingWithin_nil]
      · have hlength := hleast (units ++ more)
        have hlt : units.length < m.length (m.decode (units ++ more)) := by omega
        rw [m.lines_eq_cons address hlong, endingWithin_cons_of_lt hlt]
  | case2 address units h l ih =>
      have hlong : m.least ≤ (units ++ more).length := by
        rw [List.length_append]
        omega
      rw [m.lines_eq_cons address hlong]
      rcases Nat.lt_or_ge units.length (m.length (m.decode (units ++ more))) with hlt | hle
      · rw [endingWithin_cons_of_lt hlt]
        exact List.nil_prefix
      · have hdecode := hm.decode_eq (Nat.not_lt.1 h) more hle
        have hline : m.line address (units ++ more) = l := by
          show Line.mk _ _ _ = Line.mk _ _ _
          rw [← hdecode, List.take_append_of_le_length (by rwa [hdecode])]
        rw [hline, endingWithin_cons_of_le (by rwa [← hline]), ← hdecode,
          List.drop_append_of_le_length (by rwa [hdecode])]
        rw [List.length_drop] at ih
        exact (List.prefix_cons_inj l).2 ih

/-! ## Blocks -/

/-- The lines of a block that end before appended data are the first lines of
the block without it.  For the signal processor the data in front has to be
made of whole words. -/
theorem appending_keeps_complete_lines (base : UInt32) (data extra : Bytes) :
    (∀ cpu : M68k.Cpu,
      (m68k cpu).endingWithin data.length ((m68k cpu).block base 0 (data ++ extra)) <+:
        (m68k cpu).block base 0 data) ∧
    (data.length % 3 = 0 ->
      dsp56k.endingWithin (data.length / 3)
          (dsp56k.block base 0 (Word24.unpack (data ++ extra))) <+:
        dsp56k.block base 0 (Word24.unpack data)) := by
  constructor
  · intro cpu
    rw [block_eq_lines _ base 0 _ (Int.le_refl 0), block_eq_lines _ base 0 _ (Int.le_refl 0)]
    exact (m68k_coded cpu).endingWithin_lines (m68k_least_le cpu) base data extra
  · intro hdata
    rw [block_eq_lines _ base 0 _ (Int.le_refl 0), block_eq_lines _ base 0 _ (Int.le_refl 0),
      Word24.unpack_append hdata, ← Word24.length_unpack]
    exact dsp56k_coded.endingWithin_lines dsp56k.length_pos base _ _

/-- The first word of a move is data until the rest of it is there.  The two
lines in front of it stay as they are. -/
theorem appending_keeps_complete_lines_move :
    let data : Bytes := [0x4e, 0x71, 0x4e, 0x71, 0x23, 0xfc]
    let extra : Bytes := [0x12, 0x34, 0x56, 0x78, 0x9a, 0xbc, 0xde, 0xf0]
    data.length % 3 = 0 ∧
      ((m68k .m68000).block 0x1000 0 (data ++ extra)).map (·.inst.length) = [2, 2, 10] ∧
      ((m68k .m68000).block 0x1000 0 data).map (·.inst.length) = [2, 2, 2] ∧
      (m68k .m68000).endingWithin data.length
          ((m68k .m68000).block 0x1000 0 (data ++ extra)) <+:
        (m68k .m68000).block 0x1000 0 data ∧
      dsp56k.endingWithin (data.length / 3)
          (dsp56k.block 0x1000 0 (Word24.unpack (data ++ extra))) <+:
        dsp56k.block 0x1000 0 (Word24.unpack data) := by
  intro data extra
  have h := appending_keeps_complete_lines 0x1000 data extra
  exact ⟨by decide, by decide, by decide, h.1 .m68000, h.2 (by decide)⟩

end Machine
end Disassembler
