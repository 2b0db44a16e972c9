import Disassembler.M68k.Print
import Disassembler.Proofs.Text.Numeral

/-!
# Reading register lists

A register list names the registers of its mask, those of a bank in increasing
order and with neighbours joined to ranges.  Reading the parts of the list gives
the mask back.
-/

namespace Disassembler
namespace M68k

/-! ## Digits of registers -/

/-- The number that a single digit stands for. -/
def digit (c : Char) : Nat :=
  (Literal.digit? c).getD 0

/-- The number of a register is a single digit. -/
theorem register_digit {r : Nat} (hr : r < 8) :
    (Number.decDigits r).toList = [Nat.digitChar r] ∧ digit (Nat.digitChar r) = r := by
  constructor
  · rw [Number.decDigits, String.toList_ofList, Nat.toDigits_of_lt_base (by omega)]
  · rw [digit, Number.digit?_digitChar (by omega), Option.getD_some]

namespace RegList

/-! ## Ranges -/

/-- The numbers from the first to the last one of a range. -/
def span (r : Nat × Nat) : List Nat :=
  List.range' r.1 (r.2 + 1 - r.1)

theorem mem_ranges {ns : List Nat} {r : Nat × Nat} (hr : r ∈ ranges ns) :
    r.1 ≤ r.2 ∧ r.2 ∈ ns := by
  fun_induction ranges ns generalizing r with
  | case1 => simp at hr
  | case2 n rest high more heq ih =>
      rw [heq] at ih
      rcases List.mem_cons.1 hr with rfl | hr
      · have hlast := ih List.mem_cons_self
        exact ⟨Nat.le_of_succ_le hlast.1, List.mem_cons_of_mem n hlast.2⟩
      · have hlast := ih (List.mem_cons_of_mem _ hr)
        exact ⟨hlast.1, List.mem_cons_of_mem n hlast.2⟩
  | case3 n rest low high more heq hlow ih =>
      rw [heq] at ih
      rcases List.mem_cons.1 hr with rfl | hr
      · exact ⟨Nat.le_refl n, List.mem_cons_self⟩
      · exact ⟨(ih hr).1, List.mem_cons_of_mem n (ih hr).2⟩
  | case4 n rest heq ih =>
      rw [List.mem_singleton] at hr
      subst hr
      exact ⟨Nat.le_refl n, List.mem_cons_self⟩

/-- The ranges hold the numbers that they were made of. -/
theorem flatMap_span_ranges (ns : List Nat) : (ranges ns).flatMap span = ns := by
  fun_induction ranges ns with
  | case1 => rfl
  | case2 n rest high more heq ih =>
      -- The first range of the rest grows by one number at its front.
      rw [heq] at ih
      have hr : (n + 1, high) ∈ ranges rest := by simp [heq]
      have hle : n + 1 ≤ high := (mem_ranges hr).1
      have hspan : span (n, high) = n :: span (n + 1, high) := by
        have hlength : high + 1 - n = (high + 1 - (n + 1)) + 1 := by omega
        rw [span, hlength, List.range'_succ, span]
      rw [List.flatMap_cons, hspan, List.cons_append, ← List.flatMap_cons, ih]
  | case3 n rest low high more heq hlow ih =>
      rw [heq] at ih
      rw [List.flatMap_cons, ih]
      simp [span]
  | case4 n rest heq ih =>
      rw [heq] at ih
      rw [List.flatMap_cons, ih]
      simp [span]

/-! ## Reading -/

/-- The number of the first register of a bank. -/
def bankStart (bank : Char) : Nat :=
  if bank = 'a' then 8 else 0

/-- The numbers of the registers that a part of a list names. -/
def readPart : List Char -> List Nat
  | [bank, first] => [bankStart bank + digit first]
  | [bank, first, _, _, last] => (span (digit first, digit last)).map (bankStart bank + ·)
  | _ => []

/-- The numbers of the registers that a list names. -/
def readNumbers (s : List Char) : List Nat :=
  (s.splitOn '/').flatMap readPart

/-- The mask of the registers that a list names. -/
def readMask (s : List Char) : UInt16 :=
  .ofNat (Nat.ofBits fun i : Fin 16 => decide (i.val ∈ readNumbers s))

/-! ## Parts -/

theorem toList_rangeText {bank : String} {c : Char} (hbank : bank.toList = [c])
    {r : Nat × Nat} (hr : r.1 ≤ r.2) (hlt : r.2 < 8) :
    (rangeText bank r).toList =
      if r.1 = r.2 then [c, Nat.digitChar r.1]
      else [c, Nat.digitChar r.1, '-', c, Nat.digitChar r.2] := by
  have hfirst := (register_digit (r := r.1) (by omega)).1
  have hlast := (register_digit hlt).1
  unfold rangeText
  split <;> simp [hbank, hfirst, hlast]

theorem readPart_rangeText {bank : String} {c : Char} (hbank : bank.toList = [c])
    {r : Nat × Nat} (hr : r.1 ≤ r.2) (hlt : r.2 < 8) :
    readPart (rangeText bank r).toList = (span r).map (bankStart c + ·) := by
  rw [toList_rangeText hbank hr hlt]
  have hfirst := (register_digit (r := r.1) (by omega)).2
  have hlast := (register_digit hlt).2
  split
  · rename_i heq
    have hone : r.2 + 1 - r.1 = 1 := by omega
    rw [readPart, hfirst, span, hone]
    rfl
  · rw [readPart, hfirst, hlast]

theorem members_lt {mask : UInt16} {low i : Nat} (hi : i ∈ members mask low) : i < 8 := by
  rw [members, List.mem_filter, List.mem_range] at hi
  exact hi.1

/-- The parts of a bank name its members. -/
theorem flatMap_readPart_bank {bank : String} {c : Char} (hbank : bank.toList = [c])
    (mask : UInt16) (low : Nat) :
    (((ranges (members mask low)).map (rangeText bank)).map String.toList).flatMap readPart =
      (members mask low).map (bankStart c + ·) := by
  have hpart : ∀ r ∈ ranges (members mask low),
      readPart (rangeText bank r).toList = (span r).map (bankStart c + ·) := by
    intro r hr
    have hbounds := mem_ranges hr
    exact readPart_rangeText hbank hbounds.1 (members_lt hbounds.2)
  rw [List.map_map, List.flatMap_map]
  calc
    (ranges (members mask low)).flatMap (fun r => readPart (rangeText bank r).toList)
      = (ranges (members mask low)).flatMap (fun r => (span r).map (bankStart c + ·)) := by
        rw [List.flatMap_def, List.map_congr_left hpart, ← List.flatMap_def]
    _ = ((ranges (members mask low)).flatMap span).map (bankStart c + ·) := by
        rw [List.map_flatMap]
    _ = (members mask low).map (bankStart c + ·) := by rw [flatMap_span_ranges]

/-- The characters of the parts. -/
def partChars : List Char :=
  ['d', 'a', '-', '0', '1', '2', '3', '4', '5', '6', '7']

theorem digitChar_mem_partChars {n : Nat} (hn : n < 8) : Nat.digitChar n ∈ partChars := by
  have hall : ∀ n < 8, Nat.digitChar n ∈ partChars := by decide
  exact hall n hn

theorem mem_partChars_of_mem_bank {bank : String} {b : Char} (hbank : bank.toList = [b])
    (hb : b ∈ partChars) {mask : UInt16} {low : Nat} {s : String}
    (hs : s ∈ (ranges (members mask low)).map (rangeText bank)) :
    ∀ c ∈ s.toList, c ∈ partChars := by
  rcases List.mem_map.1 hs with ⟨r, hr, rfl⟩
  have hbounds := mem_ranges hr
  have hlt : r.2 < 8 := members_lt hbounds.2
  have hfirst : Nat.digitChar r.1 ∈ partChars := digitChar_mem_partChars (by omega)
  have hlast : Nat.digitChar r.2 ∈ partChars := digitChar_mem_partChars hlt
  have hdash : '-' ∈ partChars := by decide
  rw [toList_rangeText hbank hbounds.1 hlt]
  split <;> simp [hb, hfirst, hlast, hdash]

theorem exists_cons_of_mem_bank {bank : String} {c : Char} (hbank : bank.toList = [c])
    {mask : UInt16} {low : Nat} {s : String}
    (hs : s ∈ (ranges (members mask low)).map (rangeText bank)) :
    ∃ cs, s.toList = c :: cs := by
  rcases List.mem_map.1 hs with ⟨r, hr, rfl⟩
  have hbounds := mem_ranges hr
  rw [toList_rangeText hbank hbounds.1 (members_lt hbounds.2)]
  split
  · exact ⟨_, rfl⟩
  · exact ⟨_, rfl⟩

theorem mem_partChars {mask : UInt16} {s : String} (hs : s ∈ parts mask) :
    ∀ c ∈ s.toList, c ∈ partChars := by
  rcases List.mem_append.1 hs with hs | hs
  · exact mem_partChars_of_mem_bank rfl (by decide) hs
  · exact mem_partChars_of_mem_bank rfl (by decide) hs

/-! ## Lists -/

theorem splitOn_text {mask : UInt16} (h : parts mask ≠ []) :
    (text mask).toList.splitOn '/' = (parts mask).map String.toList := by
  rw [text, Text.toList_join, show "/".toList = ['/'] from rfl, List.splitOn_intercalate]
  · intro cs hcs hmem
    rcases List.mem_map.1 hcs with ⟨s, hs, rfl⟩
    exact absurd (mem_partChars hs _ hmem) (by decide)
  · simpa using h

/-- The members of both banks are the bits of the mask. -/
theorem mem_readNumbers_text (mask : UInt16) (i : Nat) :
    i ∈ readNumbers (text mask).toList ↔ i < 16 ∧ Word16.bit mask i = true := by
  have hparts : readNumbers (text mask).toList =
      ((parts mask).map String.toList).flatMap readPart := by
    -- Cutting an empty text gives one empty part, which names nothing.
    by_cases hnil : parts mask = []
    · rw [text, hnil]
      rfl
    · rw [readNumbers, splitOn_text hnil]
  rw [hparts, parts, List.map_append, List.flatMap_append,
    flatMap_readPart_bank (c := 'd') rfl, flatMap_readPart_bank (c := 'a') rfl, List.mem_append]
  have hd : bankStart 'd' = 0 := rfl
  have ha : bankStart 'a' = 8 := rfl
  simp only [List.mem_map, members, List.mem_filter, List.mem_range, hd, ha]
  constructor
  · rintro (⟨n, ⟨hn, hbit⟩, rfl⟩ | ⟨n, ⟨hn, hbit⟩, rfl⟩)
    · exact ⟨by omega, hbit⟩
    · exact ⟨by omega, hbit⟩
  · rintro ⟨hi, hbit⟩
    by_cases hlow : i < 8
    · exact Or.inl ⟨i, ⟨hlow, by rwa [Nat.zero_add]⟩, Nat.zero_add i⟩
    · have hi8 : 8 + (i - 8) = i := by omega
      exact Or.inr ⟨i - 8, ⟨by omega, by rwa [hi8]⟩, hi8⟩

theorem mem_toList_text {mask : UInt16} {c : Char} (hc : c ∈ (text mask).toList) :
    c = '/' ∨ c ∈ partChars := by
  rcases Text.mem_toList_join hc with hc | ⟨s, hs, hc⟩
  · exact Or.inl (List.mem_singleton.1 hc)
  · exact Or.inr (mem_partChars hs c hc)

/-- A register list begins with a register, if it is not empty. -/
theorem head_text {mask : UInt16} {c : Char} (hc : c ∈ (text mask).toList.head?) :
    c = 'd' ∨ c = 'a' := by
  have hpart : ∀ s ∈ parts mask, ∃ cs, s.toList = 'd' :: cs ∨ s.toList = 'a' :: cs := by
    intro s hs
    rcases List.mem_append.1 hs with hs | hs
    · rcases exists_cons_of_mem_bank (c := 'd') rfl hs with ⟨cs, h⟩
      exact ⟨cs, Or.inl h⟩
    · rcases exists_cons_of_mem_bank (c := 'a') rfl hs with ⟨cs, h⟩
      exact ⟨cs, Or.inr h⟩
  rw [text] at hc
  cases hparts : parts mask with
  | nil => simp [hparts, Text.join] at hc
  | cons s rest =>
      rcases Text.exists_toList_join_cons "/" s rest with ⟨tail, htail⟩
      rw [hparts, htail] at hc
      rcases hpart s (by simp [hparts]) with ⟨cs, hs | hs⟩
      · rw [hs] at hc
        exact Or.inl (Option.some.inj hc).symm
      · rw [hs] at hc
        exact Or.inr (Option.some.inj hc).symm

/-- A register list names the registers of its mask. -/
theorem readMask_text (mask : UInt16) : readMask (text mask).toList = mask := by
  have hbits : (fun i : Fin 16 => decide (i.val ∈ readNumbers (text mask).toList)) =
      fun i : Fin 16 => mask.toNat.testBit i := by
    funext i
    rw [Bool.eq_iff_iff, decide_eq_true_iff, mem_readNumbers_text]
    exact and_iff_right i.isLt
  have hmask : mask.toNat < 2 ^ 16 := mask.toNat_lt
  rw [readMask, hbits, Nat.ofBits_testBit, Nat.mod_eq_of_lt hmask, UInt16.ofNat_toNat]

end RegList
end M68k
end Disassembler
