import Mathlib
import Disassembler.Text.Literal
import Disassembler.Proofs.Text.Numeral

/-!
# Decimal literals

The decimal digits of a number are a literal of that number.
-/

namespace Disassembler
namespace Literal

open Number

/-! ## Digits -/

theorem readDigits_digitChar {limit n d : Nat} (hd : d < 10) (hle : n * 10 + d ≤ limit)
    (rest : List Char) :
    readDigits 10 limit true n (Nat.digitChar d :: rest) =
      readDigits 10 limit true (n * 10 + d) rest := by
  have hunderscore : ∀ d < 16, (Nat.digitChar d == '_') = false := by decide
  rw [readDigits, hunderscore d (by omega), Bool.and_false, if_neg Bool.false_ne_true,
    digit?_digitChar (by omega)]
  simp only [if_neg (Nat.not_le.mpr hd), if_neg (Nat.not_lt.mpr hle)]

theorem readDigits_toDigits_append {limit n : Nat} (hle : n ≤ limit) (rest : List Char) :
    readDigits 10 limit true 0 (Nat.toDigits 10 n ++ rest) = readDigits 10 limit true n rest := by
  induction n using Nat.strongRecOn generalizing rest with
  | ind n ih =>
      by_cases hn : n < 10
      · rw [Nat.toDigits_of_lt_base hn, List.singleton_append, readDigits_digitChar hn (by omega),
          Nat.zero_mul, Nat.zero_add]
      · rw [Nat.toDigits_of_base_le (by omega) (by omega), List.append_assoc,
          ih (n / 10) (by omega) (by omega), List.singleton_append,
          readDigits_digitChar (by omega) (by omega), Nat.div_add_mod']

theorem readDigits_toDigits {limit n : Nat} (hle : n ≤ limit) :
    readDigits 10 limit true 0 (Nat.toDigits 10 n) = .ok n := by
  have h := readDigits_toDigits_append hle []
  rw [List.append_nil] at h
  exact h

/-- The digits of a number do not begin with a zero. -/
theorem exists_toDigits_eq_cons_of_pos {n : Nat} (hn : 0 < n) :
    ∃ d cs, 0 < d ∧ d < 10 ∧ Nat.toDigits 10 n = Nat.digitChar d :: cs := by
  induction n using Nat.strongRecOn with
  | ind n ih =>
      by_cases hlt : n < 10
      · exact ⟨n, [], hn, hlt, Nat.toDigits_of_lt_base hlt⟩
      · rcases ih (n / 10) (by omega) (by omega) with ⟨d, cs, hd, hd10, hdigits⟩
        refine ⟨d, cs ++ [Nat.digitChar (n % 10)], hd, hd10, ?_⟩
        rw [Nat.toDigits_of_base_le (by omega) (by omega), hdigits, List.cons_append]

theorem baseOf_of_ne {c : Char} (hc : c ≠ '0') (cs : List Char) :
    baseOf (c :: cs) = (10, c :: cs) := by
  rw [baseOf.eq_def]
  split
  · rename_i heq
    exact absurd (List.cons.inj heq).1 hc
  · rename_i heq
    exact absurd (List.cons.inj heq).1 hc
  · rfl

theorem readDigits_baseOf_toDigits {limit n : Nat} (hle : n ≤ limit) :
    readDigits (baseOf (Nat.toDigits 10 n)).1 limit true 0 (baseOf (Nat.toDigits 10 n)).2 =
      .ok n := by
  rcases Nat.eq_zero_or_pos n with rfl | hn
  · rfl
  · have hzero : ∀ d < 10, 0 < d -> Nat.digitChar d ≠ '0' := by decide
    have hread := readDigits_toDigits hle
    rcases exists_toDigits_eq_cons_of_pos hn with ⟨d, cs, hd, hd10, hdigits⟩
    rw [hdigits] at hread ⊢
    rw [baseOf_of_ne (hzero d hd10 hd)]
    exact hread

theorem unsignedList_toDigits {limit n : Nat} (hle : n ≤ limit) :
    unsignedList limit (Nat.toDigits 10 n) = .ok n := by
  have hdigit : ∀ d < 16, Nat.digitChar d ≠ '_' := by decide
  have hunderscore : (Nat.toDigits 10 n).contains '_' = false := by
    rw [Bool.eq_false_iff, ne_eq, List.contains_iff_mem]
    exact fun hmem => forall_mem_toDigits (P := (· ≠ '_')) (by omega) (by omega) hdigit _ hmem rfl
  have hne : (Nat.toDigits 10 n).isEmpty = false := by
    rw [List.isEmpty_eq_false_iff]
    exact Nat.toDigits_ne_nil
  rw [unsignedList, hne, readDigits_baseOf_toDigits hle]
  simp only [hunderscore]
  rfl

/-! ## Signed literals -/

theorem signed_decDigits {n : Nat} (hn : n < 0x8000000000000000) :
    signed (decDigits n) = .ok n := by
  have hsign : ∀ d < 10, Nat.digitChar d ≠ '-' ∧ Nat.digitChar d ≠ '+' := by decide
  rcases exists_toDigits_eq_cons (b := 10) (by omega) n with ⟨d, hd, cs, hdigits⟩
  have hhead : ((decDigits n).toList.head? == some '-') = false := by
    rw [decDigits, String.toList_ofList, hdigits, List.head?_cons]
    exact beq_eq_false_iff_ne.mpr fun heq => (hsign d hd).1 (Option.some.inj heq)
  have hdrop : dropSign (decDigits n).toList = Nat.toDigits 10 n := by
    rw [decDigits, String.toList_ofList, hdigits, dropSign.eq_def]
    split
    · rename_i heq
      exact absurd (List.cons.inj heq).1 (hsign d hd).2
    · rename_i heq
      exact absurd (List.cons.inj heq).1 (hsign d hd).1
    · rfl
  have hle : n ≤ maxUnsigned := by
    rw [maxUnsigned]
    omega
  rw [signed, hdrop, unsignedList_toDigits hle]
  simp only [hhead, if_pos hn]
  rfl

theorem lt_of_signed_eq {s : String} {n : Int} (h : signed s = .ok n) :
    n < 0x8000000000000000 := by
  simp only [signed] at h
  split at h
  · cases h
  · cases h
  · split at h
    · split at h
      · cases h
        omega
      · cases h
    · split at h
      · rename_i hlt
        cases h
        omega
      · cases h

end Literal
end Disassembler
