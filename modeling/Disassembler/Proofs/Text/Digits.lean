import Mathlib
import Disassembler.Text.Literal

/-!
# Numerals digit by digit

Which characters are the digits of a base, in letters of either case, and which number
they make up.  Plain numerals, without a sign or a base of their own, are read as
exactly that.
-/

namespace Disassembler
namespace Literal

/-! ## Digits -/

/-- A character is the digit `d` of a base. -/
def IsDigitOf (base : Nat) (c : Char) (d : Nat) : Prop :=
  d < base ∧ (c = Nat.digitChar d ∨ c = (Nat.digitChar d).toUpper)

theorem eq_ofNat_of_toNat {c : Char} {n : Nat} (h : c.toNat = n) : c = Char.ofNat n := by
  rw [← h, Char.ofNat_toNat]

theorem digit?_eq_some_iff {base : Nat} (hbase : base ≤ 16) {c : Char} {d : Nat} :
    digit? c = some d ∧ d < base ↔ IsDigitOf base c d := by
  constructor
  · rintro ⟨hdigit, hd⟩
    refine ⟨hd, ?_⟩
    rw [digit?] at hdigit
    split at hdigit
    · rename_i hrange
      have hlow : '0'.toNat ≤ c.toNat := hrange.1
      have hhigh : c.toNat ≤ '9'.toNat := hrange.2
      have hall : ∀ d < 10, Char.ofNat ('0'.toNat + d) = Nat.digitChar d := by decide
      have heq : c.toNat - '0'.toNat = d := Option.some.inj hdigit
      have hten : d < 10 := by
        have hzero : '0'.toNat = 48 := rfl
        have hnine : '9'.toNat = 57 := rfl
        omega
      left
      rw [← hall d hten]
      exact eq_ofNat_of_toNat (by omega)
    · split at hdigit
      · rename_i hrange
        have hlow : 'a'.toNat ≤ c.toNat := hrange.1
        have hall : ∀ k < 6, Char.ofNat ('a'.toNat + k) = Nat.digitChar (k + 10) := by decide
        have heq : c.toNat - 'a'.toNat + 10 = d := Option.some.inj hdigit
        left
        rw [← heq, ← hall _ (by omega)]
        exact eq_ofNat_of_toNat (by omega)
      · split at hdigit
        · rename_i hrange
          have hlow : 'A'.toNat ≤ c.toNat := hrange.1
          have hall : ∀ k < 6, Char.ofNat ('A'.toNat + k) = (Nat.digitChar (k + 10)).toUpper := by
            decide
          have heq : c.toNat - 'A'.toNat + 10 = d := Option.some.inj hdigit
          right
          rw [← heq, ← hall _ (by omega)]
          exact eq_ofNat_of_toNat (by omega)
        · cases hdigit
  · rintro ⟨hd, hc⟩
    have hall : ∀ d < 16, digit? (Nat.digitChar d) = some d ∧
        digit? (Nat.digitChar d).toUpper = some d := by
      decide
    have hdigit := hall d (by omega)
    rcases hc with rfl | rfl
    · exact ⟨hdigit.1, hd⟩
    · exact ⟨hdigit.2, hd⟩

/-! ## Numerals -/

/-- The characters are the digits of a number, the highest one first. -/
structure IsNumeral (base : Nat) (cs : List Char) (n : Nat) : Prop where
  ne_nil : cs ≠ []
  digits : ∃ ds, List.Forall₂ (IsDigitOf base) cs ds ∧ Nat.ofDigits base ds.reverse = n

theorem ofDigits_reverse (base : Nat) (ds : List Nat) :
    Nat.ofDigits base ds.reverse = ds.foldl (fun n d => n * base + d) 0 := by
  induction ds using List.reverseRecOn with
  | nil => rfl
  | append_singleton ds d ih =>
      rw [List.reverse_append, List.reverse_singleton, List.singleton_append, Nat.ofDigits_cons,
        ih, List.foldl_append]
      change d + base * _ = _ * base + d
      rw [Nat.mul_comm, Nat.add_comm]

theorem le_foldl_digits {base : Nat} (hbase : 0 < base) (n : Nat) (ds : List Nat) :
    n ≤ ds.foldl (fun n d => n * base + d) n := by
  induction ds generalizing n with
  | nil => exact Nat.le_refl n
  | cons d ds ih =>
      have hstep : n ≤ n * base + d := (Nat.le_mul_of_pos_right n hbase).trans (Nat.le_add_right _ d)
      exact hstep.trans (ih _)

/-- Digits are read one by one, and what they make up only grows, so that the limit can be
looked at after each. -/
theorem readDigits_eq_ok_iff {base limit : Nat} (hpos : 0 < base) (hbase : base ≤ 16)
    {cs : List Char} {m n : Nat} (hm : m ≤ limit) :
    readDigits base limit false m cs = .ok n ↔
      ∃ ds, List.Forall₂ (IsDigitOf base) cs ds ∧
        ds.foldl (fun n d => n * base + d) m = n ∧ n ≤ limit := by
  induction cs generalizing m with
  | nil =>
      rw [readDigits, Except.ok.injEq]
      constructor
      · rintro rfl
        exact ⟨[], .nil, rfl, hm⟩
      · rintro ⟨ds, hds, heq, _⟩
        cases hds
        exact heq
  | cons c cs ih =>
      rw [readDigits, Bool.false_and, if_neg Bool.false_ne_true]
      cases hdigit : digit? c with
      | none =>
          refine iff_of_false nofun ?_
          rintro ⟨ds, hds, _⟩
          cases hds with
          | cons hd _ =>
              have hsome := ((digit?_eq_some_iff hbase).2 hd).1
              cases hdigit.symm.trans hsome
      | some d =>
          have honly : ∀ e, IsDigitOf base c e -> e = d := by
            intro e he
            have hsome := ((digit?_eq_some_iff hbase).2 he).1
            exact Option.some.inj (hsome.symm.trans hdigit)
          simp only
          split
          · rename_i hle
            refine iff_of_false nofun ?_
            rintro ⟨ds, hds, _⟩
            cases hds with
            | cons hd _ => exact absurd (honly _ hd ▸ hd.1) (Nat.not_lt.2 hle)
          · rename_i hlt
            have hd : IsDigitOf base c d :=
              (digit?_eq_some_iff hbase).1 ⟨hdigit, Nat.not_le.1 hlt⟩
            split
            · rename_i hover
              refine iff_of_false nofun ?_
              rintro ⟨ds, hds, heq, hn⟩
              cases hds with
              | @cons _ _ _ ds he _ =>
                  rw [honly _ he, List.foldl_cons] at heq
                  have hgrows := le_foldl_digits hpos (m * base + d) ds
                  rw [heq] at hgrows
                  exact absurd (hgrows.trans hn) (Nat.not_le.2 hover)
            · rename_i hwithin
              rw [ih (Nat.not_lt.1 hwithin)]
              constructor
              · rintro ⟨ds, hds, heq⟩
                exact ⟨d :: ds, .cons hd hds, heq⟩
              · rintro ⟨ds, hds, heq⟩
                cases hds with
                | cons he hds =>
                    rw [honly _ he] at heq
                    exact ⟨_, hds, heq⟩

/-- Exactly the numerals up to the limit are read. -/
theorem hexadecimal_eq_ok_iff {limit n : Nat} {s : String} :
    hexadecimal limit s = .ok n ↔ IsNumeral 16 s.toList n ∧ n ≤ limit := by
  rw [hexadecimal]
  split
  · rename_i hempty
    refine iff_of_false nofun ?_
    rintro ⟨hs, _⟩
    exact hs.ne_nil (String.toList_eq_nil_iff.2 (String.isEmpty_iff.1 hempty))
  · rename_i hne
    rw [readDigits_eq_ok_iff (by decide) (by decide) (Nat.zero_le limit)]
    constructor
    · rintro ⟨ds, hds, heq, hn⟩
      refine ⟨⟨?_, ds, hds, (ofDigits_reverse 16 ds).trans heq⟩, hn⟩
      exact fun hnil => hne (String.isEmpty_iff.2 (String.toList_eq_nil_iff.1 hnil))
    · rintro ⟨⟨_, ds, hds, heq⟩, hn⟩
      exact ⟨ds, hds, (ofDigits_reverse 16 ds).symm.trans heq, hn⟩

/-! ## Characters -/

theorem IsNumeral.forall_mem {base : Nat} {cs : List Char} {n : Nat} (h : IsNumeral base cs n)
    (hbase : base ≤ 16) {P : Char -> Prop}
    (hP : ∀ d < 16, P (Nat.digitChar d) ∧ P (Nat.digitChar d).toUpper) : ∀ c ∈ cs, P c := by
  rcases h with ⟨-, ds, hds, -⟩
  induction hds with
  | nil => exact List.forall_mem_nil P
  | cons hc _ ih =>
      have hd := hP _ (Nat.lt_of_lt_of_le hc.1 hbase)
      refine List.forall_mem_cons.2 ⟨?_, ih⟩
      rcases hc.2 with rfl | rfl
      · exact hd.1
      · exact hd.2

end Literal
end Disassembler
