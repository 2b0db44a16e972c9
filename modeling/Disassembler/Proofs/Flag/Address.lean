import Mathlib
import Disassembler.Flag.Basic
import Disassembler.Proofs.Text.Grouped
import Disassembler.Proofs.Text.Lines

/-!
# Addresses on a command line

An address is a literal, or hexadecimal digits after a dollar sign.  What a literal is
goes beyond decimal digits and `0x`: a zero in front of other digits makes them octal,
further bases have letters of their own, and underscores can stand between digits.
-/

namespace Disassembler
namespace Address

open Literal (Denotes IsDigitOf IsGrouped IsNumeral NamesBase)

/-! ## Ways of writing -/

/-- The ways to write an address that are told of: decimal digits, and hexadecimal
digits after `0x` or a dollar sign. -/
inductive IsDocumented : List Char -> Nat -> Prop where
  | decimal {cs : List Char} {n : Nat} : IsNumeral 10 cs n -> IsDocumented cs n
  | hexadecimal {cs : List Char} {n : Nat} :
      IsNumeral 16 cs n -> IsDocumented ('0' :: 'x' :: cs) n
  | dollar {cs : List Char} {n : Nat} : IsNumeral 16 cs n -> IsDocumented ('$' :: cs) n

/-- All the ways to write an address. -/
inductive IsWritten : List Char -> Nat -> Prop where
  | literal {cs : List Char} {n : Nat} : Denotes cs n -> IsWritten cs n
  | dollar {cs : List Char} {n : Nat} :
      cs ≠ [] -> IsGrouped 16 .digit cs n -> IsWritten ('$' :: cs) n

/-- There are no underscores, and a zero in front of anything is that of `0x`. -/
def IsPlain (cs : List Char) : Prop :=
  '_' ∉ cs ∧ ∀ c rest, cs = '0' :: c :: rest -> c = 'x'

section Writing

variable {c : Char} {cs : List Char} {n : Nat}

theorem isWritten_dollar_iff :
    IsWritten ('$' :: cs) n ↔ cs ≠ [] ∧ IsGrouped 16 .digit cs n := by
  constructor
  · intro h
    cases h with
    | literal hdenotes =>
        cases hdenotes with
        | decimal _ hgrouped =>
            rcases hgrouped with ⟨ds, hds, _⟩
            cases hds with
            | digit hd _ => cases ((Literal.digit?_eq_some_iff (by decide)).mpr hd).1
    | dollar hne hgrouped => exact ⟨hne, hgrouped⟩
  · intro h
    exact IsWritten.dollar h.1 h.2

theorem isWritten_iff_of_ne (hcs : cs.head? ≠ some '$') : IsWritten cs n ↔ Denotes cs n := by
  constructor
  · intro h
    cases h with
    | literal hdenotes => exact hdenotes
    | dollar _ _ => exact absurd rfl hcs
  · exact IsWritten.literal

theorem namesBase_x : NamesBase 'x' 16 := by
  simp [NamesBase]

theorem eq_sixteen_of_namesBase_x {base : Nat} (h : NamesBase 'x' base) : base = 16 := by
  rcases h.cases with ⟨heq, _⟩ | ⟨heq, _⟩ | ⟨_, hbase⟩
  · cases heq
  · cases heq
  · exact hbase

/-- After the zero and the letter stand the digits. -/
theorem denotes_hexadecimal_iff :
    Denotes ('0' :: 'x' :: cs) n ↔ cs ≠ [] ∧ IsGrouped 16 .digit cs n := by
  constructor
  · intro h
    cases h with
    | decimal hzero _ => exact absurd rfl hzero
    | octal hgrouped => exact absurd namesBase_x (hgrouped.not_namesBase 'x' rfl)
    | based hbase hne hgrouped =>
        rw [eq_sixteen_of_namesBase_x hbase] at hgrouped
        exact ⟨hne, hgrouped⟩
  · intro h
    exact Denotes.based namesBase_x h.1 h.2

theorem isNumeral_zero_iff : IsNumeral 10 ['0'] n ↔ n = 0 := by
  have hzero : IsDigitOf 10 '0' 0 := ⟨by decide, Or.inl rfl⟩
  constructor
  · intro h
    rcases h.digits with ⟨ds, hds, hn⟩
    cases hds with
    | cons hd hnil =>
        cases hnil
        cases ((Literal.digit?_eq_some_iff (by decide)).mpr hd).1
        exact hn.symm
  · intro h
    exact ⟨List.cons_ne_nil _ _, [0], List.Forall₂.cons hzero List.Forall₂.nil, h.symm⟩

theorem isGrouped_nil_iff {base : Nat} : IsGrouped base .digit [] n ↔ n = 0 := by
  constructor
  · intro h
    rcases h with ⟨ds, hds, hn⟩
    cases hds
    exact hn.symm
  · intro h
    exact ⟨[], Literal.Grouped.nil (by decide), h.symm⟩

end Writing

theorem literalOf_dollar {s : String} {cs : List Char} (hs : (Text.trim s).toList = '$' :: cs) :
    (literalOf s).toList = '0' :: 'x' :: cs := by
  have htrim : Text.trim s = "$" ++ String.ofList cs := by
    rw [← String.toList_inj, hs, String.toList_append]
    exact congrArg (List.cons '$') String.toList_ofList.symm
  have hstart : Text.startsWith "$" (Text.trim s) = true := by
    rw [Text.startsWith, hs]
    rfl
  rw [literalOf, if_pos hstart, htrim, Text.dropStart_append, String.toList_append]
  exact congrArg (fun digits => '0' :: 'x' :: digits) String.toList_ofList

theorem literalOf_eq_trim {s : String} (hs : (Text.trim s).toList.head? ≠ some '$') :
    literalOf s = Text.trim s := by
  have hstart : ¬ Text.startsWith "$" (Text.trim s) = true := by
    rw [Text.startsWith, List.isPrefixOf_iff_prefix]
    intro hprefix
    rcases hprefix with ⟨cs, hcs⟩
    rw [← hcs] at hs
    exact hs rfl
  rw [literalOf, if_neg hstart]

theorem denotes_literalOf_iff {s : String} {n : Nat} :
    Denotes (literalOf s).toList n ↔ IsWritten (Text.trim s).toList n := by
  by_cases hs : (Text.trim s).toList.head? = some '$'
  · rcases List.head?_eq_some_iff.mp hs with ⟨cs, hcs⟩
    rw [literalOf_dollar hcs, hcs, denotes_hexadecimal_iff, isWritten_dollar_iff]
  · rw [literalOf_eq_trim hs, isWritten_iff_of_ne hs]

theorem unsigned_literalOf_eq_ok_iff {limit n : Nat} {s : String} :
    Literal.unsigned limit (literalOf s) = .ok n ↔ IsWritten (Text.trim s).toList n ∧ n ≤ limit := by
  rw [Literal.unsigned, Literal.unsignedList_eq_ok_iff, denotes_literalOf_iff]

theorem parse_eq_ok_iff {s : String} {a : UInt32} :
    parse s = .ok a ↔ IsWritten (Text.trim s).toList a.toNat := by
  have hle : a.toNat ≤ 0xffffffff := Nat.le_of_lt_succ a.toNat_lt
  unfold parse
  constructor
  · intro h
    split at h
    · rename_i n hliteral
      rcases unsigned_literalOf_eq_ok_iff.mp hliteral with ⟨hwritten, hn⟩
      cases h
      rw [UInt32.toNat_ofNat_of_lt' (Nat.lt_succ_of_le hn)]
      exact hwritten
    · cases h
  · intro h
    simp only [unsigned_literalOf_eq_ok_iff.mpr ⟨h, hle⟩, UInt32.ofNat_toNat]

/-! ## Where nothing else is written -/

section Plain

variable {cs : List Char} {n : Nat}

theorem isNumeral_sixteen_iff (hcs : '_' ∉ cs) :
    IsNumeral 16 cs n ↔ cs ≠ [] ∧ IsGrouped 16 .digit cs n :=
  Literal.isNumeral_iff_isGrouped (by decide) (by decide) hcs

theorem isNumeral_ten_iff (hcs : '_' ∉ cs) :
    IsNumeral 10 cs n ↔ cs ≠ [] ∧ IsGrouped 10 .other cs n :=
  Literal.isNumeral_iff_isGrouped (by decide) (by decide) hcs

theorem IsPlain.isDocumented (h : IsPlain cs) (hwritten : IsWritten cs n) :
    IsDocumented cs n := by
  rcases h with ⟨hcs, hzero⟩
  cases hwritten with
  | literal hdenotes =>
      cases hdenotes with
      | decimal _ hgrouped =>
          exact IsDocumented.decimal ((isNumeral_ten_iff hcs).mpr ⟨List.cons_ne_nil _ _, hgrouped⟩)
      | @octal digits _ hgrouped =>
          rcases digits with _ | ⟨c, rest⟩
          · exact IsDocumented.decimal (isNumeral_zero_iff.mpr (isGrouped_nil_iff.mp hgrouped))
          · have hc : c = 'x' := hzero c rest rfl
            subst hc
            exact absurd namesBase_x (hgrouped.not_namesBase 'x' rfl)
      | @based letter _ digits _ hbase hne hgrouped =>
          have hletter : letter = 'x' := hzero letter digits rfl
          subst hletter
          rw [eq_sixteen_of_namesBase_x hbase] at hgrouped
          have hdigits := List.not_mem_of_not_mem_cons (List.not_mem_of_not_mem_cons hcs)
          exact IsDocumented.hexadecimal ((isNumeral_sixteen_iff hdigits).mpr ⟨hne, hgrouped⟩)
  | dollar hne hgrouped =>
      have hdigits := List.not_mem_of_not_mem_cons hcs
      exact IsDocumented.dollar ((isNumeral_sixteen_iff hdigits).mpr ⟨hne, hgrouped⟩)

theorem IsPlain.isWritten (h : IsPlain cs) (hdocumented : IsDocumented cs n) :
    IsWritten cs n := by
  rcases h with ⟨hcs, hzero⟩
  cases hdocumented with
  | decimal hnumeral =>
      apply IsWritten.literal
      rcases List.exists_cons_of_ne_nil hnumeral.ne_nil with ⟨c, digits, rfl⟩
      by_cases hc : c = '0'
      · subst hc
        rcases digits with _ | ⟨d, rest⟩
        · exact Denotes.octal (isGrouped_nil_iff.mpr (isNumeral_zero_iff.mp hnumeral))
        · -- What follows the zero would have to be a letter.
          have hletters : ∀ d < 16, Nat.digitChar d ≠ 'x' ∧ (Nat.digitChar d).toUpper ≠ 'x' := by
            decide
          have hd : d ≠ 'x' := hnumeral.forall_mem (P := (· ≠ 'x')) (by decide) hletters d (by simp)
          exact absurd (hzero d rest rfl) hd
      · exact Denotes.decimal hc ((isNumeral_ten_iff hcs).mp hnumeral).2
  | hexadecimal hnumeral =>
      have hdigits := List.not_mem_of_not_mem_cons (List.not_mem_of_not_mem_cons hcs)
      exact IsWritten.literal
        (denotes_hexadecimal_iff.mpr ((isNumeral_sixteen_iff hdigits).mp hnumeral))
  | dollar hnumeral =>
      have hdigits := List.not_mem_of_not_mem_cons hcs
      exact isWritten_dollar_iff.mpr ((isNumeral_sixteen_iff hdigits).mp hnumeral)

end Plain

/-- Exactly what is an address in one of all the ways is read, as the number that is
written.  That is what the documented ways tell of, as long as no underscore and no other
base is in play. -/
theorem parse_grammar (s : String) (a : UInt32) :
    (parse s = .ok a ↔ IsWritten (Text.trim s).toList a.toNat) ∧
      (IsPlain (Text.trim s).toList ->
        (parse s = .ok a ↔ IsDocumented (Text.trim s).toList a.toNat)) := by
  constructor
  · exact parse_eq_ok_iff
  · intro hplain
    rw [parse_eq_ok_iff]
    constructor
    · exact hplain.isDocumented
    · exact hplain.isWritten

/-- White space around an address does not count. -/
theorem parse_grammar_dollar :
    IsPlain (Text.trim " $ff ").toList ∧
      (parse " $ff " = .ok 0xff ↔ IsDocumented (Text.trim " $ff ").toList 0xff) := by
  have htrim : (Text.trim " $ff ").toList = ['$', 'f', 'f'] := by rfl
  have hplain : IsPlain (Text.trim " $ff ").toList := by
    rw [htrim]
    constructor
    · decide
    · intro c rest heq
      cases heq
  exact ⟨hplain, (parse_grammar " $ff " 0xff).2 hplain⟩

/-- Ten is read as eight once a zero stands in front, and eight is not read at all. -/
theorem parse_leadingZero :
    (IsDocumented (Text.trim "010").toList 10 ∧ parse "010" = .ok 8) ∧
      (IsDocumented (Text.trim "08").toList 8 ∧ ∀ a, parse "08" ≠ .ok a) := by
  have hten : (Text.trim "010").toList = ['0', '1', '0'] := by rfl
  have height : (Text.trim "08").toList = ['0', '8'] := by rfl
  have hdigit : ∀ d < 10, IsDigitOf 10 (Nat.digitChar d) d := fun d hd => ⟨hd, Or.inl rfl⟩
  constructor
  · constructor
    · rw [hten]
      apply IsDocumented.decimal
      exact ⟨List.cons_ne_nil _ _, [0, 1, 0], List.Forall₂.cons (hdigit 0 (by decide))
        (List.Forall₂.cons (hdigit 1 (by decide))
          (List.Forall₂.cons (hdigit 0 (by decide)) List.Forall₂.nil)), rfl⟩
    · rfl
  · constructor
    · rw [height]
      apply IsDocumented.decimal
      exact ⟨List.cons_ne_nil _ _, [0, 8], List.Forall₂.cons (hdigit 0 (by decide))
        (List.Forall₂.cons (hdigit 8 (by decide)) List.Forall₂.nil), rfl⟩
    · intro a hparse
      have herror : parse "08" = .error "invalid address (08)" := by rfl
      rw [herror] at hparse
      cases hparse

end Address
end Disassembler
