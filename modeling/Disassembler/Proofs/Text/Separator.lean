import Mathlib
import Disassembler.Proofs.Text.Column
import Disassembler.Proofs.Text.Lines

/-!
# Parts between separators

A text is cut at its first separator, and what follows is cut in the same way.  The
parts make up the text again, and parts that are joined are found again, unless one of
them goes on into the separator after it.
-/

namespace Disassembler
namespace Text

/-! ## Parts of a list -/

/-- A list with the parts between the separators in it. -/
inductive Splits (separator : List Char) : List Char -> List (List Char) -> Prop where
  | last {cs : List Char} : ¬ separator <:+: cs -> Splits separator cs [cs]
  | cut {before after : List Char} {parts : List (List Char)} :
      BreaksAt separator before after -> Splits separator after parts ->
        Splits separator (before ++ separator ++ after) (before :: parts)

theorem splitListFrom_eq_drop (separator : List Char) (skip : Nat) (cs : List Char) :
    splitListFrom separator skip cs = splitList separator (cs.drop skip) := by
  induction cs generalizing skip with
  | nil =>
      rw [List.drop_nil]
      cases skip <;> rfl
  | cons c cs ih =>
      cases skip with
      | zero => rfl
      | succ skip => exact ih skip

theorem splitList_eq {separator : List Char} (hne : separator ≠ []) (cs : List Char) :
    splitList separator cs =
      match breakOnList? separator cs with
      | none => [cs]
      | some (before, after) => before :: splitList separator after := by
  induction cs with
  | nil => rfl
  | cons c cs ih =>
      rw [splitList, splitListFrom, breakOnList?]
      by_cases hbegin : separator.isPrefixOf (c :: cs) = true
      · rcases separator with _ | ⟨d, ds⟩
        · exact absurd rfl hne
        · rw [if_pos hbegin, if_pos hbegin, splitListFrom_eq_drop]
          rfl
      · rw [if_neg hbegin, if_neg hbegin]
        change consPart c (splitList separator cs) = _
        rw [ih]
        cases breakOnList? separator cs with
        | none => rfl
        | some parts => rfl

section Splits

variable {separator cs : List Char} {parts : List (List Char)}

theorem splits_splitList (hne : separator ≠ []) (cs : List Char) :
    Splits separator cs (splitList separator cs) := by
  induction hn : cs.length using Nat.strong_induction_on generalizing cs with
  | _ n ih =>
      rw [splitList_eq hne]
      cases hbreak : breakOnList? separator cs with
      | none =>
          apply Splits.last
          rw [← isSome_breakOnList?_iff hne, hbreak]
          exact Bool.false_ne_true
      | some pair =>
          rcases pair with ⟨before, after⟩
          rcases breaksAt_of_breakOnList?_eq hbreak with ⟨hcs, hbreaks⟩
          have hlt : after.length < n := by
            have hpos := List.length_pos_iff.mpr hne
            rw [← hn, hcs, List.length_append, List.length_append]
            omega
          rw [hcs]
          exact Splits.cut hbreaks (ih after.length hlt after rfl)

theorem Splits.splitList_eq (h : Splits separator cs parts) (hne : separator ≠ []) :
    splitList separator cs = parts := by
  induction h with
  | last hnot =>
      have hnone : breakOnList? separator _ = none :=
        Option.not_isSome_iff_eq_none.mp (mt (isSome_breakOnList?_iff hne).mp hnot)
      rw [Text.splitList_eq hne, hnone]
  | cut hbreaks _ ih =>
      rw [Text.splitList_eq hne, hbreaks.breakOnList?_eq hne]
      exact congrArg (List.cons _) ih

theorem Splits.ne_nil (h : Splits separator cs parts) : parts ≠ [] := by
  cases h with
  | last _ => exact List.cons_ne_nil _ _
  | cut _ _ => exact List.cons_ne_nil _ _

theorem Splits.intercalate_eq (h : Splits separator cs parts) :
    separator.intercalate parts = cs := by
  induction h with
  | last _ => rw [List.intercalate_singleton]
  | cut _ hrest ih =>
      rename_i parts _
      rcases parts with _ | ⟨p, ps⟩
      · exact absurd rfl hrest.ne_nil
      · rw [List.intercalate_cons_cons, ih]

/-- No part has the separator in it. -/
theorem Splits.not_isInfix (h : Splits separator cs parts) (hne : separator ≠ []) :
    ∀ p ∈ parts, ¬ separator <:+: p := by
  induction h with
  | last hnot => exact List.forall_mem_singleton.mpr hnot
  | cut hbreaks _ ih => exact List.forall_mem_cons.mpr ⟨hbreaks.not_isInfix hne, ih⟩

theorem Splits.isInfix_of_mem (h : Splits separator cs parts) : ∀ p ∈ parts, p <:+: cs := by
  induction h with
  | last _ => exact List.forall_mem_singleton.mpr List.infix_rfl
  | @cut before after _ _ _ ih =>
      intro p hp
      rcases List.mem_cons.mp hp with rfl | hp
      · rw [List.append_assoc]
        exact (List.prefix_append _ _).isInfix
      · exact (ih p hp).trans (List.suffix_append _ after).isInfix

end Splits

/-! ## Separators of two characters -/

section Pair

variable {a b : Char}

/-- The first separator stands after a text that has none and does not go on into it. -/
theorem breaksAt_pair {before : List Char} (hnot : ¬ [a, b] <:+: before)
    (hlast : a = b -> before.getLast? ≠ some a) (after : List Char) :
    BreaksAt [a, b] before after where
  first := by
    intro cs hne hcs hbegin
    rcases cs with _ | ⟨c, _ | ⟨d, cs⟩⟩
    · exact hne rfl
    · rcases List.cons_prefix_cons.mp hbegin with ⟨hac, hrest⟩
      have hba : b = a := (List.cons_prefix_cons.mp hrest).1
      rcases hcs with ⟨start, rfl⟩
      apply hlast hba.symm
      rw [List.getLast?_append, hac]
      rfl
    · rcases List.cons_prefix_cons.mp hbegin with ⟨hac, hrest⟩
      have hbd : b = d := (List.cons_prefix_cons.mp hrest).1
      apply hnot
      rw [hac, hbd]
      exact (List.prefix_append [c, d] cs).isInfix.trans hcs.isInfix

/-- Parts are found again where no part can go on into the separator. -/
theorem splits_intercalate (hab : a ≠ b) {parts : List (List Char)} (hne : parts ≠ [])
    (hparts : ∀ p ∈ parts, ¬ [a, b] <:+: p) :
    Splits [a, b] (([a, b] : List Char).intercalate parts) parts := by
  induction parts with
  | nil => exact absurd rfl hne
  | cons p ps ih =>
      have hp := hparts p List.mem_cons_self
      rcases ps with _ | ⟨q, qs⟩
      · rw [List.intercalate_singleton]
        exact Splits.last hp
      · rw [List.intercalate_cons_cons]
        apply Splits.cut
        · exact breaksAt_pair hp (fun heq => absurd heq hab) _
        · exact ih (List.cons_ne_nil q qs) fun r hr => hparts r (List.mem_cons_of_mem p hr)

end Pair

/-! ## Parts of a text -/

theorem map_ofList_toList (ss : List String) : (ss.map String.toList).map String.ofList = ss := by
  rw [List.map_map]
  exact List.map_id'' (fun _ => String.ofList_toList) ss

theorem toList_ne_nil {s : String} (hs : s ≠ "") : s.toList ≠ [] :=
  fun hnil => hs (String.toList_eq_nil_iff.mp hnil)

theorem split_ne_nil_of_ne {separator : String} (hne : separator ≠ "") (s : String) :
    split separator s ≠ [] := by
  intro hnil
  exact (splits_splitList (toList_ne_nil hne) s.toList).ne_nil (List.map_eq_nil_iff.mp hnil)

/-- A text comes back from its parts. -/
theorem join_split {separator : String} (hne : separator ≠ "") (s : String) :
    join separator (split separator s) = s := by
  rw [← String.toList_inj, toList_join, split, List.map_map]
  have hid : (String.toList ∘ String.ofList) = id := funext fun _ => String.toList_ofList
  rw [hid, List.map_id]
  exact (splits_splitList (toList_ne_nil hne) s.toList).intercalate_eq

theorem not_isInfix_of_mem_split {separator s p : String} (hne : separator ≠ "")
    (hp : p ∈ split separator s) : ¬ separator.toList <:+: p.toList := by
  rcases List.mem_map.mp hp with ⟨cs, hcs, rfl⟩
  rw [String.toList_ofList]
  exact (splits_splitList (toList_ne_nil hne) s.toList).not_isInfix (toList_ne_nil hne) cs hcs

theorem isInfix_of_mem_split {separator s p : String} (hne : separator ≠ "")
    (hp : p ∈ split separator s) : p.toList <:+: s.toList := by
  rcases List.mem_map.mp hp with ⟨cs, hcs, rfl⟩
  rw [String.toList_ofList]
  exact (splits_splitList (toList_ne_nil hne) s.toList).isInfix_of_mem cs hcs

/-- Parts come back from the text that is joined from them. -/
theorem split_join_pair {separator : String} {a b : Char} (hseparator : separator.toList = [a, b])
    (hab : a ≠ b) {ss : List String} (hne : ss ≠ [])
    (hss : ∀ s ∈ ss, ¬ separator.toList <:+: s.toList) : split separator (join separator ss) = ss := by
  have hparts : ∀ p ∈ ss.map String.toList, ¬ [a, b] <:+: p := by
    intro p hp
    rcases List.mem_map.mp hp with ⟨s, hs, rfl⟩
    rw [← hseparator]
    exact hss s hs
  have hsplits := splits_intercalate hab (mt List.map_eq_nil_iff.mp hne) hparts
  rw [split, toList_join, hseparator, hsplits.splitList_eq (List.cons_ne_nil _ _),
    map_ofList_toList]

end Text
end Disassembler
