import Mathlib
import Disassembler.Text.Column
import Disassembler.Text.Lines

/-!
# Lines and separators

The lines of a text that is put together line by line, and the place where a line is
broken at a separator.
-/

namespace Disassembler
namespace Text

/-! ## Parts between line feeds -/

theorem consPart_append (c : Char) {ps qs : List (List Char)} (h : ps ≠ []) :
    consPart c (ps ++ qs) = consPart c ps ++ qs := by
  cases ps with
  | nil => exact absurd rfl h
  | cons p ps => rfl

theorem consPart_ne_nil (c : Char) (ps : List (List Char)) : consPart c ps ≠ [] := by
  cases ps <;> exact List.cons_ne_nil _ _

theorem splitList_cons (d c : Char) (cs : List Char) :
    splitList [d] (c :: cs) =
      if d = c then [] :: splitList [d] cs else consPart c (splitList [d] cs) := by
  have hbegin : [d].isPrefixOf (c :: cs) = (d == c) := by
    rw [List.isPrefixOf, List.isPrefixOf_nil_left, Bool.and_true]
  rw [splitList, splitListFrom, hbegin]
  by_cases h : d = c
  · rw [if_pos h, if_pos (beq_iff_eq.mpr h)]
    rfl
  · rw [if_neg h, if_neg (mt beq_iff_eq.mp h)]
    rfl

theorem splitList_ne_nil (d : Char) (cs : List Char) : splitList [d] cs ≠ [] := by
  cases cs with
  | nil => exact List.cons_ne_nil _ _
  | cons c cs =>
      rw [splitList_cons]
      split
      · exact List.cons_ne_nil _ _
      · exact consPart_ne_nil c _

theorem splitList_append (d : Char) (cs ds : List Char) :
    splitList [d] (cs ++ d :: ds) = splitList [d] cs ++ splitList [d] ds := by
  induction cs with
  | nil =>
      rw [List.nil_append, splitList_cons, if_pos rfl]
      rfl
  | cons c cs ih =>
      rw [List.cons_append, splitList_cons, splitList_cons, ih]
      split
      · rfl
      · exact consPart_append c (splitList_ne_nil d cs)

/-- A text without the separator is its only part. -/
theorem splitList_of_not_mem {d : Char} {cs : List Char} (h : d ∉ cs) :
    splitList [d] cs = [cs] := by
  induction cs with
  | nil => rfl
  | cons c cs ih =>
      rcases List.ne_and_not_mem_of_not_mem_cons h with ⟨hne, hnot⟩
      rw [splitList_cons, if_neg hne, ih hnot]
      rfl

/-- Parts without the separator are found again in the text that is joined from them. -/
theorem splitList_join {separator : String} {d : Char} (hseparator : separator.toList = [d])
    {ss : List String} (hne : ss ≠ []) (hss : ∀ s ∈ ss, d ∉ s.toList) :
    splitList [d] (join separator ss).toList = ss.map String.toList := by
  fun_induction join separator ss with
  | case1 => exact absurd rfl hne
  | case2 s => exact splitList_of_not_mem (hss s List.mem_cons_self)
  | case3 s t rest ih =>
      have hrest := ih (List.cons_ne_nil t rest) fun u hu => hss u (List.mem_cons_of_mem s hu)
      rw [String.toList_append, String.toList_append, hseparator, List.append_assoc,
        List.singleton_append, splitList_append, splitList_of_not_mem (hss s List.mem_cons_self),
        hrest]
      rfl

/-- No part has the separator, and all characters of the parts are from the text. -/
theorem mem_of_mem_splitList {d : Char} {cs p : List Char} (hp : p ∈ splitList [d] cs) :
    ∀ c ∈ p, c ∈ cs ∧ c ≠ d := by
  induction cs generalizing p with
  | nil =>
      cases List.mem_singleton.mp hp
      exact fun c hc => absurd hc List.not_mem_nil
  | cons a cs ih =>
      have ih' : ∀ q ∈ splitList [d] cs, ∀ c ∈ q, c ∈ a :: cs ∧ c ≠ d := fun q hq c hc =>
        ⟨List.mem_cons_of_mem a (ih hq c hc).1, (ih hq c hc).2⟩
      rw [splitList_cons] at hp
      split at hp
      · rcases List.mem_cons.mp hp with rfl | hp
        · exact fun c hc => absurd hc List.not_mem_nil
        · exact ih' p hp
      · rename_i hne
        rcases hparts : splitList [d] cs with _ | ⟨q, qs⟩
        · exact absurd hparts (splitList_ne_nil d cs)
        · rw [hparts] at hp ih'
          rcases List.mem_cons.mp hp with rfl | hp
          · intro c hc
            rcases List.mem_cons.mp hc with rfl | hc
            · exact ⟨List.mem_cons_self, Ne.symm hne⟩
            · exact ih' q List.mem_cons_self c hc
          · exact ih' p (List.mem_cons_of_mem q hp)

/-! ## Lines -/

theorem toList_newline : "\n".toList = ['\n'] := rfl

theorem split_ne_nil (s : String) : split "\n" s ≠ [] := by
  rw [split, ne_eq, List.map_eq_nil_iff]
  exact splitList_ne_nil '\n' _

theorem split_append_newline (s t : String) :
    split "\n" (s ++ "\n" ++ t) = split "\n" s ++ split "\n" t := by
  rw [split, split, split, String.toList_append, String.toList_append, toList_newline,
    List.append_assoc, List.singleton_append, splitList_append, List.map_append]

theorem split_of_not_mem {s : String} (h : '\n' ∉ s.toList) : split "\n" s = [s] := by
  rw [split, toList_newline, splitList_of_not_mem h, List.map_singleton, String.ofList_toList]

theorem mem_of_mem_split {s p : String} (hp : p ∈ split "\n" s) :
    ∀ c ∈ p.toList, c ∈ s.toList ∧ c ≠ '\n' := by
  rcases List.mem_map.mp hp with ⟨cs, hcs, rfl⟩
  rw [String.toList_ofList]
  exact mem_of_mem_splitList hcs

/-- The lines up to a line feed come first. -/
theorem rawLines_append (s t : String) :
    rawLines (s ++ "\n" ++ t) = split "\n" s ++ rawLines t := by
  have hne := split_ne_nil t
  simp only [rawLines, split_append_newline, List.getLast?_append_of_ne_nil _ hne,
    List.dropLast_append_of_ne_nil hne]
  split <;> rfl

theorem mem_split_of_mem_rawLines {s line : String} (h : line ∈ rawLines s) :
    line ∈ split "\n" s := by
  simp only [rawLines] at h
  split at h
  · exact List.mem_of_mem_dropLast h
  · exact h

/-! ## Carriage returns -/

theorem dropReturn_append {s t : String} (hs : s.toList.getLast? ≠ some '\r') :
    dropReturn (s ++ t) = s ++ dropReturn t := by
  cases ht : t.toList.getLast? with
  | none =>
      have hempty : t = "" := String.toList_eq_nil_iff.mp (List.getLast?_eq_none_iff.mp ht)
      rw [hempty, String.append_empty]
      exact (if_neg hs).trans (String.append_empty).symm
  | some c =>
      have hne : t.toList ≠ [] := by
        intro hnil
        rw [hnil] at ht
        cases ht
      rw [dropReturn, dropReturn, String.toList_append, List.getLast?_append, ht, Option.some_or,
        List.dropLast_append_of_ne_nil hne]
      split
      · rw [String.ofList_append, String.ofList_toList]
      · rfl

theorem exists_append_dropReturn (s : String) : ∃ t, s.toList = (dropReturn s).toList ++ t := by
  rw [dropReturn]
  split
  · rename_i h
    rcases List.getLast?_eq_some_iff.mp h with ⟨cs, hcs⟩
    refine ⟨['\r'], ?_⟩
    rw [String.toList_ofList, hcs, List.dropLast_concat]
  · exact ⟨[], (List.append_nil _).symm⟩

theorem dropReturn_of_not_mem {s : String} (h : '\r' ∉ s.toList) : dropReturn s = s := by
  refine if_neg fun hlast => h ?_
  exact List.mem_of_getLast? hlast

theorem length_le_dropReturn (s : String) : s.length ≤ (dropReturn s).length + 1 := by
  rw [dropReturn]
  split
  · rw [String.length_ofList, List.length_dropLast, ← String.length_toList]
    omega
  · omega

/-! ## Starts -/

theorem dropStart_append (start s : String) : dropStart start (start ++ s) = s := by
  have hstart : start.toList.isPrefixOf (start ++ s).toList = true := by
    rw [String.toList_append, List.isPrefixOf_iff_prefix]
    exact List.prefix_append _ _
  rw [dropStart, if_pos hstart, String.toList_append, List.drop_left, String.ofList_toList]

theorem dropStart_eq_self {start s : String} (h : ¬ start.toList <+: s.toList) :
    dropStart start s = s :=
  if_neg (mt List.isPrefixOf_iff_prefix.mp h)

theorem dropStart_cases (start s : String) :
    s = start ++ dropStart start s ∨ dropStart start s = s := by
  by_cases h : start.toList <+: s.toList
  · left
    rcases h with ⟨rest, hrest⟩
    have hs : s = start ++ String.ofList rest := by
      rw [← String.toList_inj, String.toList_append, String.toList_ofList, hrest]
    rw [hs, dropStart_append]
  · exact Or.inr (dropStart_eq_self h)

/-! ## Separators -/

/-- The first separator in a text, with what stands before and after it. -/
structure BreaksAt (separator before after : List Char) : Prop where
  first : ∀ cs, cs ≠ [] -> cs <:+ before -> ¬ separator <+: cs ++ separator ++ after

theorem BreaksAt.tail {separator before after : List Char} {c : Char}
    (h : BreaksAt separator (c :: before) after) : BreaksAt separator before after where
  first := fun cs hne hcs => h.first cs hne (hcs.trans (List.suffix_cons c before))

theorem BreaksAt.breakOnList?_eq {separator before after : List Char} (hne : separator ≠ [])
    (h : BreaksAt separator before after) :
    breakOnList? separator (before ++ separator ++ after) = some (before, after) := by
  induction before with
  | nil =>
      rcases separator with _ | ⟨d, ds⟩
      · exact absurd rfl hne
      · have hbegin : (d :: ds).isPrefixOf (d :: (ds ++ after)) = true :=
          List.isPrefixOf_iff_prefix.mpr (List.prefix_append _ _)
        rw [List.nil_append, List.cons_append, breakOnList?, if_pos hbegin, ← List.cons_append,
          List.drop_left]
  | cons c before ih =>
      have hfirst := h.first (c :: before) (List.cons_ne_nil _ _) List.suffix_rfl
      rw [List.cons_append, List.cons_append] at hfirst ⊢
      rw [breakOnList?, if_neg (mt List.isPrefixOf_iff_prefix.mp hfirst), ih h.tail]
      rfl

theorem BreaksAt.breakOn?_eq {separator before after : String} (hne : separator ≠ "")
    (h : BreaksAt separator.toList before.toList after.toList) :
    breakOn? separator (before ++ separator ++ after) = some (before, after) := by
  have hne' : separator.toList ≠ [] := fun hnil => hne (String.toList_eq_nil_iff.mp hnil)
  rw [breakOn?, String.toList_append, String.toList_append, h.breakOnList?_eq hne']
  simp only [Option.map_some, String.ofList_toList]

/-- A single character separates where it stands first. -/
theorem breaksAt_of_not_mem {d : Char} {before : List Char} (h : d ∉ before)
    (after : List Char) : BreaksAt [d] before after where
  first := by
    rintro (_ | ⟨c, cs⟩) hne hcs hbegin
    · exact hne rfl
    · have hc : c ∈ before := hcs.subset List.mem_cons_self
      rw [List.cons_append, List.cons_append, List.cons_prefix_cons] at hbegin
      exact h (hbegin.1 ▸ hc)

theorem breaksAt_of_breakOnList?_eq {separator cs before after : List Char}
    (h : breakOnList? separator cs = some (before, after)) :
    cs = before ++ separator ++ after ∧ BreaksAt separator before after := by
  induction cs generalizing before with
  | nil => cases h
  | cons c cs ih =>
      rw [breakOnList?] at h
      split at h
      · rename_i hbegin
        cases h
        rcases List.isPrefixOf_iff_prefix.mp hbegin with ⟨rest, hrest⟩
        refine ⟨?_, ⟨fun ds hne hds => absurd (List.suffix_nil.mp hds) hne⟩⟩
        rw [← hrest, List.drop_left, List.nil_append]
      · rename_i hbegin
        rcases Option.map_eq_some_iff.mp h with ⟨⟨before', after'⟩, hbreak, heq⟩
        cases heq
        rcases ih hbreak with ⟨rfl, hfirst⟩
        refine ⟨rfl, ⟨fun ds hne hds => ?_⟩⟩
        rcases List.suffix_cons_iff.mp hds with rfl | hds
        · exact fun hds => hbegin (List.isPrefixOf_iff_prefix.mpr hds)
        · exact hfirst.first ds hne hds

theorem isSome_breakOnList?_iff {separator cs : List Char} (hne : separator ≠ []) :
    (breakOnList? separator cs).isSome = true ↔ separator <:+: cs := by
  constructor
  · intro h
    rcases Option.isSome_iff_exists.mp h with ⟨⟨before, after⟩, hbreak⟩
    exact ⟨before, after, (breaksAt_of_breakOnList?_eq hbreak).1.symm⟩
  · intro h
    induction cs with
    | nil => exact absurd (List.infix_nil.mp h) hne
    | cons c cs ih =>
        rw [breakOnList?]
        split
        · rfl
        · rename_i hbegin
          rw [Option.isSome_map]
          rcases List.infix_cons_iff.mp h with h | h
          · exact absurd (List.isPrefixOf_iff_prefix.mpr h) hbegin
          · exact ih h

/-- What stands before the first separator has none in it. -/
theorem BreaksAt.not_isInfix {separator before after : List Char} (hne : separator ≠ [])
    (h : BreaksAt separator before after) : ¬ separator <:+: before := by
  rintro ⟨cs, ds, rfl⟩
  refine h.first (separator ++ ds) (List.append_ne_nil_of_left_ne_nil hne ds) ?_ ?_
  · rw [List.append_assoc]
    exact List.suffix_append _ _
  · rw [List.append_assoc, List.append_assoc]
    exact List.prefix_append _ _

theorem breakOn?_of_not_mem {separator s : String} {d : Char} (hseparator : separator.toList = [d])
    (h : d ∉ s.toList) : breakOn? separator s = none := by
  rw [breakOn?, Option.map_eq_none_iff, ← Option.not_isSome_iff_eq_none, hseparator,
    isSome_breakOnList?_iff (List.cons_ne_nil d []), List.singleton_infix_iff]
  exact h

theorem occurs_iff {part : String} (hpart : part ≠ "") (s : String) :
    occurs part s = true ↔ part.toList <:+: s.toList := by
  have hne : part.toList ≠ [] := fun h => hpart (String.toList_eq_nil_iff.mp h)
  rw [occurs, Bool.or_eq_true, String.isEmpty_iff, or_iff_right hpart, isSome_breakOnList?_iff hne]

end Text
end Disassembler
