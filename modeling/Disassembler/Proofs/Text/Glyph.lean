import Mathlib
import Disassembler.Text.Glyph

/-!
# Glyphs of a part of a text

Where a text is cut between two glyphs, both parts have the same glyphs as before.
Texts can be joined again where the second one begins with an ASCII character,
since no character goes on with it.
-/

namespace Disassembler
namespace Text

/-- A text that no character can reach into from before. -/
def BeginsAscii (cs : List Char) : Prop :=
  ∀ c ∈ cs.head?, c.toNat < 0x80

theorem Continuation.fits_length {k : Continuation} {tail : List Char}
    (h : k.fits tail = true) : tail.length = k.count := by
  simp only [fits, Bool.and_eq_true, beq_iff_eq] at h
  exact h.1.1

theorem Continuation.fits_take_of_length_lt {k : Continuation} {cs : List Char}
    (h : cs.length < k.count) : k.fits (cs.take k.count) = false := by
  rw [Bool.eq_false_iff]
  intro hfits
  have hlength := fits_length hfits
  rw [List.length_take] at hlength
  omega

/-- A character does not go on with an ASCII character. -/
theorem Continuation.fits_take_append_ascii {k : Continuation} {cs ds : List Char}
    (hlt : cs.length < k.count) (hascii : BeginsAscii ds) :
    k.fits ((cs ++ ds).take k.count) = false := by
  cases ds with
  | nil =>
      rw [List.append_nil]
      exact fits_take_of_length_lt hlt
  | cons d ds =>
      rw [Bool.eq_false_iff]
      intro hfits
      simp only [fits, Bool.and_eq_true, List.all_eq_true, decide_eq_true_eq] at hfits
      have hmem : d ∈ (cs ++ d :: ds).take k.count := by
        refine List.mem_take_iff_getElem.mpr ⟨cs.length, ?_, ?_⟩
        · rw [List.length_append, List.length_cons]
          omega
        · simp
      have hd := hascii d rfl
      have hbyte := (hfits.1.2 d hmem).1
      omega

/-! ## The first character -/

theorem firstChar_ascii {c : Char} (hc : c.toNat < 0x80) (cs : List Char) :
    firstChar c cs = (0, c) := by
  rw [firstChar, if_pos hc]

theorem firstChar_le (c : Char) (cs : List Char) : (firstChar c cs).1 ≤ cs.length := by
  rw [firstChar]
  split
  · exact Nat.zero_le _
  · split
    · exact Nat.zero_le _
    · rename_i k _
      by_cases hfits : k.fits (cs.take k.count) = true
      · rw [if_pos hfits]
        have hlength := Continuation.fits_length hfits
        rw [List.length_take] at hlength
        omega
      · rw [if_neg hfits]
        exact Nat.zero_le _

theorem firstChar_congr {c : Char} {cs ds : List Char}
    (h : ∀ k, 0x80 ≤ c.toNat -> continuationOf? c.toNat = some k ->
      cs.take k.count = ds.take k.count ∨
        (k.fits (cs.take k.count) = false ∧ k.fits (ds.take k.count) = false)) :
    firstChar c cs = firstChar c ds := by
  rw [firstChar, firstChar]
  split
  · rfl
  · rename_i hc
    split
    · rfl
    · rename_i k hk
      rcases h k (Nat.le_of_not_lt hc) hk with htake | ⟨hcs, hds⟩
      · rw [htake]
      · simp only [hcs, hds]
        rfl

theorem firstChar_append (c : Char) {cs ds : List Char} (hascii : BeginsAscii ds) :
    firstChar c (cs ++ ds) = firstChar c cs := by
  refine firstChar_congr fun k _ _ => ?_
  by_cases hle : k.count ≤ cs.length
  · exact Or.inl (List.take_append_of_le_length hle)
  · have hlt := Nat.lt_of_not_le hle
    exact Or.inr ⟨Continuation.fits_take_append_ascii hlt hascii,
      Continuation.fits_take_of_length_lt hlt⟩

theorem firstChar_of_fits {c : Char} {cs : List Char} {k : Continuation} (hc : 0x80 ≤ c.toNat)
    (hk : continuationOf? c.toNat = some k) (hfits : k.fits (cs.take k.count) = true) :
    (firstChar c cs).1 = k.count := by
  rw [firstChar, if_neg (Nat.not_lt.mpr hc), hk]
  simp only [hfits]
  rfl

/-- The first character depends only on its own bytes. -/
theorem firstChar_of_append {c : Char} {cs ds : List Char}
    (h : (firstChar c (cs ++ ds)).1 ≤ cs.length) :
    firstChar c (cs ++ ds) = firstChar c cs := by
  refine firstChar_congr fun k hc hk => ?_
  by_cases hle : k.count ≤ cs.length
  · exact Or.inl (List.take_append_of_le_length hle)
  · refine Or.inr ⟨?_, Continuation.fits_take_of_length_lt (Nat.lt_of_not_le hle)⟩
    rw [Bool.eq_false_iff]
    intro hfits
    rw [firstChar_of_fits hc hk hfits] at h
    exact hle h

/-! ## Glyphs -/

theorem glyphsFrom_eq_drop (skip : Nat) (cs : List Char) :
    glyphsFrom skip cs = glyphsFrom 0 (cs.drop skip) := by
  induction cs generalizing skip with
  | nil => rw [List.drop_nil]; cases skip <;> rfl
  | cons c cs ih =>
      cases skip with
      | zero => rfl
      | succ skip => exact ih skip

theorem glyphsFrom_cons (c : Char) (cs : List Char) :
    glyphsFrom 0 (c :: cs) =
      ⟨(firstChar c cs).2, c :: cs.take (firstChar c cs).1⟩ ::
        glyphsFrom 0 (cs.drop (firstChar c cs).1) := by
  rw [← glyphsFrom_eq_drop]
  rfl

theorem glyphsFrom_append {cs ds : List Char} (hascii : BeginsAscii ds) :
    glyphsFrom 0 (cs ++ ds) = glyphsFrom 0 cs ++ glyphsFrom 0 ds := by
  induction hn : cs.length using Nat.strong_induction_on generalizing cs with
  | _ n ih =>
      subst hn
      cases cs with
      | nil => rfl
      | cons c cs =>
          have hle := firstChar_le c cs
          have hrest := ih (cs.drop (firstChar c cs).1).length
            (by rw [List.length_drop, List.length_cons]; omega) rfl
          rw [List.cons_append, glyphsFrom_cons, glyphsFrom_cons, firstChar_append c hascii,
            List.take_append_of_le_length hle, List.drop_append_of_le_length hle, hrest,
            List.cons_append]

theorem glyphs_append {s t : String} (hascii : BeginsAscii t.toList) :
    glyphs (s ++ t) = glyphs s ++ glyphs t := by
  rw [glyphs, String.toList_append]
  exact glyphsFrom_append hascii

/-- An ASCII character is a glyph. -/
def Glyph.ofAscii (c : Char) : Glyph :=
  { char := c, bytes := [c] }

theorem glyphsFrom_ascii {cs : List Char} (h : ∀ c ∈ cs, c.toNat < 0x80) :
    glyphsFrom 0 cs = cs.map Glyph.ofAscii := by
  induction cs with
  | nil => rfl
  | cons c cs ih =>
      rw [glyphsFrom, firstChar_ascii (h c List.mem_cons_self)]
      exact congrArg (List.cons _) (ih fun d hd => h d (List.mem_cons_of_mem c hd))

theorem width_ascii {s : String} (h : ∀ c ∈ s.toList, c.toNat < 0x80) : width s = s.length := by
  rw [width, glyphs, glyphsFrom_ascii h, List.length_map, String.length_toList]

/-! ## Parts of the glyphs of a text -/

/-- Glyphs that are found again in their own text. -/
def AreGlyphs (gs : List Glyph) : Prop :=
  glyphsFrom 0 (gs.flatMap Glyph.bytes) = gs

theorem areGlyphs_glyphs (s : String) : AreGlyphs (glyphs s) := by
  rw [AreGlyphs, glyphs, flatMap_glyphsFrom]
  rfl

theorem AreGlyphs.glyphs_ofGlyphs {gs : List Glyph} (h : AreGlyphs gs) :
    glyphs (ofGlyphs gs) = gs := by
  rw [glyphs, ofGlyphs, String.toList_ofList]
  exact h

/-- The first of some glyphs is read from its own bytes, and the others from theirs. -/
theorem areGlyphs_cons {g : Glyph} {gs : List Glyph} :
    AreGlyphs (g :: gs) ↔
      (∃ c cs, g.bytes = c :: cs ∧
        firstChar c (cs ++ gs.flatMap Glyph.bytes) = (cs.length, g.char)) ∧ AreGlyphs gs := by
  constructor
  · intro h
    rw [AreGlyphs, List.flatMap_cons] at h
    rcases hall : g.bytes ++ gs.flatMap Glyph.bytes with _ | ⟨c, cs⟩
    · rw [hall] at h
      cases h
    · have hle := firstChar_le c cs
      rw [hall, glyphsFrom_cons, List.cons_eq_cons] at h
      rcases h with ⟨rfl, hgs⟩
      have hrest : gs.flatMap Glyph.bytes = cs.drop (firstChar c cs).1 := by
        have hsplit : (c :: cs.take (firstChar c cs).1) ++ gs.flatMap Glyph.bytes =
            (c :: cs.take (firstChar c cs).1) ++ cs.drop (firstChar c cs).1 := by
          refine hall.trans (congrArg (List.cons c) ?_)
          exact (List.take_append_drop _ cs).symm
        exact List.append_cancel_left hsplit
      refine ⟨⟨c, cs.take (firstChar c cs).1, rfl, ?_⟩, ?_⟩
      · rw [hrest, List.take_append_drop, List.length_take_of_le hle]
      · rw [AreGlyphs, hrest, hgs]
  · rintro ⟨⟨c, cs, hbytes, hfirst⟩, hgs⟩
    rw [AreGlyphs, List.flatMap_cons, hbytes, List.cons_append, glyphsFrom_cons, hfirst,
      List.take_left, List.drop_left, hgs, ← hbytes]

theorem AreGlyphs.right {gs hs : List Glyph} (h : AreGlyphs (gs ++ hs)) : AreGlyphs hs := by
  induction gs with
  | nil => exact h
  | cons g gs ih => exact ih (areGlyphs_cons.mp h).2

theorem AreGlyphs.left {gs hs : List Glyph} (h : AreGlyphs (gs ++ hs)) : AreGlyphs gs := by
  induction gs with
  | nil => rfl
  | cons g gs ih =>
      rcases areGlyphs_cons.mp h with ⟨⟨c, cs, hbytes, hfirst⟩, hgs⟩
      refine areGlyphs_cons.mpr ⟨⟨c, cs, hbytes, ?_⟩, ih hgs⟩
      change firstChar c (cs ++ (gs ++ hs).flatMap Glyph.bytes) = _ at hfirst
      rw [List.flatMap_append, ← List.append_assoc] at hfirst
      rw [← hfirst]
      refine (firstChar_of_append ?_).symm
      rw [hfirst, List.length_append]
      exact Nat.le_add_right _ _

theorem AreGlyphs.of_isInfix {gs hs : List Glyph} (h : AreGlyphs hs) (hwithin : gs <:+: hs) :
    AreGlyphs gs := by
  rcases hwithin with ⟨before, after, rfl⟩
  exact h.left.right

end Text
end Disassembler
