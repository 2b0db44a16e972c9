import Mathlib
import Disassembler.Text.Column
import Disassembler.Text.Space
import Disassembler.Proofs.Text.Character
import Disassembler.Proofs.Text.Glyph
import Disassembler.Proofs.Text.Numeral

/-!
# Words and trimmed texts

The words of a text are found again in any text that is joined from them, and
trimming does nothing to a text that has no white space at its ends.
-/

namespace Disassembler
namespace Text

/-- No glyph of a text is white space. -/
def NoSpace (s : String) : Prop :=
  ∀ g ∈ glyphs s, g.isSpace = false

/-! ## Words of glyphs -/

/-- Words are cut out of the glyphs, and the first one stands at their start. -/
theorem infix_of_mem_wordsFrom {gs w : List Glyph} (hw : w ∈ wordsFrom gs) : w <:+: gs := by
  suffices h : ∃ v vs, wordsFrom gs = v :: vs ∧ v <+: gs ∧ ∀ w ∈ vs, w <:+: gs by
    rcases h with ⟨v, vs, hwords, hbegin, hrest⟩
    rw [hwords] at hw
    rcases List.mem_cons.mp hw with rfl | hw
    · exact hbegin.isInfix
    · exact hrest w hw
  clear hw w
  induction gs with
  | nil => exact ⟨[], [], rfl, List.prefix_rfl, fun w hw => absurd hw List.not_mem_nil⟩
  | cons g gs ih =>
      rcases ih with ⟨v, vs, hwords, hbegin, hrest⟩
      rw [wordsFrom, hwords]
      by_cases hspace : g.isSpace = true
      · rw [if_pos hspace]
        refine ⟨[], v :: vs, rfl, List.nil_prefix, fun w hw => ?_⟩
        rcases List.mem_cons.mp hw with rfl | hw
        · exact hbegin.isInfix.trans (List.suffix_cons g gs).isInfix
        · exact (hrest w hw).trans (List.suffix_cons g gs).isInfix
      · rw [if_neg hspace]
        exact ⟨g :: v, vs, rfl, List.cons_prefix_cons.mpr ⟨rfl, hbegin⟩,
          fun w hw => (hrest w hw).trans (List.suffix_cons g gs).isInfix⟩

theorem not_isSpace_of_mem_wordsFrom {gs w : List Glyph} (hw : w ∈ wordsFrom gs) :
    ∀ g ∈ w, g.isSpace = false := by
  induction gs generalizing w with
  | nil =>
      cases List.mem_singleton.mp hw
      exact fun g hg => absurd hg List.not_mem_nil
  | cons g gs ih =>
      rw [wordsFrom] at hw
      by_cases hspace : g.isSpace = true
      · rw [if_pos hspace] at hw
        rcases List.mem_cons.mp hw with rfl | hw
        · exact fun g hg => absurd hg List.not_mem_nil
        · exact ih hw
      · rw [if_neg hspace] at hw
        rcases hwords : wordsFrom gs with _ | ⟨v, vs⟩
        · rw [hwords] at hw
          cases List.mem_singleton.mp hw
          intro h hh
          cases List.mem_singleton.mp hh
          exact Bool.eq_false_iff.mpr hspace
        · rw [hwords] at hw ih
          rcases List.mem_cons.mp hw with rfl | hw
          · intro h hh
            rcases List.mem_cons.mp hh with rfl | hh
            · exact Bool.eq_false_iff.mpr hspace
            · exact ih List.mem_cons_self h hh
          · exact ih (List.mem_cons_of_mem v hw)

theorem wordsFrom_of_noSpace {gs : List Glyph} (h : ∀ g ∈ gs, g.isSpace = false) :
    wordsFrom gs = [gs] := by
  induction gs with
  | nil => rfl
  | cons g gs ih =>
      rw [wordsFrom, h g List.mem_cons_self, ih fun k hk => h k (List.mem_cons_of_mem g hk)]
      rfl

/-! ## Words of texts -/

theorem glyphs_eq_nil_iff {s : String} : glyphs s = [] ↔ s = "" := by
  constructor
  · intro h
    rw [← ofGlyphs_glyphs s, h]
    rfl
  · rintro rfl
    rfl

theorem noSpace_of_mem_words {s w : String} (hw : w ∈ words s) : NoSpace w ∧ w ≠ "" := by
  rcases List.mem_map.mp hw with ⟨gs, hgs, rfl⟩
  rcases List.mem_filter.mp hgs with ⟨hmem, hne⟩
  have hglyphs := ((areGlyphs_glyphs s).of_isInfix (infix_of_mem_wordsFrom hmem)).glyphs_ofGlyphs
  refine ⟨?_, ?_⟩
  · rw [NoSpace, hglyphs]
    exact not_isSpace_of_mem_wordsFrom hmem
  · rw [ne_eq, ← glyphs_eq_nil_iff, hglyphs]
    rintro rfl
    cases hne

/-- A text without white space is its only word. -/
theorem words_of_noSpace {s : String} (h : NoSpace s) (hs : s ≠ "") : words s = [s] := by
  have hne : glyphs s ≠ [] := fun hnil => hs (glyphs_eq_nil_iff.mp hnil)
  rw [words, wordsFrom_of_noSpace h, List.filter_cons_of_pos (by simpa using hne),
    List.filter_nil, List.map_singleton, ofGlyphs_glyphs]

/-! ## Joining words -/

theorem wordsFrom_ne_nil (gs : List Glyph) : wordsFrom gs ≠ [] := by
  cases gs with
  | nil => exact List.cons_ne_nil _ _
  | cons g gs =>
      rw [wordsFrom]
      split
      · exact List.cons_ne_nil _ _
      · cases wordsFrom gs with
        | nil => exact List.cons_ne_nil _ _
        | cons w ws => exact List.cons_ne_nil _ _

theorem consWord_append (g : Glyph) {ws : List (List Glyph)} (h : ws ≠ [])
    (vs : List (List Glyph)) : consWord g (ws ++ vs) = consWord g ws ++ vs := by
  cases ws with
  | nil => exact absurd rfl h
  | cons w ws => rfl

/-- White space ends a word and begins another one. -/
theorem wordsFrom_append {g : Glyph} (hg : g.isSpace = true) (gs hs : List Glyph) :
    wordsFrom (gs ++ g :: hs) = wordsFrom gs ++ wordsFrom hs := by
  induction gs with
  | nil => exact if_pos hg
  | cons k gs ih =>
      rw [List.cons_append, wordsFrom, wordsFrom, ih]
      split
      · rfl
      · exact consWord_append k (wordsFrom_ne_nil gs) _

theorem glyphs_append_cons {separator : String} {c : Char} (hseparator : separator.toList = [c])
    (hc : c.toNat < 0x80) (s t : String) :
    glyphs (s ++ separator ++ t) = glyphs s ++ Glyph.ofAscii c :: glyphs t := by
  have hascii : BeginsAscii (separator ++ t).toList := by
    rw [String.toList_append, hseparator]
    rintro d ⟨⟩
    exact hc
  rw [String.append_assoc, glyphs_append hascii, glyphs, glyphs, String.toList_append, hseparator,
    List.singleton_append, glyphsFrom_cons, firstChar_ascii hc]
  rfl

theorem words_append_blank (s t : String) : words (s ++ " " ++ t) = words s ++ words t := by
  have hblank : (Glyph.ofAscii ' ').isSpace = true := by decide
  rw [words, glyphs_append_cons (c := ' ') rfl (by decide), wordsFrom_append hblank,
    List.filter_append, List.map_append]
  rfl

theorem noSpace_append {separator : String} {c : Char} (hseparator : separator.toList = [c])
    (hc : c.toNat < 0x80) (hspace : isSpace c = false) {s t : String} (hs : NoSpace s)
    (ht : NoSpace t) : NoSpace (s ++ separator ++ t) := by
  intro g hg
  rw [glyphs_append_cons hseparator hc] at hg
  rcases List.mem_append.mp hg with hg | hg
  · exact hs g hg
  · rcases List.mem_cons.mp hg with rfl | hg
    · exact hspace
    · exact ht g hg

theorem noSpace_join {separator : String} {c : Char} (hseparator : separator.toList = [c])
    (hc : c.toNat < 0x80) (hspace : isSpace c = false) {ss : List String}
    (h : ∀ s ∈ ss, NoSpace s) : NoSpace (join separator ss) := by
  induction ss with
  | nil => exact fun g hg => absurd hg List.not_mem_nil
  | cons s rest ih =>
      cases rest with
      | nil => exact h s List.mem_cons_self
      | cons t rest =>
          exact noSpace_append hseparator hc hspace (h s List.mem_cons_self)
            (ih fun u hu => h u (List.mem_cons_of_mem s hu))

/-! ## Digits -/

theorem glyphs_decDigits (k : Nat) :
    glyphs (Number.decDigits k) = (Nat.toDigits 10 k).map Glyph.ofAscii := by
  have hdigit : ∀ d < 16, (Nat.digitChar d).toNat < 0x80 := by decide
  rw [Number.decDigits, glyphs, String.toList_ofList]
  exact glyphsFrom_ascii (Number.forall_mem_toDigits (by omega) (by omega) hdigit)

theorem noSpace_decDigits (k : Nat) : NoSpace (Number.decDigits k) := by
  have hdigit : ∀ d < 16, isSpace (Nat.digitChar d) = false := by decide
  intro g hg
  rw [glyphs_decDigits] at hg
  rcases List.mem_map.mp hg with ⟨c, hc, rfl⟩
  exact Number.forall_mem_toDigits (P := fun c => isSpace c = false) (by omega) (by omega) hdigit
    c hc

/-! ## Trimming -/

theorem trimGlyphs_isInfix (gs : List Glyph) : trimGlyphs gs <:+: gs :=
  (List.rdropWhile_prefix Glyph.isSpace (gs.dropWhile Glyph.isSpace)).isInfix.trans
    (List.dropWhile_suffix _).isInfix

theorem dropWhile_trimGlyphs (gs : List Glyph) :
    (trimGlyphs gs).dropWhile Glyph.isSpace = trimGlyphs gs := by
  have hbegin : trimGlyphs gs <+: gs.dropWhile Glyph.isSpace := List.rdropWhile_prefix _ _
  cases ht : trimGlyphs gs with
  | nil => rfl
  | cons g rest =>
      rw [ht] at hbegin
      rcases hbegin with ⟨after, hafter⟩
      have hhead := List.head?_dropWhile_not Glyph.isSpace gs
      rw [← hafter] at hhead
      refine List.dropWhile_cons_of_neg ?_
      rw [Bool.not_eq_true]
      exact hhead

theorem trimGlyphs_trimGlyphs (gs : List Glyph) : trimGlyphs (trimGlyphs gs) = trimGlyphs gs := by
  rw [trimGlyphs, dropWhile_trimGlyphs]
  exact List.rdropWhile_idempotent _ _

theorem glyphs_trim (s : String) : glyphs (trim s) = trimGlyphs (glyphs s) :=
  ((areGlyphs_glyphs s).of_isInfix (trimGlyphs_isInfix (glyphs s))).glyphs_ofGlyphs

@[simp] theorem trim_trim (s : String) : trim (trim s) = trim s := by
  rw [trim, glyphs_trim, trimGlyphs_trimGlyphs]
  rfl

/-- Trimming cuts bytes off at the ends. -/
theorem trim_isInfix (s : String) : (trim s).toList <:+: s.toList := by
  have hwithin := (trimGlyphs_isInfix (glyphs s)).flatMap Glyph.bytes
  rw [glyphs, flatMap_glyphsFrom] at hwithin
  rw [trim, ofGlyphs, String.toList_ofList]
  exact hwithin

/-- A text is left alone if white space stands at neither end. -/
theorem trim_of_ends {s : String} (hhead : ∀ g ∈ (glyphs s).head?, g.isSpace = false)
    (hlast : ∀ g ∈ (glyphs s).getLast?, g.isSpace = false) : trim s = s := by
  have hstart : (glyphs s).dropWhile Glyph.isSpace = glyphs s := by
    cases h : glyphs s with
    | nil => rfl
    | cons g gs => exact List.dropWhile_cons_of_neg (by simp [hhead g (by rw [h]; rfl)])
  have hend : dropSpaceEnd (glyphs s) = glyphs s :=
    List.rdropWhile_eq_self_iff.mpr fun hne =>
      Bool.eq_false_iff.mp (hlast _ (List.getLast?_eq_getLast_of_ne_nil hne))
  rw [trim, trimGlyphs, hstart, hend, ofGlyphs_glyphs]

theorem trim_of_noSpace {s : String} (h : NoSpace s) : trim s = s :=
  trim_of_ends (fun g hg => h g (List.mem_of_head? hg))
    fun g hg => h g (List.mem_of_getLast? hg)

/-! ## Blanks -/

/-- A character of ASCII that shows, or a blank. -/
def IsPrintable (c : Char) : Prop :=
  c = ' ' ∨ IsGraphic c

theorem IsGraphic.isSpace_eq {c : Char} (h : IsGraphic c) : isSpace c = false := by
  rcases h with ⟨hlow, hhigh⟩
  simp only [isSpace, Bool.or_eq_false_iff, Bool.and_eq_false_iff, beq_eq_false_iff_ne,
    decide_eq_false_iff_not]
  omega

theorem IsPrintable.isGraphic {c : Char} (h : IsPrintable c) (hc : c ≠ ' ') : IsGraphic c :=
  h.resolve_left hc

theorem IsPrintable.toNat_lt {c : Char} (h : IsPrintable c) : c.toNat < 0x80 := by
  rcases h with rfl | ⟨_, hhigh⟩
  · decide
  · omega

theorem isPrintable_of_isGraphic {s : String} (h : HasOnly IsGraphic s) : HasOnly IsPrintable s :=
  h.mono fun _ hc => Or.inr hc

theorem isPrintable_blanks (k : Nat) :
    HasOnly IsPrintable (String.ofList (List.replicate k ' ')) := by
  intro c hc
  rw [String.toList_ofList] at hc
  exact Or.inl (List.eq_of_mem_replicate hc)

theorem glyphs_ascii {s : String} (h : ∀ c ∈ s.toList, c.toNat < 0x80) :
    glyphs s = s.toList.map Glyph.ofAscii :=
  glyphsFrom_ascii h

/-- In a text of blanks and characters that show, only blanks are trimmed. -/
theorem trim_of_trimmed {s : String} (h : HasOnly IsPrintable s) (hends : Trimmed s.toList) :
    trim s = s := by
  have hglyphs := glyphs_ascii fun c hc => (h c hc).toNat_lt
  apply trim_of_ends
  · intro g hg
    rw [hglyphs, List.head?_map] at hg
    rcases Option.mem_map.mp hg with ⟨c, hc, rfl⟩
    exact ((h c (List.mem_of_head? hc)).isGraphic (hends.head c hc)).isSpace_eq
  · intro g hg
    rw [hglyphs, List.getLast?_map] at hg
    rcases Option.mem_map.mp hg with ⟨c, hc, rfl⟩
    exact ((h c (List.mem_of_getLast? hc)).isGraphic (hends.last c hc)).isSpace_eq

theorem noSpace_of_isGraphic {s : String} (h : HasOnly IsGraphic s) : NoSpace s := by
  intro g hg
  rw [glyphs_ascii fun c hc => (isPrintable_of_isGraphic h c hc).toNat_lt] at hg
  rcases List.mem_map.mp hg with ⟨c, hc, rfl⟩
  exact (h c hc).isSpace_eq

theorem glyphs_blanks_append (k : Nat) (s : String) :
    glyphs (String.ofList (List.replicate k ' ') ++ s) =
      List.replicate k (Glyph.ofAscii ' ') ++ glyphs s := by
  rw [glyphs, String.toList_append, String.toList_ofList]
  induction k with
  | zero => rfl
  | succ k ih =>
      rw [List.replicate_succ, List.cons_append, glyphsFrom_cons, firstChar_ascii (by decide),
        List.drop_zero, ih]
      rfl

/-- Blanks before a text are trimmed. -/
theorem trim_blanks_append (k : Nat) (s : String) :
    trim (String.ofList (List.replicate k ' ') ++ s) = trim s := by
  have hblank : ∀ g ∈ List.replicate k (Glyph.ofAscii ' '), g.isSpace = true := by
    intro g hg
    rw [List.eq_of_mem_replicate hg]
    rfl
  rw [trim, trim, trimGlyphs, trimGlyphs, glyphs_blanks_append,
    List.dropWhile_append_of_pos hblank]

end Text
end Disassembler
