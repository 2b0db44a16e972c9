import Disassembler.Proofs.Text.Lines
import Disassembler.Proofs.Text.Space

/-!
# Single lines

Numbers, texts of characters that show, and texts without white space are on one line.
-/

namespace Disassembler
namespace Text

/-- A text without a line break. -/
def OneLine (s : String) : Prop :=
  HasOnly (· ≠ '\n') s

instance (s : String) : Decidable (OneLine s) :=
  inferInstanceAs (Decidable (HasOnly _ s))

theorem oneLine_append {s t : String} : OneLine (s ++ t) ↔ OneLine s ∧ OneLine t :=
  hasOnly_append

theorem oneLine_of_isPrintable {s : String} (h : HasOnly IsPrintable s) : OneLine s := by
  rintro c hc rfl
  rcases h '\n' hc with hblank | hgraphic
  · exact absurd hblank (by decide)
  · exact absurd hgraphic (by decide)

/-- A line break in a text is a glyph of its own, and white space. -/
theorem NoSpace.oneLine {s : String} (h : NoSpace s) : OneLine s := by
  rintro c hc rfl
  rcases List.append_of_mem hc with ⟨before, after, hsplit⟩
  have hs : s = String.ofList before ++ "\n" ++ String.ofList after := by
    rw [← String.toList_inj]
    simp [hsplit]
  have hmem : Glyph.ofAscii '\n' ∈ glyphs s := by
    rw [hs, glyphs_append_cons (c := '\n') rfl (by decide)]
    simp
  cases h _ hmem

theorem oneLine_numberChars : ∀ c ∈ Number.numberChars, c ≠ '\n' := by
  simp [Number.numberChars]

theorem oneLine_hex (v : UInt32) : OneLine (Number.hex v) :=
  Number.forall_mem_hex oneLine_numberChars v

theorem oneLine_hexPadded (width n : Nat) : OneLine (Number.hexPadded width n) :=
  Number.forall_mem_hexPadded oneLine_numberChars width n

/-! ## Lines in a text -/

/-- Lines are found again in the text that consists of them. -/
theorem split_lines {lines : List String} (h : ∀ line ∈ lines, OneLine line) :
    split "\n" (String.join (lines.map (· ++ "\n"))) = lines ++ [""] := by
  induction lines with
  | nil => rfl
  | cons line lines ih =>
      have hline : '\n' ∉ line.toList := fun hmem => h line List.mem_cons_self '\n' hmem rfl
      rw [List.map_cons, String.join_cons, split_append_newline, split_of_not_mem hline,
        ih fun l hl => h l (List.mem_cons_of_mem line hl)]
      rfl

end Text
end Disassembler
