import Disassembler.Proofs.Text.Column

/-!
# Characters of a text

A property that all characters of a text have, through the ways in which texts
are put together.
-/

namespace Disassembler
namespace Text

/-- All characters of a text have a property. -/
def HasOnly (P : Char -> Prop) (s : String) : Prop :=
  ∀ c ∈ s.toList, P c

instance (P : Char -> Prop) [DecidablePred P] (s : String) : Decidable (HasOnly P s) :=
  decidable_of_iff (s.toList.all (fun c => decide (P c)) = true) (by simp [HasOnly])

/-- A character of ASCII that shows. -/
def IsGraphic (c : Char) : Prop :=
  0x20 < c.toNat ∧ c.toNat < 0x7f

instance : DecidablePred IsGraphic :=
  fun _ => inferInstanceAs (Decidable (_ ∧ _))

theorem IsGraphic.ne_blank {c : Char} (h : IsGraphic c) : c ≠ ' ' := by
  rintro rfl
  exact absurd h (by decide)

theorem noBlank_of_isGraphic {s : String} (h : HasOnly IsGraphic s) : NoBlank s.toList := by
  intro c hc
  exact (h c hc).ne_blank

section

variable {P : Char -> Prop}

theorem HasOnly.mono {Q : Char -> Prop} {s : String} (h : HasOnly P s) (hPQ : ∀ c, P c -> Q c) :
    HasOnly Q s := by
  intro c hc
  exact hPQ c (h c hc)

@[simp] theorem hasOnly_append {s t : String} :
    HasOnly P (s ++ t) ↔ HasOnly P s ∧ HasOnly P t := by
  rw [HasOnly, String.toList_append]
  exact List.forall_mem_append

theorem HasOnly.join {separator : String} {ss : List String} (hsep : HasOnly P separator)
    (hss : ∀ s ∈ ss, HasOnly P s) : HasOnly P (Text.join separator ss) := by
  intro c hc
  rcases mem_toList_join hc with hc | ⟨s, hs, hc⟩
  · exact hsep c hc
  · exact hss s hs c hc

/-- What stands after the first of some texts. -/
theorem exists_join_cons {separator : String} {rest : List String}
    (hsep : HasOnly P separator) (hrest : ∀ t ∈ rest, HasOnly P t) (s : String) :
    ∃ tail, Text.join separator (s :: rest) = s ++ tail ∧ HasOnly P tail := by
  cases rest with
  | nil => exact ⟨"", String.append_empty.symm, nofun⟩
  | cons t rest =>
      refine ⟨separator ++ Text.join separator (t :: rest), ?_, ?_⟩
      · rw [Text.join, String.append_assoc]
      · exact hasOnly_append.2 ⟨hsep, HasOnly.join hsep hrest⟩

theorem HasOnly.padRight {s : String} (hs : HasOnly P s) (hblank : P ' ') (n : Nat) :
    HasOnly P (Text.padRight n s) := by
  rw [Text.padRight, hasOnly_append]
  constructor
  · exact hs
  · intro c hc
    rw [String.toList_ofList] at hc
    rwa [List.eq_of_mem_replicate hc]

theorem HasOnly.trimBlanks {s : String} (hs : HasOnly P s) : HasOnly P (Text.trimBlanks s) := by
  intro c hc
  rw [Text.trimBlanks, trimRightWhile, String.toList_ofList, List.mem_reverse] at hc
  exact hs c (List.mem_reverse.1 ((List.dropWhile_sublist _).mem hc))

end

end Text
end Disassembler
