import Mathlib
import Disassembler.Proofs.File.Folder
import Disassembler.Proofs.Listing.PreferenceEvents
import Disassembler.Proofs.Preference.Load

/-!
# Preferences that are opened

Opening the preferences writes no file and keeps the groups of overrides.  What they
accept afterwards is what they accept by default.
-/

namespace Disassembler
namespace Preferences

variable {t : FileTree} {o : Overrides} {p : Preferences} {path : String}

/-! ## What is opened -/

theorem size_load (p : Preferences) (t : FileTree) (o : Overrides) :
    (p.load t o).2.2.size = o.size := by
  simp only [load, PreferenceStore.load]
  split
  · rfl
  · exact PreferenceStore.size_loadEntries _ _ _

theorem size_loadFrom (path : String) (t : FileTree) (o : Overrides) :
    (loadFrom path t o).2.size = o.size := by
  have hsize := size_load (defaults path) t o
  rw [loadFrom]
  split
  · rfl
  · split <;>
    · rename_i hload
      rw [hload] at hsize
      exact hsize

theorem evolves_loadFrom (h : (loadFrom path t o).1 = .ok p) : (defaults path).Evolves p := by
  have hload := evolves_load (defaults path) t o
  rw [loadFrom] at h
  split at h
  · cases h
  · split at h
    · cases h
    · rename_i hloaded
      cases h
      rw [hloaded] at hload
      exact hload

/-- Preferences are loaded after the folder of their file has been made. -/
theorem open?_cases (t : FileTree) (o : Overrides) :
    (∃ f, open? t o = (.error f, t, o)) ∨
      ∃ path t', Resource.path t "" fileName = .ok (path, t') ∧
        open? t o = ((loadFrom path t' o).1, t', (loadFrom path t' o).2) := by
  rw [open?]
  cases hpath : Resource.path t "" fileName with
  | error f => exact Or.inl ⟨_, rfl⟩
  | ok place => exact Or.inr ⟨place.1, place.2, rfl, rfl⟩

theorem sameFiles_open? (t : FileTree) (o : Overrides) : t.SameFiles (open? t o).2.1 := by
  rcases open?_cases t o with ⟨f, hopen⟩ | ⟨path, t', hpath, hopen⟩
  · rw [hopen]
    exact FileTree.SameFiles.refl t
  · rw [hopen]
    exact Resource.sameFiles_path hpath

theorem size_open? (t : FileTree) (o : Overrides) : (open? t o).2.2.size = o.size := by
  rcases open?_cases t o with ⟨f, hopen⟩ | ⟨path, t', hpath, hopen⟩
  · rw [hopen]
  · rw [hopen]
    exact size_loadFrom path t' o

theorem evolves_open? (h : (open? t o).1 = .ok p) : ∃ path, (defaults path).Evolves p := by
  rcases open?_cases t o with ⟨f, hopen⟩ | ⟨path, t', hpath, hopen⟩
  · rw [hopen] at h
    cases h
  · rw [hopen] at h
    exact ⟨path, evolves_loadFrom h⟩

/-! ## What is accepted -/

theorem Evolves.fault_set_cpu (h : (defaults path).Evolves p) (name : String) :
    (p.set .cpu (.text name)).1 = checkCpu name := by
  have hdefault : ((defaults path).cpu.set (.text name)).fault = checkCpu name := by
    have hread : (defaults path).cpu.kind.read (.text name) = .ok name :=
      PreferenceKind.phrase_read_text name
    rw [Preference.fault_set, hread]
    exact Option.or_none
  exact (h.cpu.fault_set_eq _).trans hdefault

theorem Evolves.fault_set_maxLines (h : (defaults path).Evolves p) (n : Int) :
    (p.set .maxLines (.integer .int n)).1 = checkMaxLines n := by
  have hdefault : ((defaults path).maxLines.set (.integer .int n)).fault = checkMaxLines n := by
    have hread : (defaults path).maxLines.kind.read (.integer .int n) = .ok n := rfl
    rw [Preference.fault_set, hread]
    exact Option.or_none
  exact (h.maxLines.fault_set_eq _).trans hdefault

end Preferences
end Disassembler
