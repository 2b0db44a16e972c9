import Mathlib
import Disassembler.File.Resource
import Disassembler.Proofs.File.Tree

/-!
# Folders that are made

Making folders leaves every file as it is, and adds none.
-/

namespace Disassembler

namespace FileTree

/-- At a place is a file with the same content, or none. -/
def SameFileAt (place : Place) (t t' : FileTree) : Prop :=
  ∀ content, t'.entry? place = some (.file content) ↔ t.entry? place = some (.file content)

/-- The files are the same, with the same content.  There can be other folders. -/
def SameFiles (t t' : FileTree) : Prop :=
  ∀ place, SameFileAt place t t'

variable {place : Place} {t t' t'' : FileTree}

theorem SameFileAt.refl (place : Place) (t : FileTree) : SameFileAt place t t :=
  fun _ => Iff.rfl

theorem SameFileAt.trans (h : SameFileAt place t t') (h' : SameFileAt place t' t'') :
    SameFileAt place t t'' :=
  fun content => (h' content).trans (h content)

theorem SameFiles.refl (t : FileTree) : t.SameFiles t :=
  fun place => SameFileAt.refl place t

theorem SameFiles.trans (h : t.SameFiles t') (h' : t'.SameFiles t'') : t.SameFiles t'' :=
  fun place => (h place).trans (h' place)

theorem sameFiles_setEntry {p : Place} (hp : t.entry? p = none) :
    t.SameFiles (t.setEntry p .folder) := by
  intro place content
  by_cases hplace : place = p
  · subst hplace
    have hnew : FileTree.entry? (t.setEntry place .folder) place = some .folder :=
      entry?_setEntry_self .folder (by rw [hp]; exact nofun)
    rw [hnew, hp]
    exact iff_of_false nofun nofun
  · rw [entry?_setEntry_of_ne .folder hplace]

theorem sameFiles_makeFolder {path : String} (h : t.makeFolder path = .ok t') :
    t.SameFiles t' := by
  rw [makeFolder] at h
  split at h
  · cases h
  · rename_i p _
    split at h
    · cases h
      exact SameFiles.refl t
    · cases h
    · rename_i hp
      cases h
      exact sameFiles_setEntry hp

theorem sameFiles_makeFolders {path : String} (h : t.makeFolders path = .ok t') :
    t.SameFiles t' := by
  rw [makeFolders] at h
  generalize ancestors path = paths at h
  induction paths generalizing t with
  | nil =>
      cases h
      exact SameFiles.refl _
  | cons p paths ih =>
      rw [List.foldlM_cons] at h
      cases hfolder : t.makeFolder p with
      | error f =>
          rw [hfolder] at h
          cases h
      | ok t₁ =>
          rw [hfolder] at h
          exact (sameFiles_makeFolder hfolder).trans (ih h)

end FileTree

namespace Resource

open FileTree

/-- The folder of a resource is there, or else it is made. -/
theorem path_eq_ok {t t' : FileTree} {sub file result : String}
    (h : Resource.path t sub file = .ok (result, t')) :
    t' = t ∨ t.makeFolders (Path.join [folder, sub]) = .ok t' := by
  unfold Resource.path at h
  cases hstat : t.stat (Path.join [folder, sub]) with
  | ok e =>
      left
      simp only [hstat] at h
      exact (congrArg Prod.snd (Except.ok.inj h)).symm
  | error e =>
      right
      simp only [hstat] at h
      cases hfolders : t.makeFolders (Path.join [folder, sub]) with
      | error f =>
          rw [hfolders, Except.map] at h
          exact absurd h nofun
      | ok made =>
          rw [hfolders, Except.map] at h
          exact congrArg Except.ok (congrArg Prod.snd (Except.ok.inj h))

theorem sameFiles_path {t t' : FileTree} {sub file result : String}
    (h : Resource.path t sub file = .ok (result, t')) : t.SameFiles t' := by
  rcases path_eq_ok h with rfl | hfolders
  · exact SameFiles.refl _
  · exact sameFiles_makeFolders hfolders

end Resource

end Disassembler
