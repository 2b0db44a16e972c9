import Mathlib
import Disassembler.File.Tree

/-!
# Files that are written

A file is found where it was written: writing replaces no folder on the way to it.
-/

namespace Disassembler
namespace FileTree

theorem lookup_replace (entries : List (Place × FileEntry)) (p q : Place) (e : FileEntry) :
    (entries.map fun r => if r.1 = p then (p, e) else r).lookup q =
      (entries.lookup q).map fun old => if q = p then e else old := by
  induction entries with
  | nil => rfl
  | cons r entries ih =>
      rcases r with ⟨k, old⟩
      rw [List.map_cons]
      by_cases hq : q = k
      · subst hq
        by_cases hp : q = p
        · subst hp
          simp only [if_true, List.lookup_cons_self, Option.map_some]
        · simp only [if_neg hp, List.lookup_cons_self, Option.map_some]
      · have hbeq : (q == k) = false := beq_eq_false_iff_ne.mpr hq
        by_cases hp : k = p
        · subst hp
          simp only [if_true, List.lookup_cons, hbeq, ih]
        · simp only [if_neg hp, List.lookup_cons, hbeq, ih]

/-- Only the entry at its place is set. -/
theorem lookup_setEntry (t : FileTree) (p q : Place) (e : FileEntry) :
    (t.setEntry p e).entries.lookup q = if q = p then some e else t.entries.lookup q := by
  rw [setEntry]
  by_cases hp : (t.entries.lookup p).isSome = true
  · rw [if_pos hp, lookup_replace]
    by_cases hq : q = p
    · subst hq
      rcases Option.isSome_iff_exists.mp hp with ⟨old, hold⟩
      rw [hold, Option.map_some, if_pos rfl, if_pos rfl]
    · simp only [if_neg hq, Option.map_id']
  · rw [if_neg hp, List.lookup_append]
    by_cases hq : q = p
    · subst hq
      rw [Option.not_isSome_iff_eq_none.mp hp, if_pos rfl, Option.none_or, List.lookup_cons_self]
    · have hbeq : (q == p) = false := beq_eq_false_iff_ne.mpr hq
      simp only [if_neg hq, List.lookup_cons, hbeq, List.lookup_nil, Option.or_none]

theorem entry?_setEntry_of_ne {t : FileTree} {p q : Place} (e : FileEntry) (h : q ≠ p) :
    FileTree.entry? (t.setEntry p e) q = t.entry? q := by
  rw [ entry?, entry?, lookup_setEntry, if_neg h]

theorem entry?_setEntry_self {t : FileTree} {p : Place} (e : FileEntry)
    (h : t.entry? p ≠ some .folder) : FileTree.entry? (t.setEntry p e) p = some e := by
  rw [ entry?] at h ⊢
  split at h
  · exact absurd rfl h
  · rename_i habove
    rw [if_neg habove, lookup_setEntry, if_pos rfl]

/-! ## Paths -/

theorem enter_setEntry {t : FileTree} {p q r : Place} {name : String} (content : Bytes)
    (hp : t.entry? p ≠ some .folder) (h : t.enter q name = .ok r) :
    (t.setEntry p (.file content)).enter q name = .ok r := by
  have hq : q ≠ p := by
    rintro rfl
    rw [enter] at h
    cases hentry : t.entry? q with
    | none =>
        rw [hentry] at h
        cases h
    | some e =>
        cases e with
        | folder => exact hp hentry
        | file content =>
            rw [hentry] at h
            cases h
  rw [enter, entry?_setEntry_of_ne _ hq]
  exact h

/-- The way to a place that is no folder stays open. -/
theorem walk_setEntry {t : FileTree} {p : Place} {path : String} {parts : List String} {r : Place}
    (content : Bytes) (hp : t.entry? p ≠ some .folder) (h : t.walk path parts = .ok r) :
    (t.setEntry p (.file content)).walk path parts = .ok r := by
  rw [walk] at h ⊢
  generalize (if Text.startsWith "/" path then root else []) = start at h ⊢
  induction parts generalizing start with
  | nil => exact h
  | cons name parts ih =>
      rw [List.foldlM_cons] at h ⊢
      cases henter : t.enter start name with
      | error e =>
          rw [henter] at h
          cases h
      | ok q =>
          rw [henter] at h
          rw [enter_setEntry content hp henter]
          exact ih q h

/-- The place where a file can be written. -/
structure LeadsTo (t : FileTree) (path : String) (ps : List String) (p : Place) : Prop where
  parts : FileTree.parts path = .ok ps
  last : ps.getLast? ≠ some ""
  walk : t.walk path ps = .ok p
  entry : t.entry? p ≠ some .folder

theorem LeadsTo.target_eq {t : FileTree} {path : String} {ps : List String} {p : Place}
    (h : LeadsTo t path ps p) : t.target path = .ok p := by
  rw [target, h.parts]
  simp only [bind, Except.bind, if_neg h.last, h.walk, if_neg h.entry]

theorem exists_leadsTo {t : FileTree} {path : String} {p : Place} (h : t.target path = .ok p) :
    ∃ ps, LeadsTo t path ps p := by
  rw [target] at h
  cases hparts : parts path with
  | error e =>
      rw [hparts] at h
      cases h
  | ok ps =>
      rw [hparts] at h
      simp only [bind, Except.bind] at h
      split at h
      · cases hwalk : t.walk path ((dropEmptyEnd ps).dropLast ++ ["."]) with
        | error e =>
            rw [hwalk] at h
            cases h
        | ok q =>
            rw [hwalk] at h
            cases h
      · rename_i hlast
        cases hwalk : t.walk path ps with
        | error e =>
            rw [hwalk] at h
            cases h
        | ok q =>
            rw [hwalk] at h
            simp only at h
            split at h
            · cases h
            · rename_i hp
              cases h
              exact ⟨ps, hparts, hlast, hwalk, hp⟩

theorem LeadsTo.setEntry {t : FileTree} {path : String} {ps : List String} {p : Place}
    (h : LeadsTo t path ps p) (content : Bytes) :
    LeadsTo (t.setEntry p (.file content)) path ps p where
  parts := h.parts
  last := h.last
  walk := walk_setEntry content h.entry h.walk
  entry := by
    rw [entry?_setEntry_self _ h.entry]
    rintro ⟨⟩

/-! ## Writing -/

theorem exists_of_write {t t' : FileTree} {path : String} {content : Bytes}
    (h : t.write path content = .ok t') :
    ∃ ps p, LeadsTo t path ps p ∧ t' = t.setEntry p (.file content) := by
  rw [write] at h
  cases htarget : t.target path with
  | error e =>
      rw [htarget] at h
      cases h
  | ok p =>
      rw [htarget] at h
      cases h
      rcases exists_leadsTo htarget with ⟨ps, hleads⟩
      exact ⟨ps, p, hleads, rfl⟩

theorem stat_write {t t' : FileTree} {path : String} {content : Bytes}
    (h : t.write path content = .ok t') : t'.stat path = .ok (.file content) := by
  rcases exists_of_write h with ⟨ps, p, hleads, rfl⟩
  have hlocate : (t.setEntry p (.file content)).locate path = .ok p := by
    rw [locate, hleads.parts]
    exact walk_setEntry content hleads.entry hleads.walk
  rw [stat, hlocate]
  simp only [entry?_setEntry_self _ hleads.entry]

/-- Files can be written at a path. -/
def CanWrite (t : FileTree) (path : String) : Prop :=
  ∃ p, t.target path = .ok p

theorem canWrite_write {t t' : FileTree} {path : String} {content : Bytes}
    (h : t.write path content = .ok t') : t'.CanWrite path := by
  rcases exists_of_write h with ⟨ps, p, hleads, rfl⟩
  exact ⟨p, (hleads.setEntry content).target_eq⟩

end FileTree
end Disassembler
