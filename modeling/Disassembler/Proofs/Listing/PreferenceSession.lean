import Mathlib
import Disassembler.Proofs.Listing.Preferences

/-!
# Preferences that are kept

Whatever is done with the preferences of a file, what is loaded is what was saved last.
-/

namespace Disassembler

/-- The preferences of a file that are open, and the contents that were saved last. -/
structure PreferenceSession where
  files : FileTree
  overrides : Overrides := {}
  opened : List Preferences := []
  saved : Option Preferences.Contents := none

/-- What can be done with preferences that are open. -/
inductive PreferenceAction where
  | set (name : PreferenceName) (v : Value)
  | load
  | save

inductive PreferenceRequest where
  | create
  | act (index : Nat) (action : PreferenceAction)

/-- Values that are set are values of their types. -/
def PreferenceRequest.IsRepresentable : PreferenceRequest -> Prop
  | .act _ (.set _ v) => v.IsRepresentable
  | _ => True

namespace PreferenceSession

open Preferences PreferenceStore

/-- Do something with the preferences at an index. -/
def act (s : PreferenceSession) (i : Nat) (p : Preferences) : PreferenceAction -> PreferenceSession
  | .set name v => { s with opened := s.opened.set i (p.set name v).2 }
  | .load =>
      { s with
        overrides := (p.load s.files s.overrides).2.2
        opened := s.opened.set i (p.load s.files s.overrides).2.1 }
  | .save =>
      match p.save s.files with
      | .ok files => { s with files, saved := some p.contents }
      | .error _ => s

/-- Answer a request about the preferences in the file at a path. -/
def step (path : String) (s : PreferenceSession) : PreferenceRequest -> PreferenceSession
  | .create =>
      match loadFrom path s.files s.overrides with
      | (.ok p, overrides) => { s with overrides, opened := s.opened ++ [p] }
      | (.error _, overrides) => { s with overrides }
  | .act i action =>
      match s.opened[i]? with
      | some p => s.act i p action
      | none => s

def run (path : String) (s : PreferenceSession) (requests : List PreferenceRequest) :
    PreferenceSession :=
  requests.foldl (step path) s

/-- The file says what was saved last, and everything open has accepted contents. -/
structure IsSound (files : FileTree) (path : String) (s : PreferenceSession) : Prop where
  overrides : s.overrides = {}
  opened : ∀ p ∈ s.opened, ∃ c : Contents, c.IsValid ∧ p = c.preferences path
  saved : ∀ c ∈ s.saved, c.IsValid
  file : readValues s.files path = .ok (s.saved.elim [] Contents.values)
  canWrite : files.CanWrite path -> s.files.CanWrite path

variable {files : FileTree} {path : String} {s : PreferenceSession}

theorem isSound_initial (h : files.stat path = .error .notFound) :
    IsSound files path { files } where
  overrides := rfl
  opened := fun p hp => absurd hp List.not_mem_nil
  saved := fun c hc => by cases hc
  file := by rw [readValues, h]; rfl
  canWrite := id

/-- What is loaded is what was saved last. -/
theorem IsSound.load_eq (h : IsSound files path s) (c : Contents) :
    (c.preferences path).load s.files s.overrides =
      (none, (s.saved.getD c).preferences path, {}) := by
  have hfile := h.file
  rw [h.overrides]
  cases hsaved : s.saved with
  | none =>
      rw [hsaved] at hfile
      exact load_nothing c hfile
  | some saved =>
      rw [hsaved] at hfile
      exact load_values c (h.saved saved hsaved) hfile

theorem IsSound.loadFrom_eq (h : IsSound files path s) (hpath : path ≠ "") :
    loadFrom path s.files s.overrides =
      (.ok ((s.saved.getD Contents.initial).preferences path), {}) := by
  have hload := h.load_eq Contents.initial
  rw [Contents.preferences_initial] at hload
  rw [loadFrom, create_eq hpath]
  simp only [hload]

theorem IsSound.isValid_getD (h : IsSound files path s) {c : Contents} (hc : c.IsValid) :
    (s.saved.getD c).IsValid := by
  cases hsaved : s.saved with
  | none => exact hc
  | some saved => exact h.saved saved hsaved

/-- Preferences that are open may be replaced by others with accepted contents. -/
theorem IsSound.set_opened (h : IsSound files path s) (i : Nat) {c : Contents} (hc : c.IsValid) :
    IsSound files path { s with opened := s.opened.set i (c.preferences path) } where
  overrides := h.overrides
  opened := by
    intro p hp
    rcases List.mem_or_eq_of_mem_set hp with hp | rfl
    · exact h.opened p hp
    · exact ⟨c, hc, rfl⟩
  saved := h.saved
  file := h.file
  canWrite := h.canWrite

theorem IsSound.act (h : IsSound files path s) (i : Nat) {c : Contents} (hc : c.IsValid)
    {action : PreferenceAction} (haction : (PreferenceRequest.act i action).IsRepresentable) :
    IsSound files path (s.act i (c.preferences path) action) := by
  cases action with
  | set name v =>
      rcases exists_set hc path name haction with ⟨c', hc', hset⟩
      rw [PreferenceSession.act, hset]
      exact h.set_opened i hc'
  | load =>
      have hsound := h.set_opened i (h.isValid_getD hc)
      rw [PreferenceSession.act, h.load_eq c]
      exact ⟨rfl, hsound.opened, hsound.saved, hsound.file, hsound.canWrite⟩
  | save =>
      rw [PreferenceSession.act]
      split
      · rename_i files' hsave
        exact
          { overrides := h.overrides
            opened := h.opened
            saved := fun _ hsaved => Option.some.inj hsaved ▸ hc
            file := readValues_of_save_contents hc h.file hsave
            canWrite := fun _ => canWrite_of_save h.file hsave }
      · exact h

theorem IsSound.step (h : IsSound files path s) (hpath : path ≠ "") {r : PreferenceRequest}
    (hr : r.IsRepresentable) : IsSound files path (s.step path r) := by
  cases r with
  | create =>
      rw [PreferenceSession.step, h.loadFrom_eq hpath]
      refine ⟨rfl, fun p hp => ?_, h.saved, h.file, h.canWrite⟩
      rcases List.mem_append.mp hp with hp | hp
      · exact h.opened p hp
      · exact ⟨_, h.isValid_getD Contents.isValid_initial, List.mem_singleton.mp hp⟩
  | act i action =>
      rw [PreferenceSession.step]
      split
      · rename_i p hp
        rcases h.opened p (List.mem_of_getElem? hp) with ⟨c, hc, rfl⟩
        exact h.act i hc hr
      · exact h

theorem IsSound.run (h : IsSound files path s) (hpath : path ≠ "")
    {requests : List PreferenceRequest} (hrequests : ∀ r ∈ requests, r.IsRepresentable) :
    IsSound files path (s.run path requests) := by
  induction requests generalizing s with
  | nil => exact h
  | cons r requests ih =>
      exact ih (h.step hpath (hrequests r List.mem_cons_self)) fun r' hr' =>
        hrequests r' (List.mem_cons_of_mem r hr')

/-- Whatever was done with the preferences of a new file, new ones and those that are
loaded are what was saved last, and everything that is open can be saved. -/
theorem load_run (hpath : path ≠ "") (hnew : files.stat path = .error .notFound)
    {requests : List PreferenceRequest} (hrequests : ∀ r ∈ requests, r.IsRepresentable) :
    let s := run path { files } requests
    (∃ p, loadFrom path s.files s.overrides = (.ok p, {}) ∧
      p.contents = s.saved.getD (defaults path).contents ∧ (s.saved = none -> p = defaults path)) ∧
    ∀ p ∈ s.opened,
      (∃ q, p.load s.files s.overrides = (none, q, {}) ∧
        q.contents = s.saved.getD p.contents ∧ (s.saved = none -> q = p)) ∧
      (files.CanWrite path -> ∃ t, p.save s.files = .ok t) := by
  intro s
  have hsound : IsSound files path s := (isSound_initial hnew).run hpath hrequests
  refine ⟨⟨_, hsound.loadFrom_eq hpath, rfl, fun hnone => ?_⟩, fun p hp => ?_⟩
  · rw [hnone]
    exact Contents.preferences_initial path
  · rcases hsound.opened p hp with ⟨c, hc, rfl⟩
    refine ⟨⟨_, hsound.load_eq c, rfl, fun hnone => ?_⟩, fun hwrite => ?_⟩
    · rw [hnone]
      rfl
    · exact exists_save hsound.file (hsound.canWrite hwrite)

/-- A number of lines is saved and set to another number. -/
def limitTwice : List PreferenceRequest :=
  [.create, .act 0 (.set .maxLines (.text "0x10")), .act 0 .save,
    .act 0 (.set .maxLines (.integer .int 7))]

theorem load_run_limitTwice :
    let s := run "preferences" { files := {} } limitTwice
    s.saved = some { Contents.initial with maxLines := 16 } ∧
    (∃ p, loadFrom "preferences" s.files s.overrides = (.ok p, {}) ∧ p.contents.maxLines = 16) ∧
    ∀ p ∈ s.opened, ∃ q, p.load s.files s.overrides = (none, q, {}) ∧ q.contents.maxLines = 16 := by
  intro s
  have hsaved : s.saved = some { Contents.initial with maxLines := 16 } := by
    decide +kernel
  have hrequests : ∀ r ∈ limitTwice, r.IsRepresentable :=
    List.forall_iff_forall_mem.mp ⟨trivial, trivial, trivial, by decide, by decide⟩
  have hnew : ({} : FileTree).stat "preferences" = .error .notFound := rfl
  rcases load_run (by decide) hnew hrequests with
    ⟨⟨p, hp, hcontents, _⟩, hopened⟩
  refine ⟨hsaved, ⟨p, hp, ?_⟩, fun p hp => ?_⟩
  · rw [hcontents, show s.saved = _ from hsaved]
    rfl
  · rcases (hopened p hp).1 with ⟨q, hq, hcontents, _⟩
    refine ⟨q, hq, ?_⟩
    rw [hcontents, hsaved]
    rfl

end PreferenceSession
end Disassembler
