import Disassembler.Proofs.Listing.Preferences
import Disassembler.Proofs.Preference.Set

/-!
# Preferences that are accepted

Whatever happens to the preferences, and whether it succeeds or fails, the CPU is one that
exists and the number of lines is not negative.
-/

namespace Disassembler

/-- What can happen to preferences.  Files and overrides are different each time. -/
inductive PreferenceEvent where
  | set (name : PreferenceName) (v : Value)
  | restore
  | load (files : FileTree) (overrides : Overrides)
  | reset
  | save (files : FileTree)

namespace Preferences

open PreferenceStore

/-- The preferences after an event, which may have failed. -/
def after (p : Preferences) : PreferenceEvent -> Preferences
  | .set name v => (p.set name v).2
  | .restore => p.restore
  | .load files overrides => (p.load files overrides).2.1
  | .reset => p.reset.2
  -- saving changes nothing but the file
  | .save _ => p

def afterAll (p : Preferences) (events : List PreferenceEvent) : Preferences :=
  events.foldl after p

/-! ## Setting all preferences -/

/-- What preferences can become by being set. -/
structure Evolves (p q : Preferences) : Prop where
  cpu : p.cpu.Evolves q.cpu
  hexNumerics : p.hexNumerics.Evolves q.hexNumerics
  maxLines : p.maxLines.Evolves q.maxLines
  bytecode : p.bytecode.Evolves q.bytecode

variable {p q r : Preferences}

theorem Evolves.refl (p : Preferences) : p.Evolves p :=
  ⟨.refl p.cpu, .refl p.hexNumerics, .refl p.maxLines, .refl p.bytecode⟩

theorem Evolves.trans (h : p.Evolves q) (h' : q.Evolves r) : p.Evolves r where
  cpu := h.cpu.trans h'.cpu
  hexNumerics := h.hexNumerics.trans h'.hexNumerics
  maxLines := h.maxLines.trans h'.maxLines
  bytecode := h.bytecode.trans h'.bytecode

theorem evolves_set (p : Preferences) (name : PreferenceName) (v : Value) :
    p.Evolves (p.set name v).2 := by
  have hsame := Evolves.refl p
  cases name with
  | cpu => exact { hsame with cpu := p.cpu.evolves_set v }
  | hexNumerics => exact { hsame with hexNumerics := p.hexNumerics.evolves_set v }
  | maxLines => exact { hsame with maxLines := p.maxLines.evolves_set v }
  | bytecode => exact { hsame with bytecode := p.bytecode.evolves_set v }

theorem evolves_restore (p : Preferences) : p.Evolves p.restore :=
  (((p.evolves_set _ _).trans (evolves_set _ _ _)).trans (evolves_set _ _ _)).trans
    (evolves_set _ _ _)

/-- Preferences are taken over from entries that were only set. -/
theorem evolves_withStore {s : PreferenceStore} (h : EntriesEvolve p.toStore.entries s.entries) :
    p.Evolves (p.withStore s) := by
  rcases s with ⟨_, entries⟩
  rcases List.forall₂_cons_left_iff.mp h with ⟨⟨_, e₁⟩, _, ⟨_, he₁⟩, h₁, rfl⟩
  rcases List.forall₂_cons_left_iff.mp h₁ with ⟨⟨_, e₂⟩, _, ⟨_, he₂⟩, h₂, rfl⟩
  rcases List.forall₂_cons_left_iff.mp h₂ with ⟨⟨_, e₃⟩, _, ⟨_, he₃⟩, h₃, rfl⟩
  rcases List.forall₂_cons_left_iff.mp h₃ with ⟨⟨_, e₄⟩, _, ⟨_, he₄⟩, h₄, rfl⟩
  cases h₄
  -- an entry that is set stays of its kind
  rcases he₁.of_switch with ⟨bytecode, rfl, hbytecode⟩
  rcases he₂.of_phrase with ⟨cpu, rfl, hcpu⟩
  rcases he₃.of_switch with ⟨hexNumerics, rfl, hhexNumerics⟩
  rcases he₄.of_number with ⟨maxLines, rfl, hmaxLines⟩
  exact ⟨hcpu, hhexNumerics, hmaxLines, hbytecode⟩

theorem evolves_load (p : Preferences) (t : FileTree) (o : Overrides) :
    p.Evolves (p.load t o).2.1 := by
  refine evolves_withStore (s := (p.toStore.load t o).2.1) ?_
  rw [PreferenceStore.load]
  split
  · exact EntriesEvolve.refl p.toStore.entries
  · exact entriesEvolve_loadEntries _ o p.toStore.entries

theorem evolves_reset (p : Preferences) : p.Evolves p.reset.2 :=
  evolves_withStore (entriesEvolve_resetEntries p.toStore.entries)

theorem evolves_after (p : Preferences) (event : PreferenceEvent) : p.Evolves (p.after event) := by
  cases event with
  | set name v => exact p.evolves_set name v
  | restore => exact p.evolves_restore
  | load files overrides => exact p.evolves_load files overrides
  | reset => exact p.evolves_reset
  | save files => exact .refl p

theorem evolves_afterAll (p : Preferences) (events : List PreferenceEvent) :
    p.Evolves (p.afterAll events) := by
  induction events generalizing p with
  | nil => exact .refl p
  | cons event events ih => exact (p.evolves_after event).trans (ih _)

/-! ## What is accepted at all times -/

/-- The CPU and the number of lines are accepted, and stay so since they are looked at
before they change. -/
structure IsAccepted (p : Preferences) : Prop where
  cpu_before : p.cpu.before = some checkCpu
  cpu : checkCpu p.cpu.content = none
  maxLines_before : p.maxLines.before = some checkMaxLines
  maxLines : checkMaxLines p.maxLines.content = none

theorem isAccepted_defaults (path : String) : (defaults path).IsAccepted :=
  ⟨rfl, Contents.isValid_initial.cpu, rfl, Contents.isValid_initial.maxLines⟩

theorem IsAccepted.evolves (h : p.IsAccepted) (hpq : p.Evolves q) : q.IsAccepted where
  cpu_before := hpq.cpu.before.trans h.cpu_before
  cpu := by
    rcases hpq.cpu.content with hsame | hcheck
    · rw [hsame]
      exact h.cpu
    · rw [h.cpu_before] at hcheck
      exact hcheck
  maxLines_before := hpq.maxLines.before.trans h.maxLines_before
  maxLines := by
    rcases hpq.maxLines.content with hsame | hcheck
    · rw [hsame]
      exact h.maxLines
    · rw [h.maxLines_before] at hcheck
      exact hcheck

/-- The CPU is the one that is named, or the first one where none is named. -/
theorem IsAccepted.chosenCpu_eq (h : p.IsAccepted) :
    p.cpu.content = "" ∧ p.chosenCpu = .m68000 ∨ p.cpu.content = p.chosenCpu.name := by
  rcases checkCpu_eq_none_iff.mp h.cpu with hempty | ⟨model, hmodel⟩
  · left
    rw [chosenCpu, hempty]
    exact ⟨rfl, rfl⟩
  · right
    rw [chosenCpu, hmodel, Option.getD_some]
    exact name_of_ofName?_eq hmodel

theorem isAccepted_loadFrom {path : String} {t : FileTree} {o o' : Overrides}
    (h : loadFrom path t o = (.ok p, o')) : p.IsAccepted := by
  rw [loadFrom] at h
  split at h
  · cases h
  · have hload := (isAccepted_defaults path).evolves (evolves_load (defaults path) t o)
    split at h
    · cases h
    · rename_i hloaded
      cases h
      rw [hloaded] at hload
      exact hload

/-- Whatever happens to preferences that were loaded, the CPU is one that exists and the
number of lines is not negative. -/
theorem accepted_afterAll {path : String} {t : FileTree} {o o' : Overrides}
    (h : loadFrom path t o = (.ok p, o')) (events : List PreferenceEvent) :
    let q := p.afterAll events
    (q.cpu.content = "" ∧ q.chosenCpu = .m68000 ∨ q.cpu.content = q.chosenCpu.name) ∧
      0 ≤ q.maxLines.content := by
  intro q
  have hq : q.IsAccepted := (isAccepted_loadFrom h).evolves (p.evolves_afterAll events)
  exact ⟨hq.chosenCpu_eq, checkMaxLines_eq_none_iff.mp hq.maxLines⟩

/-- Overrides that are accepted, values that are refused, and overrides of which only the
first one is accepted. -/
def refusals : List PreferenceEvent :=
  [.load {} (({} : Overrides).push "disassembly.cpu::68030; disassembly.maxLines::7"),
    .set .cpu (.text "z80"), .set .maxLines (.integer .int (-5)),
    .load {} (({} : Overrides).push
      "disassembly.bytecode::true; disassembly.cpu::z80; disassembly.maxLines::8")]

theorem accepted_afterAll_refusals :
    let q := (defaults "preferences").afterAll refusals
    q.contents = { cpu := "68030", hexNumerics := true, maxLines := 7, bytecode := true } ∧
      (q.cpu.content = "" ∧ q.chosenCpu = .m68000 ∨ q.cpu.content = q.chosenCpu.name) ∧
      0 ≤ q.maxLines.content := by
  have hload : loadFrom "preferences" {} {} = (.ok (defaults "preferences"), {}) := by
    have hread : readValues {} "preferences" = .ok [] := rfl
    have hnothing := load_nothing Contents.initial hread
    rw [Contents.preferences_initial] at hnothing
    rw [loadFrom, create_eq (by decide)]
    simp only [hnothing]
  exact ⟨by decide +kernel, accepted_afterAll hload refusals⟩

end Preferences
end Disassembler
