import Mathlib
import Disassembler.Listing.Preferences
import Disassembler.Proofs.Preference.Kind
import Disassembler.Proofs.Preference.Store

/-!
# Preferences in their file

The four preferences say the same before they are saved and after they are loaded.
-/

namespace Disassembler
namespace Preferences

open Text PreferenceFile PreferenceStore

/-! ## Contents -/

/-- The values of the four preferences. -/
structure Contents where
  cpu : String
  hexNumerics : Bool
  maxLines : Int
  bytecode : Bool
  deriving DecidableEq, Repr

def contents (p : Preferences) : Contents where
  cpu := p.cpu.content
  hexNumerics := p.hexNumerics.content
  maxLines := p.maxLines.content
  bytecode := p.bytecode.content

namespace Contents

/-- What is preferred before anything is set. -/
def initial : Contents :=
  (defaults "").contents

/-- Contents that the preferences accept. -/
structure IsValid (c : Contents) : Prop where
  cpu : checkCpu c.cpu = none
  maxLines : checkMaxLines c.maxLines = none
  maxLines_lt : c.maxLines < 0x8000000000000000

theorem isValid_initial : initial.IsValid :=
  ⟨by decide +kernel, by decide +kernel, by decide +kernel⟩

/-- The preferences with these contents. -/
def preferences (c : Contents) (path : String) : Preferences :=
  { defaults path with
    cpu := { (defaults path).cpu with content := c.cpu }
    hexNumerics := { (defaults path).hexNumerics with content := c.hexNumerics }
    maxLines := { (defaults path).maxLines with content := c.maxLines }
    bytecode := { (defaults path).bytecode with content := c.bytecode } }

theorem preferences_initial (path : String) : initial.preferences path = defaults path := rfl

end Contents

/-! ## What is accepted -/

theorem checkCpu_eq_none_iff {s : String} :
    checkCpu s = none ↔ s = "" ∨ ∃ model : M68k.Cpu, M68k.Cpu.ofName? s = some model := by
  rw [checkCpu, ← Option.isSome_iff_exists, ← String.isEmpty_iff, ← Bool.or_eq_true]
  split
  · rename_i h
    exact iff_of_true rfl h
  · rename_i h
    exact iff_of_false (Option.some_ne_none _) h

theorem name_of_ofName?_eq {s : String} {model : M68k.Cpu} (h : M68k.Cpu.ofName? s = some model) :
    s = model.name := by
  rw [M68k.Cpu.ofName?] at h
  have hbeq := List.find?_some h
  exact (eq_of_beq hbeq).symm

theorem checkMaxLines_eq_none_iff {n : Int} : checkMaxLines n = none ↔ 0 ≤ n := by
  rw [checkMaxLines]
  split
  · rename_i h
    exact iff_of_false (Option.some_ne_none _) (not_le.mpr h)
  · rename_i h
    exact iff_of_true rfl (not_lt.mp h)

/-! ## Setting -/

theorem exists_set {c : Contents} (hc : c.IsValid) (path : String) (name : PreferenceName)
    {v : Value} (hv : v.IsRepresentable) :
    ∃ c' : Contents, c'.IsValid ∧ ((c.preferences path).set name v).2 = c'.preferences path := by
  cases name with
  | cpu =>
      rcases (c.preferences path).cpu.set_cases v with h | ⟨cpu, _, hcheck, h⟩
      · exact ⟨c, hc, by rw [set, h]⟩
      · exact ⟨{ c with cpu }, ⟨hcheck, hc.maxLines, hc.maxLines_lt⟩, by rw [set, h]; rfl⟩
  | hexNumerics =>
      rcases (c.preferences path).hexNumerics.set_cases v with h | ⟨hexNumerics, _, _, h⟩
      · exact ⟨c, hc, by rw [set, h]⟩
      · exact ⟨{ c with hexNumerics }, ⟨hc.cpu, hc.maxLines, hc.maxLines_lt⟩, by rw [set, h]; rfl⟩
  | maxLines =>
      rcases (c.preferences path).maxLines.set_cases v with h | ⟨maxLines, hread, hcheck, h⟩
      · exact ⟨c, hc, by rw [set, h]⟩
      · exact ⟨{ c with maxLines }, ⟨hc.cpu, hcheck, PreferenceKind.number_read_lt hv hread⟩,
          by rw [set, h]; rfl⟩
  | bytecode =>
      rcases (c.preferences path).bytecode.set_cases v with h | ⟨bytecode, _, _, h⟩
      · exact ⟨c, hc, by rw [set, h]⟩
      · exact ⟨{ c with bytecode }, ⟨hc.cpu, hc.maxLines, hc.maxLines_lt⟩, by rw [set, h]; rfl⟩

/-! ## Entries -/

/-- A preference as it is kept in the store. -/
def entry (p : Preferences) : PreferenceName -> PreferenceEntry
  | .cpu => .phrase p.cpu
  | .hexNumerics => .switch p.hexNumerics
  | .maxLines => .number p.maxLines
  | .bytecode => .switch p.bytecode

theorem entries_toStore (p : Preferences) :
    p.toStore.entries =
      [PreferenceName.bytecode, .cpu, .hexNumerics, .maxLines].map fun name =>
        (name.key, p.entry name) :=
  rfl

theorem exists_name_of_mem {p : Preferences} {q : String × PreferenceEntry}
    (hq : q ∈ p.toStore.entries) : ∃ name, q = (name.key, p.entry name) := by
  rw [entries_toStore] at hq
  rcases List.mem_map.mp hq with ⟨name, _, rfl⟩
  exact ⟨name, rfl⟩

/-! ## Loading -/

/-- What the file says of contents. -/
def Contents.values (c : Contents) : Dictionary String :=
  PreferenceStore.values (c.preferences "").toStore.entries

theorem values_toStore (c : Contents) (path : String) :
    PreferenceStore.values (c.preferences path).toStore.entries = c.values :=
  rfl

theorem exists_name_of_mem_values {c : Contents} {p : String × String} (hp : p ∈ c.values)
    (path : String) : ∃ name, p = (name.key, ((c.preferences path).entry name).text) := by
  rw [← values_toStore c path] at hp
  rcases mem_values hp with ⟨e, he, htext⟩
  rcases exists_name_of_mem he with ⟨name, hname⟩
  rcases Prod.mk.inj hname with ⟨hkey, hentry⟩
  exact ⟨name, Prod.ext hkey (htext.trans (congrArg PreferenceEntry.text hentry))⟩

theorem find?_values_key (c : Contents) (path : String) (name : PreferenceName) :
    c.values.find? name.key = some ((c.preferences path).entry name).text := by
  cases name with
  | _ => rfl

theorem Contents.IsValid.maxLines_nonneg {c : Contents} (hc : c.IsValid) : 0 ≤ c.maxLines :=
  checkMaxLines_eq_none_iff.mp hc.maxLines

/-- A preference that is set to a text of accepted contents takes on these contents. -/
theorem setFrom_entry (c : Contents) {saved : Contents} (hsaved : saved.IsValid) (path : String)
    (name : PreferenceName) :
    setFrom (some ((saved.preferences path).entry name).text) ((c.preferences path).entry name) =
      (none, (saved.preferences path).entry name) := by
  cases name with
  | cpu => exact setFrom_phrase rfl rfl hsaved.cpu
  | hexNumerics => exact setFrom_switch rfl rfl rfl saved.hexNumerics
  | maxLines =>
      exact setFrom_number (n := saved.maxLines) rfl rfl hsaved.maxLines_nonneg
        hsaved.maxLines_lt hsaved.maxLines
  | bytecode => exact setFrom_switch rfl rfl rfl saved.bytecode

/-- Preferences of which the file says nothing stay as they are. -/
theorem load_nothing (c : Contents) {path : String} {t : FileTree}
    (hread : readValues t path = .ok []) :
    (c.preferences path).load t {} = (none, c.preferences path, {}) := by
  have hload := load_eq (s := (c.preferences path).toStore) hread fun p _ => rfl
  rw [load, hload]
  rfl

theorem load_values (c : Contents) {saved : Contents} (hsaved : saved.IsValid) {path : String}
    {t : FileTree} (hread : readValues t path = .ok saved.values) :
    (c.preferences path).load t {} = (none, saved.preferences path, {}) := by
  have hset : ∀ name : PreferenceName,
      setFrom (saved.values.find? name.key) ((c.preferences path).entry name) =
        (none, (saved.preferences path).entry name) := by
    intro name
    rw [find?_values_key saved path name]
    exact setFrom_entry c hsaved path name
  have hload := load_eq (s := (c.preferences path).toStore) hread (by
    intro q hq
    rcases exists_name_of_mem hq with ⟨name, rfl⟩
    exact congrArg Prod.fst (hset name))
  have hentries : ((c.preferences path).toStore.entries.map fun p =>
      (p.1, (setFrom (saved.values.find? p.1) p.2).2)) =
        (saved.preferences path).toStore.entries := by
    rw [entries_toStore, entries_toStore, List.map_map]
    refine List.map_congr_left fun name _ => ?_
    exact congrArg (fun r => (name.key, r.2)) (hset name)
  have hstore : (c.preferences path).withStore ((c.preferences path).toStore.withEntries _
      (Dictionary.keys_map _ fun p => (setFrom (saved.values.find? p.1) p.2).2)) =
        saved.preferences path := by
    simp only [withStore, withEntries, hentries]
    rfl
  rw [load, hload]
  exact congrArg (fun p => (none, p, ({} : Overrides))) hstore

/-! ## Saving -/

/-- An ASCII character that does not end a line. -/
def IsPlainChar (c : Char) : Prop :=
  c.toNat < 0x80 ∧ c ≠ '\n' ∧ c ≠ '\r'

instance (c : Char) : Decidable (IsPlainChar c) :=
  inferInstanceAs (Decidable (_ ∧ _))

/-- A text that is a part of a line. -/
structure IsPlainText (s : String) : Prop where
  plain : s.toList.Forall IsPlainChar
  short : s.length ≤ 64

theorem isPlainText_switch (b : Bool) : IsPlainText (PreferenceKind.switch.text b) := by
  cases b with
  | true => exact ⟨by decide, by decide⟩
  | false => exact ⟨by decide, by decide⟩

theorem isPlainText_name (model : M68k.Cpu) : IsPlainText model.name := by
  cases model with
  | _ => exact ⟨by decide, by decide⟩

theorem isPlainText_key (name : PreferenceName) : IsPlainText name.key := by
  cases name with
  | _ => exact ⟨by decide, by decide⟩

theorem Contents.IsValid.isPlainText_cpu {c : Contents} (hc : c.IsValid) : IsPlainText c.cpu := by
  rcases checkCpu_eq_none_iff.mp hc.cpu with hempty | ⟨model, hmodel⟩
  · rw [hempty]
    exact ⟨by decide, by decide⟩
  · rw [name_of_ofName?_eq hmodel]
    exact isPlainText_name model

theorem Contents.IsValid.isPlainText_maxLines {c : Contents} (hc : c.IsValid) :
    IsPlainText (PreferenceKind.number.text c.maxLines) := by
  have hn := hc.maxLines_nonneg
  have hlt := hc.maxLines_lt
  have hdigit : ∀ d < 16, IsPlainChar (Nat.digitChar d) := by decide
  have htext : PreferenceKind.number.text c.maxLines = Number.decDigits c.maxLines.natAbs :=
    if_neg (by omega)
  have hlength : (Nat.toDigits 10 c.maxLines.natAbs).length ≤ 19 :=
    (Nat.length_toDigits_le_iff (by omega) (by omega)).mpr (by omega)
  rw [htext, Number.decDigits]
  refine ⟨?_, ?_⟩
  · rw [String.toList_ofList, List.forall_iff_forall_mem]
    exact Number.forall_mem_toDigits (by omega) (by omega) hdigit
  · rw [String.length_ofList]
    omega

theorem isPlainText_text {c : Contents} (hc : c.IsValid) (path : String) (name : PreferenceName) :
    IsPlainText ((c.preferences path).entry name).text := by
  cases name with
  | cpu => exact hc.isPlainText_cpu
  | hexNumerics => exact isPlainText_switch c.hexNumerics
  | maxLines => exact hc.isPlainText_maxLines
  | bytecode => exact isPlainText_switch c.bytecode

theorem IsPlainText.isPlainChar {s : String} (h : IsPlainText s) {c : Char} (hc : c ∈ s.toList) :
    IsPlainChar c :=
  List.forall_iff_forall_mem.mp h.plain c hc

theorem IsPlainText.fitsLine {key value : String} (hkey : IsPlainText key)
    (hvalue : IsPlainText value) : FitsLine (key, value) where
  key_bytes := fun c hc => lt_trans (hkey.isPlainChar hc).1 (by decide)
  value_bytes := fun c hc => lt_trans (hvalue.isPlainChar hc).1 (by decide)
  key_line := fun hmem => (hkey.isPlainChar hmem).2.1 rfl
  value_line := fun hmem => (hvalue.isPlainChar hmem).2.1 rfl
  short := by
    have hk := hkey.short
    have hv := hvalue.short
    have hs : separator.length = 4 := rfl
    have hlength : (key ++ separator ++ value).length = key.length + 4 + value.length := by
      rw [String.length_append, String.length_append, hs]
    have hcapacity : lineCapacity = 65536 := rfl
    change (key ++ separator ++ value).length < lineCapacity
    omega

/-- A file of preferences says of them what was saved last. -/
theorem readValues_of_save_contents {c : Contents} (hc : c.IsValid) {old : Option Contents}
    {path : String} {t t' : FileTree} (hread : readValues t path = .ok (old.elim [] Contents.values))
    (hsave : (c.preferences path).save t = .ok t') : readValues t' path = .ok c.values := by
  refine readValues_of_save_own (s := (c.preferences path).toStore) hread hsave ?_ ?_ ?_
  · intro p hp
    cases old with
    | none => exact absurd hp List.not_mem_nil
    | some saved =>
        -- the keys are the same, whatever the contents
        rcases exists_name_of_mem_values hp path with ⟨name, rfl⟩
        exact Option.isSome_iff_exists.mpr ⟨_, find?_values_key c path name⟩
  · intro p hp
    rcases exists_name_of_mem_values hp path with ⟨name, rfl⟩
    exact (isPlainText_key name).fitsLine (isPlainText_text hc path name)
  · intro p hp
    rcases exists_name_of_mem_values hp path with ⟨name, rfl⟩
    exact dropReturn_of_not_mem fun hreturn =>
      ((isPlainText_text hc path name).isPlainChar hreturn).2.2 rfl

theorem canWrite_of_save {c : Contents} {old : Dictionary String} {path : String}
    {t t' : FileTree} (hread : readValues t path = .ok old)
    (hsave : (c.preferences path).save t = .ok t') : t'.CanWrite path :=
  FileTree.canWrite_write (write_of_save (s := (c.preferences path).toStore) hread hsave)

end Preferences
end Disassembler
