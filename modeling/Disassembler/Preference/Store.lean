import Disassembler.File.Tree
import Disassembler.Preference.Basic
import Disassembler.Preference.File
import Disassembler.Preference.Override
import Disassembler.Text.Encoding

/-!
# Preference stores

Preferences by key, which are kept in a file.  Values in the file that belong to
no preference of the store stay there when the store is saved.
-/

namespace Disassembler

/-- The pattern of the fault that there is no file for preferences. -/
def noPreferenceFile : String := "prefs: no prefs file (%s)"

def preferenceError : String := "prefs: %v"

def isProperKey (key : String) : Bool :=
  !key.isEmpty && !Text.occurs "::" key

/-- The keys under which preferences can be kept. -/
structure IsLegalKey (key : String) : Prop where
  trimmed : ∃ given, Text.trim given = key
  proper : isProperKey key = true

theorem isLegalKey_of_mem_nil :
    ∀ key ∈ Dictionary.keys ([] : Dictionary PreferenceEntry), IsLegalKey key := by
  intro key hkey
  cases hkey

structure PreferenceStore where
  path : String
  entries : Dictionary PreferenceEntry := []
  sorted : entries.Sorted := by exact Dictionary.sorted_nil
  legal : ∀ key ∈ entries.keys, IsLegalKey key := by exact isLegalKey_of_mem_nil

namespace PreferenceStore

/-! ## Preferences in a store -/

def create (path : String) : Except Fault PreferenceStore :=
  if path.isEmpty then .error (.report noPreferenceFile [.text "empty path"]) else .ok { path }

def faultOf (v : Value) : Fault :=
  .report preferenceError [v]

def insert (s : PreferenceStore) (key : String) (h : IsLegalKey key) (e : PreferenceEntry) :
    PreferenceStore where
  path := s.path
  entries := s.entries.insert key e
  sorted := s.sorted.insert key e
  legal k hk := by
    rcases List.mem_map.1 hk with ⟨p, hp, rfl⟩
    rcases Dictionary.mem_insert hp with rfl | hp
    · exact h
    · exact s.legal p.1 (List.mem_map_of_mem hp)

/-- Add a preference under a key that is not in use. -/
def add (s : PreferenceStore) (key : String) (e : PreferenceEntry) :
    Except Fault PreferenceStore :=
  let trimmed := Text.trim key
  if h : isProperKey trimmed then
    if (s.entries.find? trimmed).isSome then
      .error (faultOf (.text ("key already added (" ++ trimmed ++ ")")))
    else
      .ok (s.insert trimmed ⟨⟨key, rfl⟩, h⟩ e)
  else
    .error (faultOf (.text ("illegal key (" ++ trimmed ++ ")")))

/-- The store with other preferences under the same keys. -/
def withEntries (s : PreferenceStore) (entries : Dictionary PreferenceEntry)
    (h : entries.keys = s.entries.keys) : PreferenceStore where
  path := s.path
  entries := entries
  sorted := by
    rw [Dictionary.sorted_iff, h]
    exact Dictionary.sorted_iff.1 s.sorted
  legal := h ▸ s.legal

/-- Set the preference under a key, if there is one. -/
def set (s : PreferenceStore) (key : String) (v : Value) : Option Fault × PreferenceStore :=
  match s.entries.find? key with
  | none => (none, s)
  | some e =>
      let replaced := s.entries.map fun p => (p.1, if p.1 = key then (e.set v).2 else p.2)
      ((e.set v).1, s.withEntries replaced (Dictionary.keys_map _ _))

/-- The contents as texts. -/
def values (entries : Dictionary PreferenceEntry) : Dictionary String :=
  entries.map fun (key, e) => (key, e.text)

def text (s : PreferenceStore) : String :=
  PreferenceFile.linesOf (values s.entries)

def resetEntries : Dictionary PreferenceEntry -> Option Fault × Dictionary PreferenceEntry
  | [] => (none, [])
  | (key, e) :: rest =>
      match e.reset with
      | (some f, e') => (some (faultOf (.fault f)), (key, e') :: rest)
      | (none, e') =>
          let (fault, rest') := resetEntries rest
          (fault, (key, e') :: rest')

theorem keys_resetEntries (entries : Dictionary PreferenceEntry) :
    (resetEntries entries).2.keys = entries.keys := by
  induction entries with
  | nil => rfl
  | cons p entries ih =>
      rw [resetEntries]
      split
      · rfl
      · exact congrArg (List.cons p.1) ih

def reset (s : PreferenceStore) : Option Fault × PreferenceStore :=
  ((resetEntries s.entries).1, s.withEntries (resetEntries s.entries).2 (keys_resetEntries _))

/-! ## Reading the file -/

/-- The values in the file at a path.  There are none if the path leads to
nothing or to a folder. -/
def readValues (t : FileTree) (path : String) : Except Fault (Dictionary String) :=
  match t.stat path with
  | .error .notFound => .ok []
  | .error e => .error (faultOf (.fault (FileFault.toFault ⟨"open", path, e⟩)))
  | .ok .folder => .ok []
  | .ok (.file content) =>
      match PreferenceFile.parse (Text.decode content) with
      | .ok values => .ok values
      | .error .foreign => .error (faultOf (.text ("not a prefs file (" ++ path ++ ")")))
      | .error .overlong => .error (faultOf (.fault (.plain "bufio.Scanner: token too long")))

/-! ## Saving -/

def save (s : PreferenceStore) (t : FileTree) : Except Fault FileTree :=
  match readValues t s.path with
  | .error f => .error f
  | .ok old =>
      let new := old.insertAll (values s.entries)
      match t.write s.path (Text.encode (PreferenceFile.print new)) with
      | .ok t' => .ok t'
      | .error f => .error (faultOf (.fault f.toFault))

/-! ## Loading -/

def setFrom (value? : Option String) (e : PreferenceEntry) : Option Fault × PreferenceEntry :=
  match value? with
  | none => (none, e)
  | some s => e.set (.text s)

/-- Set preferences in turn, until there is a fault.  The value in the file
comes first and the override second, so that the override prevails. -/
def loadEntries (file : Dictionary String) (o : Overrides) :
    Dictionary PreferenceEntry -> Option Fault × Dictionary PreferenceEntry × Overrides
  | [] => (none, [], o)
  | (key, e) :: rest =>
      match setFrom (file.find? key) e with
      | (some f, e') => (some (faultOf (.fault f)), (key, e') :: rest, o)
      | (none, e') =>
          match setFrom (o.take key).1 e' with
          | (some f, e'') => (some (faultOf (.fault f)), (key, e'') :: rest, (o.take key).2)
          | (none, e'') =>
              let (fault, rest', o') := loadEntries file (o.take key).2 rest
              (fault, (key, e'') :: rest', o')

theorem keys_loadEntries (file : Dictionary String) (o : Overrides)
    (entries : Dictionary PreferenceEntry) :
    (loadEntries file o entries).2.1.keys = entries.keys := by
  induction entries generalizing o with
  | nil => rfl
  | cons p entries ih =>
      rw [loadEntries]
      split
      · rfl
      · split
        · rfl
        · exact congrArg (List.cons p.1) (ih _)

def load (s : PreferenceStore) (t : FileTree) (o : Overrides) :
    Option Fault × PreferenceStore × Overrides :=
  match readValues t s.path with
  | .error f => (some f, s, o)
  | .ok file =>
      let loaded := loadEntries file o s.entries
      (loaded.1, s.withEntries loaded.2.1 (keys_loadEntries file o s.entries), loaded.2.2)

end PreferenceStore

end Disassembler
