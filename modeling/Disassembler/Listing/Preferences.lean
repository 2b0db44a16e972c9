import Disassembler.File.Resource
import Disassembler.M68k.Cpu
import Disassembler.Preference.Store

/-!
# Preferences for listings

The preferences that decide how code is decoded and shown.  They are kept in a
file among the program's own files.
-/

namespace Disassembler

/-- The pattern of the fault that a CPU is unknown. -/
def cpuError : String := "disassembly: unknown cpu type (%s)"

def maxLinesError : String := "disassembly: max lines cannot be negative (%d)"

inductive PreferenceName where
  | cpu
  | hexNumerics
  | maxLines
  | bytecode
  deriving DecidableEq, Repr

namespace PreferenceName

def key : PreferenceName -> String
  | cpu => "disassembly.cpu"
  | hexNumerics => "disassembly.hexNumerics"
  | maxLines => "disassembly.maxLines"
  | bytecode => "disassembly.bytecode"

/-- The names in the order of their keys. -/
def sorted : List PreferenceName :=
  [.bytecode, .cpu, .hexNumerics, .maxLines]

theorem sorted_keys : (sorted.map key).Pairwise fun k l => k < l := by
  decide

theorem isLegalKey_key (name : PreferenceName) : IsLegalKey name.key where
  trimmed := ⟨name.key, by cases name <;> decide⟩
  proper := by cases name <;> decide

end PreferenceName

structure Preferences where
  path : String
  /-- The name of a CPU, or nothing for the first one. -/
  cpu : Preference String
  hexNumerics : Preference Bool
  /-- The largest number of lines; there is no limit if it is zero. -/
  maxLines : Preference Int
  bytecode : Preference Bool

namespace Preferences

/-! ## Content -/

def checkCpu (name : String) : Option Fault :=
  if name.isEmpty || (M68k.Cpu.ofName? name).isSome then none
  else some (.report cpuError [.text name])

/-- Only numbers that are not negative are accepted. -/
def checkMaxLines (n : Int) : Option Fault :=
  if n < 0 then some (.report maxLinesError [.integer .int n]) else none

def defaults (path : String) : Preferences where
  path
  cpu := { kind := .phrase, content := M68k.Cpu.m68000.name, before := some checkCpu }
  hexNumerics := { kind := .switch, content := true }
  maxLines := { kind := .number, content := 0, before := some checkMaxLines }
  bytecode := { kind := .switch, content := false }

def chosenCpu (p : Preferences) : M68k.Cpu :=
  (M68k.Cpu.ofName? p.cpu.content).getD .m68000

/-! ## Setting -/

def set (p : Preferences) (name : PreferenceName) (v : Value) : Option Fault × Preferences :=
  match name with
  | .cpu => ((p.cpu.set v).fault, { p with cpu := (p.cpu.set v).preference })
  | .hexNumerics =>
      ((p.hexNumerics.set v).fault, { p with hexNumerics := (p.hexNumerics.set v).preference })
  | .maxLines => ((p.maxLines.set v).fault, { p with maxLines := (p.maxLines.set v).preference })
  | .bytecode => ((p.bytecode.set v).fault, { p with bytecode := (p.bytecode.set v).preference })

def restore (p : Preferences) : Preferences :=
  let p := (p.set .cpu (.text M68k.Cpu.m68000.name)).2
  let p := (p.set .hexNumerics (.bool true)).2
  let p := (p.set .maxLines (.integer .int 0)).2
  (p.set .bytecode (.bool false)).2

/-! ## The file -/

def toStore (p : Preferences) : PreferenceStore where
  path := p.path
  entries :=
    [(PreferenceName.bytecode.key, .switch p.bytecode), (PreferenceName.cpu.key, .phrase p.cpu),
      (PreferenceName.hexNumerics.key, .switch p.hexNumerics),
      (PreferenceName.maxLines.key, .number p.maxLines)]
  sorted := by
    rw [Dictionary.sorted_iff]
    exact PreferenceName.sorted_keys
  legal key hkey := by
    have hkey : key ∈ PreferenceName.sorted.map PreferenceName.key := hkey
    rcases List.mem_map.1 hkey with ⟨name, _, rfl⟩
    exact name.isLegalKey_key

/-- Take over the preferences of a store. -/
def withStore (p : Preferences) (s : PreferenceStore) : Preferences :=
  match s.entries with
  | [(_, .switch bytecode), (_, .phrase cpu), (_, .switch hexNumerics), (_, .number maxLines)] =>
      { p with bytecode, cpu, hexNumerics, maxLines }
  | _ => p

def text (p : Preferences) : String :=
  p.toStore.text

def save (p : Preferences) (t : FileTree) : Except Fault FileTree :=
  p.toStore.save t

def load (p : Preferences) (t : FileTree) (o : Overrides) :
    Option Fault × Preferences × Overrides :=
  let (fault, store, o') := p.toStore.load t o
  (fault, p.withStore store, o')

/-- Go back to contents that say nothing. -/
def reset (p : Preferences) : Option Fault × Preferences :=
  let (fault, store) := p.toStore.reset
  (fault, p.withStore store)

def fileName : String := "preferences"

/-- The preferences from the file at a path, which may not be empty. -/
def loadFrom (path : String) (t : FileTree) (o : Overrides) :
    Except Fault Preferences × Overrides :=
  match PreferenceStore.create path with
  | .error f => (.error f, o)
  | .ok _ =>
      match (defaults path).load t o with
      | (some f, _, o') => (.error f, o')
      | (none, p, o') => (.ok p, o')

/-- The preferences from the file among the program's own files.  The folder of
these files is made if it is not there. -/
def open? (t : FileTree) (o : Overrides) : Except Fault Preferences × FileTree × Overrides :=
  match Resource.path t "" fileName with
  | .error f => (.error f.toFault, t, o)
  | .ok (path, t') =>
      let (result, o') := loadFrom path t' o
      (result, t', o')

end Preferences

end Disassembler
