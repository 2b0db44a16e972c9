import Disassembler.Proofs.Preference.Override
import Disassembler.Proofs.Preference.Set
import Disassembler.Proofs.Preference.Store

/-!
# Loading from a file and from overrides

The override of a key prevails over its value in the file, and this over what was there.
Both have to be accepted, though, also where only the override counts.
-/

namespace Disassembler
namespace PreferenceStore

open PreferenceFile

/-! ## Values that are accepted -/

/-- The value is accepted by an entry, if there is one. -/
def Accepts (e : PreferenceEntry) (value? : Option String) : Prop :=
  (setFrom value? e).1 = none

instance (e : PreferenceEntry) (value? : Option String) : Decidable (Accepts e value?) :=
  inferInstanceAs (Decidable ((setFrom value? e).1 = none))

variable {e f : PreferenceEntry} {file? override? : Option String}

theorem accepts_iff_of_evolves (h : e.Evolves f) (value? : Option String) :
    Accepts f value? ↔ Accepts e value? := by
  cases value? with
  | none => exact Iff.rfl
  | some s => exact Iff.of_eq (congrArg (· = none) (h.fault_set_eq (.text s)))

theorem Accepts.or (hoverride : Accepts e override?) (hfile : Accepts e file?) :
    Accepts e (override?.or file?) := by
  cases override? with
  | none => exact hfile
  | some s => exact hoverride

/-- What was set before an override does not matter, as long as it was accepted. -/
theorem setFrom_setFrom (hfile : Accepts e file?) (hoverride : Accepts e override?) :
    setFrom override? (setFrom file? e).2 = setFrom (override?.or file?) e := by
  cases override? with
  | none => exact Prod.ext hfile.symm rfl
  | some s => exact (evolves_setFrom file? e).set_eq hoverride

/-! ## Entries in turn -/

variable {file file₁ file₂ : Dictionary String} {o : Overrides} {key : String}
  {rest entries : Dictionary PreferenceEntry}

theorem loadEntries_cons (hfile : Accepts e (file.find? key))
    (hoverride : Accepts e (o.current.find? key)) :
    loadEntries file o ((key, e) :: rest) =
      ((loadEntries file (o.without [key]) rest).1,
        (key, (setFrom ((o.current.find? key).or (file.find? key)) e).2) ::
          (loadEntries file (o.without [key]) rest).2.1,
        (loadEntries file (o.without [key]) rest).2.2) := by
  have hset : setFrom (file.find? key) e = (none, (setFrom (file.find? key) e).2) :=
    Prod.ext hfile rfl
  have hfault : Accepts (setFrom (file.find? key) e).2 (o.current.find? key) :=
    (accepts_iff_of_evolves (evolves_setFrom _ e) _).mpr hoverride
  have hset' : setFrom (o.current.find? key) (setFrom (file.find? key) e).2 =
      (none, (setFrom ((o.current.find? key).or (file.find? key)) e).2) := by
    refine Prod.ext hfault ?_
    rw [setFrom_setFrom hfile hoverride]
  rw [loadEntries, hset, Overrides.take_eq]
  simp only [hset']

theorem accepts_of_loadEntries_cons (h : (loadEntries file o ((key, e) :: rest)).1 = none) :
    Accepts e (file.find? key) ∧ Accepts e (o.current.find? key) := by
  have hevolves := evolves_setFrom (file.find? key) e
  rw [loadEntries, Overrides.take_eq] at h
  rcases hset : setFrom (file.find? key) e with ⟨_ | f, e'⟩
  · rw [hset] at h hevolves
    simp only at h
    rcases hset' : setFrom (o.current.find? key) e' with ⟨_ | f, e''⟩
    · exact ⟨congrArg Prod.fst hset,
        (accepts_iff_of_evolves hevolves _).mp (congrArg Prod.fst hset')⟩
    · rw [hset'] at h
      cases h
  · rw [hset] at h
    cases h

/-- Loading uses values up, but keeps the number of groups, wherever it breaks off. -/
theorem size_loadEntries (file : Dictionary String) (o : Overrides)
    (entries : Dictionary PreferenceEntry) : (loadEntries file o entries).2.2.size = o.size := by
  induction entries generalizing o with
  | nil => rfl
  | cons p rest ih =>
      rw [loadEntries]
      split
      · rfl
      · split
        · exact o.size_take p.1
        · exact (ih _).trans (o.size_take p.1)

/-- Keys that increase are different, so no entry uses the override of a later one. -/
theorem find?_current_of_sorted {p : String × PreferenceEntry}
    (hsorted : Dictionary.Sorted (p :: entries)) :
    ∀ q ∈ entries, (o.without [p.1]).current.find? q.1 = o.current.find? q.1 := by
  intro q hq
  have hlt := (List.pairwise_cons.mp hsorted).1 q hq
  exact Overrides.find?_current_without (ne_of_gt hlt)

/-- Loading succeeds if all values are accepted, those in the file and the overrides. -/
theorem loadEntries_fault_eq_none_iff (hsorted : entries.Sorted) :
    (loadEntries file o entries).1 = none ↔
      ∀ p ∈ entries, Accepts p.2 (file.find? p.1) ∧ Accepts p.2 (o.current.find? p.1) := by
  induction entries generalizing o with
  | nil => exact iff_of_true rfl fun p hp => absurd hp List.not_mem_nil
  | cons p entries ih =>
      have hother := find?_current_of_sorted (o := o) hsorted
      have htail := (List.pairwise_cons.mp hsorted).2
      constructor
      · intro h
        have hp := accepts_of_loadEntries_cons h
        rw [loadEntries_cons hp.1 hp.2] at h
        refine List.forall_mem_cons.mpr ⟨hp, fun q hq => ?_⟩
        rw [← hother q hq]
        exact (ih htail).mp h q hq
      · intro h
        rcases List.forall_mem_cons.mp h with ⟨hp, hentries⟩
        rw [loadEntries_cons hp.1 hp.2]
        refine (ih htail).mpr fun q hq => ?_
        rw [hother q hq]
        exact hentries q hq

/-- Where loading succeeds, each entry is set to the value that prevails, and the
overrides of all entries are used. -/
theorem loadEntries_eq_of_fault_eq_none (hsorted : entries.Sorted)
    (h : (loadEntries file o entries).1 = none) :
    loadEntries file o entries =
      (none,
        entries.map fun p => (p.1, (setFrom ((o.current.find? p.1).or (file.find? p.1)) p.2).2),
        o.without entries.keys) := by
  induction entries generalizing o with
  | nil => exact congrArg (fun o' => (none, [], o')) o.without_nil.symm
  | cons p entries ih =>
      have hother := find?_current_of_sorted (o := o) hsorted
      have htail := (List.pairwise_cons.mp hsorted).2
      have hp := accepts_of_loadEntries_cons h
      rw [loadEntries_cons hp.1 hp.2] at h ⊢
      rw [ih htail h, Overrides.without_without, List.map_cons]
      have hmap : (entries.map fun q =>
          (q.1, (setFrom (((o.without [p.1]).current.find? q.1).or (file.find? q.1)) q.2).2)) =
          entries.map fun q =>
            (q.1, (setFrom ((o.current.find? q.1).or (file.find? q.1)) q.2).2) :=
        List.map_congr_left fun q hq => by rw [hother q hq]
      rw [hmap]
      rfl

/-! ## The file -/

/-- The last value of a key in the file at a path. -/
def fileValue? (t : FileTree) (path key : String) : Option String :=
  match t.stat path with
  | .ok (.file content) => lastValue? (Text.decode content) key
  | _ => none

theorem find?_of_readValues {t : FileTree} {path : String} {values : Dictionary String}
    (h : readValues t path = .ok values) (key : String) :
    values.find? key = fileValue? t path key := by
  rw [readValues] at h
  rw [fileValue?]
  split at h
  · rename_i hstat
    cases h
    rw [hstat]
    rfl
  · cases h
  · rename_i hstat
    cases h
    rw [hstat]
    rfl
  · rename_i content hstat
    rw [hstat]
    split at h
    · rename_i hparse
      cases h
      exact find?_of_parse hparse key
    · cases h
    · cases h

variable {s : PreferenceStore} {t t₁ t₂ : FileTree}

theorem load_fault_eq_none_iff :
    (s.load t o).1 = none ↔
      ∃ values, readValues t s.path = .ok values ∧
        ∀ p ∈ s.entries, Accepts p.2 (values.find? p.1) ∧ Accepts p.2 (o.current.find? p.1) := by
  rw [load]
  cases hread : readValues t s.path with
  | error f =>
      constructor
      · intro h
        cases h
      · rintro ⟨values, hvalues, _⟩
        cases hvalues
  | ok values =>
      constructor
      · intro h
        exact ⟨values, rfl, (loadEntries_fault_eq_none_iff s.sorted).mp h⟩
      · rintro ⟨_, hvalues, h⟩
        cases hvalues
        exact (loadEntries_fault_eq_none_iff s.sorted).mpr h

theorem load_eq_of_fault_eq_none (h : (s.load t o).1 = none) :
    s.load t o =
      (none,
        s.withEntries
          (s.entries.map fun p =>
            (p.1, (setFrom ((o.current.find? p.1).or (fileValue? t s.path p.1)) p.2).2))
          (Dictionary.keys_map _ _),
        o.without s.entries.keys) := by
  rcases load_fault_eq_none_iff.mp h with ⟨values, hread, hentries⟩
  have hload := loadEntries_eq_of_fault_eq_none s.sorted
    ((loadEntries_fault_eq_none_iff s.sorted).mpr hentries)
  simp only [find?_of_readValues hread] at hload
  simp only [load, hread, hload]

/-! ## Values that are overridden -/

theorem loadEntries_congr (h : ∀ p ∈ entries, file₁.find? p.1 = file₂.find? p.1) :
    loadEntries file₁ o entries = loadEntries file₂ o entries := by
  induction entries generalizing o with
  | nil => rfl
  | cons p entries ih =>
      rcases List.forall_mem_cons.mp h with ⟨hp, hentries⟩
      rw [loadEntries, loadEntries, hp]
      simp only [ih hentries]

theorem loadEntries_eq_of_override (hsorted : entries.Sorted) {value : String}
    (hoverride : o.current.find? key = some value)
    (hothers : ∀ k, k ≠ key -> file₁.find? k = file₂.find? k)
    (haccepts : ∀ e, (key, e) ∈ entries ->
      Accepts e (some value) ∧ Accepts e (file₁.find? key) ∧ Accepts e (file₂.find? key)) :
    loadEntries file₁ o entries = loadEntries file₂ o entries := by
  induction entries generalizing o with
  | nil => rfl
  | cons p entries ih =>
      rcases p with ⟨k, e⟩
      rcases List.pairwise_cons.mp hsorted with ⟨hlt, htail⟩
      by_cases hk : k = key
      · subst hk
        rcases haccepts e List.mem_cons_self with ⟨hvalue, hfile₁, hfile₂⟩
        rw [← hoverride] at hvalue
        -- no other entry has the key, so the files say the same of the rest
        rw [loadEntries_cons hfile₁ hvalue, loadEntries_cons hfile₂ hvalue, hoverride,
          loadEntries_congr fun q hq => hothers q.1 (ne_of_gt (hlt q hq))]
        rfl
      · have hcurrent := (Overrides.find?_current_without (o := o) (Ne.symm hk)).trans hoverride
        have hrest := ih htail hcurrent fun e he => haccepts e (List.mem_cons_of_mem _ he)
        rw [loadEntries, loadEntries, hothers k hk, Overrides.take_eq]
        simp only [hrest]

/-- What an override replaces makes no difference if it is accepted, and otherwise stops
the loading. -/
theorem load_eq_of_override (hentry : s.entries.find? key = some e)
    {value : String} (hoverride : o.current.find? key = some value)
    (hvalue : Accepts e (some value)) (hread₁ : readValues t₁ s.path = .ok file₁)
    (hread₂ : readValues t₂ s.path = .ok file₂)
    (hothers : ∀ k, k ≠ key -> file₁.find? k = file₂.find? k) :
    (Accepts e (file₁.find? key) -> Accepts e (file₂.find? key) -> s.load t₁ o = s.load t₂ o) ∧
      (¬ Accepts e (file₁.find? key) -> (s.load t₁ o).1 ≠ none) := by
  constructor
  · intro hfile₁ hfile₂
    have hentries : loadEntries file₁ o s.entries = loadEntries file₂ o s.entries := by
      refine loadEntries_eq_of_override s.sorted hoverride hothers fun e' he' => ?_
      have hfind := s.sorted.find?_eq_some he'
      rw [hentry] at hfind
      cases hfind
      exact ⟨hvalue, hfile₁, hfile₂⟩
    simp only [load, hread₁, hread₂, hentries]
  · intro hrefused hload
    rcases load_fault_eq_none_iff.mp hload with ⟨values, hvalues, haccepts⟩
    rw [hread₁] at hvalues
    cases hvalues
    exact hrefused (haccepts _ (Dictionary.mem_of_find?_eq_some hentry)).1

theorem isLegalKey_n : IsLegalKey "n" :=
  ⟨⟨"n", by decide⟩, by decide⟩

/-- A store with a number. -/
def numberStore : PreferenceStore :=
  PreferenceStore.insert { path := "prefs" } "n" isLegalKey_n
    (.number (.ofKind .number))

/-- A file that gives the number a value. -/
def numberFile (value : String) : FileTree :=
  { entries := [(["prefs"], .file (Text.encode (PreferenceFile.print [("n", value)])))] }

/-- The command line gives the number another value. -/
def numberOverride : Overrides :=
  ({} : Overrides).push "n::5"

theorem readValues_numberFile {value : String} (hvalue : value ∈ ["abc", "1", "2"]) :
    readValues (numberFile value) "prefs" = .ok [("n", value)] := by
  have hbytes : ∀ v ∈ ["abc", "1", "2"], ∀ p ∈ [("n", v)], Text.IsBytes p.1 ∧ Text.IsBytes p.2 := by
    decide +kernel
  have hshort : ∀ v ∈ ["abc", "1", "2"], ∀ p ∈ [("n", v)], ∀ row ∈ rowsOf p,
      Text.isOverlong row = false := by
    decide +kernel
  have hpairs : ∀ v ∈ ["abc", "1", "2"],
      Dictionary.ofList ([("n", v)].flatMap pairsOf) = [("n", v)] := by
    decide +kernel
  rw [← hpairs value hvalue]
  exact readValues_print rfl (hbytes value hvalue) (hshort value hvalue)

theorem accepts_numberStore :
    Accepts (.number (.ofKind .number)) (some "5") ∧ Accepts (.number (.ofKind .number)) (some "1") ∧
      Accepts (.number (.ofKind .number)) (some "2") ∧
      ¬ Accepts (.number (.ofKind .number)) (some "abc") := by
  decide +kernel

theorem load_eq_of_override_numberStore :
    numberStore.load (numberFile "1") numberOverride =
        numberStore.load (numberFile "2") numberOverride ∧
      (numberStore.load (numberFile "abc") numberOverride).1 ≠ none := by
  rcases accepts_numberStore with ⟨hvalue, hone, htwo, hletters⟩
  have hothers : ∀ v w k : String, k ≠ "n" ->
      Dictionary.find? [("n", v)] k = Dictionary.find? [("n", w)] k := by
    intro v w k hk
    rw [Dictionary.find?_cons, Dictionary.find?_cons, if_neg (Ne.symm hk), if_neg (Ne.symm hk)]
  have hoverride : numberOverride.current.find? "n" = some "5" := by
    decide +kernel
  constructor
  · exact (load_eq_of_override (s := numberStore) rfl hoverride hvalue
      (readValues_numberFile (by decide)) (readValues_numberFile (by decide))
      (hothers "1" "2")).1 hone htwo
  · exact (load_eq_of_override (s := numberStore) rfl hoverride hvalue
      (readValues_numberFile (by decide)) (readValues_numberFile (by decide))
      (hothers "abc" "1")).2 hletters

/-- A value in the file that is no number stops the loading although it is overridden. -/
theorem load_overridden_letters :
    numberStore.entries.find? "n" = some (.number (.ofKind .number)) ∧
      numberOverride.current.find? "n" = some "5" ∧
      Accepts (.number (.ofKind .number)) (some "5") ∧
      readValues (numberFile "abc") "prefs" = .ok [("n", "abc")] ∧
      readValues (numberFile "1") "prefs" = .ok [("n", "1")] ∧
      (numberStore.load (numberFile "abc") numberOverride).1 ≠ none ∧
      (numberStore.load (numberFile "1") numberOverride).1 = none := by
  have hload : numberOverride.current.find? "n" = some "5" ∧
      (numberStore.load (numberFile "abc") numberOverride).1 ≠ none ∧
      (numberStore.load (numberFile "1") numberOverride).1 = none := by
    decide +kernel
  exact ⟨rfl, hload.1, accepts_numberStore.1, readValues_numberFile (by decide),
    readValues_numberFile (by decide), hload.2⟩

end PreferenceStore

/-! ## All that is loaded -/

/-- A store, with the files and the overrides that it is loaded from. -/
structure LoadScene where
  store : PreferenceStore
  files : FileTree
  overrides : Overrides

namespace LoadScene

open PreferenceStore

def load (c : LoadScene) : Option Fault × LoadScene :=
  let (fault, store, overrides) := c.store.load c.files c.overrides
  (fault, { c with store, overrides })

/-- The value of a key that prevails: its override in the most recent group, or else its
last value in the file. -/
def value? (c : LoadScene) (key : String) : Option String :=
  (c.overrides.current.find? key).or (fileValue? c.files c.store.path key)

/-- What is left of the most recent group when the values of the store are used. -/
def unused (c : LoadScene) : OverrideGroup :=
  c.overrides.current.without c.store.entries.keys

/-- A store and its surroundings after it was loaded. -/
structure IsLoaded (c c' : LoadScene) : Prop where
  path : c'.store.path = c.store.path
  keys : c'.store.entries.keys = c.store.entries.keys
  /-- An entry is what it becomes when it is set to the value that prevails, or else what
  it was. -/
  entry : ∀ key e, c.store.entries.find? key = some e ->
    ∃ e', c'.store.entries.find? key = some e' ∧ setFrom (c.value? key) e = (none, e')
  files : c'.files = c.files
  overrides : c'.overrides = c.overrides.without c.store.entries.keys
  popped : c'.overrides.pop = (c.unused.text, { groups := c.overrides.groups.tail })
  sorted : c.unused.values.Sorted
  /-- Other groups than the most recent one do not matter. -/
  current : ∀ o : Overrides, o.current = c.overrides.current ->
    ({ c with overrides := o }).load.1 = none ∧
      ({ c with overrides := o }).load.2.store = c'.store

theorem load_isLoaded {c : LoadScene} (h : c.load.1 = none) : c.IsLoaded c.load.2 := by
  rcases load_fault_eq_none_iff.mp h with ⟨values, hread, haccepts⟩
  have hload := load_eq_of_fault_eq_none h
  have hstore := congrArg (fun r => r.2.1) hload
  have hleft := congrArg (fun r => r.2.2) hload
  simp only at hstore hleft
  refine ⟨?_, ?_, ?_, rfl, hleft, ?_, c.unused.sorted, ?_⟩
  · exact (congrArg (fun s => s.path) hstore).trans rfl
  · exact (congrArg (fun s => s.entries.keys) hstore).trans (Dictionary.keys_map _ _)
  · intro key e hfind
    rcases haccepts _ (Dictionary.mem_of_find?_eq_some hfind) with ⟨hfile, hoverride⟩
    rw [find?_of_readValues hread] at hfile
    refine ⟨(setFrom (c.value? key) e).2, ?_, Prod.ext (hoverride.or hfile) rfl⟩
    refine (congrArg (fun s => s.entries.find? key) hstore).trans ?_
    exact (Dictionary.find?_map_key (fun k e => (setFrom (c.value? k) e).2) _ key).trans
      (congrArg (Option.map _) hfind)
  · exact (congrArg Overrides.pop hleft).trans (c.overrides.pop_without _)
  · intro o hcurrent
    have hfault : (c.store.load c.files o).1 = none := by
      rw [load_fault_eq_none_iff, hcurrent]
      exact ⟨values, hread, haccepts⟩
    refine ⟨hfault, ?_⟩
    refine (congrArg (fun r => r.2.1) (load_eq_of_fault_eq_none hfault)).trans ?_
    rw [hcurrent]
    exact hstore.symm

theorem isLegalKey_a : IsLegalKey "a" :=
  ⟨⟨"a", by decide⟩, by decide⟩

theorem isLegalKey_b : IsLegalKey "b" :=
  ⟨⟨"b", by decide⟩, by decide⟩

theorem isLegalKey_c : IsLegalKey "c" :=
  ⟨⟨"c", by decide⟩, by decide⟩

/-- A text, a number and a switch. -/
def mixedStore : PreferenceStore :=
  let texts := PreferenceStore.insert { path := "prefs" } "a" isLegalKey_a
    (.phrase (.ofKind .phrase))
  let numbers := texts.insert "b" isLegalKey_b (.number (.ofKind .number))
  numbers.insert "c" isLegalKey_c (.switch (.ofKind .switch))

/-- A file that gives a key two values, and two groups of which only the second one
counts. -/
def twoGroups : LoadScene where
  store := mixedStore
  files :=
    { entries := [(["prefs"], .file (Text.encode
        (PreferenceFile.heading ++ "\na :: 1\nb :: 2\nd :: x\na :: 3\nb :: 4\n")))] }
  overrides := (({} : Overrides).push "b::7; c::true").push "z::1; a::9"

theorem load_isLoaded_twoGroups :
    twoGroups.load.1 = none ∧ twoGroups.IsLoaded twoGroups.load.2 ∧
      values twoGroups.load.2.store.entries = [("a", "9"), ("b", "4"), ("c", "false")] ∧
      twoGroups.load.2.overrides.pop = ("z::1", ({} : Overrides).push "b::7; c::true") := by
  have hrun : twoGroups.load.1 = none ∧
      values twoGroups.load.2.store.entries = [("a", "9"), ("b", "4"), ("c", "false")] ∧
      twoGroups.load.2.overrides.pop = ("z::1", ({} : Overrides).push "b::7; c::true") := by
    decide +kernel
  exact ⟨hrun.1, load_isLoaded hrun.1, hrun.2⟩

end LoadScene
end Disassembler
