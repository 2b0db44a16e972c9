import Mathlib
import Disassembler.Preference.Store
import Disassembler.Proofs.File.Tree
import Disassembler.Proofs.Preference.File

/-!
# Saved stores

A store is saved together with the values in its file that are not its own.  These come
back as long as what the store writes stays with its own keys.
-/

namespace Disassembler

open Text PreferenceFile

/-! ## Keys -/

theorem IsLegalKey.trim_eq {key : String} (h : IsLegalKey key) : trim key = key := by
  rcases h.trimmed with ⟨given, rfl⟩
  exact trim_trim given

theorem IsLegalKey.unbroken {key : String} (h : IsLegalKey key) :
    ¬ "::".toList <:+: key.toList := by
  have hproper := h.proper
  rw [isProperKey, Bool.and_eq_true, Bool.not_eq_true', Bool.not_eq_true', ← Bool.not_eq_true,
    ← Bool.not_eq_true, occurs_iff (by decide)] at hproper
  exact hproper.2

/-- A key that can be added is never mistaken for another one. -/
theorem IsLegalKey.isPlain {key value : String} (h : IsLegalKey key) (hkey : '\n' ∉ key.toList)
    (hvalue : '\n' ∉ value.toList) : IsPlain (key, value) where
  trimmed := h.trim_eq
  unbroken := fun hwithin => h.unbroken ((show "::".toList <:+: separator.toList from
    ⟨[' '], [' '], rfl⟩).trans hwithin)
  ending := fun hsuffix => h.unbroken ((show "::".toList <:+: " ::".toList from
    ⟨[' '], [], rfl⟩).trans hsuffix.isInfix)
  key_line := hkey
  value_line := hvalue

/-! ## What is written -/

namespace PreferenceStore

theorem create_eq {path : String} (h : path ≠ "") : create path = .ok { path } :=
  if_neg fun hempty => h (String.isEmpty_iff.mp hempty)

/-- What a store writes into its file: the values that were there, and its own. -/
def merged (s : PreferenceStore) (old : Dictionary String) : Dictionary String :=
  old.insertAll (values s.entries)

/-- What a store writes is read again under its own keys only. -/
structure StaysOwn (s : PreferenceStore) : Prop where
  bytes : ∀ p ∈ values s.entries, IsBytes p.1 ∧ IsBytes p.2
  short : ∀ p ∈ values s.entries, ∀ row ∈ rowsOf p, isOverlong row = false
  own : ∀ p ∈ values s.entries, ∀ q ∈ pairsOf p, (s.entries.find? q.1).isSome = true

theorem find?_values (entries : Dictionary PreferenceEntry) (key : String) :
    (values entries).find? key = (entries.find? key).map PreferenceEntry.text :=
  Dictionary.find?_map PreferenceEntry.text entries key

theorem find?_merged_of_none {s : PreferenceStore} {key : String} (old : Dictionary String)
    (h : s.entries.find? key = none) : (s.merged old).find? key = old.find? key := by
  refine Dictionary.find?_insertAll_of_none old ?_
  rw [find?_values, h]
  rfl

/-- What is known of values that are read from a file. -/
theorem of_readValues_eq {t : FileTree} {path : String} {old : Dictionary String}
    (h : readValues t path = .ok old) :
    old.Sorted ∧ ∃ text, IsBytes text ∧ ∀ p ∈ old, ReadFrom text p := by
  have hnone : Dictionary.Sorted ([] : Dictionary String) ∧
      ∃ text, IsBytes text ∧ ∀ p ∈ ([] : Dictionary String), ReadFrom text p :=
    ⟨Dictionary.sorted_nil, "", fun c hc => absurd hc List.not_mem_nil,
      fun p hp => absurd hp List.not_mem_nil⟩
  rw [readValues] at h
  split at h
  · cases h
    exact hnone
  · cases h
  · cases h
    exact hnone
  · split at h
    · rename_i hparse
      cases h
      exact ⟨sorted_of_parse hparse, _, isBytes_decode _, fun p hp => readFrom_of_mem_parse hparse hp⟩
    · cases h
    · cases h

theorem write_of_save {s : PreferenceStore} {t t' : FileTree} {old : Dictionary String}
    (hread : readValues t s.path = .ok old) (hsave : s.save t = .ok t') :
    t.write s.path (encode (PreferenceFile.print (s.merged old))) = .ok t' := by
  rw [save, hread] at hsave
  simp only at hsave
  split at hsave
  · rename_i hwrite
    cases hsave
    exact hwrite
  · cases hsave

theorem exists_save {s : PreferenceStore} {t : FileTree} {old : Dictionary String}
    (hread : readValues t s.path = .ok old) (hwrite : t.CanWrite s.path) :
    ∃ t', s.save t = .ok t' := by
  rcases hwrite with ⟨p, htarget⟩
  simp only [save, hread, FileTree.write, htarget]
  exact ⟨_, rfl⟩

/-- A file says what the lines that were printed to it say. -/
theorem readValues_print {t : FileTree} {path : String} {printed : Dictionary String}
    (hstat : t.stat path = .ok (.file (encode (PreferenceFile.print printed))))
    (hbytes : ∀ p ∈ printed, IsBytes p.1 ∧ IsBytes p.2)
    (hshort : ∀ p ∈ printed, ∀ row ∈ rowsOf p, isOverlong row = false) :
    readValues t path = .ok (.ofList (printed.flatMap pairsOf)) := by
  rw [readValues, hstat]
  simp only [decode_encode (isBytes_print hbytes), parse_print hshort]

theorem readValues_of_save {s : PreferenceStore} {t t' : FileTree} {old : Dictionary String}
    (hread : readValues t s.path = .ok old) (hsave : s.save t = .ok t')
    (hbytes : ∀ p ∈ values s.entries, IsBytes p.1 ∧ IsBytes p.2)
    (hshort : ∀ p ∈ values s.entries, ∀ row ∈ rowsOf p, isOverlong row = false) :
    readValues t' s.path = .ok (.ofList ((s.merged old).flatMap pairsOf)) := by
  rcases of_readValues_eq hread with ⟨_, text, htext, hold⟩
  have hbytes' : ∀ p ∈ s.merged old, IsBytes p.1 ∧ IsBytes p.2 := by
    intro p hp
    rcases Dictionary.mem_insertAll hp with hp | hp
    · exact hbytes p hp
    · have hchars := (hold p hp).chars
      exact ⟨fun c hc => htext c (hchars c (List.mem_append_left _ hc)),
        fun c hc => htext c (hchars c (List.mem_append_right _ hc))⟩
  have hshort' : ∀ p ∈ s.merged old, ∀ row ∈ rowsOf p, isOverlong row = false := by
    intro p hp
    rcases Dictionary.mem_insertAll hp with hp | hp
    · exact hshort p hp
    · exact (hold p hp).short_row
  exact readValues_print (FileTree.stat_write (write_of_save hread hsave)) hbytes' hshort'

/-! ## Values on one line -/

theorem mem_values {entries : Dictionary PreferenceEntry} {p : String × String}
    (hp : p ∈ values entries) : ∃ e, (p.1, e) ∈ entries ∧ p.2 = e.text := by
  rcases List.mem_map.mp hp with ⟨⟨key, e⟩, hmem, rfl⟩
  exact ⟨e, hmem, rfl⟩

/-- A key and a value that take up one line of a file. -/
structure FitsLine (p : String × String) : Prop where
  key_bytes : IsBytes p.1
  value_bytes : IsBytes p.2
  key_line : '\n' ∉ p.1.toList
  value_line : '\n' ∉ p.2.toList
  short : (p.1 ++ separator ++ p.2).length < lineCapacity

theorem FitsLine.short_row {p : String × String} (h : FitsLine p) :
    ∀ row ∈ rowsOf p, isOverlong row = false := by
  intro row hrow
  rw [rowsOf_of_not_mem h.key_line h.value_line] at hrow
  cases List.mem_singleton.mp hrow
  exact decide_eq_false (Nat.not_le.mpr h.short)

theorem isPlain_of_mem_values {s : PreferenceStore} {p : String × String}
    (hp : p ∈ values s.entries) (hline : FitsLine p) : IsPlain p := by
  rcases mem_values hp with ⟨e, he, _⟩
  exact (s.legal _ (List.mem_map_of_mem he)).isPlain hline.key_line hline.value_line

/-- Where all texts fit on one line, all stays with its own key. -/
theorem staysOwn_of_fitsLine {s : PreferenceStore}
    (hlines : ∀ p ∈ values s.entries, FitsLine p) : s.StaysOwn where
  bytes := fun p hp => ⟨(hlines p hp).key_bytes, (hlines p hp).value_bytes⟩
  short := fun p hp => (hlines p hp).short_row
  own := by
    intro p hp q hq
    rcases mem_values hp with ⟨e, he, _⟩
    rw [pairsOf_of_isPlain (isPlain_of_mem_values hp (hlines p hp))] at hq
    cases List.mem_singleton.mp hq
    exact Dictionary.isSome_find?_iff.mpr (List.mem_map_of_mem he)

/-- A store that has a file to itself finds there what it has saved. -/
theorem readValues_of_save_own {s : PreferenceStore} {t t' : FileTree} {old : Dictionary String}
    (hread : readValues t s.path = .ok old) (hsave : s.save t = .ok t')
    (hkeys : ∀ p ∈ old, ((values s.entries).find? p.1).isSome = true)
    (hlines : ∀ p ∈ values s.entries, FitsLine p)
    (hreturn : ∀ p ∈ values s.entries, dropReturn p.2 = p.2) :
    readValues t' s.path = .ok (values s.entries) := by
  have hown := staysOwn_of_fitsLine hlines
  have hvalues : (values s.entries).Sorted := s.sorted.map PreferenceEntry.text
  have hmerged : s.merged old = values s.entries :=
    (of_readValues_eq hread).1.insertAll_eq hvalues hkeys
  have hpairs : ∀ p ∈ values s.entries, pairsOf p = [p] := by
    intro p hp
    rw [pairsOf_of_isPlain (isPlain_of_mem_values hp (hlines p hp)), hreturn p hp]
  rw [readValues_of_save hread hsave hown.bytes hown.short, hmerged, List.flatMap_congr hpairs,
    List.flatMap_singleton', hvalues.ofList_eq]

/-! ## Loading -/

/-- Without overrides, entries are set from the file alone. -/
theorem loadEntries_eq {file : Dictionary String} {entries : Dictionary PreferenceEntry}
    (h : ∀ p ∈ entries, (setFrom (file.find? p.1) p.2).1 = none) :
    loadEntries file {} entries =
      (none, entries.map fun p => (p.1, (setFrom (file.find? p.1) p.2).2), {}) := by
  induction entries with
  | nil => rfl
  | cons p entries ih =>
      have hp : setFrom (file.find? p.1) p.2 = (none, (setFrom (file.find? p.1) p.2).2) :=
        Prod.ext (h p List.mem_cons_self) rfl
      have htake : ({} : Overrides).take p.1 = (none, {}) := rfl
      have hnothing : ∀ e, setFrom none e = (none, e) := fun _ => rfl
      rw [loadEntries, hp]
      simp only [htake, hnothing, ih fun q hq => h q (List.mem_cons_of_mem p hq)]
      rfl

theorem load_eq {s : PreferenceStore} {t : FileTree} {file : Dictionary String}
    (hread : readValues t s.path = .ok file)
    (h : ∀ p ∈ s.entries, (setFrom (file.find? p.1) p.2).1 = none) :
    s.load t {} =
      (none,
        s.withEntries (s.entries.map fun p => (p.1, (setFrom (file.find? p.1) p.2).2))
          (Dictionary.keys_map _ _),
        {}) := by
  rw [load, hread]
  simp only [loadEntries_eq h]

/-! ## Values of others -/

/-- Values that belong to no preference of the store stay in the file when it is saved,
but for a carriage return at their end. -/
theorem find?_of_save {s : PreferenceStore} {t t' : FileTree} {old : Dictionary String}
    (hread : readValues t s.path = .ok old) (hsave : s.save t = .ok t') (hown : s.StaysOwn)
    (hending : ∀ p ∈ old, s.entries.find? p.1 = none -> ¬ " ::".toList <:+ p.1.toList) :
    ∃ new, readValues t' s.path = .ok new ∧
      ∀ key, s.entries.find? key = none -> new.find? key = (old.find? key).map dropReturn := by
  rcases of_readValues_eq hread with ⟨hsorted, text, _, hold⟩
  have hmerged : (s.merged old).Sorted := hsorted.insertAll _
  refine ⟨_, readValues_of_save hread hsave hown.bytes hown.short, fun key hkey => ?_⟩
  -- a pair whose key is not the store's comes from the file, and is read back as it was
  have hforeign : ∀ p ∈ s.merged old, s.entries.find? p.1 = none ->
      pairsOf p = [(p.1, dropReturn p.2)] := by
    intro p hp hnone
    have hfind := hmerged.find?_eq_some hp
    rw [find?_merged_of_none old hnone] at hfind
    have hmem := Dictionary.mem_of_find?_eq_some hfind
    exact pairsOf_of_isPlain ((hold p hmem).isPlain (hending p hmem hnone))
  rw [← find?_merged_of_none old hkey]
  refine hmerged.find?_ofList_flatMap (fun p hp heq => ?_) fun p hp hne q hq => ?_
  · rw [← heq]
    exact hforeign p hp (heq ▸ hkey)
  · cases hp' : s.entries.find? p.1 with
    | none =>
        rw [hforeign p hp hp'] at hq
        cases List.mem_singleton.mp hq
        exact hne
    | some e =>
        have hvalue : ((values s.entries).find? p.1).isSome = true := by
          rw [find?_values, hp']
          rfl
        have hsome := hown.own p (hsorted.mem_of_mem_insertAll hp hvalue) q hq
        rintro rfl
        rw [hkey] at hsome
        cases hsome

/-- A file with a value. -/
def sharedFile : FileTree :=
  { entries := [(["prefs"], .file (encode (PreferenceFile.print [("other", "1")])))] }

theorem isLegalKey_zoo : IsLegalKey "zoo" :=
  ⟨⟨"zoo", by decide⟩, by decide⟩

/-- A store with a text. -/
def storeOf (text : String) : PreferenceStore :=
  PreferenceStore.insert { path := "prefs" } "zoo" isLegalKey_zoo
    (.phrase { kind := .phrase, content := text })

theorem readValues_sharedFile : readValues sharedFile "prefs" = .ok [("other", "1")] := by
  have hread : readValues sharedFile "prefs" = .ok (.ofList ([("other", "1")].flatMap pairsOf)) :=
    readValues_print rfl (by decide +kernel) (by decide +kernel)
  rw [hread]
  rfl

theorem find?_of_save_sharedFile :
    ∃ t' new, (storeOf "bar\nbaz").save sharedFile = .ok t' ∧ readValues t' "prefs" = .ok new ∧
      new.find? "other" = some "1" := by
  rcases exists_save (s := storeOf "bar\nbaz") readValues_sharedFile ⟨_, rfl⟩ with
    ⟨t', hsave⟩
  have hown : (storeOf "bar\nbaz").StaysOwn :=
    ⟨by decide +kernel, by decide +kernel, by decide +kernel⟩
  have hending : ∀ p ∈ ([("other", "1")] : Dictionary String),
      (storeOf "bar\nbaz").entries.find? p.1 = none -> ¬ " ::".toList <:+ p.1.toList := by
    intro p hp _
    cases List.mem_singleton.mp hp
    decide +kernel
  rcases find?_of_save readValues_sharedFile hsave hown hending with ⟨new, hnew, hfind⟩
  exact ⟨t', new, hsave, hnew, (hfind "other" rfl).trans rfl⟩

/-- The second line of a text replaces the value of another key. -/
theorem save_sharedFile_overwrites :
    (create "prefs").bind (fun s => s.add "zoo" (.phrase (.ofKind .phrase))) = .ok (storeOf "") ∧
      (storeOf "bar\nother :: 2").entries.find? "other" = none ∧
      readValues sharedFile "prefs" = .ok [("other", "1")] ∧
      ∃ t', (storeOf "bar\nother :: 2").save sharedFile = .ok t' ∧
        readValues t' "prefs" = .ok [("other", "2"), ("zoo", "bar")] := by
  rcases exists_save (s := storeOf "bar\nother :: 2") readValues_sharedFile ⟨_, rfl⟩ with
    ⟨t', hsave⟩
  have hnew := readValues_of_save readValues_sharedFile hsave (by decide +kernel) (by decide +kernel)
  have hpairs : Dictionary.ofList
      (((storeOf "bar\nother :: 2").merged [("other", "1")]).flatMap pairsOf) =
        [("other", "2"), ("zoo", "bar")] := by
    decide +kernel
  rw [hpairs] at hnew
  exact ⟨rfl, rfl, readValues_sharedFile, t', hsave, hnew⟩

end PreferenceStore
end Disassembler
