import Mathlib
import Disassembler.Symbol.Table
import Disassembler.Proofs.Text.Space

/-!
# Names of symbols

A name has no white space, and gets a number where it is taken.  Names with
different numbers differ by more than the case of their letters, so that a table of
`n` symbols leaves one of the first `n + 1` of them free.
-/

namespace Disassembler
namespace SymbolTable

open Text Number

/-! ## Normal form -/

theorem noSpace_normalize (name : String) : NoSpace (normalize name) :=
  noSpace_join rfl (by decide) rfl fun _ hword => (noSpace_of_mem_words hword).1

/-- What has no white space is in normal form. -/
theorem normalize_of_noSpace {name : String} (h : NoSpace name) (hne : name ≠ "") :
    normalize name = name := by
  rw [normalize, words_of_noSpace h hne]
  rfl

/-! ## Numbers -/

theorem foldKey_decDigits (k : Nat) : foldKey (decDigits k) = Nat.toDigits 10 k := by
  have hdigit : ∀ d < 16, fold (Nat.digitChar d) = Nat.digitChar d := by decide
  have hfold : ∀ c ∈ Nat.toDigits 10 k, fold c = id c :=
    forall_mem_toDigits (by omega) (by omega) hdigit
  rw [foldKey, glyphs_decDigits, List.map_map]
  exact (List.map_congr_left hfold).trans (List.map_id _)

theorem noSpace_numbered {name : String} (h : NoSpace name) (k : Nat) :
    NoSpace (numbered name k) :=
  noSpace_append rfl (by decide) rfl h (noSpace_decDigits k)

theorem foldKey_numbered (name : String) (k : Nat) :
    foldKey (numbered name k) = foldKey name ++ '_' :: Nat.toDigits 10 k := by
  rw [foldKey, numbered, glyphs_append_cons (c := '_') rfl (by decide), List.map_append,
    List.map_cons, ← foldKey_decDigits]
  rfl

theorem foldKey_numbered_inj {name : String} {j k : Nat}
    (h : foldKey (numbered name j) = foldKey (numbered name k)) : j = k := by
  rw [foldKey_numbered, foldKey_numbered] at h
  have hdigits := (List.cons.inj (List.append_cancel_left h)).2
  have hj := readNumeral_toDigits_append (b := 10) (by omega) (by omega) j []
  have hk := readNumeral_toDigits_append (b := 10) (by omega) (by omega) k []
  rw [hdigits, hk] at hj
  exact (Prod.ext_iff.mp hj).1.symm

/-! ## Free names -/

/-- No symbol has the name, in whatever case of letters. -/
def IsFree (t : SymbolTable) (name : String) : Prop :=
  ∀ s ∈ t.symbols, equalFold s.name name = false

theorem not_contains_iff_isFree (t : SymbolTable) (name : String) :
    (!(t.symbols.map fun s => foldKey s.name).contains (foldKey name)) = true ↔
      t.IsFree name := by
  rw [Bool.not_eq_true', Bool.eq_false_iff, ne_eq, List.contains_iff_mem, List.mem_map]
  constructor
  · intro h s hs
    rw [equalFold, beq_eq_false_iff_ne]
    exact fun heq => h ⟨s, hs, heq⟩
  · rintro h ⟨s, hs, heq⟩
    have hfree := h s hs
    rw [equalFold, beq_eq_false_iff_ne] at hfree
    exact hfree heq

/-- There are only so many symbols. -/
theorem exists_isFree_numbered (t : SymbolTable) (name : String) :
    ∃ k ≤ t.size, t.IsFree (numbered name (k + 1)) := by
  by_contra hall
  have h : ∀ k ≤ t.size, ¬ t.IsFree (numbered name (k + 1)) := fun k hk hfree => hall ⟨k, hk, hfree⟩
  have hnodup : ((List.range (t.size + 1)).map fun k => foldKey (numbered name (k + 1))).Nodup := by
    refine List.Nodup.map ?_ List.nodup_range
    intro j k hjk
    exact Nat.succ.inj (foldKey_numbered_inj hjk)
  have hsubset : ((List.range (t.size + 1)).map fun k => foldKey (numbered name (k + 1))) ⊆
      t.symbols.map fun s => foldKey s.name := by
    intro key hkey
    rcases List.mem_map.mp hkey with ⟨k, hk, rfl⟩
    have htaken := h k (Nat.le_of_lt_succ (List.mem_range.mp hk))
    rw [← not_contains_iff_isFree, Bool.not_eq_true, Bool.not_eq_false',
      List.contains_iff_mem] at htaken
    exact htaken
  have hlength := (hnodup.subperm hsubset).length_le
  rw [List.length_map, List.length_map, List.length_range, size] at hlength
  omega

/-- The name that a symbol gets: its own or else the first free one with a number. -/
inductive GetsName (t : SymbolTable) (name : String) : String -> Prop where
  | own : t.IsFree name -> GetsName t name name
  | number {k : Nat} : ¬ t.IsFree name -> 1 ≤ k -> t.IsFree (numbered name k) ->
      (∀ j, 1 ≤ j -> j < k -> ¬ t.IsFree (numbered name j)) -> GetsName t name (numbered name k)

theorem getsName_freeName (t : SymbolTable) (name : String) : t.GetsName name (t.freeName name) := by
  rw [freeName]
  by_cases hfree : t.IsFree name
  · rw [if_pos ((not_contains_iff_isFree t name).mpr hfree)]
    exact .own hfree
  · rw [if_neg (mt (not_contains_iff_isFree t name).mp hfree), candidates, List.find?_map]
    cases hfind : (List.range (t.symbols.length + 1)).find? _ with
    | none =>
        rcases t.exists_isFree_numbered name with ⟨k, hk, hk'⟩
        exact absurd ((not_contains_iff_isFree t _).mpr hk')
          (List.find?_eq_none.mp hfind k (List.mem_range.mpr (Nat.lt_succ_of_le hk)))
    | some k =>
        rcases List.find?_range_eq_some.mp hfind with ⟨hk, _, hbelow⟩
        refine .number hfree (Nat.le_add_left 1 k) ((not_contains_iff_isFree t _).mp hk) ?_
        rintro (_ | j) hj hlt hj'
        · cases hj
        · have htaken := hbelow j (Nat.lt_of_succ_lt_succ hlt)
          rw [Function.comp_apply, (not_contains_iff_isFree t _).mpr hj'] at htaken
          cases htaken

theorem GetsName.isFree {t : SymbolTable} {name given : String} (h : t.GetsName name given) :
    t.IsFree given := by
  cases h with
  | own hfree => exact hfree
  | number _ _ hfree _ => exact hfree

theorem GetsName.noSpace {t : SymbolTable} {name given : String} (h : t.GetsName name given)
    (hname : NoSpace name) : NoSpace given := by
  cases h with
  | own _ => exact hname
  | number _ _ _ _ => exact noSpace_numbered hname _

theorem GetsName.ne_empty {t : SymbolTable} {name given : String} (h : t.GetsName name given)
    (hname : name ≠ "") : given ≠ "" := by
  cases h with
  | own _ => exact hname
  | number _ _ _ _ =>
      intro hempty
      have hlist := congrArg String.toList hempty
      rw [numbered, String.toList_append, String.toList_append] at hlist
      cases (List.append_eq_nil_iff.mp (List.append_eq_nil_iff.mp hlist).1).2

end SymbolTable
end Disassembler
