import Mathlib
import Disassembler.Symbol.Hardware
import Disassembler.Symbol.Reader
import Disassembler.Proofs.Symbol.Name

/-!
# Symbol tables

Whatever is added to a table, and in whatever order, it stays sorted by address, and
its names stay apart.
-/

namespace Disassembler
namespace SymbolTable

open Text

/-! ## Tables -/

/-- Addresses rise, and names are proper and differ by more than letter case. -/
structure IsValid (t : SymbolTable) : Prop where
  sorted : t.symbols.Pairwise fun r s => r.address < s.address
  named : ∀ s ∈ t.symbols, s.name ≠ "" ∧ NoSpace s.name
  distinct : t.symbols.Pairwise fun r s => equalFold r.name s.name = false

theorem isValid_empty : IsValid {} where
  sorted := List.Pairwise.nil
  named := fun _ hs => absurd hs List.not_mem_nil
  distinct := List.Pairwise.nil

theorem equalFold_comm (s t : String) : equalFold s t = equalFold t s := by
  rw [equalFold, equalFold, BEq.comm]

/-- A symbol is found by its own name. -/
theorem IsValid.findName?_eq_some {t : SymbolTable} (h : t.IsValid) {s : Symbol}
    (hs : s ∈ t.symbols) : t.findName? s.name = some s := by
  rcases h.named s hs with ⟨hne, hspace⟩
  rcases List.append_of_mem hs with ⟨before, after, hsplit⟩
  have hdistinct := h.distinct
  rw [hsplit, List.pairwise_append] at hdistinct
  rw [findName?, normalize_of_noSpace hspace hne, named?, List.find?_eq_some_iff_append]
  refine ⟨beq_self_eq_true _, before, after, hsplit, ?_⟩
  intro r hr
  rw [Bool.not_eq_true']
  exact hdistinct.2.2 r hr s List.mem_cons_self

/-! ## Adding -/

/-- A table with one symbol more, the other symbols being the same. -/
inductive Adds (t : SymbolTable) (s : Symbol) (t' : SymbolTable) : Prop where
  | insert {before after : List Symbol} {name : String} :
      t.symbols = before ++ after -> (∀ r ∈ before, r.address < s.address) ->
        (∀ r ∈ after, s.address < r.address) -> normalize s.name ≠ "" ->
          t.GetsName (normalize s.name) name ->
            t'.symbols = before ++ { s with name } :: after ->
              t'.maxWidth = max t.maxWidth name.length -> Adds t s t'

theorem find?_eq_none_iff {t : SymbolTable} {address : UInt32} :
    t.find? address = none ↔ ¬ ∃ r ∈ t.symbols, r.address = address := by
  simp only [Option.eq_none_iff_forall_ne_some, ne_eq, find?_eq_some_iff, not_exists]

theorem add?_eq_none {t : SymbolTable} {s : Symbol}
    (hfails : normalize s.name = "" ∨ ∃ r ∈ t.symbols, r.address = s.address) :
    t.add? s = none := by
  rw [add?]
  rcases hfails with hempty | htaken
  · exact if_pos (String.isEmpty_iff.2 hempty)
  · have hfind := mt find?_eq_none_iff.1 (not_not_intro htaken)
    rw [dif_neg hfind, ite_self]

theorem exists_adds {t : SymbolTable} {s : Symbol}
    (hadds : ¬ (normalize s.name = "" ∨ ∃ r ∈ t.symbols, r.address = s.address)) :
    ∃ t', t.add? s = some t' ∧ Adds t s t' := by
  rcases not_or.1 hadds with ⟨hname, hfree⟩
  have hfind := find?_eq_none_iff.2 hfree
  rcases exists_split_of_find?_eq_none hfind with ⟨before, after, happend, hlength, hbefore, hafter⟩
  have hgets := getsName_freeName t (normalize s.name)
  refine ⟨t.insert { s with name := t.freeName (normalize s.name) } hfind, ?_,
    .insert happend hbefore hafter hname hgets ?_ rfl⟩
  · rw [add?]
    exact (if_neg (mt String.isEmpty_iff.1 hname)).trans (dif_pos hfind)
  · change t.symbols.insertIdx (t.search s.address) _ = _
    rw [hlength, happend, insertIdx_append]

theorem Adds.isValid {t t' : SymbolTable} {s : Symbol} (h : t.IsValid) (hadds : Adds t s t') :
    t'.IsValid := by
  rcases h with ⟨_, hnamed, hdistinct⟩
  cases hadds with
  | @insert before after name happend _ _ hname hgets hsymbols _ =>
      have hfree := hgets.isFree
      rw [IsFree] at hfree
      rw [happend] at hnamed hdistinct hfree
      refine ⟨t'.sorted, ?_, ?_⟩
      · intro r hr
        rw [hsymbols] at hr
        rcases List.mem_append.mp hr with hr | hr
        · exact hnamed r (List.mem_append_left after hr)
        · rcases List.mem_cons.mp hr with rfl | hr
          · exact ⟨hgets.ne_empty hname, hgets.noSpace (noSpace_normalize _)⟩
          · exact hnamed r (List.mem_append_right before hr)
      · rw [hsymbols]
        apply pairwise_append_cons hdistinct
        · intro r hr
          exact hfree r (List.mem_append_left after hr)
        · intro r hr
          rw [equalFold_comm]
          exact hfree r (List.mem_append_right before hr)

theorem Adds.exists_maxWidth_eq {t t' : SymbolTable} {s : Symbol} (hadds : Adds t s t') :
    ∃ name, t.GetsName (normalize s.name) name ∧ t'.maxWidth = max t.maxWidth name.length := by
  cases hadds with
  | @insert before after name _ _ _ _ hgets _ hwidth => exact ⟨name, hgets, hwidth⟩

/-- A symbol is added unless it has no name or its address has a symbol. -/
structure AddsOrFails (t : SymbolTable) (s : Symbol) : Prop where
  none_iff : t.add? s = none ↔ normalize s.name = "" ∨ ∃ r ∈ t.symbols, r.address = s.address
  unchanged : t.add? s = none -> t.add s = t
  adds : ∀ t', t.add? s = some t' -> t.add s = t' ∧ Adds t s t'
  width : ∀ t', t.add? s = some t' -> ∃ name, t.GetsName (normalize s.name) name ∧
    t'.maxWidth = max t.maxWidth name.length

theorem addsOrFails (t : SymbolTable) (s : Symbol) : t.AddsOrFails s := by
  have hunchanged : t.add? s = none -> t.add s = t := by
    intro hnone
    rw [add, hnone]
    rfl
  have hadd : ∀ t', t.add? s = some t' -> t.add s = t' := by
    intro t' ht'
    rw [add, ht']
    rfl
  by_cases hfails : normalize s.name = "" ∨ ∃ r ∈ t.symbols, r.address = s.address
  · have hnone := add?_eq_none hfails
    have hnever : ∀ t', t.add? s ≠ some t' := by
      intro t' ht'
      cases hnone.symm.trans ht'
    exact ⟨iff_of_true hnone hfails, hunchanged, fun t' ht' => absurd ht' (hnever t'),
      fun t' ht' => absurd ht' (hnever t')⟩
  · rcases exists_adds hfails with ⟨t', ht', hadds⟩
    refine ⟨iff_of_false (fun hnone => ?_) hfails, hunchanged, fun q hq => ?_, fun q hq => ?_⟩
    · cases hnone.symm.trans ht'
    · cases ht'.symm.trans hq
      exact ⟨hadd t' ht', hadds⟩
    · cases ht'.symm.trans hq
      exact hadds.exists_maxWidth_eq

/-! ## Runs -/

/-- A call that adds symbols. -/
inductive Edit where
  | add (s : Symbol)
  | read (text : String)
  | addHardware

/-- What a call makes of a table and of the log. -/
def apply (state : SymbolTable × Log) : Edit -> SymbolTable × Log
  | .add s => (state.1.add s, state.2)
  | .read text => state.1.read state.2 text
  | .addHardware => (state.1.addHardware, state.2)

/-- What calls make of an empty table. -/
def run (log : Log) (edits : List Edit) : SymbolTable × Log :=
  edits.foldl apply ({}, log)

section Runs

variable {P : SymbolTable -> Prop}

theorem readLine_fst (state : SymbolTable × Log) (line : String) :
    (readLine state line).1 = (symbolOf? line).elim state.1 state.1.add := by
  rw [readLine]
  cases symbolOf? line with
  | none => rfl
  | some s =>
      rw [Option.elim_some, SymbolTable.add]
      cases h : state.1.add? s with
      | none =>
          simp only [h]
          rfl
      | some t' =>
          simp only [h]
          rfl

theorem foldl_readLine_induction (hadd : ∀ t s, P t -> P (t.add s)) (lines : List String)
    (state : SymbolTable × Log) (h : P state.1) : P (lines.foldl readLine state).1 := by
  induction lines generalizing state with
  | nil => exact h
  | cons line lines ih =>
      refine ih _ ?_
      rw [readLine_fst]
      cases symbolOf? line with
      | none => exact h
      | some s =>
          rw [Option.elim_some]
          exact hadd state.1 s h

theorem foldl_add_induction (hadd : ∀ t s, P t -> P (t.add s)) (symbols : List Symbol)
    (t : SymbolTable) (h : P t) : P (symbols.foldl SymbolTable.add t) := by
  induction symbols generalizing t with
  | nil => exact h
  | cons s symbols ih =>
      rw [List.foldl_cons]
      exact ih _ (hadd t s h)

/-- What every addition keeps is kept by every call. -/
theorem apply_induction (hadd : ∀ t s, P t -> P (t.add s)) {state : SymbolTable × Log}
    (h : P state.1) (e : Edit) : P (apply state e).1 := by
  cases e with
  | add s =>
      simp only [apply]
      exact hadd state.1 s h
  | read text => exact foldl_readLine_induction hadd _ state h
  | addHardware =>
      simp only [apply]
      exact foldl_add_induction hadd hardwareSymbols state.1 h

theorem isValid_add {t : SymbolTable} (h : t.IsValid) (s : Symbol) : (t.add s).IsValid := by
  have hadds := t.addsOrFails s
  cases ht' : t.add? s with
  | none =>
      rw [hadds.unchanged ht']
      exact h
  | some t' =>
      rw [(hadds.adds t' ht').1]
      exact (hadds.adds t' ht').2.isValid h

theorem isValid_run (log : Log) (edits : List Edit) : (run log edits).1.IsValid := by
  rw [run]
  induction edits using List.reverseRecOn with
  | nil => exact isValid_empty
  | append_singleton edits e ih =>
      rw [List.foldl_append]
      exact apply_induction (P := IsValid) (fun t s ht => isValid_add ht s) ih e

/-- After any calls the table is sorted, its names are proper and apart, each is found,
and the width is that of the longest; and a further symbol is added as it should. -/
theorem run_contract (log : Log) (edits : List Edit) :
    (run log edits).1.IsValid ∧ IsWidth (run log edits).1.symbols (run log edits).1.maxWidth ∧
      (∀ s ∈ (run log edits).1.symbols, (run log edits).1.findName? s.name = some s) ∧
      ∀ s, (run log edits).1.AddsOrFails s := by
  have hvalid := isValid_run log edits
  exact ⟨hvalid, (run log edits).1.width, fun s hs => hvalid.findName?_eq_some hs,
    (run log edits).1.addsOrFails⟩

end Runs

end SymbolTable
end Disassembler
