import Disassembler.Search
import Disassembler.Text.Case
import Disassembler.Text.Column
import Disassembler.Text.Number
import Disassembler.Text.Space

/-!
# Symbol tables

Names of addresses.  A table holds at most one symbol for an address, sorted by
address, and at most one symbol for a name, regardless of letter case.
-/

namespace Disassembler

/-- A named address.  A size of zero reaches up to the next symbol. -/
structure Symbol where
  name : String
  address : UInt32
  size : UInt32 := 0
  comment : String := ""
  deriving DecidableEq, Repr

/-- The length of the longest name in bytes. -/
structure IsWidth (symbols : List Symbol) (n : Nat) : Prop where
  le : ∀ s ∈ symbols, s.name.length ≤ n
  reached : (symbols = [] ∧ n = 0) ∨ ∃ s ∈ symbols, s.name.length = n

theorem isWidth_nil : IsWidth [] 0 where
  le _ hs := absurd hs List.not_mem_nil
  reached := Or.inl ⟨rfl, rfl⟩

theorem IsWidth.insertIdx {symbols : List Symbol} {n k : Nat} (h : IsWidth symbols n)
    (hk : k ≤ symbols.length) (s : Symbol) :
    IsWidth (symbols.insertIdx k s) (max n s.name.length) where
  le r hr := by
    rcases (List.mem_insertIdx hk).1 hr with rfl | hr
    · exact Nat.le_max_right _ _
    · exact Nat.le_trans (h.le r hr) (Nat.le_max_left _ _)
  reached := by
    right
    rcases Nat.le_total n s.name.length with hle | hle
    · rw [Nat.max_eq_right hle]
      exact ⟨s, (List.mem_insertIdx hk).2 (Or.inl rfl), rfl⟩
    · rw [Nat.max_eq_left hle]
      rcases h.reached with ⟨hnil, hzero⟩ | ⟨r, hr, hlength⟩
      · refine ⟨s, (List.mem_insertIdx hk).2 (Or.inl rfl), ?_⟩
        omega
      · exact ⟨r, (List.mem_insertIdx hk).2 (Or.inr hr), hlength⟩

theorem pairwise_address_nil :
    ([] : List Symbol).Pairwise (fun r s => r.address < s.address) :=
  .nil

structure SymbolTable where
  symbols : List Symbol := []
  maxWidth : Nat := 0
  sorted : symbols.Pairwise (fun r s => r.address < s.address) := by exact pairwise_address_nil
  width : IsWidth symbols maxWidth := by exact isWidth_nil
  deriving Repr

namespace SymbolTable

/-! ## Names -/

/-- A name without white space at its ends, and with underscores for the white
space inside. -/
def normalize (name : String) : String :=
  Text.join "_" (Text.words name)

/-- The symbol of exactly that name, up to letter case. -/
def named? (t : SymbolTable) (name : String) : Option Symbol :=
  let key := Text.foldKey name
  t.symbols.find? fun s => Text.foldKey s.name == key

def findName? (t : SymbolTable) (name : String) : Option Symbol :=
  t.named? (normalize name)

def numbered (name : String) (k : Nat) : String :=
  name ++ "_" ++ Number.decDigits k

def candidates (name : String) (count : Nat) : List String :=
  (List.range count).map fun k => numbered name (k + 1)

/-- The name itself if it is free, and otherwise with the least number that
makes it free.  One of the first numbers is free, since there are only so many
symbols. -/
def freeName (t : SymbolTable) (name : String) : String :=
  let taken := t.symbols.map fun s => Text.foldKey s.name
  let isFree (name : String) : Bool := !taken.contains (Text.foldKey name)
  if isFree name then name
  else ((candidates name (t.symbols.length + 1)).find? isFree).getD name

/-! ## Addresses -/

/-- The index of the first symbol at or after an address. -/
def search (t : SymbolTable) (address : UInt32) : Nat :=
  let addresses := (t.symbols.map Symbol.address).toArray
  searchFirst (fun k => address ≤ addresses.getD k 0) 0 addresses.size

def find? (t : SymbolTable) (address : UInt32) : Option Symbol :=
  t.symbols[t.search address]?.filter fun s => s.address == address

/-- Whether an address from the symbol's own upwards is within its size. -/
def reaches (s : Symbol) (address : UInt32) : Bool :=
  s.size == 0 || address - s.address < s.size

/-- The symbol at an address, or else the one in front of it.  That one may have
to reach the address. -/
def lowerOrEqual? (t : SymbolTable) (address : UInt32) (sizeCheck : Bool) : Option Symbol :=
  match t.find? address with
  | some s => some s
  | none =>
      match t.search address with
      | 0 => none
      | k + 1 => t.symbols[k]?.filter fun s => !sizeCheck || reaches s address

def findLower? (t : SymbolTable) (address : UInt32) : Option Symbol :=
  t.lowerOrEqual? address false

def enclosing? (t : SymbolTable) (address : UInt32) : Option Symbol :=
  t.lowerOrEqual? address true

/-- An address as a symbol and the distance from it, empty if it belongs to no
symbol. -/
def describe (t : SymbolTable) (address : UInt32) : String :=
  match t.enclosing? address with
  | none => ""
  | some s =>
      if s.address = address then s.name
      else s.name ++ "+" ++ Number.hex (address - s.address)

/-! ## The place of an address -/

theorem exists_split (t : SymbolTable) (address : UInt32) :
    ∃ before after, t.symbols = before ++ after ∧ t.search address = before.length ∧
      (∀ s ∈ before, s.address < address) ∧ ∀ s ∈ after, address ≤ s.address := by
  rcases exists_append_findIdx (pairwise_le_address t.sorted address) with
    ⟨before, after, happend, hlength, hbefore, hafter⟩
  refine ⟨before, after, happend, ?_, ?_, ?_⟩
  · rw [← hlength]
    exact searchFirst_address t.sorted address
  · intro s hs
    exact UInt32.not_le.mp (of_decide_eq_false (hbefore s hs))
  · intro s hs
    exact of_decide_eq_true (hafter s hs)

theorem search_le (t : SymbolTable) (address : UInt32) : t.search address ≤ t.symbols.length := by
  rcases t.exists_split address with ⟨before, after, happend, hlength, _, _⟩
  rw [hlength, happend, List.length_append]
  exact Nat.le_add_right _ _

theorem find?_eq_some_iff {t : SymbolTable} {address : UInt32} {s : Symbol} :
    t.find? address = some s ↔ s ∈ t.symbols ∧ s.address = address := by
  have hsorted := t.sorted
  rcases t.exists_split address with ⟨before, after, happend, hlength, hbefore, hafter⟩
  rw [find?, hlength, Option.filter_eq_some_iff, beq_iff_eq]
  constructor
  · rintro ⟨hget, haddress⟩
    exact ⟨List.mem_of_getElem? hget, haddress⟩
  · rintro ⟨hs, rfl⟩
    refine ⟨?_, rfl⟩
    rw [happend] at hs hsorted ⊢
    rw [List.getElem?_append_right (Nat.le_refl _), Nat.sub_self]
    rcases List.mem_append.1 hs with hs | hs
    · exact absurd (hbefore s hs) (UInt32.lt_irrefl _)
    · cases after with
      | nil => cases hs
      | cons q after =>
          rcases List.mem_cons.1 hs with rfl | hs
          · rfl
          · have hlt := (List.pairwise_cons.1 (List.pairwise_append.1 hsorted).2.1).1 s hs
            exact absurd (hafter q List.mem_cons_self) (UInt32.not_le.2 hlt)

theorem eq_of_address_eq {t : SymbolTable} {r s : Symbol} (hr : r ∈ t.symbols)
    (hs : s ∈ t.symbols) (h : r.address = s.address) : r = s :=
  Option.some.inj ((find?_eq_some_iff.2 ⟨hr, h⟩).symm.trans (find?_eq_some_iff.2 ⟨hs, rfl⟩))

/-- Halving finds what a look at every symbol finds. -/
theorem find?_eq_scan (t : SymbolTable) (address : UInt32) :
    t.find? address = t.symbols.find? fun s => s.address == address := by
  cases hscan : t.symbols.find? fun s => s.address == address with
  | none =>
      rw [Option.eq_none_iff_forall_ne_some]
      intro s hs
      rcases find?_eq_some_iff.1 hs with ⟨hmem, haddress⟩
      exact List.find?_eq_none.1 hscan s hmem (beq_iff_eq.2 haddress)
  | some s =>
      have haddress : s.address = address := by simpa using List.find?_some hscan
      exact find?_eq_some_iff.2 ⟨List.mem_of_find?_eq_some hscan, haddress⟩

/-- Without a symbol at an address, there are only lower and higher ones. -/
theorem exists_split_of_find?_eq_none {t : SymbolTable} {address : UInt32}
    (h : t.find? address = none) :
    ∃ before after, t.symbols = before ++ after ∧ t.search address = before.length ∧
      (∀ s ∈ before, s.address < address) ∧ ∀ s ∈ after, address < s.address := by
  rcases t.exists_split address with ⟨before, after, happend, hlength, hbefore, hafter⟩
  refine ⟨before, after, happend, hlength, hbefore, ?_⟩
  intro s hs
  refine UInt32.lt_of_le_of_ne (hafter s hs) ?_
  intro heq
  have hmem : s ∈ t.symbols := happend ▸ List.mem_append_right before hs
  cases h.symm.trans (find?_eq_some_iff.2 ⟨hmem, heq.symm⟩)

/-! ## Adding symbols -/

theorem insertIdx_append (before after : List Symbol) (s : Symbol) :
    (before ++ after).insertIdx before.length s = before ++ s :: after := by
  induction before with
  | nil => rfl
  | cons r before ih => exact congrArg (List.cons r) ih

theorem pairwise_append_cons {R : Symbol -> Symbol -> Prop} {before after : List Symbol}
    {s : Symbol} (h : (before ++ after).Pairwise R) (hbefore : ∀ r ∈ before, R r s)
    (hafter : ∀ r ∈ after, R s r) : (before ++ s :: after).Pairwise R := by
  rw [List.pairwise_append] at h ⊢
  refine ⟨h.1, List.pairwise_cons.2 ⟨hafter, h.2.1⟩, ?_⟩
  intro r hr q hq
  rcases List.mem_cons.1 hq with rfl | hq
  · exact hbefore r hr
  · exact h.2.2 r hr q hq

theorem sorted_insertIdx {t : SymbolTable} {s : Symbol} (h : t.find? s.address = none) :
    (t.symbols.insertIdx (t.search s.address) s).Pairwise fun r s => r.address < s.address := by
  have hsorted := t.sorted
  rcases exists_split_of_find?_eq_none h with ⟨before, after, happend, hlength, hbefore, hafter⟩
  rw [happend] at hsorted
  rw [hlength, happend, insertIdx_append]
  exact pairwise_append_cons hsorted hbefore hafter

/-- The table with a further symbol, in front of those at higher addresses. -/
def insert (t : SymbolTable) (s : Symbol) (h : t.find? s.address = none) : SymbolTable where
  symbols := t.symbols.insertIdx (t.search s.address) s
  maxWidth := max t.maxWidth s.name.length
  sorted := sorted_insertIdx h
  width := t.width.insertIdx (t.search_le s.address) s

/-- The table with a further symbol.  There is none if the name is empty or if the
address has a symbol. -/
def add? (t : SymbolTable) (s : Symbol) : Option SymbolTable :=
  let name := normalize s.name
  if name.isEmpty then none
  else if h : t.find? s.address = none then some (t.insert { s with name := t.freeName name } h)
  else none

/-- The table with a further symbol, if it can be added. -/
def add (t : SymbolTable) (s : Symbol) : SymbolTable :=
  (t.add? s).getD t

def size (t : SymbolTable) : Nat :=
  t.symbols.length

/-! ## Listing -/

/-- The line of a symbol in a listing of the table. -/
def lineOf (s : Symbol) : String :=
  "$" ++ Number.hexPadded 6 s.address.toNat ++ " -> " ++ s.name
    ++ (if s.comment.isEmpty then "" else " (" ++ s.comment ++ ")") ++ "\n"

/-- All symbols with their addresses. -/
def text (t : SymbolTable) : String :=
  String.join (t.symbols.map lineOf)

end SymbolTable

end Disassembler
