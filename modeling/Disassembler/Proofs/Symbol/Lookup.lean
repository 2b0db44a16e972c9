import Disassembler.Proofs.Symbol.Table

/-!
# Looking up addresses

Halving ends at the symbol with an address, or behind the last symbol in front of
it.  Symbols are sorted by address, so this is the predecessor of the address.
-/

namespace Disassembler
namespace SymbolTable

/-! ## Predecessors -/

/-- The symbol with the greatest address up to the given one. -/
structure IsPredecessor (t : SymbolTable) (address : UInt32) (s : Symbol) : Prop where
  mem : s ∈ t.symbols
  le : s.address ≤ address
  greatest : ∀ r ∈ t.symbols, r.address ≤ address -> r.address ≤ s.address

variable {t : SymbolTable} {address : UInt32}

theorem eq_of_isPredecessor {r s : Symbol} (hr : t.IsPredecessor address r)
    (hs : t.IsPredecessor address s) : r = s :=
  eq_of_address_eq hr.mem hs.mem
    (UInt32.le_antisymm (hs.greatest r hr.mem hr.le) (hr.greatest s hs.mem hs.le))

/-- What stands in front of the place of an address without a symbol. -/
theorem search_cases (hmiss : t.find? address = none) :
    (t.search address = 0 ∧ ∀ s ∈ t.symbols, address < s.address) ∨
      ∃ k s, t.search address = k + 1 ∧ t.symbols[k]? = some s ∧ t.IsPredecessor address s := by
  rcases exists_split_of_find?_eq_none hmiss with
    ⟨before, after, happend, hlength, hbefore, habove⟩
  rcases List.eq_nil_or_concat before with rfl | ⟨front, s, rfl⟩
  · left
    constructor
    · exact hlength
    · rw [happend]
      exact habove
  · right
    have hsorted := t.sorted
    rw [List.concat_eq_append] at happend hlength hbefore
    rw [List.length_append, List.length_singleton] at hlength
    rw [happend, List.pairwise_append, List.pairwise_append] at hsorted
    refine ⟨front.length, s, hlength, ?_, ?_, ?_, ?_⟩
    · rw [happend, List.append_assoc, List.getElem?_append_right (Nat.le_refl _), Nat.sub_self]
      rfl
    · rw [happend]
      exact List.mem_append_left after List.mem_concat_self
    · exact UInt32.le_of_lt (hbefore s List.mem_concat_self)
    · intro r hr hle
      rw [happend, List.mem_append, List.mem_append, List.mem_singleton] at hr
      rcases hr with (hr | rfl) | hr
      · exact UInt32.le_of_lt (hsorted.1.2.2 r hr s (List.mem_singleton_self s))
      · exact UInt32.le_refl _
      · exact absurd hle (UInt32.not_le.2 (habove r hr))

/-- There is a predecessor, which the search finds, or all symbols are higher. -/
theorem findLower?_cases (t : SymbolTable) (address : UInt32) :
    (t.findLower? address = none ∧ ∀ s ∈ t.symbols, address < s.address) ∨
      ∃ s, t.findLower? address = some s ∧ t.IsPredecessor address s := by
  rw [findLower?, lowerOrEqual?]
  cases hhit : t.find? address with
  | some s =>
      rcases find?_eq_some_iff.1 hhit with ⟨hs, rfl⟩
      exact Or.inr ⟨s, rfl, hs, UInt32.le_refl _, fun r _ hle => hle⟩
  | none =>
      rcases search_cases hhit with ⟨hzero, habove⟩ | ⟨k, s, hsucc, hget, hs⟩
      · left
        rw [hzero]
        exact ⟨rfl, habove⟩
      · right
        rw [hsucc]
        refine ⟨s, ?_, hs⟩
        simp only [hget]
        rfl

theorem findLower?_eq_some_iff {s : Symbol} :
    t.findLower? address = some s ↔ t.IsPredecessor address s := by
  rcases t.findLower?_cases address with ⟨hnone, habove⟩ | ⟨r, hsome, hr⟩
  · rw [hnone]
    constructor
    · intro hs
      cases hs
    · intro hs
      exact absurd hs.le (UInt32.not_le.2 (habove s hs.mem))
  · rw [hsome, Option.some_inj]
    constructor
    · rintro rfl
      exact hr
    · exact eq_of_isPredecessor hr

theorem findLower?_eq_none_iff :
    t.findLower? address = none ↔ ∀ s ∈ t.symbols, ¬ s.address ≤ address := by
  rcases t.findLower?_cases address with ⟨hnone, habove⟩ | ⟨r, hsome, hr⟩
  · exact iff_of_true hnone fun s hs => UInt32.not_le.2 (habove s hs)
  · rw [hsome]
    refine iff_of_false nofun ?_
    intro hall
    exact hall r hr.mem hr.le

/-! ## Sizes -/

theorem reaches_own (s : Symbol) : reaches s s.address = true := by
  rw [reaches, UInt32.sub_self, Bool.or_eq_true, beq_iff_eq, decide_eq_true_iff]
  rcases Nat.eq_zero_or_pos s.size.toNat with hzero | hpos
  · exact Or.inl (UInt32.toNat_inj.1 hzero)
  · exact Or.inr (UInt32.lt_iff_toNat_lt.2 hpos)

/-- With the size check a symbol is found unless it ends in front of the
address. -/
theorem enclosing?_eq_filter (t : SymbolTable) (address : UInt32) :
    t.enclosing? address = (t.findLower? address).filter fun s => reaches s address := by
  rw [enclosing?, findLower?, lowerOrEqual?, lowerOrEqual?]
  cases hhit : t.find? address with
  | some s =>
      have haddress := (find?_eq_some_iff.1 hhit).2
      rw [Option.filter_some, if_pos (haddress ▸ reaches_own s)]
  | none =>
      cases t.search address with
      | zero => rfl
      | succ k =>
          show (t.symbols[k]?.filter fun s => reaches s address) =
            (t.symbols[k]?.filter fun _ => true).filter fun s => reaches s address
          cases t.symbols[k]? <;> rfl

/-- A symbol with a size that the address is not within.  The distance is a
difference of numbers, which does not wrap around. -/
def EndsBefore (s : Symbol) (address : UInt32) : Prop :=
  s.size ≠ 0 ∧ s.size.toNat ≤ address.toNat - s.address.toNat

theorem reaches_iff {s : Symbol} {address : UInt32} (hle : s.address ≤ address) :
    reaches s address = true ↔ ¬ EndsBefore s address := by
  have hsub := UInt32.toNat_sub_of_le address s.address hle
  rw [reaches, EndsBefore, Bool.or_eq_true, beq_iff_eq, decide_eq_true_iff, UInt32.lt_iff_toNat_lt,
    hsub]
  by_cases hzero : s.size = 0
  · simp [hzero]
  · simp [hzero]

/-! ## Lookups -/

/-- What looking up an address in a table comes to.  A description is the name of a
symbol and the distance from it in hexadecimal. -/
structure LooksUp (t : SymbolTable) (address : UInt32) : Prop where
  find?_eq_some_iff : ∀ s, t.find? address = some s ↔ s ∈ t.symbols ∧ s.address = address
  find?_eq_scan : t.find? address = t.symbols.find? fun s => s.address == address
  findLower?_eq_some_iff : ∀ s, t.findLower? address = some s ↔ t.IsPredecessor address s
  findLower?_eq_none_iff :
    t.findLower? address = none ↔ ∀ s ∈ t.symbols, ¬ s.address ≤ address
  enclosing?_eq_some_iff : ∀ s, t.enclosing? address = some s ↔
    t.findLower? address = some s ∧ ¬ EndsBefore s address
  enclosing?_eq_none_iff : t.enclosing? address = none ↔ t.findLower? address = none ∨
    ∃ s, t.findLower? address = some s ∧ EndsBefore s address
  describe_eq_empty_iff : t.describe address = "" ↔ t.enclosing? address = none
  describe_eq : ∀ s, t.enclosing? address = some s -> ∃ distance : UInt32,
    s.address.toNat + distance.toNat = address.toNat ∧
      t.describe address =
        if distance = 0 then s.name else s.name ++ "+$" ++ Number.hexDigits distance.toNat

theorem enclosing?_eq_some_iff {s : Symbol} :
    t.enclosing? address = some s ↔ t.findLower? address = some s ∧ ¬ EndsBefore s address := by
  rw [enclosing?_eq_filter, Option.filter_eq_some_iff]
  refine and_congr_right ?_
  intro hs
  exact reaches_iff (findLower?_eq_some_iff.1 hs).le

theorem enclosing?_eq_none_iff :
    t.enclosing? address = none ↔ t.findLower? address = none ∨
      ∃ s, t.findLower? address = some s ∧ EndsBefore s address := by
  cases hlower : t.findLower? address with
  | none =>
      refine iff_of_true ?_ (Or.inl rfl)
      rw [enclosing?_eq_filter, hlower]
      rfl
  | some s =>
      rw [Option.eq_none_iff_forall_ne_some]
      simp [enclosing?_eq_some_iff, hlower]

theorem describe_eq {s : Symbol} (hs : t.enclosing? address = some s) : ∃ distance : UInt32,
      s.address.toNat + distance.toNat = address.toNat ∧
        t.describe address =
          if distance = 0 then s.name else s.name ++ "+$" ++ Number.hexDigits distance.toNat := by
  have hle := (findLower?_eq_some_iff.1 (enclosing?_eq_some_iff.1 hs).1).le
  have hsub := UInt32.toNat_sub_of_le address s.address hle
  have hsum : s.address.toNat + (address - s.address).toNat = address.toNat := by
    rw [hsub]
    exact Nat.add_sub_cancel' (UInt32.le_iff_toNat_le.1 hle)
  refine ⟨address - s.address, hsum, ?_⟩
  simp only [describe, hs, Number.hex]
  by_cases heq : s.address = address
  · rw [if_pos heq, heq, UInt32.sub_self, if_pos rfl]
  · have hne : ¬ (address - s.address = 0) := by
      intro hzero
      rw [hzero] at hsum
      exact heq (UInt32.toNat_inj.1 hsum)
    rw [if_neg heq, if_neg hne, String.append_assoc, String.append_assoc]
    rfl

theorem IsValid.describe_eq_empty_iff (h : t.IsValid) :
    t.describe address = "" ↔ t.enclosing? address = none := by
  cases hs : t.enclosing? address with
  | none => simp only [describe, hs]
  | some s =>
      have hmem := (findLower?_eq_some_iff.1 (enclosing?_eq_some_iff.1 hs).1).mem
      rcases describe_eq hs with ⟨distance, _, hdescribe⟩
      rw [hdescribe]
      refine iff_of_false ?_ nofun
      split
      · exact (h.named s hmem).1
      · simp

/-- In every table that can be built, addresses are looked up as they should. -/
theorem looksUp_run (log : Log) (edits : List Edit) (address : UInt32) :
    (run log edits).1.LooksUp address := by
  have hvalid := isValid_run log edits
  constructor
  · exact fun s => find?_eq_some_iff
  · exact find?_eq_scan _ address
  · exact fun s => findLower?_eq_some_iff
  · exact findLower?_eq_none_iff
  · exact fun s => enclosing?_eq_some_iff
  · exact enclosing?_eq_none_iff
  · exact hvalid.describe_eq_empty_iff
  · exact fun s => describe_eq

end SymbolTable
end Disassembler
