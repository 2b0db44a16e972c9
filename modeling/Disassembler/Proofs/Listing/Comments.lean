import Disassembler.Proofs.Listing.Failure
import Disassembler.Proofs.Symbol.Lookup

/-!
# Comments on addresses

With symbols the comment on the addresses of a line is put together anew.  It has
the same entries as the comment without symbols, and the descriptions of their
addresses besides.
-/

namespace Disassembler
namespace Listing

/-! ## Entries -/

/-- The registers that count are chosen alike with symbols and without. -/
theorem known_eq_registersAt (regs : Option M68k.Registers) (address : UInt32) :
    (if regs.any fun s => s.get .pc == address then regs else none) =
      M68k.Instruction.registersAt regs address := by
  cases regs with
  | none => rfl
  | some s => rw [M68k.Instruction.registersAt, Option.filter_some, Option.any_some]

theorem addressComment68_some (table : SymbolTable) (regs : Option M68k.Registers) (l : Line68) :
    addressComment68 (some table) regs l =
      Text.join "  " ((l.inst.addresses l.address regs).map (addressText table)) := by
  simp only [addressComment68, known_eq_registersAt, M68k.Instruction.addresses,
    List.map_filterMap, Option.map_map]
  rfl

theorem addressText_eq (table : SymbolTable) (a : UInt32) :
    addressText table a =
      Number.hex a ++ if table.describe a = "" then "" else " " ++ table.describe a := by
  simp only [addressText, String.isEmpty_iff]
  split
  · rw [String.append_empty]
  · rw [String.append_assoc]

theorem lt_of_mem_addresses {i : M68k.Instruction} {address : UInt32}
    {regs : Option M68k.Registers} {a : UInt32} (ha : a ∈ i.addresses address regs) :
    a < 0x1000000 := by
  rcases List.mem_filterMap.1 ha with ⟨op, _, hop⟩
  rcases Option.map_eq_some_iff.1 hop with ⟨full, _, rfl⟩
  exact UInt32.mod_lt full (by decide)

/-! ## No symbols -/

theorem describe_empty (address : UInt32) : SymbolTable.describe {} address = "" := by
  rw [SymbolTable.isValid_empty.describe_eq_empty_iff, SymbolTable.enclosing?_eq_none_iff,
    SymbolTable.findLower?_eq_none_iff]
  exact Or.inl fun s hs => absurd hs List.not_mem_nil

theorem addressComment68_empty (regs : Option M68k.Registers) (l : Line68) :
    addressComment68 (some {}) regs l = addressComment68 none regs l := by
  have hentry : addressText {} = Number.hex := by
    funext a
    rw [addressText_eq, if_pos (describe_empty a), String.append_empty]
  rw [addressComment68_some, hentry]
  rfl

theorem rows68_empty (o : ListingOptions) (regs : Option M68k.Registers) :
    rows68 o (some {}) regs = rows68 o none regs := by
  funext l
  rw [rows68, rows68, fields68, fields68, addressComment68_empty]
  rfl

theorem render68_empty (o : ListingOptions) (regs : Option M68k.Registers)
    (lines : List Line68) : render68 o (some {}) regs lines = render68 o none regs lines := by
  rw [render68, render68, rows68_empty]

/-- A table without symbols makes no difference, and a table with symbols adds
descriptions to the entries of the comment. -/
theorem symbols_describe_entries :
    (∀ o regs (lines : List Line68) sink failure,
      writeTo sink failure (render68 o (some {}) regs lines) =
        writeTo sink failure (render68 o none regs lines)) ∧
    ∀ regs (l : Line68), ∃ addresses : List UInt32, (∀ a ∈ addresses, a < 0x1000000) ∧
      l.inst.addressComment l.address regs = Text.join "  " (addresses.map Number.hex) ∧
      ∀ table, addressComment68 (some table) regs l = Text.join "  " (addresses.map fun a =>
        Number.hex a ++ if table.describe a = "" then "" else " " ++ table.describe a) := by
  constructor
  · intro o regs lines sink failure
    rw [render68_empty]
  · intro regs l
    refine ⟨l.inst.addresses l.address regs, ?_, rfl, ?_⟩
    · intro a ha
      exact lt_of_mem_addresses ha
    · intro table
      rw [addressComment68_some, funext (addressText_eq table)]

end Listing
end Disassembler
