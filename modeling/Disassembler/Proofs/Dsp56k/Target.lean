import Disassembler.Dsp56k.Analysis
import Disassembler.Proofs.Dsp56k.Extent

/-!
# Targets

Where a jump goes or a loop ends is what one of the operands refers to.  The
address of an operand has sixteen bits.  So has a target, except that a jump or
a call keeps all bits of an absolute address in the word after its first one.
-/

namespace Disassembler
namespace Dsp56k

open Decoder (whole)
open Instruction (Target absolute?)

/-- The operand that says where a jump goes or a loop ends. -/
def Operation.destination? (o : Operation) : Option Operand :=
  match o.opcode with
  | .jmp | .jsr | .jumpOn _ | .callOn _ => o.first
  | .jclr | .jset | .jsclr | .jsset => o.third
  | .doLoop => o.second
  | _ => none

theorem Operation.destination_eq_none {o : Operation} (h : o.opcode.hasTarget = false) :
    o.destination? = none := by
  unfold destination?
  split
  case h_10 => rfl
  all_goals
    rename_i hop
    rw [hop] at h
    cases h

/-- Except for a repetition, a target is an absolute address that an operand
says. -/
theorem Instruction.absolute_of_target {i : Instruction} {addr : UInt32} {t : Target}
    (h : i.target? addr = some t) (hrep : i.opcode ≠ .rep) :
    absolute? i.destination? = some t.address := by
  unfold target? at h
  unfold Operation.destination?
  split at h
  case h_10 hop => exact absurd hop hrep
  case h_11 => cases h
  all_goals
    rename_i hop
    simp only [hop]
    rcases Option.map_eq_some_iff.1 h with ⟨a, ha, rfl⟩
    exact ha

theorem exists_address_of_absolute {x : Option Operand} {a : UInt32} (h : absolute? x = some a)
    (regs : Option Registers) : ∃ y, x = some y ∧ y.address? regs = some (a % 0x10000) := by
  unfold absolute? at h
  split at h
  · cases h
    exact ⟨_, rfl, rfl⟩
  · cases h
    exact ⟨_, rfl, rfl⟩
  · cases h

theorem IsJump.destination_eq {op : Opcode} (h : IsJump op) (x : Operand) :
    (Operation.unary op x).destination? = some x := by
  rcases h with rfl | rfl | ⟨c, rfl | rfl⟩ <;> rfl

theorem Targeted.absolute_cases {ext : List Word24} {o : Operation} (h : Targeted ext o)
    {a : UInt32} (ha : absolute? o.destination? = some a) :
    a < 0x10000 ∨ IsJump o.opcode ∧ ∃ w, ext = [w] ∧ a = whole w := by
  cases h with
  | jump hop hx =>
      rw [hop.destination_eq] at ha
      cases hx with
      | indirect hmode hr => cases ha
      | absolute w =>
          cases ha
          exact Or.inr ⟨hop, w, rfl, rfl⟩
      | immediate w hallow => cases hallow
  | jumpShort hop hshort =>
      rw [hop.destination_eq] at ha
      cases ha
      exact Or.inl (UInt32.lt_trans hshort (by decide))
  | doLoop hx last =>
      cases ha
      exact Or.inl (UInt32.mod_lt _ (by decide))
  | bitJump call value hn hx target =>
      have haddress : a = whole target % 0x10000 := by
        cases call <;> cases value <;> cases ha <;> rfl
      rw [haddress]
      exact Or.inl (UInt32.mod_lt _ (by decide))

theorem toNat_whole (w : Word24) : (whole w).toNat = w.toNat := by
  have hw := w.isLt
  rw [whole, UInt32.toNat_ofNat']
  omega

/-- The target of a decoded instruction has sixteen bits, or it is the second
word of a jump or a call. -/
theorem decode_absolute_cases {words : List Word24} {a : UInt32}
    (ha : absolute? (decode words).destination? = some a) :
    a < 0x10000 ∨ IsJump (decode words).opcode ∧ ∃ w, words[1]? = some w ∧ a = whole w := by
  rcases decode_cases words with ⟨code, rest, hwords, hcode⟩ | hdata
  · rcases hcode.repertoire.targeted_or with htarget | ⟨hop, _⟩
    · rcases htarget.absolute_cases ha with hlt | ⟨hop, w, htail, haddress⟩
      · exact Or.inl hlt
      · refine Or.inr ⟨hop, w, ?_, haddress⟩
        rw [hwords]
        cases code with
        | nil => cases htail
        | cons header tail =>
            have hone : tail = [w] := htail
            rw [hone]
            rfl
    · rw [Operation.destination_eq_none hop] at ha
      cases ha
  · rw [hdata] at ha
    cases ha

/-- But for a repetition, the address of the operand that says a target is that
target in sixteen bits.  It is the target itself, unless that is the second word
of a jump or a call and has more bits. -/
theorem target_eq_address (c : Cursor Word24) (addr : UInt32) {t : Target}
    (ht : (decode c.rest).target? addr = some t) (hrep : (decode c.rest).opcode ≠ .rep)
    (regs : Option Registers) :
    ∃ x, (decode c.rest).destination? = some x ∧ x.address? regs = some (t.address % 0x10000) ∧
      (x.address? regs = some t.address ∧ t.address < 0x10000 ∨
        IsJump (decode c.rest).opcode ∧
          ∃ w, c.rest[1]? = some w ∧ t.address = whole w ∧ 0x10000 ≤ w.toNat) := by
  have habsolute := Instruction.absolute_of_target ht hrep
  rcases exists_address_of_absolute habsolute regs with ⟨x, hx, haddress⟩
  refine ⟨x, hx, haddress, ?_⟩
  by_cases hlt : t.address < 0x10000
  · left
    have hmod : t.address % 0x10000 = t.address := UInt32.mod_eq_of_lt hlt
    exact ⟨by rw [haddress, hmod], hlt⟩
  · right
    rcases decode_absolute_cases habsolute with h | ⟨hop, w, hw, heq⟩
    · exact absurd h hlt
    · refine ⟨hop, w, hw, heq, ?_⟩
      rw [heq, UInt32.lt_iff_toNat_lt, toNat_whole] at hlt
      exact Nat.not_lt.1 hlt

/-- A loop, whose target is the address after the word that is given. -/
theorem target_eq_address_loop :
    (let c : Cursor Word24 := .ofList [0x060580, 0xff0010];
      (decode c.rest).target? 0x40 = some ⟨0x11, true⟩ ∧ (decode c.rest).opcode ≠ .rep ∧
        ∃ x, (decode c.rest).destination? = some x ∧ x.address? none = some 0x11) := by
  refine ⟨by decide, by decide, ?_⟩
  rcases target_eq_address (.ofList [0x060580, 0xff0010]) 0x40 (t := ⟨0x11, true⟩) (by decide)
    (by decide) none with ⟨x, hx, haddress, _⟩
  exact ⟨x, hx, haddress⟩

/-- A jump to an address of more than sixteen bits: its operand has another
address. -/
theorem jump_target_ne_address :
    (let c : Cursor Word24 := .ofList [0x0af080, 0x123456];
      (decode c.rest).target? 0 = some ⟨0x123456, false⟩ ∧ (decode c.rest).opcode = .jmp ∧
        (decode c.rest).first.bind (·.address? none) = some 0x3456 ∧
        ¬ (decode c.rest).first.bind (·.address? none) = some 0x123456 ∧
        ¬ (0x123456 : UInt32) < 0x10000) := by
  decide

end Dsp56k
end Disassembler
