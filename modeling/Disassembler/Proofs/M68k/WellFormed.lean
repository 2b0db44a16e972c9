import Disassembler.Proofs.M68k.Operand
import Disassembler.Proofs.M68k.Size

/-!
# Well formed instructions

The numbers in a decoded instruction are in the ranges for which there are names:
registers, scales, control registers and bit fields.
-/

namespace Disassembler
namespace M68k

/-! ## Ranges -/

/-- A data register or an address register. -/
def IndexReg.IsGeneral (r : IndexReg) : Prop :=
  ∃ n : Fin 8, r = .d n ∨ r = .a n

/-- An index that is used. -/
structure Index.WellFormed (i : Index) : Prop where
  reg : i.reg.IsGeneral
  scale_le : i.scale ≤ 3

/-- There is no index register exactly if the index is suppressed. -/
structure FullExt.WellFormed (e : FullExt) : Prop where
  base : e.base = .pc ∨ ∃ n, e.base = .a n
  index : if e.hasIndex then e.index.reg.IsGeneral else e.index.reg = .absent
  scale_le : e.index.scale ≤ 3

def Operand.WellFormed : Operand -> Prop
  | dataReg r | addrReg r | indirect r | postInc r | preDec r | disp16 r _ => r ≤ 7
  | indexed r _ i => r ≤ 7 ∧ i.WellFormed
  | pcIndexed _ i => i.WellFormed
  | controlReg code => code ∈ Decoder.controlRegNames.map Prod.fst
  | regPair r s => r ≤ 7 ∧ s ≤ 7
  | indirectPair r s => r.IsGeneral ∧ s.IsGeneral
  | postIndexed e | preIndexed e | memoryIndirect e | noMemoryIndirect e => e.WellFormed
  | absWord _ | absLong _ | pcDisp _ | branch _ | regList _ | immediate _ | sr | ccr | usp => True

/-- Offset and width are registers or numbers of a long word. -/
structure Bitfield.WellFormed (b : Bitfield) : Prop where
  offset : if b.offsetIsReg then b.offset ≤ 7 else b.offset ≤ 31
  width : if b.widthIsReg then b.width ≤ 7 else 1 ≤ b.width ∧ b.width ≤ 32

def Opcode.isBitfield : Opcode -> Bool
  | bftst | bfextu | bfchg | bfexts | bfclr | bfffo | bfset | bfins => true
  | _ => false

namespace Operation

/-- The bit fields that are present. -/
def fields (o : Operation) : List Bitfield :=
  [o.firstField, o.secondField].filterMap id

/-- Operands have no gaps between them, and all parts are in range. -/
structure WellFormed (o : Operation) : Prop where
  second : o.second.isSome = true -> o.first.isSome = true
  third : o.third.isSome = true -> o.second.isSome = true
  operands : ∀ x ∈ o.present, x.WellFormed
  fields : ∀ b ∈ o.fields, b.WellFormed
  isBitfield : o.opcode.isBitfield = !o.fields.isEmpty

end Operation

/-! ## Operands -/

section

variable {cpu : Cpu} {x : Operand}

theorem Index.Encoded.wellFormed {i : Index} (hi : i.Encoded cpu) : i.WellFormed :=
  ⟨hi.reg, Nat.le_of_lt_succ hi.scale_lt⟩

theorem FullExt.Encoded.wellFormed {base : Decoder.Base} {e : FullExt}
    (he : e.Encoded cpu base) : e.WellFormed := by
  have hbase : e.base = .pc ∨ ∃ n, e.base = .a n := by
    rw [he.base_eq]
    cases base with
    | pc => exact Or.inl rfl
    | addr n => exact Or.inr ⟨n, rfl⟩
  cases hindex : e.hasIndex with
  | true =>
      have hi := (he.index hindex).wellFormed
      exact ⟨hbase, by simpa [hindex] using hi.reg, hi.scale_le⟩
  | false =>
      have hi := he.suppressed hindex
      exact ⟨hbase, by simp [hindex, hi], by simp [hi]⟩

theorem FullOperand.wellFormed {base : Decoder.Base} (hx : FullOperand cpu base x) :
    x.WellFormed := by
  cases hx with
  | direct he | preIndexed he h | postIndexed he h | memory he h => exact he.wellFormed

theorem Addressing.wellFormed {m : Mode} (hx : Addressing cpu m x) : x.WellFormed := by
  cases hx with
  | dataReg r | addrReg r | indirect r | postInc r | preDec r | disp r d =>
      exact Nat.le_of_lt_succ r.isLt
  | index r d hi => exact ⟨Nat.le_of_lt_succ r.isLt, hi.wellFormed⟩
  | indexFull r h020 hx | pcIndexFull h020 hx => exact hx.wellFormed
  | pcIndex d hi => exact hi.wellFormed
  | absWord | absLong | pcDisp | immediate => exact trivial

theorem Available.wellFormed (hx : Available cpu x) : x.WellFormed := by
  cases hx with
  | addressed hx => exact hx.wellFormed
  | controlReg hcode => exact mem_of_hasControlReg hcode
  | regPair r s => exact ⟨Nat.le_of_lt_succ r.isLt, Nat.le_of_lt_succ s.isLt⟩
  | indirectPair hm hn =>
      exact ⟨Decoder.exists_ofNumber_eq hm, Decoder.exists_ofNumber_eq hn⟩
  | sr | ccr | usp | branch | regList => exact trivial

end

/-! ## Bit fields -/

theorem Bitfield.wellFormed_bitfieldOf (ext : UInt16) : (Decoder.bitfieldOf ext).WellFormed := by
  have hoffset : Word16.field ext 6 3 < 8 := bits_lt _ 6 3
  have hoffset' : Word16.field ext 6 5 < 32 := bits_lt _ 6 5
  have hwidth : Word16.field ext 0 3 < 8 := bits_lt _ 0 3
  have hwidth' : Word16.field ext 0 5 < 32 := bits_lt _ 0 5
  constructor
  · simp only [Decoder.bitfieldOf]
    split <;> omega
  · simp only [Decoder.bitfieldOf]
    split
    · omega
    · split <;> omega

/-! ## Operations -/

theorem isBitfield_of_mem (b : Bool) {ops : List Opcode} (hops : ∀ op ∈ ops, op.isBitfield = b)
    {op : Opcode} (hop : op ∈ ops) : op.isBitfield = b :=
  hops op hop

namespace Repertoire

variable {cpu : Cpu} {o : Operation}

/-- The operations on bit fields are those that have one. -/
theorem isBitfield_eq (h : Repertoire cpu o) : o.opcode.isBitfield = !o.fields.isEmpty := by
  cases h with
  | bitfieldRead h020 hop | bitfieldChange h020 hop => exact isBitfield_of_mem true (by decide) hop
  | immediate hop | quick hop | bitStatic hop | bitDynamic hop | bounds h020 hop | logicLoad hop
  | dataLoad hop | dataStore hop | addressLoad hop | packedRegisters h020 hop
  | packedMemory h020 hop | multiplyWord hop | multiplyLong h020 hop | multiplyPair h020 hop
  | shiftRegister hop | shiftMemory hop | single hop | byteSingle hop | control hop | plain hop =>
      exact isBitfield_of_mem false (by decide) hop
  | immediateToCcr hop | immediateToSr hop =>
      exact isBitfield_of_mem false (by decide) (mem_of_worksOnStatus hop)
  | extendedRegisters h | extendedMemory h =>
      rcases h with ⟨hop, _⟩ | ⟨hop, _⟩ <;> exact isBitfield_of_mem false (by decide) hop
  | _ => rfl

theorem fields_wellFormed (h : Repertoire cpu o) : ∀ b ∈ o.fields, b.WellFormed := by
  intro b hb
  cases h with
  | bitfieldRead h020 hop hx r ext | bitfieldInsert h020 hx r ext
  | bitfieldChange h020 hop hx ext =>
      cases List.mem_singleton.1 hb
      exact Bitfield.wellFormed_bitfieldOf ext
  | _ => cases hb

theorem wellFormed (h : Repertoire cpu o) : o.WellFormed where
  second := by
    cases h <;> simp [Operation.nullary, Operation.unary, Operation.binary, Operation.ternary]
  third := by
    cases h <;> simp [Operation.nullary, Operation.unary, Operation.binary, Operation.ternary]
  operands := by
    intro x hx
    exact (h.available x hx).wellFormed
  fields := h.fields_wellFormed
  isBitfield := h.isBitfield_eq

end Repertoire

end M68k
end Disassembler
