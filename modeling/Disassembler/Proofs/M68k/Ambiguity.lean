import Disassembler.Proofs.M68k.InstructionReader
import Disassembler.Proofs.M68k.Operand

/-!
# Unambiguous text

On the 68000 and the 68010 the text of an instruction tells everything about its
operation: the reader gets the operation back from the text, so two instructions
with the same text do the same.
-/

namespace Disassembler
namespace M68k

open Reader (IsBrief IsPlain Readable ReadableOperation contextOf)

/-! ## Operands -/

theorem Index.Encoded.isBrief {cpu : Cpu} (h020 : cpu.is020 = false) {i : Index}
    (hi : i.Encoded cpu) : IsBrief i := by
  refine ⟨?_, hi.reg⟩
  rcases hi.scale_eq with h | h
  · rw [h020] at h
    cases h
  · exact h

/-- Without full extension words every operand is spelled alike everywhere. -/
theorem Addressing.isPlain {cpu : Cpu} (h020 : cpu.is020 = false) {m : Mode} {x : Operand}
    (hx : Addressing cpu m x) : IsPlain x := by
  cases hx with
  | dataReg r | addrReg r | indirect r | postInc r | preDec r | disp r d => exact r.isLt
  | index r d hi => exact ⟨r.isLt, hi.isBrief h020⟩
  | indexFull r h hx | pcIndexFull h hx =>
      rw [h020] at h
      cases h
  | absWord a | absLong a | pcDisp d | immediate v => exact trivial
  | pcIndex d hi => exact hi.isBrief h020

theorem Accepts.isPlain {cpu : Cpu} (h020 : cpu.is020 = false) {allowed : Mode -> Bool}
    {x : Operand} (hx : Accepts cpu allowed x) : IsPlain x := by
  rcases hx with ⟨m, _, hx⟩
  exact hx.isPlain h020

/-- Operands of a multiple move are in memory. -/
theorem Accepts.readable_list {cpu : Cpu} (h020 : cpu.is020 = false) {allowed : Mode -> Bool}
    (hd : allowed .dataReg = false) (ha : allowed .addrReg = false) {x : Operand}
    (hx : Accepts cpu allowed x) : Readable .list x := by
  rcases hx with ⟨m, hm, hx⟩
  refine Readable.memory (hx.isPlain h020) ?_ ?_
  · rintro r rfl
    cases hx with
    | dataReg r => rw [hd] at hm; cases hm
    | indexFull r h hx | pcIndexFull h hx => cases hx
  · rintro r rfl
    cases hx with
    | addrReg r => rw [ha] at hm; cases hm
    | indexFull r h hx | pcIndexFull h hx => cases hx

theorem IsRegister.isPlain {x : Operand} (hx : IsRegister x) : IsPlain x := by
  rcases hx with ⟨r, rfl | rfl⟩
  · exact r.isLt
  · exact r.isLt

theorem IsRegister.readable_control {x : Operand} (hx : IsRegister x) : Readable .control x := by
  rcases hx with ⟨r, rfl | rfl⟩
  · exact Readable.dataReg r
  · exact Readable.addrReg r

/-! ## Operations -/

/-- Opcodes whose operands are spelled alike everywhere. -/
def IsGeneral (op : Opcode) : Prop :=
  op ∈ Opcode.all ∧ op ∉ [.data, .illegal, .movem] ∧ contextOf op = .general

instance (op : Opcode) : Decidable (IsGeneral op) :=
  inferInstanceAs (Decidable (_ ∧ _))

theorem IsGeneral.of_mem {ops : List Opcode} (hops : ∀ op ∈ ops, IsGeneral op) {op : Opcode}
    (hop : op ∈ ops) : IsGeneral op :=
  hops op hop

theorem IsGeneral.unary {op : Opcode} (hop : IsGeneral op) (size : Suffix) {x : Operand}
    (hx : IsPlain x) : ReadableOperation (.unary op size x) := by
  refine ReadableOperation.unary size hop.1 hop.2.1 ?_
  rw [hop.2.2]
  exact Readable.general hx

theorem IsGeneral.binary {op : Opcode} (hop : IsGeneral op) (size : Suffix) {x y : Operand}
    (hx : IsPlain x) (hy : IsPlain y) : ReadableOperation (.binary op size x y) := by
  refine ReadableOperation.binary size hop.1 ?_ ?_ ?_
  · have hop' := hop.2.1
    simp only [List.mem_cons, List.not_mem_nil, or_false, not_or] at hop' ⊢
    exact ⟨hop'.1, hop'.2.1⟩
  · rw [hop.2.2]
    exact Readable.general hx
  · rw [hop.2.2]
    exact Readable.general hy

theorem isGeneral_of_worksOnStatus {op : Opcode} (hop : Decoder.worksOnStatus op = true) :
    IsGeneral op := by
  unfold Decoder.worksOnStatus at hop
  split at hop
  · decide
  · decide
  · decide
  · cases hop

theorem isGeneral_set (c : Condition) : IsGeneral (.set c) := by
  cases c <;> decide

theorem loop_mem (c : Condition) : Opcode.loop c ∈ Opcode.all := by
  cases c <;> decide

theorem branch_mem {c : Condition} (hc : c ≠ .f) : Opcode.branch c ∈ Opcode.all := by
  cases c with
  | f => exact absurd rfl hc
  | _ => decide

theorem readable_nullary {ops : List Opcode} (hops : ∀ op ∈ ops, op ∈ Opcode.all ∧ op ≠ .data)
    {op : Opcode} {size : Suffix} (hop : op ∈ ops) : ReadableOperation (.nullary op size) :=
  ReadableOperation.nullary size (hops op hop).1 (hops op hop).2

/-- Every operation before the 68020 is known to the reader. -/
theorem Repertoire.readable {cpu : Cpu} (h020 : cpu.is020 = false) {o : Operation}
    (h : Repertoire cpu o) : ReadableOperation o := by
  have hnot : cpu.is020 ≠ true := by simp [h020]
  -- Only the moves of control registers, the multiple moves and the branches have
  -- operands of their own.
  cases h with
  | immediate hop hsize hx =>
      exact (IsGeneral.of_mem (by decide) hop).binary _ trivial (hx.isPlain h020)
  | immediateToCcr hop | immediateToSr hop =>
      exact (isGeneral_of_worksOnStatus hop).binary _ trivial trivial
  | moveq r => exact IsGeneral.binary (by decide) _ trivial r.isLt
  | quick hop hsize hx =>
      exact (IsGeneral.of_mem (by decide) hop).binary _ trivial (hx.isPlain h020)
  | bitStatic hop hx =>
      exact (IsGeneral.of_mem (by decide) hop).binary _ trivial (hx.isPlain h020)
  | bitDynamic hop r hx =>
      exact (IsGeneral.of_mem (by decide) hop).binary _ r.isLt (hx.isPlain h020)
  | bounds h | cas h | cas2 h | packedRegisters h | packedMemory h | multiplyLong h
  | multiplyPair h | bitfieldRead h | bitfieldInsert h | bitfieldChange h | extb h | trapOn h
  | trapOnImmediate h => exact absurd h hnot
  | move hsize hx hy =>
      exact IsGeneral.binary (by decide) _ (hx.isPlain h020) (hy.isPlain h020)
  | movea hsize hx r | lea hx r | chk hsize hx r =>
      exact IsGeneral.binary (by decide) _ (hx.isPlain h020) r.isLt
  | moveToUsp r => exact IsGeneral.binary (by decide) _ r.isLt trivial
  | moveFromUsp r => exact IsGeneral.binary (by decide) _ trivial r.isLt
  | moveFromSr hx | moveFromCcr h010 hx =>
      exact IsGeneral.binary (by decide) _ trivial (hx.isPlain h020)
  | moveToCcr hx | moveToSr hx =>
      exact IsGeneral.binary (by decide) _ (hx.isPlain h020) trivial
  | movepLoad hsize r s d => exact IsGeneral.binary (by decide) _ r.isLt s.isLt
  | movepStore hsize r s d => exact IsGeneral.binary (by decide) _ s.isLt r.isLt
  | movesLoad h010 hsize hx hr =>
      exact IsGeneral.binary (by decide) _ (hx.isPlain h020) hr.isPlain
  | movesStore h010 hsize hx hr =>
      exact IsGeneral.binary (by decide) _ hr.isPlain (hx.isPlain h020)
  | movemLoad hsize hx mask =>
      exact ReadableOperation.binary _ (by decide) (by decide)
        (hx.readable_list h020 rfl rfl) (Readable.regList mask)
  | movemStore hsize hx mask =>
      exact ReadableOperation.binary _ (by decide) (by decide)
        (Readable.regList mask) (hx.readable_list h020 rfl rfl)
  | movecLoad h010 hcode hr =>
      exact ReadableOperation.binary _ (by decide) (by decide)
        (Readable.controlReg (mem_of_hasControlReg hcode)) hr.readable_control
  | movecStore h010 hcode hr =>
      exact ReadableOperation.binary _ (by decide) (by decide)
        hr.readable_control (Readable.controlReg (mem_of_hasControlReg hcode))
  | exgData r s | exgAddress r s | exgBoth r s | cmpm hsize r s =>
      exact IsGeneral.binary (by decide) _ r.isLt s.isLt
  | logicLoad hop hsize hx r | dataLoad hop hsize hx r | addressLoad hop hsize hx r
  | multiplyWord hop hx r =>
      exact (IsGeneral.of_mem (by decide) hop).binary _ (hx.isPlain h020) r.isLt
  | dataStore hop hsize r hx =>
      exact (IsGeneral.of_mem (by decide) hop).binary _ r.isLt (hx.isPlain h020)
  | eor hsize r hx => exact IsGeneral.binary (by decide) _ r.isLt (hx.isPlain h020)
  | extendedRegisters h r s | extendedMemory h r s =>
      rcases h with ⟨hop, _⟩ | ⟨hop, _⟩ <;>
        exact (IsGeneral.of_mem (by decide) hop).binary _ r.isLt s.isLt
  | shiftRegister hop hsize hx r =>
      rcases hx with ⟨s, rfl⟩ | ⟨v, rfl⟩
      · exact (IsGeneral.of_mem (by decide) hop).binary _ s.isLt r.isLt
      · exact (IsGeneral.of_mem (by decide) hop).binary _ trivial r.isLt
  | shiftMemory hop hx => exact (IsGeneral.of_mem (by decide) hop).unary _ (hx.isPlain h020)
  | single hop hsize hx => exact (IsGeneral.of_mem (by decide) hop).unary _ (hx.isPlain h020)
  | tst hsize hx => exact IsGeneral.unary (by decide) _ (hx.isPlain h020)
  | byteSingle hop hx | control hop hx =>
      exact (IsGeneral.of_mem (by decide) hop).unary _ (hx.isPlain h020)
  | swap r | ext hsize r | unlk r => exact IsGeneral.unary (by decide) _ r.isLt
  | link h r => exact IsGeneral.binary (by decide) _ r.isLt trivial
  | plain hop => exact readable_nullary (by decide) hop
  | stop | rtd h010 | trap | bkpt h010 => exact IsGeneral.unary (by decide) _ trivial
  | branch c hc d h =>
      exact ReadableOperation.unary _ (branch_mem hc) (by simp) (Readable.target d)
  | bsr d h => exact ReadableOperation.unary _ (by decide) (by decide) (Readable.target d)
  | loop c r d =>
      exact ReadableOperation.binary _ (loop_mem c) (by simp) (Readable.counter r)
        (Readable.target d)
  | set c hx => exact (isGeneral_set c).unary _ (hx.isPlain h020)

/-! ## Decoded instructions -/

/-- The operation of a decoded instruction is read back from its text. -/
theorem readOperation_decode {cpu : Cpu} (hcpu : cpu ∈ [.m68000, .m68010]) (bytes : Bytes)
    (addr : UInt32) (style : Style) :
    Reader.readOperation addr ((decode cpu bytes).text addr style).toList =
      some (decode cpu bytes).toOperation := by
  have h020 : cpu.is020 = false := by
    have hall : ∀ cpu ∈ ([.m68000, .m68010] : List Cpu), cpu.is020 = false := by decide
    exact hall cpu hcpu
  rcases decode_cases cpu bytes with ⟨code, rest, _, hcode⟩ | hdata
  · exact Reader.readOperation_text (hcode.repertoire.readable h020) addr style
  · rw [hdata]
    exact Reader.readOperation_data rfl addr style

/-- Two instructions with the same text at the same address have the same opcode,
size, operands and bit fields. -/
theorem text_unambiguous {cpu cpu' : Cpu} (hcpu : cpu ∈ [.m68000, .m68010])
    (hcpu' : cpu' ∈ [.m68000, .m68010]) (bytes bytes' : Bytes) (addr : UInt32) (style : Style)
    (htext : (decode cpu bytes).text addr style = (decode cpu' bytes').text addr style) :
    (decode cpu bytes).toOperation = (decode cpu' bytes').toOperation := by
  have hread := readOperation_decode hcpu bytes addr style
  have hread' := readOperation_decode hcpu' bytes' addr style
  rw [htext, hread'] at hread
  exact (Option.some.inj hread).symm

/-- The high byte of a byte immediate is not shown. -/
theorem text_unambiguous_ori :
    (decode .m68000 [0x00, 0x00, 0xff, 0x12]).text 0x1000 .hex = "ori.b    #$12,d0" ∧
      (decode .m68000 [0x00, 0x00, 0xff, 0x12]).toOperation =
        (decode .m68010 [0x00, 0x00, 0x00, 0x12]).toOperation :=
  ⟨by decide, text_unambiguous (by decide) (by decide) [0x00, 0x00, 0xff, 0x12]
    [0x00, 0x00, 0x00, 0x12] 0x1000 .hex (by decide)⟩

end M68k
end Disassembler
