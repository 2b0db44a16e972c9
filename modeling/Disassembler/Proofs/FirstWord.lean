import Disassembler.Proofs.Dsp56k.FirstWord
import Disassembler.Proofs.M68k.FirstWord

/-!
# Instructions with the same first word

On the 68000, the 68010 and the signal processor nothing after the first word of
an instruction has an influence on how long it is.
-/

namespace Disassembler

/-- On a 68000 or a 68010, instructions with the same first word have the same
length.  On a signal processor they also have the same operation and operands of
the same kinds, and whether there is an instruction at all depends on the first word
and the number of words. -/
theorem leadingWord_determines :
    (∀ (cpu : M68k.Cpu) (bytes bytes' : Bytes), cpu = .m68000 ∨ cpu = .m68010 ->
      M68k.leadingWord bytes = M68k.leadingWord bytes' ->
        (M68k.decode cpu bytes).opcode ≠ .data -> (M68k.decode cpu bytes').opcode ≠ .data ->
          (M68k.decode cpu bytes).length = (M68k.decode cpu bytes').length) ∧
    ∀ words words' : List Word24, Dsp56k.leadingWord words = Dsp56k.leadingWord words' ->
      let inst := Dsp56k.decode words
      let inst' := Dsp56k.decode words'
      (inst.opcode ≠ .data -> inst'.opcode ≠ .data ->
        inst.length = inst'.length ∧ inst.opcode = inst'.opcode ∧
          inst.negated = inst'.negated ∧ inst.kinds = inst'.kinds) ∧
      (words.length = words'.length -> (inst.opcode = .data ↔ inst'.opcode = .data)) := by
  constructor
  · intro cpu bytes bytes' hcpu hfirst h h'
    have h020 : cpu.is020 = false := by
      rcases hcpu with rfl | rfl <;> rfl
    exact M68k.decode_length_eq_of_leadingWord h020 hfirst h h'
  · intro words words' hfirst inst inst'
    constructor
    · intro h h'
      rcases Dsp56k.decode_sameForm hfirst h h' with ⟨hlength, hform⟩
      exact ⟨hlength, hform.opcode, hform.negated, hform.kinds⟩
    · intro hlength
      exact Dsp56k.decode_opcode_eq_data_iff hfirst hlength

/-- A move of immediate data, and a jump to an address of its own word. -/
theorem leadingWord_determines_immediate :
    (let bytes : Bytes := [0x20, 0x3c, 0x00, 0x00, 0x00, 0x01]
      let bytes' : Bytes := [0x20, 0x3c, 0xff, 0xff, 0x4e, 0x71, 0x4e, 0x75]
      (M68k.decode .m68000 bytes).length = 6 ∧ (M68k.decode .m68000 bytes').length = 6) ∧
    (let words : List Word24 := [0x0af080, 0x000100]
      let words' : List Word24 := [0x0af080, 0xffffff]
      (Dsp56k.decode words).opcode = .jmp ∧ (Dsp56k.decode words').opcode = .jmp ∧
        (Dsp56k.decode words).kinds = (Dsp56k.decode words').kinds) := by
  have hfirst := leadingWord_determines.1 .m68000 [0x20, 0x3c, 0x00, 0x00, 0x00, 0x01]
    [0x20, 0x3c, 0xff, 0xff, 0x4e, 0x71, 0x4e, 0x75] (by decide) (by decide) (by decide)
    (by decide)
  have hsecond := leadingWord_determines.2 [0x0af080, 0x000100] [0x0af080, 0xffffff] (by decide)
  have hdata := (not_congr (hsecond.2 (by decide))).1 (by decide)
  have hform := hsecond.1 (by decide) hdata
  have hsix : (M68k.decode .m68000 [0x20, 0x3c, 0x00, 0x00, 0x00, 0x01]).length = 6 := by decide
  have hjmp : (Dsp56k.decode [0x0af080, 0x000100]).opcode = .jmp := by decide
  exact ⟨⟨hsix, hfirst ▸ hsix⟩, hjmp, hform.2.1 ▸ hjmp, hform.2.2.2⟩

end Disassembler
