import Disassembler.Proofs.M68k.Extent

/-!
# Compatibility of the processor models

A later model decodes everything that an earlier one decodes, and to the same
instruction.  The decisions are compared tree by tree: a later model only ever
adds to what is accepted.
-/

namespace Disassembler
namespace M68k

/-! ## The order of the models -/

namespace Cpu

/-- The place of a model in the family. -/
def generation (c : Cpu) : Nat :=
  all.idxOf c

instance : LE Cpu where
  le c c' := c.generation ≤ c'.generation

instance (c c' : Cpu) : Decidable (c ≤ c') :=
  inferInstanceAs (Decidable (c.generation ≤ c'.generation))

/-- The second model has every feature of the first one. -/
structure Covers (c c' : Cpu) : Prop where
  is010 : c.is010 = true -> c'.is010 = true
  is020 : c.is020 = true -> c'.is020 = true

theorem covers_of_le {c c' : Cpu} (h : c ≤ c') : c.Covers c' := by
  constructor
  · intro h010
    revert h h010
    cases c <;> cases c' <;> decide
  · intro h020
    revert h h020
    cases c <;> cases c' <;> decide

/-- The last two models have the same features. -/
theorem covers_of_is020 {c c' : Cpu} (h : c'.is020 = true) : c.Covers c' := by
  constructor
  · intro _
    cases c' <;> simp_all [is010, is020]
  · intro _
    exact h

end Cpu

namespace Decoder

open Word16 (bit field)
open Fetch (ExtendedBy extendedBy_ensure)

variable {c c' : Cpu}

/-! ## Operands -/

theorem indexed_extended (h : c.Covers c') (base : Base) :
    (indexed c base).ExtendedBy (indexed c' base) := by
  apply (ExtendedBy.refl Fetch.nextAt).bind
  rintro ⟨i, ext⟩
  dsimp only
  split
  · apply (extendedBy_ensure h.is020).bind
    intro _
    exact ExtendedBy.refl _
  · apply ExtendedBy.bind
    · apply extendedBy_ensure
      simp only [Bool.or_eq_true]
      exact Or.imp_left h.is020
    · intro _
      exact ExtendedBy.refl _

theorem operand_extended (h : c.Covers c') (mode : Mode) (reg : Fin 8) (size : Suffix) :
    (operand c mode reg size).ExtendedBy (operand c' mode reg size) := by
  cases mode with
  | index => exact indexed_extended h (.addr reg)
  | pcIndex => exact indexed_extended h .pc
  | dataReg | addrReg | indirect | postInc | preDec | disp | absWord | absLong | pcDisp
  | immediate => exact ExtendedBy.refl _

/-- A later model may allow more addressing modes. -/
theorem operandOf_extended (h : c.Covers c') (mode reg : Fin 8) (size : Suffix)
    {allowed allowed' : Mode -> Bool} (hallowed : ∀ m, allowed m = true -> allowed' m = true) :
    (operandOf c mode reg size allowed).ExtendedBy (operandOf c' mode reg size allowed') := by
  unfold operandOf
  cases Mode.ofFields? mode.val reg.val with
  | none => exact ExtendedBy.refl _
  | some m =>
      cases hm : allowed m with
      | false =>
          simp only [hm, Bool.false_eq_true, if_false]
          exact ExtendedBy.fail _
      | true =>
          simp only [hm, hallowed m hm, if_true]
          exact operand_extended h m reg size

theorem effective_extended (h : c.Covers c') {w : UInt16} {size : Suffix}
    {allowed : Mode -> Bool} :
    (effective c w size allowed).ExtendedBy (effective c' w size allowed) :=
  operandOf_extended h _ _ size fun _ hm => hm

/-- An effective address that completes the operation. -/
theorem effective_then_extended (h : c.Covers c') {w : UInt16} {size : Suffix}
    {allowed : Mode -> Bool} {g : Operand -> Operation} :
    ((effective c w size allowed).bind fun x => .done (g x)).ExtendedBy
      ((effective c' w size allowed).bind fun x => .done (g x)) :=
  (effective_extended h).bind fun _ => ExtendedBy.refl _

/-- An extension word before what a later model extends. -/
theorem next_then_extended {f f' : UInt16 -> Decoder Operation}
    (h : ∀ ext, (f ext).ExtendedBy (f' ext)) :
    (Fetch.next.bind f).ExtendedBy (Fetch.next.bind f') :=
  (ExtendedBy.refl Fetch.next).bind h

/-- A condition on the model before what a later model extends. -/
theorem ensure_then_extended {b b' : Bool} (hb : b = true -> b' = true)
    {f f' : Decoder Operation} (h : f.ExtendedBy f') :
    ((Fetch.ensure b).bind fun _ => f).ExtendedBy ((Fetch.ensure b').bind fun _ => f') :=
  (extendedBy_ensure hb).bind fun _ => h

/-! ## The digit 0 -/

theorem bounds_extended (h : c.Covers c') (w : UInt16) :
    (bounds c w).ExtendedBy (bounds c' w) := by
  apply ensure_then_extended h.is020
  dsimp only
  split
  · exact next_then_extended fun _ => effective_then_extended h
  · exact next_then_extended fun _ => effective_then_extended h
  · exact next_then_extended fun _ => effective_then_extended h
  · exact ExtendedBy.fail _

theorem compareSwap_extended (h : c.Covers c') (w : UInt16) :
    (compareSwap c w).ExtendedBy (compareSwap c' w) := by
  have hbody (size : Suffix) :
      (if field w 0 6 = 0x3c then
        (Fetch.ensure (size != .byte)).bind fun _ => compareSwap2 size
      else Fetch.next.bind fun ext =>
        (effective c w size Mode.isMemoryAlterable).bind fun dst =>
          .done (.ternary .cas size (dataRegOf ext 0) (dataRegOf ext 6) dst)).ExtendedBy
      (if field w 0 6 = 0x3c then
        (Fetch.ensure (size != .byte)).bind fun _ => compareSwap2 size
      else Fetch.next.bind fun ext =>
        (effective c' w size Mode.isMemoryAlterable).bind fun dst =>
          .done (.ternary .cas size (dataRegOf ext 0) (dataRegOf ext 6) dst)) := by
    split
    · exact ExtendedBy.refl _
    · exact next_then_extended fun _ => effective_then_extended h
  apply ensure_then_extended h.is020
  dsimp only
  split
  · exact hbody .byte
  · exact hbody .word
  · exact hbody .long
  · exact ExtendedBy.fail _

theorem immediateTarget_mono (h : c.Covers c') (op : Opcode) (m : Mode)
    (hm : immediateTarget c op m = true) : immediateTarget c' op m = true := by
  have h020 := h.is020
  unfold immediateTarget at hm ⊢
  by_cases hop : op = .cmpi
  · cases h1 : c.is020 <;> cases h2 : c'.is020 <;> simp_all
    revert hm
    cases m <;> decide
  · simp_all

theorem immediateSized_extended (h : c.Covers c') (w : UInt16) (op : Opcode) (size : Suffix) :
    (immediateSized c w op size).ExtendedBy (immediateSized c' w op size) := by
  apply (ExtendedBy.refl (immediate size)).bind
  intro imm
  split
  · exact ExtendedBy.refl _
  · apply (operandOf_extended h _ _ size (immediateTarget_mono h op)).bind
    intro _
    exact ExtendedBy.refl _

theorem immediateOp_extended (h : c.Covers c') (w : UInt16) (op : Opcode) :
    (immediateOp c w op).ExtendedBy (immediateOp c' w op) := by
  unfold immediateOp
  cases sizeField? w with
  | some size => exact immediateSized_extended h w op size
  | none =>
      dsimp only
      unfold immediateUnsized
      split
      · exact bounds_extended h w
      · exact bounds_extended h w
      · exact bounds_extended h w
      · exact compareSwap_extended h w
      · exact compareSwap_extended h w
      · exact ExtendedBy.refl _

theorem moveSpace_extended (h : c.Covers c') (w : UInt16) :
    (moveSpace c w).ExtendedBy (moveSpace c' w) := by
  apply ensure_then_extended h.is010
  cases sizeField? w with
  | none => exact ExtendedBy.refl _
  | some size => exact next_then_extended fun _ => effective_then_extended h

theorem line0_extended (h : c.Covers c') (w : UInt16) :
    (line0 c w).ExtendedBy (line0 c' w) := by
  unfold line0
  split
  · split
    · exact ExtendedBy.refl _
    · exact effective_then_extended h
  · split
    · exact immediateOp_extended h w .ori
    · exact immediateOp_extended h w .andi
    · exact immediateOp_extended h w .subi
    · exact immediateOp_extended h w .addi
    · exact next_then_extended fun _ => effective_then_extended h
    · exact immediateOp_extended h w .eori
    · exact immediateOp_extended h w .cmpi
    · split
      · exact compareSwap_extended h w
      · exact moveSpace_extended h w

/-! ## Moves -/

theorem moveSized_extended (h : c.Covers c') (w : UInt16) (size : Suffix) :
    (moveSized c w size).ExtendedBy (moveSized c' w size) := by
  apply (effective_extended h).bind
  intro src
  split
  · exact ExtendedBy.refl _
  · apply (operandOf_extended h _ _ size fun _ hm => hm).bind
    intro _
    exact ExtendedBy.refl _

theorem moveMultiple_extended (h : c.Covers c') (w : UInt16) :
    (moveMultiple c w).ExtendedBy (moveMultiple c' w) := by
  apply next_then_extended
  intro mask
  split
  · exact effective_then_extended h
  · exact effective_then_extended h

theorem hasControlReg_mono (h : c.Covers c') (code : UInt16)
    (hcode : hasControlReg c code = true) : hasControlReg c' code = true := by
  unfold hasControlReg at hcode ⊢
  split
  · rfl
  · rename_i hearly
    rw [if_neg hearly] at hcode
    split
    · rename_i hlate
      rw [if_pos hlate] at hcode
      exact h.is020 hcode
    · rename_i hlate
      rw [if_neg hlate] at hcode
      exact hcode

theorem moveControl_extended (h : c.Covers c') (w : UInt16) :
    (moveControl c w).ExtendedBy (moveControl c' w) := by
  apply ensure_then_extended h.is010
  apply next_then_extended
  intro ext
  apply ensure_then_extended (hasControlReg_mono h _)
  exact ExtendedBy.refl _

/-! ## Arithmetic and logic -/

theorem packed_extended (h : c.Covers c') (w : UInt16) (op : Opcode) :
    (packed c w op).ExtendedBy (packed c' w op) :=
  ensure_then_extended h.is020 (ExtendedBy.refl _)

theorem logic_extended (h : c.Covers c') (w : UInt16) (op : Opcode) :
    (logic c w op).ExtendedBy (logic c' w op) := by
  unfold logic
  cases sizeField? w with
  | none => exact ExtendedBy.refl _
  | some size =>
      dsimp only
      split
      · exact effective_then_extended h
      · exact effective_then_extended h

theorem line8_extended (h : c.Covers c') (w : UInt16) :
    (line8 c w).ExtendedBy (line8 c' w) := by
  unfold line8
  dsimp only
  split
  · exact effective_then_extended h
  · exact effective_then_extended h
  · split
    · exact ExtendedBy.refl _
    · exact logic_extended h w .or
  · split
    · exact packed_extended h w .pack
    · exact logic_extended h w .or
  · split
    · exact packed_extended h w .unpk
    · exact logic_extended h w .or
  · exact logic_extended h w .or

theorem lineC_extended (h : c.Covers c') (w : UInt16) :
    (lineC c w).ExtendedBy (lineC c' w) := by
  unfold lineC
  split
  · exact ExtendedBy.refl _
  · exact ExtendedBy.refl _
  · exact ExtendedBy.refl _
  · exact effective_then_extended h
  · exact effective_then_extended h
  · exact ExtendedBy.refl _
  · exact ExtendedBy.refl _
  · exact logic_extended h w .and

theorem addSub_extended (h : c.Covers c') (w : UInt16) (op opAddr opExtend : Opcode) :
    (addSub c w op opAddr opExtend).ExtendedBy (addSub c' w op opAddr opExtend) := by
  unfold addSub
  cases sizeField? w with
  | none => exact effective_then_extended h
  | some size =>
      dsimp only
      split
      · split
        · exact ExtendedBy.refl _
        · exact effective_then_extended h
      · exact effective_then_extended h

theorem lineB_extended (h : c.Covers c') (w : UInt16) :
    (lineB c w).ExtendedBy (lineB c' w) := by
  unfold lineB
  cases sizeField? w with
  | none => exact effective_then_extended h
  | some size =>
      dsimp only
      split
      · split
        · exact ExtendedBy.refl _
        · exact effective_then_extended h
      · exact effective_then_extended h

theorem longExtension_extended (h : c.Covers c') :
    (longExtension c).ExtendedBy (longExtension c') :=
  (extendedBy_ensure h.is020).bind fun _ => ExtendedBy.refl _

theorem multiplyLong_extended (h : c.Covers c') (w : UInt16) :
    (multiplyLong c w).ExtendedBy (multiplyLong c' w) :=
  (longExtension_extended h).bind fun _ => effective_then_extended h

theorem divideLong_extended (h : c.Covers c') (w : UInt16) :
    (divideLong c w).ExtendedBy (divideLong c' w) :=
  (longExtension_extended h).bind fun _ => effective_then_extended h

/-! ## Branches, loops, shifts and bit fields -/

theorem line6_extended (h : c.Covers c') (w : UInt16) :
    (line6 c w).ExtendedBy (line6 c' w) := by
  unfold line6
  dsimp only
  split
  · exact ExtendedBy.refl _
  · exact ensure_then_extended h.is020 (ExtendedBy.refl _)
  · exact ExtendedBy.refl _

theorem line5_extended (h : c.Covers c') (w : UInt16) :
    (line5 c w).ExtendedBy (line5 c' w) := by
  unfold line5
  cases sizeField? w with
  | some size => exact effective_then_extended h
  | none =>
      dsimp only
      unfold conditional
      dsimp only
      split
      · exact ExtendedBy.refl _
      · split
        · exact ensure_then_extended h.is020 (ExtendedBy.refl _)
        · exact effective_then_extended h

theorem lineE_extended (h : c.Covers c') (w : UInt16) :
    (lineE c w).ExtendedBy (lineE c' w) := by
  unfold lineE
  cases sizeField? w with
  | some size => exact ExtendedBy.refl _
  | none =>
      dsimp only
      split
      · apply ensure_then_extended h.is020
        exact next_then_extended fun _ => effective_then_extended h
      · exact effective_then_extended h

/-! ## The digit 4 -/

/-- Two optional decisions on the same encodings, of which the second one
accepts more. -/
inductive OptionExtended : Option (Decoder Operation) -> Option (Decoder Operation) -> Prop
  | none : OptionExtended none none
  | some {d d' : Decoder Operation} (h : d.ExtendedBy d') : OptionExtended (some d) (some d')

/-- The first of two optional decisions that is there. -/
theorem OptionExtended.orElse {d d' e e' : Option (Decoder Operation)}
    (hd : OptionExtended d d') (he : OptionExtended e e') :
    OptionExtended (d <|> e) (d' <|> e') := by
  cases hd with
  | none => exact he
  | some h => exact OptionExtended.some h

theorem OptionExtended.getD {d d' : Option (Decoder Operation)} (hd : OptionExtended d d')
    {e e' : Decoder Operation} (he : e.ExtendedBy e') : (d.getD e).ExtendedBy (d'.getD e') := by
  cases hd with
  | none => exact he
  | some h => exact h

theorem fixed_extended (h : c.Covers c') (w : UInt16) :
    OptionExtended (fixed? c w) (fixed? c' w) := by
  unfold fixed?
  split
  case h_6 => exact OptionExtended.some (ensure_then_extended h.is010 (ExtendedBy.refl _))
  case h_10 => exact OptionExtended.some (moveControl_extended h w)
  case h_11 => exact OptionExtended.some (moveControl_extended h w)
  case h_12 => exact OptionExtended.none
  all_goals exact OptionExtended.some (ExtendedBy.refl _)

theorem numbered_extended (h : c.Covers c') (w : UInt16) :
    OptionExtended (numbered? c w) (numbered? c' w) := by
  unfold numbered?
  dsimp only
  split
  case h_4 => exact OptionExtended.some (ensure_then_extended h.is020 (ExtendedBy.refl _))
  case h_9 => exact OptionExtended.some (ensure_then_extended h.is010 (ExtendedBy.refl _))
  case h_12 => exact OptionExtended.some (ensure_then_extended h.is020 (ExtendedBy.refl _))
  case h_13 => exact OptionExtended.none
  all_goals exact OptionExtended.some (ExtendedBy.refl _)

theorem addressed_extended (h : c.Covers c') (w : UInt16) :
    OptionExtended (addressed? c w) (addressed? c' w) := by
  unfold addressed?
  split
  case h_7 =>
    exact OptionExtended.some (ensure_then_extended h.is010 (effective_then_extended h))
  case h_10 => exact OptionExtended.some (multiplyLong_extended h w)
  case h_11 => exact OptionExtended.some (divideLong_extended h w)
  case h_16 => exact OptionExtended.none
  case h_12 | h_13 | h_14 | h_15 => exact OptionExtended.some (moveMultiple_extended h w)
  all_goals exact OptionExtended.some (effective_then_extended h)

theorem checked_extended (h : c.Covers c') (w : UInt16) :
    OptionExtended (checked? c w) (checked? c' w) := by
  unfold checked?
  split
  · exact OptionExtended.some (effective_then_extended h)
  · exact OptionExtended.some (effective_then_extended h)
  · exact OptionExtended.some (ensure_then_extended h.is020 (effective_then_extended h))
  · exact OptionExtended.none

/-- From the 68020 on a test looks at more operands. -/
theorem testTarget_mono (h : c.Covers c') (size : Suffix) (m : Mode)
    (hm : testTarget c size m = true) : testTarget c' size m = true := by
  have h020 := h.is020
  unfold testTarget at hm ⊢
  cases h1 : c.is020 <;> cases h2 : c'.is020 <;> simp_all [anySource]
  right
  revert hm
  cases m <;> decide

theorem sizedSingle_extended (h : c.Covers c') (w : UInt16) :
    (sizedSingle c w).ExtendedBy (sizedSingle c' w) := by
  unfold sizedSingle
  split
  · exact effective_then_extended h
  · exact effective_then_extended h
  · exact effective_then_extended h
  · exact effective_then_extended h
  · apply (operandOf_extended h _ _ _ (testTarget_mono h _)).bind
    intro _
    exact ExtendedBy.refl _
  · exact ExtendedBy.refl _

theorem line4_extended (h : c.Covers c') (w : UInt16) :
    (line4 c w).ExtendedBy (line4 c' w) := by
  apply OptionExtended.getD
  · apply (fixed_extended h w).orElse
    apply (numbered_extended h w).orElse
    exact (addressed_extended h w).orElse (checked_extended h w)
  · exact sizedSingle_extended h w

/-! ## The line -/

/-- A later model accepts every first word, with the words after it, that an
earlier one accepts. -/
theorem line_extended (h : c.Covers c') (w : UInt16) : (line c w).ExtendedBy (line c' w) := by
  unfold line
  split
  · exact line0_extended h w
  · exact moveSized_extended h w .byte
  · exact moveSized_extended h w .long
  · exact moveSized_extended h w .word
  · exact line4_extended h w
  · exact line5_extended h w
  · exact line6_extended h w
  · exact ExtendedBy.refl _
  · exact line8_extended h w
  · exact addSub_extended h w .sub .suba .subx
  · exact lineB_extended h w
  · exact lineC_extended h w
  · exact addSub_extended h w .add .adda .addx
  · exact lineE_extended h w
  · exact ExtendedBy.refl _

end Decoder

/-! ## Instructions -/

variable {c c' : Cpu}

/-- Bytes of an instruction are bytes of the same instruction on a model with
more features. -/
theorem Encodes.extended (h : c.Covers c') {code : Bytes} {inst : Instruction}
    (hcode : Encodes c code inst) : Encodes c' code inst := by
  cases hcode with
  | @intro high low tail o heven hreads =>
      have hrun := hreads.run_append []
      have hrun' := (Decoder.line_extended h _).run_eq_some hrun
      rcases Fetch.exists_reads_of_run hrun' with ⟨ys, zs, hwords, hn, hreads'⟩
      rw [List.append_nil] at hwords
      have hys : ys = Word16.ofByteList tail := by
        have hzs : zs.length = 0 := by
          have := congrArg List.length hwords
          simp only [List.length_append] at this
          omega
        rw [hwords, List.length_eq_zero_iff.1 hzs, List.append_nil]
      rw [hys] at hreads'
      exact Encodes.intro heven hreads'

theorem decode_extended (h : c.Covers c') {bytes : Bytes}
    (hop : (decode c bytes).opcode ≠ .data) : decode c' bytes = decode c bytes := by
  have hcode := (encodes_take hop).2.extended h
  have heq := hcode.decode_append (bytes.drop (decode c bytes).length)
  rwa [List.take_append_drop] at heq

/-- Models are upward compatible: what an earlier model decodes to an
instruction, a later one decodes to the same instruction.  The last two models
decode everything alike. -/
theorem decode_upward_compatible (cursor : Cursor UInt8) :
    (∀ c c' : Cpu, c ≤ c' -> (decode c cursor.rest).opcode ≠ .data ->
      decode c' cursor.rest = decode c cursor.rest) ∧
    decode .m68030 cursor.rest = decode .m68020 cursor.rest := by
  constructor
  · intro c c' hle hop
    exact decode_extended (Cpu.covers_of_le hle) hop
  · by_cases hop : (decode .m68020 cursor.rest).opcode = .data
    · by_cases hop' : (decode .m68030 cursor.rest).opcode = .data
      · rw [decode_eq_data hop, decode_eq_data hop']
      · exact (decode_extended (Cpu.covers_of_is020 rfl) hop').symm
    · exact decode_extended (Cpu.covers_of_is020 rfl) hop

/-- A test of a data register, whose encoding has more operands on the later
model. -/
theorem decode_upward_compatible_tst :
    let cursor := Cursor.ofList [0x4a, 0x45, 0x4e];
    Cpu.m68010 ≤ Cpu.m68020 ∧ (decode .m68010 cursor.rest).opcode = .tst ∧
      decode .m68020 cursor.rest = decode .m68010 cursor.rest := by
  refine ⟨by decide, by decide, ?_⟩
  exact (decode_upward_compatible (Cursor.ofList [0x4a, 0x45, 0x4e])).1 .m68010 .m68020
    (by decide) (by decide)

end M68k
end Disassembler
