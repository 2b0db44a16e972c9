import Disassembler.Proofs.M68k.Repertoire

/-!
# Decoded operations

Each family of first words decodes to operations of the repertoire, after at
most as many extension words as two operands can take.
-/

namespace Disassembler
namespace M68k
namespace Decoder

open Word16 (bit field)

/-- The decisions lead to an operation of the model, after as many extension
words as two operands can take. -/
def Sound (cpu : Cpu) (d : Decoder Operation) : Prop :=
  d.Yields (Repertoire cpu) (2 * operandWords cpu)

theorem sound_done {cpu : Cpu} {o : Operation} (h : Repertoire cpu o) : Sound cpu (.done o) :=
  Fetch.yields_done.2 h

theorem sound_fail {cpu : Cpu} : Sound cpu .fail :=
  Fetch.yields_fail

/-- An effective address that completes the operation. -/
theorem effective_then {cpu : Cpu} {w : UInt16} {size : Suffix} {allowed : Mode -> Bool}
    {g : Operand -> Operation} {n : Nat}
    (hg : ∀ x, Accepts cpu allowed x -> Repertoire cpu (g x)) (hn : operandWords cpu ≤ n) :
    ((effective cpu w size allowed).bind fun x => .done (g x)).Yields (Repertoire cpu) n := by
  refine (effective_yields cpu w size allowed).bind (n := 0) ?_ (by omega)
  intro x hx
  exact Fetch.yields_done.2 (hg x hx)

/-- An effective address, of the first word alone, that completes the
operation. -/
theorem sound_effective {cpu : Cpu} {w : UInt16} {size : Suffix} {allowed : Mode -> Bool}
    {g : Operand -> Operation} (hg : ∀ x, Accepts cpu allowed x -> Repertoire cpu (g x)) :
    Sound cpu ((effective cpu w size allowed).bind fun x => .done (g x)) :=
  effective_then hg (by omega)

/-- An extension word and an effective address that complete the operation. -/
theorem sound_next_effective {cpu : Cpu} {w : UInt16} {size : Suffix} {allowed : Mode -> Bool}
    {g : UInt16 -> Operand -> Operation}
    (hg : ∀ ext x, Accepts cpu allowed x -> Repertoire cpu (g ext x)) :
    Sound cpu (Fetch.next.bind fun ext =>
      (effective cpu w size allowed).bind fun x => .done (g ext x)) := by
  have h2 := two_le_operandWords cpu
  refine Fetch.yields_next.bind (m := 1) (n := operandWords cpu) ?_ (by omega)
  intro ext _
  exact effective_then (hg ext) (Nat.le_refl _)

/-- Immediate data that completes the operation. -/
theorem sound_immediate {cpu : Cpu} {size : Suffix} {g : Operand -> Operation}
    (hg : ∀ v, Repertoire cpu (g (.immediate v))) :
    Sound cpu ((immediate size).bind fun x => .done (g x)) := by
  have h2 := two_le_operandWords cpu
  refine (immediate_yields size).bind (n := 0) ?_ (by omega)
  rintro x ⟨v, rfl⟩
  exact Fetch.yields_done.2 (hg v)

/-- A condition on the model. -/
theorem sound_ensure {cpu : Cpu} {b : Bool} {d : Decoder Operation}
    (h : b = true -> Sound cpu d) : Sound cpu ((Fetch.ensure b).bind fun _ => d) := by
  refine Fetch.yields_ensure.bind (m := 0) (n := 2 * operandWords cpu) ?_ (by omega)
  intro _ hb
  exact h hb

/-! ## Fields -/

theorem mem_dataSizes_of_sizeField {w : UInt16} {size : Suffix} (h : sizeField? w = some size) :
    size ∈ dataSizes := by
  unfold sizeField? at h
  split at h <;> cases h <;> decide

theorem registerOf_isRegister (ext : UInt16) : IsRegister (registerOf (field ext 12 4)) := by
  have hlt : field ext 12 4 < 16 := bits_lt _ 12 4
  unfold registerOf
  by_cases h8 : field ext 12 4 < 8
  · rw [if_pos h8]
    exact ⟨⟨_, h8⟩, Or.inl rfl⟩
  · rw [if_neg h8]
    exact ⟨⟨field ext 12 4 - 8, by omega⟩, Or.inr rfl⟩

theorem mem_addressSizes (b : Bool) :
    (if b = true then Suffix.long else Suffix.word) ∈ addressSizes := by
  cases b <;> decide

/-! ## The digit 0 -/

theorem bounds_sound (cpu : Cpu) (w : UInt16) : Sound cpu (bounds cpu w) := by
  apply sound_ensure
  intro h020
  have hbody (size : Suffix) (hsize : size ∈ dataSizes) :
      Sound cpu (Fetch.next.bind fun ext => (effective cpu w size Mode.isControl).bind fun src =>
        .done (.binary (if bit ext 11 then Opcode.chk2 else Opcode.cmp2) size src
          (registerOf (field ext 12 4)))) := by
    apply sound_next_effective
    intro ext x hx
    refine Repertoire.bounds h020 ?_ hsize hx (registerOf_isRegister ext)
    cases bit ext 11 <;> decide
  dsimp only
  split
  · exact hbody .byte (by decide)
  · exact hbody .word (by decide)
  · exact hbody .long (by decide)
  · exact sound_fail

theorem compareSwap2_sound {cpu : Cpu} (h020 : cpu.is020 = true) {size : Suffix}
    (hsize : size ∈ addressSizes) : Sound cpu (compareSwap2 size) := by
  have h2 := two_le_operandWords cpu
  refine Fetch.yields_next.bind (m := 1) (n := 1) ?_ (by omega)
  intro ext1 _
  refine Fetch.yields_next.bind (m := 1) (n := 0) ?_ (by omega)
  intro ext2 _
  exact Fetch.yields_done.2 (Repertoire.cas2 h020 hsize (field3 ext1 0) (field3 ext2 0)
    (field3 ext1 6) (field3 ext2 6) (bits_lt _ 12 4) (bits_lt _ 12 4))

theorem compareSwap_sound (cpu : Cpu) (w : UInt16) : Sound cpu (compareSwap cpu w) := by
  apply sound_ensure
  intro h020
  have hbody (size : Suffix) (hsize : size ∈ dataSizes) :
      Sound cpu (if field w 0 6 = 0x3c then
        (Fetch.ensure (size != .byte)).bind fun _ => compareSwap2 size
      else Fetch.next.bind fun ext =>
        (effective cpu w size Mode.isMemoryAlterable).bind fun dst =>
          .done (.ternary .cas size (dataRegOf ext 0) (dataRegOf ext 6) dst)) := by
    split
    · apply sound_ensure
      intro hbyte
      apply compareSwap2_sound h020
      simp only [dataSizes, List.mem_cons] at hsize
      simpa [addressSizes] using hsize.resolve_left (by simpa using hbyte)
    · apply sound_next_effective
      intro ext x hx
      exact Repertoire.cas h020 hsize (field3 ext 0) (field3 ext 6) hx
  dsimp only
  split
  · exact hbody .byte (by decide)
  · exact hbody .word (by decide)
  · exact hbody .long (by decide)
  · exact sound_fail

theorem immediateSized_sound (cpu : Cpu) (w : UInt16) {op : Opcode} {size : Suffix}
    (hop : op ∈ [.ori, .andi, .subi, .addi, .eori, .cmpi]) (hsize : size ∈ dataSizes) :
    Sound cpu (immediateSized cpu w op size) := by
  have h2 := two_le_operandWords cpu
  refine (immediate_yields size).bind (n := operandWords cpu) ?_ (by omega)
  rintro imm ⟨v, rfl⟩
  show (if field w 0 6 = 0x3c ∧ worksOnStatus op = true then _ else _ :
    Decoder Operation).Yields _ _
  split
  · rename_i hstatus
    cases size with
    | byte => exact Fetch.yields_done.2 (Repertoire.immediateToCcr hstatus.2)
    | word => exact Fetch.yields_done.2 (Repertoire.immediateToSr hstatus.2)
    | long => exact Fetch.yields_fail
    | short => exact Fetch.yields_fail
    | none => exact Fetch.yields_fail
  · apply effective_then
    · intro x hx
      exact Repertoire.immediate hop hsize hx
    · exact Nat.le_refl _

theorem immediateUnsized_sound (cpu : Cpu) (w : UInt16) (op : Opcode) :
    Sound cpu (immediateUnsized cpu w op) := by
  unfold immediateUnsized
  split
  · exact bounds_sound cpu w
  · exact bounds_sound cpu w
  · exact bounds_sound cpu w
  · exact compareSwap_sound cpu w
  · exact compareSwap_sound cpu w
  · exact sound_fail

theorem immediateOp_sound (cpu : Cpu) (w : UInt16) {op : Opcode}
    (hop : op ∈ [.ori, .andi, .subi, .addi, .eori, .cmpi]) :
    Sound cpu (immediateOp cpu w op) := by
  unfold immediateOp
  cases hsize : sizeField? w with
  | some size => exact immediateSized_sound cpu w hop (mem_dataSizes_of_sizeField hsize)
  | none => exact immediateUnsized_sound cpu w op

theorem bitOpcode_mem (w : UInt16) : bitOpcode w ∈ [.btst, .bchg, .bclr, .bset] := by
  unfold bitOpcode
  split <;> decide

theorem bitStatic_sound (cpu : Cpu) (w : UInt16) : Sound cpu (bitStatic cpu w) := by
  apply sound_next_effective
  intro n x hx
  exact Repertoire.bitStatic (bitOpcode_mem w) hx

theorem bitDynamic_sound (cpu : Cpu) (w : UInt16) : Sound cpu (bitDynamic cpu w) := by
  apply sound_effective
  intro x hx
  exact Repertoire.bitDynamic (bitOpcode_mem w) (field3 w 9) hx

theorem movePeripheral_sound (cpu : Cpu) (w : UInt16) : Sound cpu (movePeripheral w) := by
  have h2 := two_le_operandWords cpu
  refine Fetch.yields_next.bind (m := 1) (n := 0) ?_ (by omega)
  intro disp _
  refine Fetch.yields_done.2 ?_
  split
  · exact Repertoire.movepStore (mem_addressSizes _) (field3 w 0) (field3 w 9) disp.toInt16
  · exact Repertoire.movepLoad (mem_addressSizes _) (field3 w 0) (field3 w 9) disp.toInt16

theorem moveSpace_sound (cpu : Cpu) (w : UInt16) : Sound cpu (moveSpace cpu w) := by
  apply sound_ensure
  intro h010
  cases hsize : sizeField? w with
  | none => exact sound_fail
  | some size =>
      apply sound_next_effective
      intro ext x hx
      split
      · exact Repertoire.movesStore h010 (mem_dataSizes_of_sizeField hsize) hx
          (registerOf_isRegister ext)
      · exact Repertoire.movesLoad h010 (mem_dataSizes_of_sizeField hsize) hx
          (registerOf_isRegister ext)

theorem line0_sound (cpu : Cpu) (w : UInt16) : Sound cpu (line0 cpu w) := by
  unfold line0
  split
  · split
    · exact movePeripheral_sound cpu w
    · exact bitDynamic_sound cpu w
  · split
    · exact immediateOp_sound cpu w (by decide)
    · exact immediateOp_sound cpu w (by decide)
    · exact immediateOp_sound cpu w (by decide)
    · exact immediateOp_sound cpu w (by decide)
    · exact bitStatic_sound cpu w
    · exact immediateOp_sound cpu w (by decide)
    · exact immediateOp_sound cpu w (by decide)
    · split
      · exact compareSwap_sound cpu w
      · exact moveSpace_sound cpu w

/-! ## Moves -/

theorem moveSized_sound (cpu : Cpu) (w : UInt16) {size : Suffix} (hsize : size ∈ dataSizes) :
    Sound cpu (moveSized cpu w size) := by
  refine (effective_yields cpu w size (anySource size)).bind (n := operandWords cpu) ?_ (by omega)
  intro x hx
  show (if field w 6 3 = 1 then _ else _ : Decoder Operation).Yields _ _
  split
  · refine Fetch.yields_ensure.bind (m := 0) (n := 0) ?_ (by omega)
    intro _ hbyte
    refine Fetch.yields_done.2 (Repertoire.movea ?_ hx (field3 w 9))
    simp only [dataSizes, List.mem_cons] at hsize
    simpa [addressSizes] using hsize.resolve_left (by simpa using hbyte)
  · refine (operandOf_yields cpu _ _ size Mode.isDataAlterable).bind (n := 0) ?_ (by omega)
    intro y hy
    exact Fetch.yields_done.2 (Repertoire.move hsize hx hy)

theorem moveQuick_sound (cpu : Cpu) (w : UInt16) : Sound cpu (moveQuick w) := by
  apply sound_ensure
  intro _
  exact sound_done (Repertoire.moveq (field3 w 9))

theorem moveMultiple_sound (cpu : Cpu) (w : UInt16) : Sound cpu (moveMultiple cpu w) := by
  have h2 := two_le_operandWords cpu
  refine Fetch.yields_next.bind (m := 1) (n := operandWords cpu) ?_ (by omega)
  intro mask _
  show (if bit w 10 = true then _ else _ : Decoder Operation).Yields _ _
  split
  · apply effective_then
    · intro x hx
      exact Repertoire.movemLoad (mem_addressSizes _) hx mask
    · exact Nat.le_refl _
  · apply effective_then
    · intro x hx
      exact Repertoire.movemStore (mem_addressSizes _) hx _
    · exact Nat.le_refl _

theorem moveControl_sound (cpu : Cpu) (w : UInt16) : Sound cpu (moveControl cpu w) := by
  have h2 := two_le_operandWords cpu
  apply sound_ensure
  intro h010
  refine Fetch.yields_next.bind (m := 1) (n := 0) ?_ (by omega)
  intro ext _
  refine Fetch.yields_ensure.bind (m := 0) (n := 0) ?_ (by omega)
  intro _ hcode
  refine Fetch.yields_done.2 ?_
  split
  · exact Repertoire.movecStore h010 hcode (registerOf_isRegister ext)
  · exact Repertoire.movecLoad h010 hcode (registerOf_isRegister ext)

/-! ## Arithmetic and logic -/

theorem registerOrPreDec_mem (cpu : Cpu) (w : UInt16) {op : Opcode} {size : Suffix}
    (h : op ∈ [.abcd, .sbcd] ∧ size = .none ∨ op ∈ [.addx, .subx] ∧ size ∈ dataSizes) :
    Repertoire cpu (registerOrPreDec w op size) := by
  unfold registerOrPreDec
  split
  · exact Repertoire.extendedMemory h (field3 w 0) (field3 w 9)
  · exact Repertoire.extendedRegisters h (field3 w 0) (field3 w 9)

theorem packed_sound (cpu : Cpu) (w : UInt16) {op : Opcode} (hop : op ∈ [.pack, .unpk]) :
    Sound cpu (packed cpu w op) := by
  have h2 := two_le_operandWords cpu
  apply sound_ensure
  intro h020
  refine Fetch.yields_next.bind (m := 1) (n := 0) ?_ (by omega)
  intro adjustment _
  refine Fetch.yields_done.2 ?_
  unfold registerOrPreDec
  split
  · exact Repertoire.packedMemory h020 hop (field3 w 0) (field3 w 9)
  · exact Repertoire.packedRegisters h020 hop (field3 w 0) (field3 w 9)

theorem logic_sound (cpu : Cpu) (w : UInt16) {op : Opcode} (hop : op ∈ [.or, .and]) :
    Sound cpu (logic cpu w op) := by
  have hstore : op ∈ [.or, .and, .sub, .add] := List.mem_append_left [Opcode.sub, Opcode.add] hop
  unfold logic
  cases hsize : sizeField? w with
  | none => exact sound_fail
  | some size =>
      dsimp only
      split
      · apply sound_effective
        intro x hx
        exact Repertoire.dataStore hstore (mem_dataSizes_of_sizeField hsize) (field3 w 9) hx
      · apply sound_effective
        intro x hx
        exact Repertoire.logicLoad hop (mem_dataSizes_of_sizeField hsize) hx (field3 w 9)

theorem multiplyWord_sound (cpu : Cpu) (w : UInt16) {op : Opcode}
    (hop : op ∈ [.divu, .divs, .mulu, .muls]) : Sound cpu (multiplyWord cpu w op) := by
  apply sound_effective
  intro x hx
  exact Repertoire.multiplyWord hop hx (field3 w 9)

theorem line8_sound (cpu : Cpu) (w : UInt16) : Sound cpu (line8 cpu w) := by
  have hor : Sound cpu (logic cpu w .or) := logic_sound cpu w (by decide)
  unfold line8
  dsimp only
  split
  · exact multiplyWord_sound cpu w (by decide)
  · exact multiplyWord_sound cpu w (by decide)
  · split
    · exact sound_done (registerOrPreDec_mem cpu w (by decide))
    · exact hor
  · split
    · exact packed_sound cpu w (by decide)
    · exact hor
  · split
    · exact packed_sound cpu w (by decide)
    · exact hor
  · exact hor

theorem lineC_sound (cpu : Cpu) (w : UInt16) : Sound cpu (lineC cpu w) := by
  unfold lineC
  split
  · exact sound_done (Repertoire.exgData (field3 w 9) (field3 w 0))
  · exact sound_done (Repertoire.exgAddress (field3 w 9) (field3 w 0))
  · exact sound_done (Repertoire.exgBoth (field3 w 9) (field3 w 0))
  · exact multiplyWord_sound cpu w (by decide)
  · exact multiplyWord_sound cpu w (by decide)
  · exact sound_done (registerOrPreDec_mem cpu w (by decide))
  · exact sound_done (registerOrPreDec_mem cpu w (by decide))
  · exact logic_sound cpu w (by decide)

theorem addressOp_sound (cpu : Cpu) (w : UInt16) {op : Opcode} {size : Suffix}
    (hop : op ∈ [.suba, .adda, .cmpa]) (hsize : size ∈ addressSizes) :
    Sound cpu (addressOp cpu w op size) := by
  apply sound_effective
  intro x hx
  exact Repertoire.addressLoad hop hsize hx (field3 w 9)

theorem dataOp_sound (cpu : Cpu) (w : UInt16) {op : Opcode} {size : Suffix}
    (hop : op ∈ [.sub, .add, .cmp]) (hsize : size ∈ dataSizes) :
    Sound cpu (dataOp cpu w op size) := by
  apply sound_effective
  intro x hx
  exact Repertoire.dataLoad hop hsize hx (field3 w 9)

theorem addSub_sound (cpu : Cpu) (w : UInt16) {op opAddr opExtend : Opcode}
    (hop : op ∈ [.sub, .add]) (haddr : opAddr ∈ [.suba, .adda, .cmpa])
    (hextend : opExtend ∈ [.addx, .subx]) : Sound cpu (addSub cpu w op opAddr opExtend) := by
  have hload : op ∈ [.sub, .add, .cmp] := List.mem_append_left [Opcode.cmp] hop
  have hstore : op ∈ [.or, .and, .sub, .add] := List.mem_append_right [Opcode.or, Opcode.and] hop
  unfold addSub
  cases h : sizeField? w with
  | none => exact addressOp_sound cpu w haddr (mem_addressSizes _)
  | some size =>
      have hsize := mem_dataSizes_of_sizeField h
      dsimp only
      split
      · split
        · exact sound_done (registerOrPreDec_mem cpu w (Or.inr ⟨hextend, hsize⟩))
        · apply sound_effective
          intro x hx
          exact Repertoire.dataStore hstore hsize (field3 w 9) hx
      · exact dataOp_sound cpu w hload hsize

theorem lineB_sound (cpu : Cpu) (w : UInt16) : Sound cpu (lineB cpu w) := by
  unfold lineB
  cases h : sizeField? w with
  | none => exact addressOp_sound cpu w (by decide) (mem_addressSizes _)
  | some size =>
      have hsize := mem_dataSizes_of_sizeField h
      dsimp only
      split
      · split
        · exact sound_done (Repertoire.cmpm hsize (field3 w 0) (field3 w 9))
        · apply sound_effective
          intro x hx
          exact Repertoire.eor hsize (field3 w 9) hx
      · exact dataOp_sound cpu w (by decide) hsize

/-- The extension word of a long multiplication or division, and the effective
address after it. -/
theorem longExtension_then {cpu : Cpu} {w : UInt16} {g : UInt16 -> Operand -> Operation}
    (hg : cpu.is020 = true -> ∀ ext x, Accepts cpu Mode.isData x -> Repertoire cpu (g ext x)) :
    Sound cpu ((longExtension cpu).bind fun ext =>
      (effective cpu w .long Mode.isData).bind fun x => .done (g ext x)) := by
  have h2 := two_le_operandWords cpu
  have hext : (longExtension cpu).Yields (fun _ => cpu.is020 = true) 1 := by
    refine Fetch.yields_ensure.bind (m := 0) (n := 1) ?_ (by omega)
    intro _ h020
    refine Fetch.yields_next.bind (m := 1) (n := 0) ?_ (by omega)
    intro ext _
    refine Fetch.yields_ensure.bind (m := 0) (n := 0) ?_ (by omega)
    intro _ _
    exact Fetch.yields_done.2 h020
  refine hext.bind (n := operandWords cpu) ?_ (by omega)
  intro ext h020
  exact effective_then (hg h020 ext) (Nat.le_refl _)

theorem multiplyLong_sound (cpu : Cpu) (w : UInt16) : Sound cpu (multiplyLong cpu w) := by
  apply longExtension_then
  intro h020 ext x hx
  cases bit ext 11 <;> cases bit ext 10
  · exact Repertoire.multiplyLong h020 (by decide) hx (field3 ext 12)
  · exact Repertoire.multiplyPair h020 (by decide) hx (field3 ext 0) (field3 ext 12)
  · exact Repertoire.multiplyLong h020 (by decide) hx (field3 ext 12)
  · exact Repertoire.multiplyPair h020 (by decide) hx (field3 ext 0) (field3 ext 12)

theorem divideLong_sound (cpu : Cpu) (w : UInt16) : Sound cpu (divideLong cpu w) := by
  apply longExtension_then
  intro h020 ext x hx
  cases bit ext 11 <;> split
  · exact Repertoire.multiplyPair h020 (by decide) hx (field3 ext 0) (field3 ext 12)
  · split
    · exact Repertoire.multiplyLong h020 (by decide) hx (field3 ext 12)
    · exact Repertoire.multiplyPair h020 (by decide) hx (field3 ext 0) (field3 ext 12)
  · exact Repertoire.multiplyPair h020 (by decide) hx (field3 ext 0) (field3 ext 12)
  · split
    · exact Repertoire.multiplyLong h020 (by decide) hx (field3 ext 12)
    · exact Repertoire.multiplyPair h020 (by decide) hx (field3 ext 0) (field3 ext 12)

/-! ## Branches, loops and quick arithmetic -/

theorem branch_mem {cpu : Cpu} {n : Nat} {size : Suffix} (d : Int32)
    (h : size = .short ∨ size = .word ∨ size = .long ∧ cpu.is020 = true) :
    Repertoire cpu (.unary (branchOpcode n) size (.branch d)) := by
  unfold branchOpcode
  split
  · exact Repertoire.bsr d h
  · exact Repertoire.branch _ (by assumption) d h

theorem line6_sound (cpu : Cpu) (w : UInt16) : Sound cpu (line6 cpu w) := by
  have h2 := two_le_operandWords cpu
  unfold line6
  dsimp only
  split
  · refine Fetch.yields_nextAt.bind (m := 1) (n := 0) ?_ (by omega)
    rintro ⟨i, ext⟩ _
    exact Fetch.yields_done.2 (branch_mem _ (by simp))
  · apply sound_ensure
    intro h020
    refine Fetch.yields_nextAt.bind (m := 1) (n := 1) ?_ (by omega)
    rintro ⟨i, high⟩ _
    refine Fetch.yields_next.bind (m := 1) (n := 0) ?_ (by omega)
    intro low _
    exact Fetch.yields_done.2 (branch_mem _ (by simp [h020]))
  · exact sound_done (branch_mem _ (by simp))

theorem trapOnCondition_sound (cpu : Cpu) (w : UInt16) (c : Condition) :
    Sound cpu (trapOnCondition cpu w c) := by
  apply sound_ensure
  intro h020
  split
  · apply sound_immediate
    intro v
    exact Repertoire.trapOnImmediate h020 (by decide) c
  · apply sound_immediate
    intro v
    exact Repertoire.trapOnImmediate h020 (by decide) c
  · exact sound_done (Repertoire.trapOn h020 c)

theorem conditional_sound (cpu : Cpu) (w : UInt16) : Sound cpu (conditional cpu w) := by
  have h2 := two_le_operandWords cpu
  unfold conditional
  dsimp only
  split
  · refine Fetch.yields_nextAt.bind (m := 1) (n := 0) ?_ (by omega)
    rintro ⟨i, disp⟩ _
    exact Fetch.yields_done.2 (Repertoire.loop _ (field3 w 0) _)
  · split
    · exact trapOnCondition_sound cpu w _
    · apply sound_effective
      intro x hx
      exact Repertoire.set _ hx

theorem line5_sound (cpu : Cpu) (w : UInt16) : Sound cpu (line5 cpu w) := by
  unfold line5
  cases h : sizeField? w with
  | none => exact conditional_sound cpu w
  | some size =>
      apply sound_effective
      intro x hx
      refine Repertoire.quick ?_ (mem_dataSizes_of_sizeField h) hx
      cases bit w 8 <;> decide

/-! ## Shifts and bit fields -/

theorem shiftOpcode_mem (kind : Nat) (left : Bool) :
    shiftOpcode kind left ∈ [.asr, .asl, .lsr, .lsl, .roxr, .roxl, .ror, .rol] := by
  unfold shiftOpcode
  split <;> decide

theorem bitfield_sound (cpu : Cpu) (w : UInt16) : Sound cpu (bitfield cpu w) := by
  apply sound_ensure
  intro h020
  apply sound_next_effective
  intro ext x hx
  unfold bitfieldOpcode at hx ⊢
  split at hx
  · exact Repertoire.bitfieldChange h020 (by decide) hx ext
  · exact Repertoire.bitfieldRead h020 (by decide) hx (field3 ext 12) ext
  · exact Repertoire.bitfieldChange h020 (by decide) hx ext
  · exact Repertoire.bitfieldRead h020 (by decide) hx (field3 ext 12) ext
  · exact Repertoire.bitfieldChange h020 (by decide) hx ext
  · exact Repertoire.bitfieldRead h020 (by decide) hx (field3 ext 12) ext
  · exact Repertoire.bitfieldChange h020 (by decide) hx ext
  · exact Repertoire.bitfieldInsert h020 hx (field3 ext 12) ext

theorem lineE_sound (cpu : Cpu) (w : UInt16) : Sound cpu (lineE cpu w) := by
  unfold lineE
  cases h : sizeField? w with
  | none =>
      dsimp only
      split
      · exact bitfield_sound cpu w
      · apply sound_effective
        intro x hx
        exact Repertoire.shiftMemory (shiftOpcode_mem _ _) hx
  | some size =>
      refine sound_done (Repertoire.shiftRegister (shiftOpcode_mem _ _)
        (mem_dataSizes_of_sizeField h) ?_ (field3 w 0))
      split
      · exact Or.inl ⟨field3 w 9, rfl⟩
      · exact Or.inr ⟨_, rfl⟩

/-! ## The digit 4 -/

theorem fixed_sound {cpu : Cpu} {w : UInt16} {d : Decoder Operation}
    (h : fixed? cpu w = some d) : Sound cpu d := by
  unfold fixed? at h
  split at h <;> cases h
  · exact sound_done (Repertoire.plain (by decide))
  · exact sound_done (Repertoire.plain (by decide))
  · exact sound_done (Repertoire.plain (by decide))
  · exact sound_immediate fun v => Repertoire.stop
  · exact sound_done (Repertoire.plain (by decide))
  · apply sound_ensure
    intro h010
    exact sound_immediate fun v => Repertoire.rtd h010
  · exact sound_done (Repertoire.plain (by decide))
  · exact sound_done (Repertoire.plain (by decide))
  · exact sound_done (Repertoire.plain (by decide))
  · exact moveControl_sound cpu w
  · exact moveControl_sound cpu w

theorem numbered_sound {cpu : Cpu} {w : UInt16} {d : Decoder Operation}
    (h : numbered? cpu w = some d) : Sound cpu d := by
  unfold numbered? at h
  dsimp only at h
  split at h <;> cases h
  · exact sound_done Repertoire.trap
  · exact sound_done Repertoire.trap
  · exact sound_immediate fun v => Repertoire.link (Or.inl rfl) (field3 w 0)
  · apply sound_ensure
    intro h020
    exact sound_immediate fun v => Repertoire.link (Or.inr ⟨rfl, h020⟩) (field3 w 0)
  · exact sound_done (Repertoire.unlk (field3 w 0))
  · exact sound_done (Repertoire.moveToUsp (field3 w 0))
  · exact sound_done (Repertoire.moveFromUsp (field3 w 0))
  · exact sound_done (Repertoire.swap (field3 w 0))
  · apply sound_ensure
    intro h010
    exact sound_done (Repertoire.bkpt h010)
  · exact sound_done (Repertoire.ext (by decide) (field3 w 0))
  · exact sound_done (Repertoire.ext (by decide) (field3 w 0))
  · apply sound_ensure
    intro h020
    exact sound_done (Repertoire.extb h020 (field3 w 0))

theorem addressed_sound {cpu : Cpu} {w : UInt16} {d : Decoder Operation}
    (h : addressed? cpu w = some d) : Sound cpu d := by
  unfold addressed? at h
  split at h <;> cases h
  · exact sound_effective fun x hx => Repertoire.control (by decide) hx
  · exact sound_effective fun x hx => Repertoire.control (by decide) hx
  · exact sound_effective fun x hx => Repertoire.control (by decide) hx
  · exact sound_effective fun x hx => Repertoire.byteSingle (by decide) hx
  · exact sound_effective fun x hx => Repertoire.byteSingle (by decide) hx
  · exact sound_effective fun x hx => Repertoire.moveFromSr hx
  · apply sound_ensure
    intro h010
    exact sound_effective fun x hx => Repertoire.moveFromCcr h010 hx
  · exact sound_effective fun x hx => Repertoire.moveToCcr hx
  · exact sound_effective fun x hx => Repertoire.moveToSr hx
  · exact multiplyLong_sound cpu w
  · exact divideLong_sound cpu w
  · exact moveMultiple_sound cpu w
  · exact moveMultiple_sound cpu w
  · exact moveMultiple_sound cpu w
  · exact moveMultiple_sound cpu w

theorem checked_sound {cpu : Cpu} {w : UInt16} {d : Decoder Operation}
    (h : checked? cpu w = some d) : Sound cpu d := by
  unfold checked? at h
  split at h <;> cases h
  · exact sound_effective fun x hx => Repertoire.lea hx (field3 w 9)
  · exact sound_effective fun x hx => Repertoire.chk (Or.inl rfl) hx (field3 w 9)
  · apply sound_ensure
    intro h020
    exact sound_effective fun x hx => Repertoire.chk (Or.inr ⟨rfl, h020⟩) hx (field3 w 9)

theorem sizedSingle_sound (cpu : Cpu) (w : UInt16) : Sound cpu (sizedSingle cpu w) := by
  unfold sizedSingle
  split
  case h_6 => exact sound_fail
  all_goals
    rename_i size hsize _
    have hsize := mem_dataSizes_of_sizeField hsize
  · exact sound_effective fun x hx => Repertoire.single (by decide) hsize hx
  · exact sound_effective fun x hx => Repertoire.single (by decide) hsize hx
  · exact sound_effective fun x hx => Repertoire.single (by decide) hsize hx
  · exact sound_effective fun x hx => Repertoire.single (by decide) hsize hx
  · exact sound_effective fun x hx => Repertoire.tst hsize hx

theorem line4_sound (cpu : Cpu) (w : UInt16) : Sound cpu (line4 cpu w) := by
  unfold line4
  cases hfixed : fixed? cpu w with
  | some d => exact fixed_sound hfixed
  | none =>
      cases hnumbered : numbered? cpu w with
      | some d => exact numbered_sound hnumbered
      | none =>
          cases haddressed : addressed? cpu w with
          | some d => exact addressed_sound haddressed
          | none =>
              cases hchecked : checked? cpu w with
              | some d => exact checked_sound hchecked
              | none => exact sizedSingle_sound cpu w

/-! ## The line -/

/-- Whatever the decoder makes of a first word is an operation of the model. -/
theorem line_sound (cpu : Cpu) (w : UInt16) : Sound cpu (line cpu w) := by
  unfold line
  split
  · exact line0_sound cpu w
  · exact moveSized_sound cpu w (by decide)
  · exact moveSized_sound cpu w (by decide)
  · exact moveSized_sound cpu w (by decide)
  · exact line4_sound cpu w
  · exact line5_sound cpu w
  · exact line6_sound cpu w
  · exact moveQuick_sound cpu w
  · exact line8_sound cpu w
  · exact addSub_sound cpu w (by decide) (by decide) (by decide)
  · exact lineB_sound cpu w
  · exact lineC_sound cpu w
  · exact addSub_sound cpu w (by decide) (by decide) (by decide)
  · exact lineE_sound cpu w
  · exact sound_fail

end Decoder
end M68k
end Disassembler
