import Disassembler.M68k.Print
import Disassembler.Proofs.M68k.Operand
import Disassembler.Proofs.M68k.Size

/-!
# Gated instructions

What the 68010 and the 68020 add to the instruction set is unknown to the models
before them: opcodes, sizes, addressing modes and control registers.
-/

namespace Disassembler
namespace M68k

/-! ## What a later model adds -/

/-- The opcodes that the 68010 adds. -/
def opcodes010 : List Opcode :=
  [.moves, .movec, .rtd, .bkpt]

/-- The opcodes that the 68020 adds. -/
def opcodes020 : List Opcode :=
  [.extb, .cas, .cas2, .cmp2, .chk2, .pack, .unpk, .divul, .divsl]
    ++ [.bftst, .bfextu, .bfchg, .bfexts, .bfclr, .bfffo, .bfset, .bfins]
    ++ Condition.all.map .trapOn

/-- The opcodes to which the 68020 adds a long size. -/
def opcodesLong020 : List Opcode :=
  [.bsr, .chk, .link, .mulu, .muls, .divu, .divs] ++ Condition.all.map .branch

namespace Operation

/-- An operation without what the 68010 adds. -/
structure Within000 (o : Operation) : Prop where
  opcode : o.opcode ∉ opcodes010
  source : o.opcode = .move -> o.first ≠ some .ccr

/-- An operation without what the 68020 adds. -/
structure Within010 (o : Operation) : Prop where
  opcode : o.opcode ∉ opcodes020
  size : o.opcode ∈ opcodesLong020 -> o.suffix ≠ .long
  fullExt : ∀ x ∈ o.present, x.fullExt? = none
  scale : ∀ x ∈ o.present, ∀ i, x.index? = some i -> i.scale = 0
  test : o.opcode = .tst -> ∀ x ∈ o.present,
    x.isAddrReg = false ∧ x.isPcRelative = false ∧ x.isImmediate = false
  compare : o.opcode = .cmpi -> ∀ x ∈ o.present, x.isPcRelative = false
  controlReg : ∀ code, .controlReg code ∈ o.present ->
    controlRegText code ∉ ["cacr", "caar", "msp", "isp"]

end Operation

/-! ## Opcodes and sizes -/

theorem sizes_opcodes010 : ∀ op ∈ opcodes010, op.sizes .m68000 = [] := by
  decide

theorem sizes_opcodes020 {cpu : Cpu} (h020 : cpu.is020 = false) :
    ∀ op ∈ opcodes020, op.sizes cpu = [] := by
  have hall : ∀ c ∈ Cpu.all, c.is020 = false -> ∀ op ∈ opcodes020, op.sizes c = [] := by decide
  exact hall cpu cpu.mem_all h020

theorem long_not_mem_sizes {cpu : Cpu} (h020 : cpu.is020 = false) :
    ∀ op ∈ opcodesLong020, .long ∉ op.sizes cpu := by
  have hall : ∀ c ∈ Cpu.all, c.is020 = false -> ∀ op ∈ opcodesLong020, .long ∉ op.sizes c := by
    decide
  exact hall cpu cpu.mem_all h020

/-! ## Operands -/

section

variable {cpu : Cpu} {x : Operand}

/-- There are no full extension words before the 68020. -/
theorem Addressing.fullExt?_eq_none (h020 : cpu.is020 = false) {m : Mode}
    (hx : Addressing cpu m x) : x.fullExt? = none := by
  cases hx with
  | indexFull r h hx | pcIndexFull h hx =>
      rw [h020] at h
      cases h
  | _ => rfl

theorem Available.fullExt?_eq_none (h020 : cpu.is020 = false) (hx : Available cpu x) :
    x.fullExt? = none := by
  cases hx with
  | addressed hx => exact hx.fullExt?_eq_none h020
  | _ => rfl

theorem Index.Encoded.scale_eq_zero (h020 : cpu.is020 = false) {i : Index}
    (hi : i.Encoded cpu) : i.scale = 0 :=
  hi.scale_eq.resolve_left (by simp [h020])

theorem Addressing.scale_eq_zero (h020 : cpu.is020 = false) {m : Mode}
    (hx : Addressing cpu m x) {i : Index} (hindex : x.index? = some i) : i.scale = 0 := by
  cases hx with
  | index r d hi | pcIndex d hi =>
      cases hindex
      exact hi.scale_eq_zero h020
  | indexFull r h hx | pcIndexFull h hx =>
      rw [h020] at h
      cases h
  | _ => cases hindex

theorem Available.scale_eq_zero (h020 : cpu.is020 = false) (hx : Available cpu x) {i : Index}
    (hindex : x.index? = some i) : i.scale = 0 := by
  cases hx with
  | addressed hx => exact hx.scale_eq_zero h020 hindex
  | _ => cases hindex

theorem testTarget_eq (h020 : cpu.is020 = false) (size : Suffix) :
    Decoder.testTarget cpu size = Mode.isDataAlterable := by
  funext m
  simp [Decoder.testTarget, h020]

theorem immediateTarget_eq (h020 : cpu.is020 = false) (op : Opcode) :
    Decoder.immediateTarget cpu op = Mode.isDataAlterable := by
  funext m
  simp [Decoder.immediateTarget, h020]

theorem Accepts.of_isDataAlterable (hx : Accepts cpu Mode.isDataAlterable x) :
    x.isAddrReg = false ∧ x.isPcRelative = false ∧ x.isImmediate = false := by
  have hx' := hx.isAlterable isAlterable_of_isDataAlterable
  simp only [Operand.isAlterable, Bool.and_eq_true, Bool.not_eq_true'] at hx'
  exact ⟨hx.isAddrReg rfl, hx'.2, hx'.1⟩

end

/-- The control registers of the 68020 have no codes before it. -/
theorem controlRegText_not_mem {cpu : Cpu} (h020 : cpu.is020 = false) {code : UInt16}
    (hcode : Decoder.hasControlReg cpu code = true) :
    controlRegText code ∉ ["cacr", "caar", "msp", "isp"] := by
  unfold Decoder.hasControlReg at hcode
  split at hcode
  · rename_i hmem
    simp only [List.mem_cons, List.not_mem_nil, or_false] at hmem
    rcases hmem with rfl | rfl | rfl | rfl <;> decide
  · split at hcode
    · rw [h020] at hcode
      cases hcode
    · cases hcode

/-! ## Operations -/

namespace Repertoire

variable {cpu : Cpu} {o : Operation}

theorem of_tst (h : Repertoire cpu o) (hop : o.opcode = .tst) :
    ∃ size x, o = .unary .tst size x ∧ Accepts cpu (Decoder.testTarget cpu size) x := by
  cases h with
  | tst hsize hx => exact ⟨_, _, rfl, hx⟩
  | _ => simp_all [Operation.nullary, Operation.unary, Operation.binary, Operation.ternary,
      Decoder.worksOnStatus]

theorem of_cmpi (h : Repertoire cpu o) (hop : o.opcode = .cmpi) :
    ∃ size v x, o = .binary .cmpi size (.immediate v) x ∧
      Accepts cpu (Decoder.immediateTarget cpu .cmpi) x := by
  cases h with
  | @immediate op size v x hmem hsize hx =>
      have hop : op = .cmpi := hop
      subst hop
      exact ⟨size, v, x, rfl, hx⟩
  | _ => simp_all [Operation.nullary, Operation.unary, Operation.binary, Operation.ternary,
      Decoder.worksOnStatus]

/-- A move from `ccr` needs a 68010. -/
theorem first_ne_ccr (h : Repertoire .m68000 o) (hop : o.opcode = .move) :
    o.first ≠ some .ccr := by
  intro hfirst
  cases h with
  | moveFromCcr h010 hx => cases h010
  | move hsize hx hy | moveToCcr hx | moveToSr hx =>
      cases hfirst
      cases hx.isSpecial
  | _ => simp_all [Operation.nullary, Operation.unary, Operation.binary, Operation.ternary,
      Decoder.worksOnStatus]

theorem within000 (h : Repertoire .m68000 o) : o.Within000 := by
  refine ⟨?_, h.first_ne_ccr⟩
  intro hop
  have hsize := h.size_mem
  rw [sizes_opcodes010 _ hop] at hsize
  cases hsize

theorem within010 (h : Repertoire cpu o) (h020 : cpu.is020 = false) : o.Within010 where
  opcode := by
    intro hop
    have hsize := h.size_mem
    rw [sizes_opcodes020 h020 _ hop] at hsize
    cases hsize
  size := by
    intro hop hlong
    have hsize := h.size_mem
    rw [hlong] at hsize
    exact long_not_mem_sizes h020 _ hop hsize
  fullExt := by
    intro x hx
    exact (h.available x hx).fullExt?_eq_none h020
  scale := by
    intro x hx i hindex
    exact (h.available x hx).scale_eq_zero h020 hindex
  test := by
    intro hop
    rcases h.of_tst hop with ⟨size, x, rfl, hx⟩
    rw [testTarget_eq h020] at hx
    exact Operation.forall_unary hx.of_isDataAlterable
  compare := by
    intro hop
    rcases h.of_cmpi hop with ⟨size, v, x, rfl, hx⟩
    rw [immediateTarget_eq h020] at hx
    exact Operation.forall_binary rfl hx.of_isDataAlterable.2.1
  controlReg := by
    intro code hcode
    cases h.available _ hcode with
    | controlReg hcode => exact controlRegText_not_mem h020 hcode
    | addressed hx => cases hx.isSpecial

end Repertoire

/-! ## Decoded instructions -/

/-- What the 68010 adds is never decoded on the 68000, and what the 68020 adds is
decoded on neither of them. -/
theorem decode_gated (bytes : Bytes) :
    (decode .m68000 bytes).Within000 ∧ (decode .m68000 bytes).Within010 ∧
      (decode .m68010 bytes).Within010 := by
  have hdata : (Operation.nullary .data .none).Within010 := by
    constructor <;> simp [Operation.nullary, Operation.present, opcodes020, opcodesLong020]
  refine ⟨?_, ?_, ?_⟩
  · apply toOperation_decode
    · constructor <;> simp [Operation.nullary, opcodes010]
    · intro o h
      exact h.within000
  · apply toOperation_decode hdata
    intro o h
    exact h.within010 rfl
  · apply toOperation_decode hdata
    intro o h
    exact h.within010 rfl

/-- An index with a scale. -/
example : (decode .m68010 [0x10, 0x30, 0x02, 0x00]).opcode = .data ∧
    (decode .m68020 [0x10, 0x30, 0x02, 0x00]).opcode = .move := by
  decide

end M68k
end Disassembler
