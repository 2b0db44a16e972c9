import Disassembler.Proofs.M68k.Operand
import Disassembler.Proofs.M68k.Size

/-!
# Legal operands

Where an instruction can write to and jump to, and what a byte can be taken from.
-/

namespace Disassembler
namespace M68k

/-! ## Categories of operations -/

/-- The last operand is written. -/
def Opcode.writes : Opcode -> Bool
  | move | ori | andi | subi | addi | eori | bchg | bclr | bset | movep | moves | movem
  | negx | clr | neg | not | tas | nbcd | addq | subq | set _ | or | and | eor | sub | add
  | asl | asr | lsl | lsr | roxl | roxr | rol | ror | cas | bfchg | bfclr | bfset | bfins => true
  | _ => false

def Opcode.takesControl : Opcode -> Bool
  | lea | pea | jmp | jsr => true
  | _ => false

/-- An operand can be an address register.  If the size is a byte this takes a
register field of its own. -/
def Opcode.takesAddrReg : Opcode -> Suffix -> Bool
  | moves, _ | cmp2, _ | chk2, _ => true
  | _, .byte => false
  | move, _ | movea, _ | movec, _ | exg, _ | addq, _ | subq, _ | add, _ | sub, _ | cmp, _
  | adda, _ | suba, _ | cmpa, _ | tst, _ | lea, _ | link, _ | unlk, _ => true
  | _, _ => false

/-- Some opcodes are for bytes alone, and have no suffix that says so. -/
def Operation.isByte (o : Operation) : Bool :=
  match o.suffix, o.opcode with
  | .byte, _ | .none, .nbcd | .none, .tas | .none, .abcd | .none, .sbcd | .none, .set _ => true
  | _, _ => false

/-- The operands have modes that the operation can work on. -/
structure Operation.IsLegal (o : Operation) : Prop where
  destination : o.opcode.writes = true ->
    ∃ x, o.present.getLast? = some x ∧ x.isAlterable = true
  control : o.opcode.takesControl = true -> ∃ x, o.first = some x ∧ x.isControl = true
  byte : o.isByte = true -> o.opcode ∉ [.moves, .cmp2, .chk2] ->
    ∀ x ∈ o.present, x.isAddrReg = false

/-! ## Destinations -/

namespace Operation

variable {op : Opcode} {size : Suffix} {x y z : Operand} {f g : Option Bitfield}
  {P : Operand -> Prop}

theorem last_unary (hx : P x) : ∃ a,
    (present { unary op size x with firstField := f, secondField := g }).getLast? = some a ∧
      P a :=
  ⟨x, rfl, hx⟩

theorem last_binary (hy : P y) : ∃ a,
    (present { binary op size x y with firstField := f, secondField := g }).getLast? = some a ∧
      P a :=
  ⟨y, rfl, hy⟩

theorem last_ternary (hz : P z) : ∃ a,
    (present { ternary op size x y z with firstField := f, secondField := g }).getLast? = some a ∧
      P a :=
  ⟨z, rfl, hz⟩

end Operation

theorem not_of_mem (p : Opcode -> Bool) {ops : List Opcode} (hops : ∀ op ∈ ops, p op = false)
    {op : Opcode} (hop : op ∈ ops) : ¬ p op = true := by
  simp [hops op hop]

/-- Every mode of an immediate operation but a comparison can be written to. -/
theorem isAlterable_of_immediateTarget {cpu : Cpu} {op : Opcode} {m : Mode}
    (hm : Decoder.immediateTarget cpu op m = true) (hop : op.writes = true) :
    m.isAlterable = true := by
  unfold Decoder.immediateTarget at hm
  split at hm
  · rename_i hcmpi
    rw [hcmpi.1] at hop
    cases hop
  · exact isAlterable_of_isDataAlterable m hm

theorem isAlterable_of_movemTarget (m : Mode)
    (hm : (m.isControlAlterable || decide (m = .preDec)) = true) : m.isAlterable = true := by
  cases m <;> first | rfl | cases hm

theorem isAlterable_of_bitTarget {op : Opcode} {read : Bool} {m : Mode}
    (hm : (if op = .btst then read else m.isDataAlterable) = true) (hop : op.writes = true) :
    m.isAlterable = true := by
  split at hm
  · rename_i hbtst
    rw [hbtst] at hop
    cases hop
  · exact isAlterable_of_isDataAlterable m hm

theorem isAlterable_of_bitfieldTarget {op : Opcode} {m : Mode}
    (hm : Decoder.bitfieldTarget op m = true) (hop : op.writes = true) :
    m.isAlterable = true := by
  simp only [Decoder.bitfieldTarget, Bool.or_eq_true, decide_eq_true_eq] at hm
  rcases hm with rfl | hm
  · rfl
  · split at hm
    · cases hop
    · cases hop
    · cases hop
    · cases hop
    · simp only [Mode.isControlAlterable, Bool.and_eq_true] at hm
      exact hm.2

theorem IsRegister.isAlterable {x : Operand} (hx : IsRegister x) : x.isAlterable = true := by
  rcases hx with ⟨r, rfl | rfl⟩ <;> rfl

namespace Repertoire

variable {cpu : Cpu} {o : Operation}

open Operation in
theorem destination (h : Repertoire cpu o) (hop : o.opcode.writes = true) :
    ∃ x, o.present.getLast? = some x ∧ x.isAlterable = true := by
  cases h with
  -- The modes that the instruction accepts.
  | immediate hmem hsize hx =>
      exact last_binary (hx.isAlterable fun m hm => isAlterable_of_immediateTarget hm hop)
  | bitStatic hmem hx | bitDynamic hmem r hx =>
      exact last_binary (hx.isAlterable fun m hm => isAlterable_of_bitTarget hm hop)
  | bitfieldChange h020 hmem hx ext =>
      exact last_unary (hx.isAlterable fun m hm => isAlterable_of_bitfieldTarget hm hop)
  | bitfieldInsert h020 hx r ext =>
      exact last_binary (hx.isAlterable fun m hm => isAlterable_of_bitfieldTarget hm hop)
  | quick hmem hsize hx =>
      exact last_binary (hx.isAlterable fun m hm => (Bool.and_eq_true_iff.1 hm).1)
  | movemStore hsize hx mask => exact last_binary (hx.isAlterable isAlterable_of_movemTarget)
  | move hsize hx hy => exact last_binary (hy.isAlterable isAlterable_of_isDataAlterable)
  | moveFromSr hx | moveFromCcr h010 hx | eor hsize r hx =>
      exact last_binary (hx.isAlterable isAlterable_of_isDataAlterable)
  | movesStore h010 hsize hx hr | dataStore hmem hsize r hx =>
      exact last_binary (hx.isAlterable isAlterable_of_isMemoryAlterable)
  | cas h020 hsize r s hx => exact last_ternary (hx.isAlterable isAlterable_of_isMemoryAlterable)
  | single hmem hsize hx | byteSingle hmem hx | set c hx =>
      exact last_unary (hx.isAlterable isAlterable_of_isDataAlterable)
  | shiftMemory hmem hx => exact last_unary (hx.isAlterable isAlterable_of_isMemoryAlterable)
  -- A register, or an operand outside the addressing modes.
  | movesLoad h010 hsize hx hr | bounds h020 hmem hsize hx hr =>
      exact last_binary hr.isAlterable
  | immediateToCcr | immediateToSr | moveToUsp | moveFromUsp | moveToCcr | moveToSr
  | movepLoad | movepStore | movemLoad | logicLoad | dataLoad | addressLoad | extendedRegisters
  | extendedMemory | shiftRegister | multiplyWord | multiplyLong | multiplyPair | bitfieldRead =>
      exact last_binary rfl
  -- Nothing is written.
  | control hmem hx | plain hmem | packedRegisters h020 hmem | packedMemory h020 hmem =>
      exact absurd hop (not_of_mem Opcode.writes (by decide) hmem)
  | _ => cases hop

end Repertoire

/-! ## Control addresses and bytes -/

theorem eq_byte_of_takesAddrReg {ops : List Opcode} {sizes : List Suffix}
    (hall : ∀ op ∈ ops, ∀ size ∈ sizes, op.takesAddrReg size = false -> size = .byte)
    {op : Opcode} (hop : op ∈ ops) {size : Suffix} (hsize : size ∈ sizes)
    (h : op.takesAddrReg size = false) : size = .byte :=
  hall op hop size hsize h

theorem takesAddrReg_of_isByte {o : Operation} (hbyte : o.isByte = true)
    (hop : o.opcode ∉ [.moves, .cmp2, .chk2]) : o.opcode.takesAddrReg o.suffix = false := by
  unfold Operation.isByte at hbyte
  split at hbyte
  · rename_i hsize
    rw [hsize]
    unfold Opcode.takesAddrReg
    split <;> simp_all
  case h_7 => cases hbyte
  all_goals
    rename_i hsize hop
    rw [hsize, hop]
    rfl

theorem immediateTarget_addrReg (cpu : Cpu) (op : Opcode) :
    Decoder.immediateTarget cpu op .addrReg = false := by
  unfold Decoder.immediateTarget
  split <;> rfl

theorem testTarget_addrReg (cpu : Cpu) : Decoder.testTarget cpu .byte .addrReg = false := by
  unfold Decoder.testTarget
  split <;> rfl

theorem bitfieldTarget_addrReg (op : Opcode) : Decoder.bitfieldTarget op .addrReg = false := by
  unfold Decoder.bitfieldTarget
  split <;> rfl

namespace Repertoire

variable {cpu : Cpu} {o : Operation}

theorem control_first (h : Repertoire cpu o) (hop : o.opcode.takesControl = true) :
    ∃ x, o.first = some x ∧ x.isControl = true := by
  cases h with
  | control hmem hx | lea hx r => exact ⟨_, rfl, hx.isControl⟩
  | immediate hmem | quick hmem | bitStatic hmem | bitDynamic hmem | bounds h020 hmem
  | logicLoad hmem | dataLoad hmem | dataStore hmem | addressLoad hmem | packedRegisters h020 hmem
  | packedMemory h020 hmem | multiplyWord hmem | multiplyLong h020 hmem | multiplyPair h020 hmem
  | shiftRegister hmem | shiftMemory hmem | bitfieldRead h020 hmem | bitfieldChange h020 hmem
  | single hmem | byteSingle hmem | plain hmem =>
      exact absurd hop (not_of_mem Opcode.takesControl (by decide) hmem)
  | immediateToCcr hmem | immediateToSr hmem =>
      exact absurd hop (not_of_mem Opcode.takesControl (by decide) (mem_of_worksOnStatus hmem))
  | extendedRegisters h | extendedMemory h =>
      rcases h with ⟨hmem, _⟩ | ⟨hmem, _⟩ <;>
        exact absurd hop (not_of_mem Opcode.takesControl (by decide) hmem)
  | _ => cases hop

open Operation in
theorem isAddrReg_eq_false (h : Repertoire cpu o)
    (hop : o.opcode.takesAddrReg o.suffix = false) : ∀ x ∈ o.present, x.isAddrReg = false := by
  cases h with
  -- An address register is an operand of these, unless their size is a byte.
  | quick hmem hsize hx =>
      cases eq_byte_of_takesAddrReg (by decide) hmem hsize hop
      exact forall_binary rfl (hx.isAddrReg rfl)
  | dataLoad hmem hsize hx r =>
      cases eq_byte_of_takesAddrReg (by decide) hmem hsize hop
      exact forall_binary (hx.isAddrReg rfl) rfl
  | move hsize hx hy =>
      cases eq_byte_of_takesAddrReg (by decide) (List.mem_singleton_self .move) hsize hop
      exact forall_binary (hx.isAddrReg rfl) (hy.isAddrReg rfl)
  | tst hsize hx =>
      cases eq_byte_of_takesAddrReg (by decide) (List.mem_singleton_self .tst) hsize hop
      exact forall_unary (hx.isAddrReg (testTarget_addrReg cpu))
  | movea hsize hx r =>
      cases eq_byte_of_takesAddrReg (by decide) (List.mem_singleton_self .movea) hsize hop
      exact absurd hsize (by decide)
  | addressLoad hmem hsize hx r =>
      cases eq_byte_of_takesAddrReg (by decide) hmem hsize hop
      exact absurd hsize (by decide)
  | bounds h020 hmem =>
      simp only [List.mem_cons, List.not_mem_nil, or_false] at hmem
      rcases hmem with rfl | rfl <;> cases hop
  | link h r => rcases h with rfl | ⟨rfl, _⟩ <;> cases hop
  -- The modes of the others leave it out.
  | immediate hmem hsize hx =>
      exact forall_binary rfl (hx.isAddrReg (immediateTarget_addrReg cpu _))
  | bitStatic hmem hx | bitDynamic hmem r hx =>
      refine forall_binary rfl (hx.isAddrReg ?_)
      split <;> rfl
  | cas h020 hsize r s hx => exact forall_ternary rfl rfl (hx.isAddrReg rfl)
  | moveToCcr hx | moveToSr hx | movemLoad hsize hx mask | logicLoad hmem hsize hx r
  | multiplyWord hmem hx r | multiplyLong h020 hmem hx r | multiplyPair h020 hmem hx r s
  | chk hsize hx r => exact forall_binary (hx.isAddrReg rfl) rfl
  | bitfieldRead h020 hmem hx r ext =>
      exact forall_binary (hx.isAddrReg (bitfieldTarget_addrReg _)) rfl
  | bitfieldInsert h020 hx r ext =>
      exact forall_binary rfl (hx.isAddrReg (bitfieldTarget_addrReg _))
  | bitfieldChange h020 hmem hx ext => exact forall_unary (hx.isAddrReg (bitfieldTarget_addrReg _))
  | moveFromSr hx | moveFromCcr h010 hx | movemStore hsize hx mask | dataStore hmem hsize r hx
  | eor hsize r hx => exact forall_binary rfl (hx.isAddrReg rfl)
  | shiftRegister hmem hsize hx r =>
      rcases hx with ⟨s, rfl⟩ | ⟨v, rfl⟩ <;> exact forall_binary rfl rfl
  | shiftMemory hmem hx | single hmem hsize hx | byteSingle hmem hx | control hmem hx | set c hx =>
      exact forall_unary (hx.isAddrReg rfl)
  | immediateToCcr | immediateToSr | moveq | movepLoad | movepStore | exgData | cmpm
  | extendedRegisters | extendedMemory | loop => exact forall_binary rfl rfl
  | cas2 | packedRegisters | packedMemory => exact forall_ternary rfl rfl rfl
  | swap | ext | extb | stop | rtd | trap | bkpt | branch | bsr | trapOnImmediate =>
      exact forall_unary rfl
  | plain | trapOn =>
      intro x hx
      cases hx
  | _ => cases hop

theorem isLegal (h : Repertoire cpu o) : o.IsLegal where
  destination := h.destination
  control := h.control_first
  byte := by
    intro hbyte hop
    exact h.isAddrReg_eq_false (takesAddrReg_of_isByte hbyte hop)

end Repertoire

/-! ## Decoded instructions -/

/-- Decoded instructions write to places that can be written to, take addresses
from control modes and leave address registers out of operations on bytes. -/
theorem decode_isLegal (cpu : Cpu) (bytes : Bytes) : (decode cpu bytes).IsLegal := by
  apply toOperation_decode
  · constructor
    · intro hop
      cases hop
    · intro hop
      cases hop
    · intro hbyte
      cases hbyte
  · intro o h
    exact h.isLegal

/-- An address register has no byte that could be moved. -/
example : (decode .m68030 [0x10, 0x08]).opcode = .data ∧
    (decode .m68030 [0x30, 0x08]).opcode = .move := by
  decide

end M68k
end Disassembler
