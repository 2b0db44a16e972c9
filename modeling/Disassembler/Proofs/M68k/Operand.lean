import Disassembler.Proofs.M68k.Extent

/-!
# Operands of the instruction set

Which operands an instruction of a processor model can have at all, whatever its
opcode.
-/

namespace Disassembler
namespace M68k

open Decoder (hasControlReg)

/-! ## Parts and categories of operands -/

namespace Operand

def fullExt? : Operand -> Option FullExt
  | postIndexed e | preIndexed e | memoryIndirect e | noMemoryIndirect e => some e
  | _ => none

def index? : Operand -> Option Index
  | indexed _ _ i | pcIndexed _ i => some i
  | x => x.fullExt?.map FullExt.index

def isAddrReg : Operand -> Bool
  | addrReg _ => true
  | _ => false

def isImmediate : Operand -> Bool
  | immediate _ => true
  | _ => false

/-- Relative to the program counter, whose use may be suppressed. -/
def isPcRelative : Operand -> Bool
  | pcDisp _ | pcIndexed _ _ => true
  | x => x.fullExt?.any fun e => e.base == .pc

/-- A place that can be written to. -/
def isAlterable (x : Operand) : Bool :=
  !x.isImmediate && !x.isPcRelative

/-- An address, as such and not changed by its use. -/
def isControl : Operand -> Bool
  | indirect _ | disp16 _ _ | indexed _ _ _ | absWord _ | absLong _ | pcDisp _ | pcIndexed _ _
  | postIndexed _ | preIndexed _ | memoryIndirect _ | noMemoryIndirect _ => true
  | _ => false

/-- Outside the addressing modes. -/
def isSpecial : Operand -> Bool
  | sr | ccr | usp | branch _ | regList _ | controlReg _ | regPair _ _ | indirectPair _ _ => true
  | _ => false

end Operand

/-! ## Operands of addressing modes -/

section

variable {cpu : Cpu} {x : Operand}

theorem FullOperand.isPcRelative_addr {r : Fin 8} (hx : FullOperand cpu (.addr r) x) :
    x.isPcRelative = false := by
  cases hx with
  | direct he | preIndexed he h | postIndexed he h | memory he h =>
      simp [Operand.isPcRelative, Operand.fullExt?, he.base_eq, Decoder.Base.toIndexReg]

theorem FullOperand.isImmediate {base : Decoder.Base} (hx : FullOperand cpu base x) :
    x.isImmediate = false := by
  cases hx <;> rfl

theorem FullOperand.isControl {base : Decoder.Base} (hx : FullOperand cpu base x) :
    x.isControl = true := by
  cases hx <;> rfl

theorem FullOperand.isAddrReg {base : Decoder.Base} (hx : FullOperand cpu base x) :
    x.isAddrReg = false := by
  cases hx <;> rfl

theorem FullOperand.isSpecial {base : Decoder.Base} (hx : FullOperand cpu base x) :
    x.isSpecial = false := by
  cases hx <;> rfl

theorem Addressing.isAlterable {m : Mode} (hm : m.isAlterable = true) (hx : Addressing cpu m x) :
    x.isAlterable = true := by
  cases hx with
  | indexFull r h020 hx =>
      simp [Operand.isAlterable, hx.isImmediate, hx.isPcRelative_addr]
  | pcDisp | pcIndex | pcIndexFull | immediate => cases hm
  | _ => rfl

theorem Addressing.isControl {m : Mode} (hm : m.isControl = true) (hx : Addressing cpu m x) :
    x.isControl = true := by
  cases hx with
  | indexFull r h020 hx | pcIndexFull h020 hx => exact hx.isControl
  | dataReg | addrReg | postInc | preDec | immediate => cases hm
  | _ => rfl

theorem Addressing.isAddrReg {m : Mode} (hm : m ≠ .addrReg) (hx : Addressing cpu m x) :
    x.isAddrReg = false := by
  cases hx with
  | indexFull r h020 hx | pcIndexFull h020 hx => exact hx.isAddrReg
  | addrReg => exact absurd rfl hm
  | _ => rfl

theorem Addressing.isSpecial {m : Mode} (hx : Addressing cpu m x) : x.isSpecial = false := by
  cases hx with
  | indexFull r h020 hx | pcIndexFull h020 hx => exact hx.isSpecial
  | _ => rfl

variable {allowed : Mode -> Bool}

theorem Accepts.isAlterable (hx : Accepts cpu allowed x)
    (hallowed : ∀ m, allowed m = true -> m.isAlterable = true) : x.isAlterable = true := by
  rcases hx with ⟨m, hm, hx⟩
  exact hx.isAlterable (hallowed m hm)

theorem isAlterable_of_isDataAlterable (m : Mode) (hm : m.isDataAlterable = true) :
    m.isAlterable = true := by
  simp only [Mode.isDataAlterable, Bool.and_eq_true] at hm
  exact hm.2

theorem isAlterable_of_isMemoryAlterable (m : Mode) (hm : m.isMemoryAlterable = true) :
    m.isAlterable = true := by
  simp only [Mode.isMemoryAlterable, Bool.and_eq_true] at hm
  exact hm.2

theorem Accepts.isSpecial (hx : Accepts cpu allowed x) : x.isSpecial = false := by
  rcases hx with ⟨m, _, hx⟩
  exact hx.isSpecial

theorem Accepts.isControl (hx : Accepts cpu Mode.isControl x) : x.isControl = true := by
  rcases hx with ⟨m, hm, hx⟩
  exact hx.isControl hm

theorem Accepts.isAddrReg (hx : Accepts cpu allowed x) (hallowed : allowed .addrReg = false) :
    x.isAddrReg = false := by
  rcases hx with ⟨m, hm, hx⟩
  apply hx.isAddrReg
  rintro rfl
  rw [hallowed] at hm
  cases hm

end

/-! ## The operands that are present -/

namespace Operation

/-- The operands that are present, in assembler order. -/
def present (o : Operation) : List Operand :=
  [o.first, o.second, o.third].filterMap id

section

variable {op : Opcode} {size : Suffix} {x y z : Operand} {f g : Option Bitfield}
  {P : Operand -> Prop}

theorem forall_unary (hx : P x) :
    ∀ a ∈ present { unary op size x with firstField := f, secondField := g }, P a := by
  simp [present, unary, hx]

theorem forall_binary (hx : P x) (hy : P y) :
    ∀ a ∈ present { binary op size x y with firstField := f, secondField := g }, P a := by
  simp [present, binary, hx, hy]

theorem forall_ternary (hx : P x) (hy : P y) (hz : P z) :
    ∀ a ∈ present { ternary op size x y z with firstField := f, secondField := g }, P a := by
  simp [present, ternary, hx, hy, hz]

end

end Operation

/-! ## Operands of a processor model -/

/-- The operands that there are on a processor model. -/
inductive Available (cpu : Cpu) : Operand -> Prop
  | addressed {m : Mode} {x : Operand} (hx : Addressing cpu m x) : Available cpu x
  | sr : Available cpu .sr
  | ccr : Available cpu .ccr
  | usp : Available cpu .usp
  | branch (d : Int32) : Available cpu (.branch d)
  | regList (mask : UInt16) : Available cpu (.regList mask)
  | controlReg {code : UInt16} (hcode : hasControlReg cpu code = true) :
      Available cpu (.controlReg code)
  | regPair (r s : Fin 8) : Available cpu (.regPair r s)
  | indirectPair {m n : Nat} (hm : m < 16) (hn : n < 16) :
      Available cpu (.indirectPair (.ofNumber m) (.ofNumber n))

theorem mem_of_hasControlReg {cpu : Cpu} {code : UInt16}
    (h : Decoder.hasControlReg cpu code = true) :
    code ∈ Decoder.controlRegNames.map Prod.fst := by
  unfold Decoder.hasControlReg at h
  split at h
  · rename_i hcode
    simp only [List.mem_cons, List.not_mem_nil, or_false] at hcode
    rcases hcode with rfl | rfl | rfl | rfl <;> decide
  · split at h
    · rename_i hcode
      simp only [List.mem_cons, List.not_mem_nil, or_false] at hcode
      rcases hcode with rfl | rfl | rfl | rfl <;> decide
    · cases h

namespace Available

variable {cpu : Cpu}

theorem dataReg (r : Fin 8) : Available cpu (.dataReg r) :=
  addressed (Addressing.dataReg r)

theorem addrReg (r : Fin 8) : Available cpu (.addrReg r) :=
  addressed (Addressing.addrReg r)

theorem postInc (r : Fin 8) : Available cpu (.postInc r) :=
  addressed (Addressing.postInc r)

theorem preDec (r : Fin 8) : Available cpu (.preDec r) :=
  addressed (Addressing.preDec r)

theorem disp16 (r : Fin 8) (d : Int16) : Available cpu (.disp16 r d) :=
  addressed (Addressing.disp r d)

theorem immediate (v : UInt32) : Available cpu (.immediate v) :=
  addressed (Addressing.immediate v)

end Available

theorem Accepts.available {cpu : Cpu} {allowed : Mode -> Bool} {x : Operand}
    (hx : Accepts cpu allowed x) : Available cpu x := by
  rcases hx with ⟨m, _, hx⟩
  exact Available.addressed hx

theorem IsRegister.available {cpu : Cpu} {x : Operand} (hx : IsRegister x) : Available cpu x := by
  rcases hx with ⟨r, rfl | rfl⟩
  · exact Available.dataReg r
  · exact Available.addrReg r

open Operation in
/-- An operation has no operands but those of its model. -/
theorem Repertoire.available {cpu : Cpu} {o : Operation} (h : Repertoire cpu o) :
    ∀ x ∈ o.present, Available cpu x := by
  cases h with
  | immediate hop hsize hx | quick hop hsize hx | bitStatic hop hx =>
      exact forall_binary (.immediate _) hx.available
  | immediateToCcr hop => exact forall_binary (.immediate _) .ccr
  | immediateToSr hop => exact forall_binary (.immediate _) .sr
  | moveq r => exact forall_binary (.immediate _) (.dataReg r)
  | bitDynamic hop r hx | dataStore hop hsize r hx | eor hsize r hx
  | bitfieldInsert h020 hx r ext => exact forall_binary (.dataReg r) hx.available
  | bounds h020 hop hsize hx hr | movesLoad h010 hsize hx hr =>
      exact forall_binary hx.available hr.available
  | movesStore h010 hsize hx hr => exact forall_binary hr.available hx.available
  | cas h020 hsize r s hx => exact forall_ternary (.dataReg r) (.dataReg s) hx.available
  | cas2 h020 hsize r s t u hm hn =>
      exact forall_ternary (.regPair r s) (.regPair t u) (.indirectPair hm hn)
  | move hsize hx hy => exact forall_binary hx.available hy.available
  | movea hsize hx r | addressLoad hop hsize hx r | lea hx r =>
      exact forall_binary hx.available (.addrReg r)
  | moveToUsp r => exact forall_binary (.addrReg r) .usp
  | moveFromUsp r => exact forall_binary .usp (.addrReg r)
  | moveFromSr hx => exact forall_binary .sr hx.available
  | moveFromCcr h010 hx => exact forall_binary .ccr hx.available
  | moveToCcr hx => exact forall_binary hx.available .ccr
  | moveToSr hx => exact forall_binary hx.available .sr
  | movepLoad hsize r s d => exact forall_binary (.disp16 r d) (.dataReg s)
  | movepStore hsize r s d => exact forall_binary (.dataReg s) (.disp16 r d)
  | movemLoad hsize hx mask => exact forall_binary hx.available (.regList mask)
  | movemStore hsize hx mask => exact forall_binary (.regList mask) hx.available
  | movecLoad h010 hcode hr => exact forall_binary (.controlReg hcode) hr.available
  | movecStore h010 hcode hr => exact forall_binary hr.available (.controlReg hcode)
  | exgData r s | extendedRegisters hop r s => exact forall_binary (.dataReg r) (.dataReg s)
  | exgAddress r s => exact forall_binary (.addrReg r) (.addrReg s)
  | exgBoth r s => exact forall_binary (.dataReg r) (.addrReg s)
  | logicLoad hop hsize hx r | dataLoad hop hsize hx r | multiplyWord hop hx r
  | multiplyLong h020 hop hx r | bitfieldRead h020 hop hx r ext | chk h hx r =>
      exact forall_binary hx.available (.dataReg r)
  | multiplyPair h020 hop hx r s => exact forall_binary hx.available (.regPair r s)
  | cmpm hsize r s => exact forall_binary (.postInc r) (.postInc s)
  | extendedMemory hop r s => exact forall_binary (.preDec r) (.preDec s)
  | packedRegisters h020 hop r s =>
      exact forall_ternary (.dataReg r) (.dataReg s) (.immediate _)
  | packedMemory h020 hop r s => exact forall_ternary (.preDec r) (.preDec s) (.immediate _)
  | shiftRegister hop hsize hx r =>
      rcases hx with ⟨s, rfl⟩ | ⟨v, rfl⟩
      · exact forall_binary (.dataReg s) (.dataReg r)
      · exact forall_binary (.immediate v) (.dataReg r)
  | shiftMemory hop hx | bitfieldChange h020 hop hx ext | single hop hsize hx | tst hsize hx
  | byteSingle hop hx | control hop hx | set c hx => exact forall_unary hx.available
  | swap r | ext hsize r | extb h020 r => exact forall_unary (.dataReg r)
  | link h r => exact forall_binary (.addrReg r) (.immediate _)
  | unlk r => exact forall_unary (.addrReg r)
  | stop | rtd h010 | trap | bkpt h010 | trapOnImmediate h020 hsize c =>
      exact forall_unary (.immediate _)
  | branch c hc d h | bsr d h => exact forall_unary (.branch d)
  | loop c r d => exact forall_binary (.dataReg r) (.branch d)
  | plain hop | trapOn h020 c =>
      intro x hx
      cases hx

/-! ## Decoded operations -/

/-- What holds of the repertoire and of data holds of all that is decoded. -/
theorem toOperation_decode {cpu : Cpu} {P : Operation -> Prop} (hdata : P (.nullary .data .none))
    (hinst : ∀ o, Repertoire cpu o -> P o) (bytes : Bytes) : P (decode cpu bytes).toOperation := by
  rcases decode_cases cpu bytes with ⟨code, rest, _, hcode⟩ | heq
  · exact hinst _ hcode.repertoire
  · rw [heq]
    exact hdata

end M68k
end Disassembler
