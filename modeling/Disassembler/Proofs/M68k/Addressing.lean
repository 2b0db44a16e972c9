import Disassembler.M68k.Decode.Address
import Disassembler.Proofs.Binary.Fetch

/-!
# Operands of addressing modes

What the mode and register fields of an instruction can describe on each
processor model, and how many extension words it takes.
-/

namespace Disassembler
namespace M68k

/-! ## Operands -/

/-- An index that an extension word can hold.  Scales need a 68020. -/
structure Index.Encoded (cpu : Cpu) (i : Index) : Prop where
  reg : ∃ r : Fin 8, i.reg = .d r ∨ i.reg = .a r
  scale_lt : i.scale < 4
  scale_eq : cpu.is020 = true ∨ i.scale = 0

/-- What a full extension word with the given base can hold.  A suppressed index
leaves nothing behind. -/
structure FullExt.Encoded (cpu : Cpu) (base : Decoder.Base) (e : FullExt) : Prop where
  base_eq : e.base = base.toIndexReg
  index : e.hasIndex = true -> e.index.Encoded cpu
  suppressed : e.hasIndex = false -> e.index = { reg := .absent, long := false, scale := 0 }

/-- The operands of a full extension word.  Only a used index can come before
or after the memory access. -/
inductive FullOperand (cpu : Cpu) (base : Decoder.Base) : Operand -> Prop
  | direct {e : FullExt} (he : e.Encoded cpu base) : FullOperand cpu base (.noMemoryIndirect e)
  | preIndexed {e : FullExt} (he : e.Encoded cpu base) (h : e.hasIndex = true) :
      FullOperand cpu base (.preIndexed e)
  | postIndexed {e : FullExt} (he : e.Encoded cpu base) (h : e.hasIndex = true) :
      FullOperand cpu base (.postIndexed e)
  | memory {e : FullExt} (he : e.Encoded cpu base) (h : e.hasIndex = false) :
      FullOperand cpu base (.memoryIndirect e)

/-- The operands of each addressing mode on a processor model. -/
inductive Addressing (cpu : Cpu) : Mode -> Operand -> Prop
  | dataReg (r : Fin 8) : Addressing cpu .dataReg (.dataReg r)
  | addrReg (r : Fin 8) : Addressing cpu .addrReg (.addrReg r)
  | indirect (r : Fin 8) : Addressing cpu .indirect (.indirect r)
  | postInc (r : Fin 8) : Addressing cpu .postInc (.postInc r)
  | preDec (r : Fin 8) : Addressing cpu .preDec (.preDec r)
  | disp (r : Fin 8) (d : Int16) : Addressing cpu .disp (.disp16 r d)
  | index (r : Fin 8) (d : Int8) {i : Index} (hi : i.Encoded cpu) :
      Addressing cpu .index (.indexed r d i)
  | indexFull (r : Fin 8) {x : Operand} (h020 : cpu.is020 = true)
      (hx : FullOperand cpu (.addr r) x) : Addressing cpu .index x
  | absWord (a : UInt16) : Addressing cpu .absWord (.absWord a)
  | absLong (a : UInt32) : Addressing cpu .absLong (.absLong a)
  | pcDisp (d : Int32) : Addressing cpu .pcDisp (.pcDisp d)
  | pcIndex (d : Int32) {i : Index} (hi : i.Encoded cpu) :
      Addressing cpu .pcIndex (.pcIndexed d i)
  | pcIndexFull {x : Operand} (h020 : cpu.is020 = true) (hx : FullOperand cpu .pc x) :
      Addressing cpu .pcIndex x
  | immediate (v : UInt32) : Addressing cpu .immediate (.immediate v)

/-- An operand of one of the allowed modes. -/
def Accepts (cpu : Cpu) (allowed : Mode -> Bool) (x : Operand) : Prop :=
  ∃ m, allowed m = true ∧ Addressing cpu m x

/-- The immediate operands. -/
def IsImmediate (x : Operand) : Prop :=
  ∃ v, x = .immediate v

/-- How many extension words an operand can take. -/
def operandWords (cpu : Cpu) : Nat :=
  if cpu.is020 then 5 else 2

theorem two_le_operandWords (cpu : Cpu) : 2 ≤ operandWords cpu := by
  unfold operandWords
  split <;> omega

namespace Decoder

/-! ## Extension words -/

theorem long_yields : long.Yields (fun _ => True) 2 := by
  refine Fetch.yields_next.bind (m := 1) (n := 1) ?_ (by omega)
  intro high _
  refine Fetch.yields_next.bind (m := 1) (n := 0) ?_ (by omega)
  intro low _
  exact Fetch.yields_done.2 trivial

theorem immediate_yields (size : Suffix) : (immediate size).Yields IsImmediate 2 := by
  unfold immediate
  split
  · refine long_yields.bind (n := 0) ?_ (by omega)
    intro v _
    exact Fetch.yields_done.2 ⟨v, rfl⟩
  · intro i w
    exact Fetch.yields_done.2 ⟨_, rfl⟩
  · intro i w
    exact Fetch.yields_done.2 ⟨_, rfl⟩

/-- A four bit number is that of a data register or of an address register. -/
theorem exists_ofNumber_eq {n : Nat} (hn : n < 16) :
    ∃ r : Fin 8, IndexReg.ofNumber n = .d r ∨ IndexReg.ofNumber n = .a r := by
  unfold IndexReg.ofNumber
  by_cases h8 : n < 8
  · exact ⟨⟨n, h8⟩, Or.inl (dif_pos h8)⟩
  · refine ⟨⟨n - 8, by omega⟩, Or.inr ?_⟩
    rw [dif_neg h8, dif_pos hn]

theorem indexOf_encoded (cpu : Cpu) (ext : UInt16)
    (h : cpu.is020 = true ∨ Word16.field ext 9 2 = 0) : (indexOf ext).Encoded cpu :=
  ⟨exists_ofNumber_eq (bits_lt _ 12 4), bits_lt _ 9 2, h⟩

theorem displacement_yields (code : Nat) : (displacement code).Yields (fun _ => True) 2 := by
  unfold displacement
  split
  · intro i w
    exact Fetch.yields_done.2 trivial
  · refine long_yields.bind (n := 0) ?_ (by omega)
    intro v _
    exact Fetch.yields_done.2 trivial
  · exact Fetch.yields_done.2 trivial

theorem fullOperand_of_indirection {cpu : Cpu} {base : Base} {e : FullExt} {selection : Nat}
    {kind : FullExt -> Operand} (he : e.Encoded cpu base)
    (h : indirection? e.hasIndex selection = some kind) : FullOperand cpu base (kind e) := by
  unfold indirection? at h
  split at h <;> cases h
  · exact FullOperand.direct he
  all_goals rename_i hindex
  · exact FullOperand.preIndexed he hindex
  · exact FullOperand.preIndexed he hindex
  · exact FullOperand.preIndexed he hindex
  · exact FullOperand.postIndexed he hindex
  · exact FullOperand.postIndexed he hindex
  · exact FullOperand.postIndexed he hindex
  · exact FullOperand.memory he hindex
  · exact FullOperand.memory he hindex
  · exact FullOperand.memory he hindex

/-- A full extension word is followed by two displacements at most. -/
theorem full_yields {cpu : Cpu} (h020 : cpu.is020 = true) (base : Base) (pc : Int32)
    (ext : UInt16) : (full base pc ext).Yields (FullOperand cpu base) 4 := by
  refine Fetch.yields_ensure.bind (m := 0) (n := 4) ?_ (by omega)
  intro _ _
  refine Fetch.yields_ensure.bind (m := 0) (n := 4) ?_ (by omega)
  intro _ _
  refine (displacement_yields _).bind (n := 2) ?_ (by omega)
  intro baseDisp? _
  refine (displacement_yields _).bind (n := 0) ?_ (by omega)
  intro outerDisp? _
  cases h : indirection? (!Word16.bit ext 6) (Word16.field ext 0 3) with
  | none => exact Fetch.yields_fail
  | some kind =>
      refine Fetch.yields_done.2 (fullOperand_of_indirection ⟨rfl, ?_, ?_⟩ h)
      · intro hindex
        have hext : (!Word16.bit ext 6) = true := hindex
        simp only [hext, if_true]
        exact indexOf_encoded cpu ext (Or.inl h020)
      · intro hindex
        have hext : (!Word16.bit ext 6) = false := hindex
        simp [hext]

/-- An operand of the given base, brief or full. -/
theorem indexed_yields (cpu : Cpu) (base : Base) {P : Operand -> Prop}
    (hbrief : ∀ pc ext, (indexOf ext).Encoded cpu -> P (brief base pc ext))
    (hfull : ∀ x, cpu.is020 = true -> FullOperand cpu base x -> P x) :
    (indexed cpu base).Yields P (operandWords cpu) := by
  have h2 := two_le_operandWords cpu
  refine Fetch.yields_nextAt.bind (m := 1) (n := operandWords cpu - 1) ?_ (by omega)
  rintro ⟨i, ext⟩ _
  show (if Word16.bit ext 8 = true then _ else _ : Decoder Operand).Yields P _
  split
  · refine Fetch.yields_ensure.bind (m := 0) (n := operandWords cpu - 1) ?_ (by omega)
    intro _ h020
    refine (full_yields h020 base _ ext).mono (fun x => hfull x h020) ?_
    simp [operandWords, h020]
  · refine Fetch.yields_ensure.bind (m := 0) (n := operandWords cpu - 1) ?_ (by omega)
    intro _ hscale
    refine Fetch.yields_done.2 (hbrief _ ext (indexOf_encoded cpu ext ?_))
    simpa using hscale

/-! ## The mode and register fields -/

theorem operand_yields (cpu : Cpu) (mode : Mode) (reg : Fin 8) (size : Suffix) :
    (operand cpu mode reg size).Yields (Addressing cpu mode) (operandWords cpu) := by
  have h2 := two_le_operandWords cpu
  cases mode with
  | dataReg => exact Fetch.yields_done.2 (Addressing.dataReg reg)
  | addrReg => exact Fetch.yields_done.2 (Addressing.addrReg reg)
  | indirect => exact Fetch.yields_done.2 (Addressing.indirect reg)
  | postInc => exact Fetch.yields_done.2 (Addressing.postInc reg)
  | preDec => exact Fetch.yields_done.2 (Addressing.preDec reg)
  | disp =>
      refine Fetch.yields_next.bind (m := 1) (n := 0) ?_ (by omega)
      intro w _
      exact Fetch.yields_done.2 (Addressing.disp reg _)
  | index =>
      apply indexed_yields
      · intro pc ext hi
        exact Addressing.index reg _ hi
      · intro x h020 hx
        exact Addressing.indexFull reg h020 hx
  | absWord =>
      refine Fetch.yields_next.bind (m := 1) (n := 0) ?_ (by omega)
      intro w _
      exact Fetch.yields_done.2 (Addressing.absWord w)
  | absLong =>
      refine long_yields.bind (n := 0) ?_ (by omega)
      intro v _
      exact Fetch.yields_done.2 (Addressing.absLong v)
  | pcDisp =>
      refine Fetch.yields_nextAt.bind (m := 1) (n := 0) ?_ (by omega)
      rintro ⟨i, w⟩ _
      exact Fetch.yields_done.2 (Addressing.pcDisp _)
  | pcIndex =>
      apply indexed_yields
      · intro pc ext hi
        exact Addressing.pcIndex _ hi
      · intro x h020 hx
        exact Addressing.pcIndexFull h020 hx
  | immediate =>
      refine (immediate_yields size).mono ?_ h2
      rintro x ⟨v, rfl⟩
      exact Addressing.immediate v

theorem operandOf_yields (cpu : Cpu) (mode reg : Fin 8) (size : Suffix)
    (allowed : Mode -> Bool) :
    (operandOf cpu mode reg size allowed).Yields (Accepts cpu allowed) (operandWords cpu) := by
  unfold operandOf
  cases Mode.ofFields? mode.val reg.val with
  | none => exact Fetch.yields_fail
  | some m =>
      cases hm : allowed m with
      | false => simp [hm]
      | true =>
          simp only [hm, if_true]
          refine (operand_yields cpu m reg size).mono ?_ (Nat.le_refl _)
          intro x hx
          exact ⟨m, hm, hx⟩

theorem effective_yields (cpu : Cpu) (w : UInt16) (size : Suffix) (allowed : Mode -> Bool) :
    (effective cpu w size allowed).Yields (Accepts cpu allowed) (operandWords cpu) :=
  operandOf_yields cpu _ _ size allowed

end Decoder
end M68k
end Disassembler
