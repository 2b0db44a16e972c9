import Disassembler.Proofs.M68k.Extent
import Disassembler.Proofs.M68k.RegisterRange

/-!
# Transfers of several registers

`movem` has its registers in the word after the first one, which is the mask of its
register list.  In the predecrement mode the mask is in reverse order.  No other first
word leads to this opcode.
-/

namespace Disassembler
namespace M68k

open Word16 (bit field)

/-! ## Masks -/

theorem testBit_foldr_or (ns : List Nat) (i : Nat) :
    (ns.foldr (fun n m => 1 <<< n ||| m) 0).testBit i = decide (i ∈ ns) := by
  induction ns with
  | nil => simp
  | cons n ns ih =>
      rw [List.foldr_cons, Nat.testBit_or, ih, Nat.one_shiftLeft, Nat.testBit_two_pow]
      simp only [List.mem_cons, Bool.decide_or, eq_comm]

/-- The last bit comes first. -/
theorem bit_reverseMask (mask : UInt16) {i : Nat} (hi : i < 16) :
    bit (Decoder.reverseMask mask) i = bit mask (15 - i) := by
  rw [Decoder.reverseMask, bit, UInt16.toNat_ofNat', Nat.testBit_mod_two_pow, testBit_foldr_or]
  simp [hi]

theorem eq_of_bit_eq {a b : UInt16} (h : ∀ i < 16, bit a i = bit b i) : a = b := by
  apply UInt16.toBitVec_inj.1
  apply BitVec.eq_of_getLsbD_eq
  intro i hi
  exact h i hi

theorem reverseMask_reverseMask (mask : UInt16) :
    Decoder.reverseMask (Decoder.reverseMask mask) = mask := by
  apply eq_of_bit_eq
  intro i hi
  have hback : 15 - (15 - i) = i := by omega
  rw [bit_reverseMask _ hi, bit_reverseMask _ (by omega), hback]

theorem reverseMask_eq_zero_iff (mask : UInt16) : Decoder.reverseMask mask = 0 ↔ mask = 0 := by
  have hzero : Decoder.reverseMask 0 = 0 := by decide
  constructor
  · intro h
    rw [← reverseMask_reverseMask mask, h, hzero]
  · rintro rfl
    exact hzero

/-- The mask of a transfer with bit 0 for `d0` and bit 15 for `a7`, whatever the mode in the
first word is. -/
def listedMask (w mask : UInt16) : UInt16 :=
  if field w 3 3 = 4 then Decoder.reverseMask mask else mask

theorem bit_listedMask (w mask : UInt16) {n : Nat} (hn : n < 16) :
    bit (listedMask w mask) n = bit mask (if field w 3 3 = 4 then 15 - n else n) := by
  unfold listedMask
  split
  · exact bit_reverseMask mask hn
  · rfl

theorem listedMask_eq_zero_iff (w mask : UInt16) : listedMask w mask = 0 ↔ mask = 0 := by
  unfold listedMask
  split
  · exact reverseMask_eq_zero_iff mask
  · exact Iff.rfl

/-! ## First words of other opcodes -/

namespace Decoder

/-- The decisions do not lead to `movem`. -/
def NoTransfer (d : Decoder Operation) : Prop :=
  d.Conforms fun _ o => o.opcode ≠ .movem

section

variable {α : Type} {d : Decoder α}

theorem noTransfer_done {o : Operation} (h : o.opcode ≠ .movem) : NoTransfer (.done o) :=
  Fetch.conforms_done h

theorem noTransfer_fail : NoTransfer .fail :=
  Fetch.conforms_fail

theorem noTransfer_bind {f : α -> Decoder Operation} (h : ∀ a, NoTransfer (f a)) :
    NoTransfer (d.bind f) :=
  Fetch.conforms_bind h

/-- What is found only completes the operation. -/
theorem noTransfer_then {f : α -> Operation} (h : ∀ a, (f a).opcode ≠ .movem) :
    NoTransfer (d.bind fun a => .done (f a)) :=
  noTransfer_bind fun a => noTransfer_done (h a)

end

/-! ## The digit 0 -/

theorem bounds_noTransfer (cpu : Cpu) (w : UInt16) : NoTransfer (bounds cpu w) := by
  have hbody (size : Suffix) :
      NoTransfer (Fetch.next.bind fun ext => (effective cpu w size Mode.isControl).bind fun src =>
        .done (.binary (if bit ext 11 then Opcode.chk2 else Opcode.cmp2) size src
          (registerOf (field ext 12 4)))) := by
    refine noTransfer_bind fun ext => noTransfer_then fun src => ?_
    cases bit ext 11 <;> nofun
  refine noTransfer_bind fun _ => ?_
  dsimp only
  split
  · exact hbody .byte
  · exact hbody .word
  · exact hbody .long
  · exact noTransfer_fail

theorem compareSwap_noTransfer (cpu : Cpu) (w : UInt16) : NoTransfer (compareSwap cpu w) := by
  have hbody (size : Suffix) :
      NoTransfer (if field w 0 6 = 0x3c then
        (Fetch.ensure (size != .byte)).bind fun _ => compareSwap2 size
      else Fetch.next.bind fun ext =>
        (effective cpu w size Mode.isMemoryAlterable).bind fun dst =>
          .done (.ternary .cas size (dataRegOf ext 0) (dataRegOf ext 6) dst)) := by
    split
    · exact noTransfer_bind fun _ => noTransfer_bind fun _ => noTransfer_then fun _ => nofun
    · exact noTransfer_bind fun _ => noTransfer_then fun _ => nofun
  refine noTransfer_bind fun _ => ?_
  dsimp only
  split
  · exact hbody .byte
  · exact hbody .word
  · exact hbody .long
  · exact noTransfer_fail

theorem immediateOp_noTransfer (cpu : Cpu) (w : UInt16) {op : Opcode} (hop : op ≠ .movem) :
    NoTransfer (immediateOp cpu w op) := by
  unfold immediateOp
  split
  · refine noTransfer_bind fun imm => ?_
    split
    · split
      · exact noTransfer_done hop
      · exact noTransfer_done hop
      · exact noTransfer_fail
    · exact noTransfer_then fun _ => hop
  · unfold immediateUnsized
    split
    · exact bounds_noTransfer cpu w
    · exact bounds_noTransfer cpu w
    · exact bounds_noTransfer cpu w
    · exact compareSwap_noTransfer cpu w
    · exact compareSwap_noTransfer cpu w
    · exact noTransfer_fail

theorem bitOpcode_ne_movem (w : UInt16) : bitOpcode w ≠ .movem := by
  unfold bitOpcode
  split <;> decide

theorem movePeripheral_noTransfer (w : UInt16) : NoTransfer (movePeripheral w) := by
  refine noTransfer_then fun disp => ?_
  split <;> nofun

theorem moveSpace_noTransfer (cpu : Cpu) (w : UInt16) : NoTransfer (moveSpace cpu w) := by
  refine noTransfer_bind fun _ => ?_
  split
  · exact noTransfer_fail
  · refine noTransfer_bind fun ext => noTransfer_then fun mem => ?_
    split <;> nofun

theorem line0_noTransfer (cpu : Cpu) (w : UInt16) : NoTransfer (line0 cpu w) := by
  unfold line0
  split
  · split
    · exact movePeripheral_noTransfer w
    · exact noTransfer_then fun _ => bitOpcode_ne_movem w
  · split
    · exact immediateOp_noTransfer cpu w nofun
    · exact immediateOp_noTransfer cpu w nofun
    · exact immediateOp_noTransfer cpu w nofun
    · exact immediateOp_noTransfer cpu w nofun
    · exact noTransfer_bind fun _ => noTransfer_then fun _ => bitOpcode_ne_movem w
    · exact immediateOp_noTransfer cpu w nofun
    · exact immediateOp_noTransfer cpu w nofun
    · split
      · exact compareSwap_noTransfer cpu w
      · exact moveSpace_noTransfer cpu w

/-! ## Moves -/

theorem moveSized_noTransfer (cpu : Cpu) (w : UInt16) (size : Suffix) :
    NoTransfer (moveSized cpu w size) := by
  refine noTransfer_bind fun src => ?_
  split
  · exact noTransfer_then fun _ => nofun
  · exact noTransfer_then fun _ => nofun

theorem moveControl_noTransfer (cpu : Cpu) (w : UInt16) : NoTransfer (moveControl cpu w) := by
  refine noTransfer_bind fun _ => noTransfer_bind fun ext => noTransfer_then fun _ => ?_
  split <;> nofun

/-! ## Arithmetic and logic -/

theorem registerOrPreDec_opcode (w : UInt16) (op : Opcode) (size : Suffix) :
    (registerOrPreDec w op size).opcode = op := by
  unfold registerOrPreDec
  split <;> rfl

theorem logic_noTransfer (cpu : Cpu) (w : UInt16) {op : Opcode} (hop : op ≠ .movem) :
    NoTransfer (logic cpu w op) := by
  unfold logic
  split
  · exact noTransfer_fail
  · split
    · exact noTransfer_then fun _ => hop
    · exact noTransfer_then fun _ => hop

theorem packed_noTransfer (cpu : Cpu) (w : UInt16) {op : Opcode} (hop : op ≠ .movem) :
    NoTransfer (packed cpu w op) := by
  refine noTransfer_bind fun _ => noTransfer_then fun _ => ?_
  show (registerOrPreDec w op .none).opcode ≠ .movem
  rwa [registerOrPreDec_opcode]

theorem line8_noTransfer (cpu : Cpu) (w : UInt16) : NoTransfer (line8 cpu w) := by
  have hor : NoTransfer (logic cpu w .or) := logic_noTransfer cpu w nofun
  unfold line8
  dsimp only
  split
  · exact noTransfer_then fun _ => nofun
  · exact noTransfer_then fun _ => nofun
  · split
    · exact noTransfer_done (by rw [registerOrPreDec_opcode]; nofun)
    · exact hor
  · split
    · exact packed_noTransfer cpu w nofun
    · exact hor
  · split
    · exact packed_noTransfer cpu w nofun
    · exact hor
  · exact hor

theorem lineC_noTransfer (cpu : Cpu) (w : UInt16) : NoTransfer (lineC cpu w) := by
  unfold lineC
  split
  · exact noTransfer_done nofun
  · exact noTransfer_done nofun
  · exact noTransfer_done nofun
  · exact noTransfer_then fun _ => nofun
  · exact noTransfer_then fun _ => nofun
  · exact noTransfer_done (by rw [registerOrPreDec_opcode]; nofun)
  · exact noTransfer_done (by rw [registerOrPreDec_opcode]; nofun)
  · exact logic_noTransfer cpu w nofun

theorem addSub_noTransfer (cpu : Cpu) (w : UInt16) {op opAddr opExtend : Opcode}
    (hop : op ≠ .movem) (haddr : opAddr ≠ .movem) (hextend : opExtend ≠ .movem) :
    NoTransfer (addSub cpu w op opAddr opExtend) := by
  unfold addSub
  split
  · exact noTransfer_then fun _ => haddr
  · split
    · split
      · exact noTransfer_done (by rwa [registerOrPreDec_opcode])
      · exact noTransfer_then fun _ => hop
    · exact noTransfer_then fun _ => hop

theorem lineB_noTransfer (cpu : Cpu) (w : UInt16) : NoTransfer (lineB cpu w) := by
  unfold lineB
  split
  · exact noTransfer_then fun _ => nofun
  · split
    · split
      · exact noTransfer_done nofun
      · exact noTransfer_then fun _ => nofun
    · exact noTransfer_then fun _ => nofun

theorem multiplyLong_noTransfer (cpu : Cpu) (w : UInt16) : NoTransfer (multiplyLong cpu w) := by
  refine noTransfer_bind fun ext => noTransfer_then fun src => ?_
  cases bit ext 11 <;> split <;> nofun

theorem divideLong_noTransfer (cpu : Cpu) (w : UInt16) : NoTransfer (divideLong cpu w) := by
  refine noTransfer_bind fun ext => noTransfer_then fun src => ?_
  cases bit ext 11 <;> split
  · nofun
  · split <;> nofun
  · nofun
  · split <;> nofun

/-! ## Branches, loops and quick arithmetic -/

theorem branchOpcode_ne_movem (n : Nat) : branchOpcode n ≠ .movem := by
  unfold branchOpcode
  split <;> nofun

theorem line6_noTransfer (cpu : Cpu) (w : UInt16) : NoTransfer (line6 cpu w) := by
  have hop := branchOpcode_ne_movem (field w 8 4)
  unfold line6
  dsimp only
  split
  · exact noTransfer_then fun _ => hop
  · exact noTransfer_bind fun _ => noTransfer_bind fun _ => noTransfer_then fun _ => hop
  · exact noTransfer_done hop

theorem conditional_noTransfer (cpu : Cpu) (w : UInt16) : NoTransfer (conditional cpu w) := by
  unfold conditional
  dsimp only
  split
  · exact noTransfer_then fun _ => nofun
  · split
    · refine noTransfer_bind fun _ => ?_
      split
      · exact noTransfer_then fun _ => nofun
      · exact noTransfer_then fun _ => nofun
      · exact noTransfer_done nofun
    · exact noTransfer_then fun _ => nofun

theorem line5_noTransfer (cpu : Cpu) (w : UInt16) : NoTransfer (line5 cpu w) := by
  unfold line5
  split
  · exact conditional_noTransfer cpu w
  · refine noTransfer_then fun dst => ?_
    cases bit w 8 <;> nofun

/-! ## Shifts and bit fields -/

theorem shiftOpcode_ne_movem (kind : Nat) (left : Bool) : shiftOpcode kind left ≠ .movem := by
  unfold shiftOpcode
  split <;> decide

theorem bitfield_noTransfer (cpu : Cpu) (w : UInt16) : NoTransfer (bitfield cpu w) := by
  have hop : bitfieldOpcode (field w 8 3) ≠ .movem := by
    unfold bitfieldOpcode
    split <;> decide
  refine noTransfer_bind fun _ => noTransfer_bind fun ext => noTransfer_then fun target => ?_
  split <;> exact hop

theorem lineE_noTransfer (cpu : Cpu) (w : UInt16) : NoTransfer (lineE cpu w) := by
  unfold lineE
  split
  · split
    · exact bitfield_noTransfer cpu w
    · exact noTransfer_then fun _ => shiftOpcode_ne_movem _ _
  · exact noTransfer_done (shiftOpcode_ne_movem _ _)

/-! ## The digit 4 -/

theorem fixed_noTransfer {cpu : Cpu} {w : UInt16} {d : Decoder Operation}
    (h : fixed? cpu w = some d) : NoTransfer d := by
  unfold fixed? at h
  split at h <;> cases h
  case h_4 => exact noTransfer_then fun _ => nofun
  case h_6 => exact noTransfer_bind fun _ => noTransfer_then fun _ => nofun
  case h_10 => exact moveControl_noTransfer cpu w
  case h_11 => exact moveControl_noTransfer cpu w
  all_goals exact noTransfer_done nofun

theorem numbered_noTransfer {cpu : Cpu} {w : UInt16} {d : Decoder Operation}
    (h : numbered? cpu w = some d) : NoTransfer d := by
  unfold numbered? at h
  dsimp only at h
  split at h <;> cases h
  case h_3 => exact noTransfer_then fun _ => nofun
  case h_4 => exact noTransfer_bind fun _ => noTransfer_then fun _ => nofun
  case h_9 => exact noTransfer_then fun _ => nofun
  case h_12 => exact noTransfer_then fun _ => nofun
  all_goals exact noTransfer_done nofun

theorem checked_noTransfer {cpu : Cpu} {w : UInt16} {d : Decoder Operation}
    (h : checked? cpu w = some d) : NoTransfer d := by
  unfold checked? at h
  split at h <;> cases h
  · exact noTransfer_then fun _ => nofun
  · exact noTransfer_then fun _ => nofun
  · exact noTransfer_bind fun _ => noTransfer_then fun _ => nofun

theorem sizedSingle_noTransfer (cpu : Cpu) (w : UInt16) : NoTransfer (sizedSingle cpu w) := by
  unfold sizedSingle
  split
  case h_6 => exact noTransfer_fail
  all_goals exact noTransfer_then fun _ => nofun

end Decoder

/-! ## The words of a transfer -/

/-- An address that is decremented before it is used. -/
def Operand.isPreDec : Operand -> Bool
  | preDec _ => true
  | _ => false

/-- What `movem` makes of the words after a first word.  The list of registers stands
before or after the address, in the order of the transfer. -/
inductive Transfer (w : UInt16) : List UInt16 -> Operation -> Prop
  | load {size : Suffix} {x : Operand} (mask : UInt16) (after : List UInt16)
      (hload : bit w 10 = true) (hx : x.isPreDec = true ↔ field w 3 3 = 4) :
      Transfer w (mask :: after) (.binary .movem size x (.regList (listedMask w mask)))
  | store {size : Suffix} {x : Operand} (mask : UInt16) (after : List UInt16)
      (hstore : bit w 10 = false) (hx : x.isPreDec = true ↔ field w 3 3 = 4) :
      Transfer w (mask :: after) (.binary .movem size (.regList (listedMask w mask)) x)

theorem Addressing.isPreDec_iff {cpu : Cpu} {m : Mode} {x : Operand} (hx : Addressing cpu m x) :
    x.isPreDec = true ↔ m = .preDec := by
  cases hx with
  | indexFull r h020 hx | pcIndexFull h020 hx => cases hx <;> simp [Operand.isPreDec]
  | _ => simp [Operand.isPreDec]

theorem ofFields?_eq_preDec_iff {mode reg : Nat} {m : Mode} (h : Mode.ofFields? mode reg = some m) :
    m = .preDec ↔ mode = 4 := by
  unfold Mode.ofFields? at h
  split at h <;> cases h <;> simp_all

namespace Decoder

/-- The mode field of the first word says whether the address is decremented. -/
theorem effective_isPreDec (cpu : Cpu) (w : UInt16) (size : Suffix) (allowed : Mode -> Bool) :
    (effective cpu w size allowed).Conforms fun _ x =>
      ∃ m, allowed m = true ∧ (x.isPreDec = true ↔ m = .preDec) ∧
        (m = .preDec ↔ field w 3 3 = 4) := by
  unfold effective operandOf
  cases hmode : Mode.ofFields? (field3 w 3).val (field3 w 0).val with
  | none => exact Fetch.conforms_fail
  | some m =>
      cases hallowed : allowed m with
      | false => simpa [hallowed] using Fetch.conforms_fail
      | true =>
          simp only [hallowed, if_true]
          refine (operand_yields cpu m _ size).conforms.mono ?_
          intro ys x hx
          exact ⟨m, hallowed, hx.isPreDec_iff, ofFields?_eq_preDec_iff hmode⟩

theorem moveMultiple_transfer (cpu : Cpu) (w : UInt16) :
    (moveMultiple cpu w).Conforms fun ext o => Transfer w ext o := by
  refine Fetch.conforms_more ?_
  intro i mask
  show (if bit w 10 = true then _ else _ : Decoder Operation).Conforms _
  split
  · rename_i hload
    refine (effective_isPreDec cpu w _ _).map ?_
    rintro after x ⟨m, hallowed, hx, hmode⟩
    -- Nothing is loaded from an address that is decremented, so that the mask stays as it is.
    have hmask : listedMask w mask = mask := by
      rw [listedMask, if_neg]
      intro hfield
      rw [hmode.2 hfield] at hallowed
      cases hallowed
    have hlist : Operand.regList mask = .regList (listedMask w mask) := by rw [hmask]
    show Transfer w (mask :: after) (.binary .movem _ x (.regList mask))
    rw [hlist]
    exact Transfer.load mask after hload (hx.trans hmode)
  · rename_i hstore
    refine (effective_isPreDec cpu w _ _).map ?_
    rintro after x ⟨m, _, hx, hmode⟩
    exact Transfer.store mask after (by simpa using hstore) (hx.trans hmode)

/-- Only a transfer has the opcode of one. -/
def Transfers (w : UInt16) (d : Decoder Operation) : Prop :=
  d.Conforms fun ext o => o.opcode = .movem -> Transfer w ext o

theorem NoTransfer.transfers (w : UInt16) {d : Decoder Operation} (h : NoTransfer d) :
    Transfers w d :=
  h.mono fun _ _ hne heq => absurd heq hne

theorem addressed_transfers {cpu : Cpu} {w : UInt16} {d : Decoder Operation}
    (h : addressed? cpu w = some d) : Transfers w d := by
  have hmovem : Transfers w (moveMultiple cpu w) :=
    (moveMultiple_transfer cpu w).mono fun _ _ htransfer _ => htransfer
  unfold addressed? at h
  split at h <;> cases h
  case h_7 =>
    exact NoTransfer.transfers w (noTransfer_bind fun _ => noTransfer_then fun _ => nofun)
  case h_10 => exact NoTransfer.transfers w (multiplyLong_noTransfer cpu w)
  case h_11 => exact NoTransfer.transfers w (divideLong_noTransfer cpu w)
  case h_12 => exact hmovem
  case h_13 => exact hmovem
  case h_14 => exact hmovem
  case h_15 => exact hmovem
  all_goals exact NoTransfer.transfers w (noTransfer_then fun _ => nofun)

theorem line4_transfers (cpu : Cpu) (w : UInt16) : Transfers w (line4 cpu w) := by
  unfold line4
  cases hfixed : fixed? cpu w with
  | some d => exact NoTransfer.transfers w (fixed_noTransfer hfixed)
  | none =>
      cases hnumbered : numbered? cpu w with
      | some d => exact NoTransfer.transfers w (numbered_noTransfer hnumbered)
      | none =>
          cases haddressed : addressed? cpu w with
          | some d => exact addressed_transfers haddressed
          | none =>
              cases hchecked : checked? cpu w with
              | some d => exact NoTransfer.transfers w (checked_noTransfer hchecked)
              | none => exact NoTransfer.transfers w (sizedSingle_noTransfer cpu w)

/-- Whatever the first word is, `movem` has its mask in the word after it. -/
theorem line_transfers (cpu : Cpu) (w : UInt16) : Transfers w (line cpu w) := by
  unfold line
  split
  · exact NoTransfer.transfers w (line0_noTransfer cpu w)
  · exact NoTransfer.transfers w (moveSized_noTransfer cpu w .byte)
  · exact NoTransfer.transfers w (moveSized_noTransfer cpu w .long)
  · exact NoTransfer.transfers w (moveSized_noTransfer cpu w .word)
  · exact line4_transfers cpu w
  · exact NoTransfer.transfers w (line5_noTransfer cpu w)
  · exact NoTransfer.transfers w (line6_noTransfer cpu w)
  · exact NoTransfer.transfers w (noTransfer_then fun _ => nofun)
  · exact NoTransfer.transfers w (line8_noTransfer cpu w)
  · exact NoTransfer.transfers w (addSub_noTransfer cpu w nofun nofun nofun)
  · exact NoTransfer.transfers w (lineB_noTransfer cpu w)
  · exact NoTransfer.transfers w (lineC_noTransfer cpu w)
  · exact NoTransfer.transfers w (addSub_noTransfer cpu w nofun nofun nofun)
  · exact NoTransfer.transfers w (lineE_noTransfer cpu w)
  · exact NoTransfer.transfers w noTransfer_fail

end Decoder

/-! ## Printed lists -/

/-- The operands of the instruction are shown as two texts with a comma between them. -/
structure Instruction.Shows (i : Instruction) (addr : UInt32) (style : Style)
    (first second : String) : Prop where
  text_eq : i.text addr style =
    Text.trimBlanks (Text.padRight opcodeWidth i.mnemonic ++ first ++ "," ++ second)
  terse_eq : i.terse addr style = i.mnemonic ++ " " ++ first ++ "," ++ second

theorem Instruction.shows_binary {i : Instruction} {op : Opcode} {size : Suffix} {x y : Operand}
    (hi : i.toOperation = .binary op size x y) (hop : op ≠ .data) (addr : UInt32)
    (style : Style) : i.Shows addr style (x.text addr style) (y.text addr style) := by
  rcases i with ⟨o, header, length⟩
  cases hi
  constructor
  · simp [Instruction.text, hop, separated, String.append_assoc]
  · simp [Instruction.terse, hop, separated, String.append_assoc]

/-- Where the operands of a transfer are, and how they are shown. -/
theorem Transfer.operands {i : Instruction} {ext : List UInt16}
    (h : Transfer i.header ext i.toOperation) :
    ∃ mask after x, ext = mask :: after ∧ (x.isPreDec = true ↔ field i.header 3 3 = 4) ∧
      let list := Operand.regList (listedMask i.header mask)
      i.operands = (if bit i.header 10 then [some x, some list, none]
        else [some list, some x, none]) ∧
      ∀ addr style,
        if bit i.header 10 then i.Shows addr style (x.text addr style) (list.text addr style)
        else i.Shows addr style (list.text addr style) (x.text addr style) := by
  rcases i with ⟨o, header, length⟩
  change Transfer header ext o at h
  have hdata : Opcode.movem ≠ .data := by decide
  cases h with
  | @load size x mask after hload hx =>
      refine ⟨mask, after, x, rfl, hx, ?_, ?_⟩
      · rw [if_pos hload]
        rfl
      · intro addr style
        rw [if_pos hload]
        exact Instruction.shows_binary rfl hdata addr style
  | @store size x mask after hstore hx =>
      refine ⟨mask, after, x, rfl, hx, ?_, ?_⟩
      · rw [if_neg (by simp [hstore])]
        rfl
      · intro addr style
        rw [if_neg (by simp [hstore])]
        exact Instruction.shows_binary rfl hdata addr style

theorem Encodes.transfer {cpu : Cpu} {code : Bytes} {inst : Instruction}
    (h : Encodes cpu code inst) (hop : inst.opcode = .movem) :
    ∃ ext, Word16.ofByteList code = inst.header :: ext ∧
      Transfer inst.header ext inst.toOperation := by
  cases h with
  | @intro high low tail o heven hreads =>
      exact ⟨Word16.ofByteList tail, rfl, Decoder.line_transfers cpu _ 1 _ _ hreads hop⟩

/-- The words that a `movem` was decoded from. -/
theorem exists_transfer {cpu : Cpu} {bytes : Bytes} (h : (decode cpu bytes).opcode = .movem) :
    ∃ ext rest, Word16.ofByteList bytes = (decode cpu bytes).header :: (ext ++ rest) ∧
      Transfer (decode cpu bytes).header ext (decode cpu bytes).toOperation := by
  rcases decode_cases cpu bytes with ⟨code, rest, hbytes, hcode⟩ | hdata
  · rcases hcode.transfer h with ⟨ext, hwords, htransfer⟩
    refine ⟨ext, Word16.ofByteList rest, ?_, htransfer⟩
    rw [← List.cons_append, ← hwords, ← Word16.ofByteList_append hcode.even_length, ← hbytes]
  · rw [hdata] at h
    cases h

open RegList (readRanges IsRegisterList span)

/-- A `movem` has its mask in its second word, and shows the registers of the mask.  Read part
by part, the list holds register `n` if and only if bit `n` of the mask is set, or bit
`15 - n` in the predecrement mode.  The registers are in increasing order, no range leaves its
bank or could be longer, and there is no text if there are no registers. -/
theorem decode_movem_registers {cpu : Cpu} {bytes : Bytes}
    (h : (decode cpu bytes).opcode = .movem) :
    let inst := decode cpu bytes
    ∃ mask after m x,
      Word16.ofByteList bytes = inst.header :: mask :: after ∧
      (x.isPreDec = true ↔ field inst.header 3 3 = 4) ∧
      inst.operands = (if bit inst.header 10 then [some x, some (.regList m), none]
        else [some (.regList m), some x, none]) ∧
      ∀ addr style,
        let list := (Operand.regList m).text addr style
        (if bit inst.header 10 then inst.Shows addr style (x.text addr style) list
          else inst.Shows addr style list (x.text addr style)) ∧
        (∃ rs, readRanges list.toList = rs.map some ∧ IsRegisterList rs ∧
          ∀ n, n ∈ rs.flatMap span ↔
            n < 16 ∧ bit mask (if x.isPreDec then 15 - n else n) = true) ∧
        (list = "" ↔ mask = 0) := by
  intro inst
  rcases exists_transfer h with ⟨ext, rest, hwords, htransfer⟩
  rcases htransfer.operands with ⟨mask, after, x, rfl, hpreDec, hoperands, hshows⟩
  refine ⟨mask, after ++ rest, listedMask inst.header mask, x, hwords, hpreDec, hoperands, ?_⟩
  intro addr style list
  refine ⟨hshows addr style, ⟨RegList.maskRanges (listedMask inst.header mask),
    RegList.readRanges_text _, RegList.isRegisterList_maskRanges _, ?_⟩, ?_⟩
  · intro n
    rw [RegList.mem_flatMap_span_maskRanges]
    apply and_congr_right
    intro hn
    rw [bit_listedMask inst.header mask hn]
    simp only [hpreDec]
    rfl
  · exact (RegList.text_eq_empty_iff _).trans (listedMask_eq_zero_iff inst.header mask)

/-- Six registers that are stored below the address in `a7`, in reverse order. -/
theorem decode_movem_registers_push :
    let inst := decode .m68000 [0x48, 0xe7, 0x9f, 0x00]
    inst.opcode = .movem ∧ ∃ list rs, inst.Shows 0 .hex list "-(a7)" ∧
      readRanges list.toList = rs.map some ∧ IsRegisterList rs ∧
      ∀ n, n ∈ rs.flatMap span ↔ n ∈ [0, 3, 4, 5, 6, 7] := by
  intro inst
  have hop : inst.opcode = .movem := by decide
  rcases decode_movem_registers hop with ⟨mask, after, m, x, hwords, _, hoperands, hshows⟩
  have hmask : mask = 0x9f00 := by
    have hbytes : Word16.ofByteList [0x48, 0xe7, 0x9f, 0x00] = [0x48e7, 0x9f00] := by decide
    rw [hbytes] at hwords
    cases hwords
    rfl
  have hx : x = .preDec 7 := by
    have hsecond : inst.operands[1]? = some (some (.preDec 7)) := by decide
    rw [hoperands, if_neg (by decide)] at hsecond
    exact Option.some.inj (Option.some.inj hsecond)
  rcases hshows 0 .hex with ⟨htext, ⟨rs, hrs, hlist, hmem⟩, _⟩
  rw [if_neg (by decide), hx] at htext
  refine ⟨hop, _, rs, htext, hrs, hlist, ?_⟩
  intro n
  have hbits : ∀ n < 16, bit 0x9f00 (15 - n) = true ↔ n ∈ [0, 3, 4, 5, 6, 7] := by decide
  rw [hmem, hmask, hx]
  constructor
  · rintro ⟨hn, hbit⟩
    exact (hbits n hn).1 hbit
  · intro hn
    have hlt : n < 16 := by
      simp only [List.mem_cons, List.not_mem_nil, or_false] at hn
      omega
    exact ⟨hlt, (hbits n hlt).2 hn⟩

end M68k
end Disassembler
