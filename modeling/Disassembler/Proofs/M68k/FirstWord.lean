import Disassembler.Proofs.Binary.Alike
import Disassembler.Proofs.M68k.Extent

/-!
# What the first word determines before the 68020

Before the 68020 an index takes a single extension word, and no other extension
word says how many words follow it.  So the first word alone determines the
length of an instruction.
-/

namespace Disassembler
namespace M68k
namespace Decoder

open Fetch (Alike settled_fail settled_ensure)
open Word16 (bit field)

/-- The decisions look at the same number of words, unless they fail. -/
def SameCount {α : Type} (d d' : Decoder α) : Prop :=
  Alike True (fun _ _ => True) d d'

/-- Whatever the extension words are, the decisions look at the same number of
them. -/
abbrev Uniform {α : Type} (d : Decoder α) : Prop :=
  SameCount d d

section

variable {α β : Type} {d d' : Decoder α}

theorem sameCount_done (a b : α) : SameCount (.done a) (.done b) :=
  Alike.done trivial

theorem uniform_fail : Uniform (.fail : Decoder α) :=
  Alike.fail

theorem uniform_next : Uniform Fetch.next :=
  Alike.next fun _ _ => trivial

theorem SameCount.bind {f g : α -> Decoder β} (hd : SameCount d d')
    (hfg : ∀ a b, SameCount (f a) (g b)) : SameCount (d.bind f) (d'.bind g) :=
  Alike.bind hd fun a b _ => hfg a b

theorem SameCount.map {f g : α -> β} (hd : SameCount d d') :
    SameCount (d.bind fun a => .done (f a)) (d'.bind fun a => .done (g a)) :=
  hd.bind fun _ _ => sameCount_done _ _

theorem uniform_ensure {b : Bool} (h : b = true -> Uniform d) :
    Uniform ((Fetch.ensure b).bind fun _ => d) :=
  Alike.ensure h

theorem sameCount_ensure {b b' : Bool} (hd : SameCount d d') :
    SameCount ((Fetch.ensure b).bind fun _ => d) ((Fetch.ensure b').bind fun _ => d') := by
  cases b with
  | false => exact Alike.failLeft trivial _
  | true =>
      cases b' with
      | false => exact Alike.failRight trivial _
      | true => exact hd

/-- What needs a 68020 fails on the models before it. -/
theorem uniform_ensure_is020 {cpu : Cpu} (hcpu : cpu.is020 = false) :
    Uniform ((Fetch.ensure cpu.is020).bind fun _ => d) := by
  apply uniform_ensure
  intro h020
  rw [hcpu] at h020
  cases h020

end

/-! ## Operands -/

theorem long_uniform : Uniform long := by
  refine SameCount.bind uniform_next ?_
  intro high high'
  exact uniform_next.map

theorem immediate_uniform (size : Suffix) : Uniform (immediate size) := by
  unfold immediate
  split
  · exact long_uniform.map
  · exact uniform_next.map
  · exact uniform_next.map

section

variable {cpu : Cpu} (hcpu : cpu.is020 = false)

include hcpu

/-- Before the 68020 there are only brief extension words. -/
theorem indexed_eq_brief (base : Base) :
    indexed cpu base = Fetch.more fun i ext =>
      (Fetch.ensure (!bit ext 8 && field ext 9 2 == 0)).bind fun _ =>
        .done (brief base (byteOffset i) ext) := by
  show (Fetch.more fun i ext => if bit ext 8 = true then _ else _) = _
  congr 1
  funext i ext
  cases hfull : bit ext 8 <;> simp [hcpu, Fetch.ensure]

theorem indexed_uniform (base : Base) : Uniform (indexed cpu base) := by
  rw [indexed_eq_brief hcpu]
  exact Alike.more fun _ _ _ => sameCount_ensure (sameCount_done _ _)

theorem operand_uniform (mode : Mode) (reg : Fin 8) (size : Suffix) :
    Uniform (operand cpu mode reg size) := by
  cases mode with
  | disp | absWord => exact uniform_next.map
  | index => exact indexed_uniform hcpu (.addr reg)
  | absLong => exact long_uniform.map
  | pcDisp => exact Alike.more fun _ _ _ => sameCount_done _ _
  | pcIndex => exact indexed_uniform hcpu .pc
  | immediate => exact immediate_uniform size
  | _ => exact sameCount_done _ _

theorem operandOf_uniform (mode reg : Fin 8) (size : Suffix) (allowed : Mode -> Bool) :
    Uniform (operandOf cpu mode reg size allowed) := by
  unfold operandOf
  split
  · split
    · exact operand_uniform hcpu _ reg size
    · exact uniform_fail
  · exact uniform_fail

theorem effective_uniform (w : UInt16) (size : Suffix) (allowed : Mode -> Bool) :
    Uniform (effective cpu w size allowed) :=
  operandOf_uniform hcpu _ _ size allowed

/-- An effective address that completes the operation. -/
theorem effective_then_uniform (w : UInt16) {size : Suffix} {allowed : Mode -> Bool}
    {f g : Operand -> Operation} :
    SameCount ((effective cpu w size allowed).bind fun x => .done (f x))
      ((effective cpu w size allowed).bind fun x => .done (g x)) :=
  (effective_uniform hcpu w size allowed).map

/-- An extension word and an effective address that complete the operation. -/
theorem next_effective_uniform (w : UInt16) {size : Suffix} {allowed : Mode -> Bool}
    {f : UInt16 -> Operand -> Operation} :
    Uniform (Fetch.next.bind fun ext =>
      (effective cpu w size allowed).bind fun x => .done (f ext x)) := by
  refine uniform_next.bind ?_
  intro ext ext'
  exact effective_then_uniform hcpu w

/-! ## The digit 0 -/

theorem immediateOp_uniform (w : UInt16) (op : Opcode) : Uniform (immediateOp cpu w op) := by
  unfold immediateOp
  split
  · refine (immediate_uniform _).bind ?_
    intro x y
    split
    · split
      · exact sameCount_done _ _
      · exact sameCount_done _ _
      · exact uniform_fail
    · exact effective_then_uniform hcpu w
  · unfold immediateUnsized
    split
    · exact uniform_ensure_is020 hcpu
    · exact uniform_ensure_is020 hcpu
    · exact uniform_ensure_is020 hcpu
    · exact uniform_ensure_is020 hcpu
    · exact uniform_ensure_is020 hcpu
    · exact uniform_fail

theorem moveSpace_uniform (w : UInt16) : Uniform (moveSpace cpu w) := by
  apply uniform_ensure
  intro _
  split
  · exact uniform_fail
  · exact next_effective_uniform hcpu w

theorem line0_uniform (w : UInt16) : Uniform (line0 cpu w) := by
  unfold line0
  split
  · split
    · exact uniform_next.map
    · exact effective_then_uniform hcpu w
  · split
    · exact immediateOp_uniform hcpu w .ori
    · exact immediateOp_uniform hcpu w .andi
    · exact immediateOp_uniform hcpu w .subi
    · exact immediateOp_uniform hcpu w .addi
    · exact next_effective_uniform hcpu w
    · exact immediateOp_uniform hcpu w .eori
    · exact immediateOp_uniform hcpu w .cmpi
    · split
      · exact uniform_ensure_is020 hcpu
      · exact moveSpace_uniform hcpu w

/-! ## Moves -/

theorem moveSized_uniform (w : UInt16) (size : Suffix) : Uniform (moveSized cpu w size) := by
  refine (effective_uniform hcpu w size _).bind ?_
  intro x y
  split
  · exact sameCount_ensure (sameCount_done _ _)
  · exact (operandOf_uniform hcpu _ _ size _).map

theorem moveMultiple_uniform (w : UInt16) : Uniform (moveMultiple cpu w) := by
  refine uniform_next.bind ?_
  intro mask mask'
  split
  · exact effective_then_uniform hcpu w
  · exact effective_then_uniform hcpu w

omit hcpu in
theorem moveControl_uniform (w : UInt16) : Uniform (moveControl cpu w) := by
  apply uniform_ensure
  intro _
  refine uniform_next.bind ?_
  intro ext ext'
  exact sameCount_ensure (sameCount_done _ _)

/-! ## Arithmetic and logic -/

theorem logic_uniform (w : UInt16) (op : Opcode) : Uniform (logic cpu w op) := by
  unfold logic
  split
  · exact uniform_fail
  · split
    · exact effective_then_uniform hcpu w
    · exact effective_then_uniform hcpu w

theorem longExtension_uniform {f : UInt16 -> Decoder Operation} :
    Uniform ((longExtension cpu).bind f) := by
  unfold longExtension
  rw [hcpu]
  exact uniform_fail

theorem line8_uniform (w : UInt16) : Uniform (line8 cpu w) := by
  unfold line8
  dsimp only
  split
  · exact effective_then_uniform hcpu w
  · exact effective_then_uniform hcpu w
  · split
    · exact sameCount_done _ _
    · exact logic_uniform hcpu w .or
  · split
    · exact uniform_ensure_is020 hcpu
    · exact logic_uniform hcpu w .or
  · split
    · exact uniform_ensure_is020 hcpu
    · exact logic_uniform hcpu w .or
  · exact logic_uniform hcpu w .or

theorem lineC_uniform (w : UInt16) : Uniform (lineC cpu w) := by
  unfold lineC
  split
  · exact sameCount_done _ _
  · exact sameCount_done _ _
  · exact sameCount_done _ _
  · exact effective_then_uniform hcpu w
  · exact effective_then_uniform hcpu w
  · exact sameCount_done _ _
  · exact sameCount_done _ _
  · exact logic_uniform hcpu w .and

theorem addSub_uniform (w : UInt16) (op opAddr opExtend : Opcode) :
    Uniform (addSub cpu w op opAddr opExtend) := by
  unfold addSub
  split
  · exact effective_then_uniform hcpu w
  · split
    · split
      · exact sameCount_done _ _
      · exact effective_then_uniform hcpu w
    · exact effective_then_uniform hcpu w

theorem lineB_uniform (w : UInt16) : Uniform (lineB cpu w) := by
  unfold lineB
  split
  · exact effective_then_uniform hcpu w
  · split
    · split
      · exact sameCount_done _ _
      · exact effective_then_uniform hcpu w
    · exact effective_then_uniform hcpu w

/-! ## Branches, loops and quick arithmetic -/

theorem line6_uniform (w : UInt16) : Uniform (line6 cpu w) := by
  unfold line6
  dsimp only
  split
  · exact Alike.more fun _ _ _ => sameCount_done _ _
  · exact uniform_ensure_is020 hcpu
  · exact sameCount_done _ _

theorem conditional_uniform (w : UInt16) : Uniform (conditional cpu w) := by
  unfold conditional
  dsimp only
  split
  · exact Alike.more fun _ _ _ => sameCount_done _ _
  · split
    · exact uniform_ensure_is020 hcpu
    · exact effective_then_uniform hcpu w

theorem line5_uniform (w : UInt16) : Uniform (line5 cpu w) := by
  unfold line5
  split
  · exact conditional_uniform hcpu w
  · exact effective_then_uniform hcpu w

/-! ## Shifts -/

theorem lineE_uniform (w : UInt16) : Uniform (lineE cpu w) := by
  unfold lineE
  split
  · split
    · exact uniform_ensure_is020 hcpu
    · exact effective_then_uniform hcpu w
  · exact sameCount_done _ _

/-! ## The digit 4 -/

omit hcpu in
theorem fixed_uniform {w : UInt16} {d : Decoder Operation} (h : fixed? cpu w = some d) :
    Uniform d := by
  unfold fixed? at h
  split at h <;> cases h
  · exact sameCount_done _ _
  · exact sameCount_done _ _
  · exact sameCount_done _ _
  · exact (immediate_uniform .word).map
  · exact sameCount_done _ _
  · apply uniform_ensure
    intro _
    exact (immediate_uniform .word).map
  · exact sameCount_done _ _
  · exact sameCount_done _ _
  · exact sameCount_done _ _
  · exact moveControl_uniform w
  · exact moveControl_uniform w

theorem numbered_uniform {w : UInt16} {d : Decoder Operation} (h : numbered? cpu w = some d) :
    Uniform d := by
  unfold numbered? at h
  dsimp only at h
  split at h <;> cases h
  case h_3 => exact (immediate_uniform .word).map
  case h_4 => exact uniform_ensure_is020 hcpu
  case h_9 => exact sameCount_ensure (sameCount_done _ _)
  case h_12 => exact uniform_ensure_is020 hcpu
  all_goals exact sameCount_done _ _

theorem addressed_uniform {w : UInt16} {d : Decoder Operation}
    (h : addressed? cpu w = some d) : Uniform d := by
  unfold addressed? at h
  split at h <;> cases h
  case h_7 =>
    exact sameCount_ensure (effective_then_uniform hcpu w)
  case h_10 => exact longExtension_uniform hcpu
  case h_11 => exact longExtension_uniform hcpu
  case h_12 => exact moveMultiple_uniform hcpu w
  case h_13 => exact moveMultiple_uniform hcpu w
  case h_14 => exact moveMultiple_uniform hcpu w
  case h_15 => exact moveMultiple_uniform hcpu w
  all_goals exact effective_then_uniform hcpu w

theorem checked_uniform {w : UInt16} {d : Decoder Operation} (h : checked? cpu w = some d) :
    Uniform d := by
  unfold checked? at h
  split at h <;> cases h
  · exact effective_then_uniform hcpu w
  · exact effective_then_uniform hcpu w
  · exact uniform_ensure_is020 hcpu

theorem sizedSingle_uniform (w : UInt16) : Uniform (sizedSingle cpu w) := by
  unfold sizedSingle
  split
  case h_6 => exact uniform_fail
  all_goals exact effective_then_uniform hcpu w

theorem line4_uniform (w : UInt16) : Uniform (line4 cpu w) := by
  unfold line4
  cases hfixed : fixed? cpu w with
  | some d => exact fixed_uniform hfixed
  | none =>
      cases hnumbered : numbered? cpu w with
      | some d => exact numbered_uniform hcpu hnumbered
      | none =>
          cases haddressed : addressed? cpu w with
          | some d => exact addressed_uniform hcpu haddressed
          | none =>
              cases hchecked : checked? cpu w with
              | some d => exact checked_uniform hcpu hchecked
              | none => exact sizedSingle_uniform hcpu w

/-! ## The line -/

theorem line_uniform (w : UInt16) : Uniform (line cpu w) := by
  unfold line
  split
  · exact line0_uniform hcpu w
  · exact moveSized_uniform hcpu w .byte
  · exact moveSized_uniform hcpu w .long
  · exact moveSized_uniform hcpu w .word
  · exact line4_uniform hcpu w
  · exact line5_uniform hcpu w
  · exact line6_uniform hcpu w
  · exact sameCount_ensure (sameCount_done _ _)
  · exact line8_uniform hcpu w
  · exact addSub_uniform hcpu w .sub .suba .subx
  · exact lineB_uniform hcpu w
  · exact lineC_uniform hcpu w
  · exact addSub_uniform hcpu w .add .adda .addx
  · exact lineE_uniform hcpu w
  · exact uniform_fail

end

end Decoder

/-! ## Instructions -/

variable {cpu : Cpu}

theorem Encodes.length_eq_of_leadingWord (hcpu : cpu.is020 = false) {code code' : Bytes}
    {inst inst' : Instruction} (h : Encodes cpu code inst) (h' : Encodes cpu code' inst')
    (hfirst : leadingWord code = leadingWord code') : inst.length = inst'.length := by
  cases h with
  | @intro high low tail o heven hreads =>
      cases h' with
      | @intro high' low' tail' o' heven' hreads' =>
          have hheader : Word16.ofBytes high low = Word16.ofBytes high' low' := hfirst
          rw [← hheader] at hreads'
          have hlength := ((Decoder.line_uniform hcpu _).of_reads hreads hreads').1
          simp only [Word16.length_ofByteList] at hlength
          show tail.length + 2 = tail'.length + 2
          omega

/-- What is decoded begins with the first word of its input. -/
theorem exists_encodes {bytes : Bytes} (h : (decode cpu bytes).opcode ≠ .data) :
    ∃ code, leadingWord code = leadingWord bytes ∧ Encodes cpu code (decode cpu bytes) := by
  rcases decode_cases cpu bytes with ⟨code, rest, hbytes, hcode⟩ | hdata
  · refine ⟨code, ?_, hcode⟩
    rw [hbytes]
    match code, hcode.two_le_length with
    | high :: low :: tail, _ => rfl
  · rw [hdata] at h
    exact absurd rfl h

/-- Before the 68020, instructions with the same first word have the same length. -/
theorem decode_length_eq_of_leadingWord (hcpu : cpu.is020 = false) {bytes bytes' : Bytes}
    (hfirst : leadingWord bytes = leadingWord bytes') (h : (decode cpu bytes).opcode ≠ .data)
    (h' : (decode cpu bytes').opcode ≠ .data) :
    (decode cpu bytes).length = (decode cpu bytes').length := by
  rcases exists_encodes h with ⟨code, hcode, hencodes⟩
  rcases exists_encodes h' with ⟨code', hcode', hencodes'⟩
  exact hencodes.length_eq_of_leadingWord hcpu hencodes' (by rw [hcode, hcode', hfirst])

end M68k
end Disassembler
