import Disassembler.Proofs.M68k.Repertoire

/-!
# Sizes of opcodes

The opcodes of each processor model, each with the sizes it can have.
-/

namespace Disassembler
namespace M68k

theorem Cpu.mem_all (cpu : Cpu) : cpu ∈ all := by
  cases cpu <;> decide

/-- The sizes of an operation on words that the 68020 extends to long words. -/
def wordSizes (cpu : Cpu) : List Suffix :=
  if cpu.is020 then addressSizes else [.word]

def branchSizes (cpu : Cpu) : List Suffix :=
  if cpu.is020 then [.short, .word, .long] else [.short, .word]

theorem mem_wordSizes {cpu : Cpu} {size : Suffix}
    (h : size = .word ∨ size = .long ∧ cpu.is020 = true) : size ∈ wordSizes cpu := by
  unfold wordSizes
  rcases h with rfl | ⟨rfl, h020⟩
  · split <;> decide
  · rw [if_pos h020]
    decide

theorem mem_branchSizes {cpu : Cpu} {size : Suffix}
    (h : size = .short ∨ size = .word ∨ size = .long ∧ cpu.is020 = true) :
    size ∈ branchSizes cpu := by
  unfold branchSizes
  rcases h with rfl | rfl | ⟨rfl, h020⟩
  · split <;> decide
  · split <;> decide
  · rw [if_pos h020]
    decide

namespace Opcode

/-- The sizes that an opcode has on a processor model.  An opcode that the model
does not know has none. -/
def sizes (cpu : Cpu) : Opcode -> List Suffix
  | ori | andi | subi | addi | eori | cmpi | move | negx | clr | neg | not | tst | addq | subq
  | or | and | eor | sub | add | cmp | cmpm | subx | addx
  | asl | asr | lsl | lsr | roxl | roxr | rol | ror => dataSizes
  | movea | movep | movem | ext | cmpa | suba | adda => addressSizes
  | btst | bchg | bclr | bset | tas | nbcd | swap | lea | pea | unlk | jsr | jmp | moveq
  | trap | trapv | illegal | reset | nop | stop | rte | rts | rtr | abcd | sbcd | exg
  | loop _ | set _ => [.none]
  | mulu | muls | divu | divs | chk | link => wordSizes cpu
  | branch .f => []
  | bsr | branch _ => branchSizes cpu
  | moves => if cpu.is010 then dataSizes else []
  | movec | rtd | bkpt => if cpu.is010 then [.none] else []
  | cmp2 | chk2 | cas => if cpu.is020 then dataSizes else []
  | cas2 => if cpu.is020 then addressSizes else []
  | extb | divul | divsl => if cpu.is020 then [.long] else []
  | pack | unpk | bftst | bfextu | bfchg | bfexts | bfclr | bfffo | bfset | bfins =>
      if cpu.is020 then [.none] else []
  | trapOn _ => if cpu.is020 then [.none, .word, .long] else []
  | data | unlisted => []

section

variable {cpu : Cpu} {ops : List Opcode} {all : List Suffix} {op : Opcode} {size : Suffix}

/-- The sizes of a family of opcodes that the models with a feature have. -/
theorem mem_sizes_of_feature {feature : Cpu -> Bool} (hcpu : feature cpu = true)
    (hall : ∀ c ∈ Cpu.all, feature c = true -> ∀ op ∈ ops, ∀ size ∈ all, size ∈ op.sizes c)
    (hop : op ∈ ops) (hsize : size ∈ all) : size ∈ op.sizes cpu :=
  hall cpu cpu.mem_all hcpu op hop size hsize

/-- The sizes of a family of opcodes that all models have. -/
theorem mem_sizes (hall : ∀ c ∈ Cpu.all, ∀ op ∈ ops, ∀ size ∈ all, size ∈ op.sizes c)
    (hop : op ∈ ops) (hsize : size ∈ all) : size ∈ op.sizes cpu :=
  hall cpu cpu.mem_all op hop size hsize

end

end Opcode

theorem mem_of_worksOnStatus {op : Opcode} (hop : Decoder.worksOnStatus op = true) :
    op ∈ [.ori, .andi, .eori] := by
  unfold Decoder.worksOnStatus at hop
  split at hop
  · decide
  · decide
  · decide
  · cases hop

open Opcode in
/-- Every operation has a size that its opcode has on the model. -/
theorem Repertoire.size_mem {cpu : Cpu} {o : Operation} (h : Repertoire cpu o) :
    o.suffix ∈ o.opcode.sizes cpu := by
  have hone (size : Suffix) : size ∈ [size] := List.mem_singleton_self size
  have hgated {feature : Bool} {size : Suffix} {all others : List Suffix}
      (hcpu : feature = true) (hsize : size ∈ all) :
      size ∈ if feature = true then all else others := by
    rwa [if_pos hcpu]
  cases h with
  -- Families of opcodes.
  | immediate hop hsize | quick hop hsize | logicLoad hop hsize | dataLoad hop hsize
  | dataStore hop hsize | addressLoad hop hsize | shiftRegister hop hsize | single hop hsize =>
      exact mem_sizes (by decide) hop hsize
  | bitStatic hop | bitDynamic hop | byteSingle hop | control hop | plain hop =>
      exact mem_sizes (by decide) hop (hone .none)
  | multiplyWord hop | shiftMemory hop => exact mem_sizes (by decide) hop (hone .word)
  | immediateToCcr hop => exact mem_sizes (by decide) (mem_of_worksOnStatus hop) (hone .byte)
  | immediateToSr hop => exact mem_sizes (by decide) (mem_of_worksOnStatus hop) (hone .word)
  | extendedRegisters h | extendedMemory h =>
      rcases h with ⟨hop, rfl⟩ | ⟨hop, hsize⟩
      · exact mem_sizes (by decide) hop (hone .none)
      · exact mem_sizes (by decide) hop hsize
  | bounds h020 hop hsize => exact mem_sizes_of_feature h020 (by decide) hop hsize
  | multiplyLong h020 hop | multiplyPair h020 hop =>
      exact mem_sizes_of_feature h020 (by decide) hop (hone .long)
  | packedRegisters h020 hop | packedMemory h020 hop | bitfieldRead h020 hop
  | bitfieldChange h020 hop => exact mem_sizes_of_feature h020 (by decide) hop (hone .none)
  -- Single opcodes.
  | move hsize | movea hsize | movepLoad hsize | movepStore hsize | movemLoad hsize
  | movemStore hsize | eor hsize | cmpm hsize | tst hsize | ext hsize => exact hsize
  | moveToUsp | moveFromUsp => exact (by decide : Suffix.long ∈ dataSizes)
  | moveFromSr | moveFromCcr | moveToCcr | moveToSr => exact (by decide : Suffix.word ∈ dataSizes)
  | movesLoad h010 hsize | movesStore h010 hsize => exact hgated h010 hsize
  | cas h020 hsize | cas2 h020 hsize => exact hgated h020 hsize
  | movecLoad h010 | movecStore h010 | rtd h010 | bkpt h010 => exact hgated h010 (hone .none)
  | bitfieldInsert h020 => exact hgated h020 (hone .none)
  | extb h020 => exact hgated h020 (hone .long)
  | trapOn h020 => exact hgated h020 List.mem_cons_self
  | trapOnImmediate h020 hsize => exact hgated h020 (List.mem_cons_of_mem _ hsize)
  | chk h | link h => exact mem_wordSizes h
  | branch c hc d h =>
      cases c with
      | f => exact absurd rfl hc
      | _ => exact mem_branchSizes h
  | bsr d h => exact mem_branchSizes h
  | moveq | exgData | exgAddress | exgBoth | lea | swap | unlk | stop | trap | loop | set =>
      exact hone .none

end M68k
end Disassembler
