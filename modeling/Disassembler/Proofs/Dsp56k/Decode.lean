import Disassembler.Proofs.Binary.Fetch
import Disassembler.Proofs.Dsp56k.Repertoire

/-!
# Decoded operations

Each family of first words decodes to operations of the repertoire, and reads
just the words that follow the first one there.
-/

namespace Disassembler
namespace Dsp56k
namespace Decoder

open Word24 (bit field)

/-! ## Fields -/

theorem ofNat_lt {n : Nat} {bound : UInt32} (h : n < bound.toNat) : UInt32.ofNat n < bound := by
  rw [UInt32.lt_iff_toNat_lt, UInt32.toNat_ofNat']
  exact Nat.lt_of_le_of_lt (Nat.mod_le _ _) h

/-- A bit field is less than a bound that its width ensures. -/
theorem value_lt (w : Word24) {low count : Nat} {bound : UInt32}
    (h : 1 <<< count ≤ bound.toNat) : value w low count < bound :=
  ofNat_lt (Nat.lt_of_lt_of_le (bits_lt _ _ _) h)

theorem dataSpace_mem (b : Bool) : dataSpace b ∈ dataSpaces := by
  cases b <;> decide

theorem indirectMode_mem {n : Nat} (hn : n < 8) (h6 : n ≠ 6) :
    IndirectMode.ofNumber n ∈ indirectModes := by
  revert n
  decide

theorem updateMode_mem {n : Nat} (hn : n < 4) : IndirectMode.ofNumber n ∈ updateModes := by
  revert n
  decide

/-! ## Operands -/

theorem effective_conforms (w : Word24) (space : Space) (allowImmediate : Bool) :
    (effective w space allowImmediate).Conforms (Effective space allowImmediate) := by
  unfold effective
  split
  · refine Fetch.conforms_more ?_
    intro i ext
    exact Fetch.conforms_done (.absolute ext)
  · refine Fetch.conforms_ensure ?_
    intro hallow
    refine Fetch.conforms_more ?_
    intro i ext
    exact Fetch.conforms_done (.immediate ext hallow)
  · exact Fetch.conforms_fail
  · rename_i h6 _ _
    exact Fetch.conforms_done (.indirect (indirectMode_mem (bits_lt _ _ 3) h6) (bits_lt _ _ 3))

theorem memory_conforms (w : Word24) (space : Space) (allowImmediate : Bool) :
    (memory w space allowImmediate).Conforms (Memory space allowImmediate) := by
  unfold memory
  split
  · exact (effective_conforms w space allowImmediate).mono fun _ _ hx => .effective hx
  · exact Fetch.conforms_done (.short (value_lt w (by decide)))

theorem reg5_conforms (code : Nat) :
    (reg5 code).Conforms fun ext x => ext = [] ∧ IsRegister x := by
  unfold reg5
  cases hcode : register6? code with
  | none => exact Fetch.conforms_fail
  | some r => exact Fetch.conforms_done ⟨rfl, code, r, hcode, rfl⟩

theorem reg6_conforms (w : Word24) (low : Nat) :
    (reg6 w low).Conforms fun ext x => ext = [] ∧ IsRegister x :=
  reg5_conforms (field w low 6)

/-- A register is read, and then what is done with it. -/
theorem register_then {α : Type} {P : List Word24 -> α -> Prop} {f : Decoder Operand}
    {g : Operand -> Decoder α} (hf : f.Conforms fun ext x => ext = [] ∧ IsRegister x)
    (hg : ∀ x, IsRegister x -> (g x).Conforms P) : (f.bind g).Conforms P := by
  refine hf.bind ?_
  rintro ext x ⟨rfl, hx⟩
  exact hg x hx

/-! ## Parallel instructions -/

theorem accumulate_arithmetic {w : Word24} {o : Operation} (h : accumulate? w = some o) :
    Arithmetic o := by
  unfold accumulate? at h
  dsimp only at h
  split at h
  case h_1 =>
    split at h
    · cases h
    · cases h
      exact .move
  -- The operands of a line of the table tell which rule it is an instance of.
  all_goals
    cases h
    try first
      | exact .single (by decide) _
      | exact .both (by decide) _
      | exact .pair (by decide) (by decide) _
      | exact .input (by decide) _ _

theorem productOpcode_mem (n : Nat) : productOpcode n ∈ [.mpy, .mpyr, .mac, .macr] := by
  unfold productOpcode
  split <;> decide

theorem alu_arithmetic {w : Word24} {o : Operation} (h : alu? w = some o) : Arithmetic o := by
  unfold alu? at h
  split at h
  · cases h
    exact .product (productOpcode_mem _) _ _ _
  · exact accumulate_arithmetic h

theorem update_beside (w : Word24) : Beside [] { first := { source := some (update w) } } :=
  .update (updateMode_mem (bits_lt _ _ 2)) (bits_lt _ _ 3)

theorem immediateOrRegister_conforms (w : Word24) :
    (immediateOrRegister w).Conforms Beside := by
  unfold immediateOrRegister
  split
  · exact Fetch.conforms_done .none
  · split
    · exact Fetch.conforms_done (update_beside w)
    · split
      · refine register_then (reg5_conforms _) ?_
        intro x hx
        refine register_then (reg5_conforms _) ?_
        intro y hy
        exact Fetch.conforms_done (.registers hx hy)
      · refine register_then (reg5_conforms _) ?_
        intro x hx
        exact Fetch.conforms_done (.immediate (value_lt w (by decide)) hx)

theorem oneSpace_conforms (w : Word24) : (oneSpace w).Conforms Beside := by
  refine register_then (reg5_conforms _) ?_
  intro y hy
  refine (memory_conforms w _ _).map ?_
  intro ext x hx
  exact .oneSpace (dataSpace_mem _) hx hy

theorem longSpace_conforms (w : Word24) : (longSpace w).Conforms Beside := by
  refine (memory_conforms w .l false).map ?_
  intro ext x hx
  exact .longSpace _ hx _

theorem spaceAndRegister_conforms (w : Word24) : (spaceAndRegister w).Conforms Beside := by
  unfold spaceAndRegister
  split
  · refine (effective_conforms w _ _).map ?_
    intro ext x hx
    exact .spaceY _ (bits_lt _ _ 1) hx _
  · refine (effective_conforms w _ _).map ?_
    intro ext x hx
    exact .spaceX hx _ _ (bits_lt _ _ 1)

/-- The address registers of the two moves come from different banks. -/
theorem bothSpaces_beside (w : Word24) : Beside [] (bothSpaces w) := by
  have hr : field w 8 3 < 8 := bits_lt _ _ 3
  have hs : field w 13 2 < 4 := bits_lt _ _ 2
  refine .bothSpaces _ _ _ _ _ _ hr ?_ ?_
  · split <;> omega
  · split <;> omega

theorem moves_conforms (w : Word24) : (moves w).Conforms Beside := by
  unfold moves
  split
  · exact Fetch.conforms_done (bothSpaces_beside w)
  · split
    · exact spaceAndRegister_conforms w
    · exact immediateOrRegister_conforms w
    · exact immediateOrRegister_conforms w
    · split
      · exact oneSpace_conforms w
      · exact longSpace_conforms w
    · exact oneSpace_conforms w

theorem parallel_conforms (w : Word24) : (parallel w).Conforms Repertoire := by
  unfold parallel
  cases h : alu? w with
  | none => exact Fetch.conforms_fail
  | some o =>
      refine (moves_conforms w).map ?_
      intro ext m hm
      exact .parallel (alu_arithmetic h) hm

theorem exchange_conforms (w : Word24) : (exchange w).Conforms Repertoire := by
  unfold exchange
  cases h : alu? w with
  | none => exact Fetch.conforms_fail
  | some o =>
      dsimp only
      split
      · refine (effective_conforms w _ _).map ?_
        intro ext x hx
        exact .parallel (alu_arithmetic h) (.exchangeY _ hx)
      · refine (effective_conforms w _ _).map ?_
        intro ext x hx
        exact .parallel (alu_arithmetic h) (.exchangeX _ hx)

/-! ## Registers and status -/

theorem fixed_mem {w : Word24} {op : Opcode} (h : fixed? w = some op) :
    op ∈ [.nop, .rti, .illegal, .swi, .rts, .reset, .wait, .stop, .enddo] := by
  unfold fixed? at h
  split at h <;> cases h <;> decide

theorem statusLogic_conforms (w : Word24) : (statusLogic w).Conforms Repertoire := by
  unfold statusLogic
  dsimp only
  split
  · rename_i op r h
    have hmem : op ∈ [.andi, .ori] ∧ r ∈ [.mr, .ccr, .omr] := by
      split at h <;> cases h <;> decide
    exact Fetch.conforms_done (.statusLogic hmem.1 (value_lt w (by decide)) hmem.2)
  · exact Fetch.conforms_fail

theorem divideOrNormalize_conforms (w : Word24) :
    (divideOrNormalize w).Conforms Repertoire := by
  unfold divideOrNormalize
  split
  · exact Fetch.conforms_done (.divide _ _)
  · split
    · exact Fetch.conforms_done (.normalize _ _)
    · exact Fetch.conforms_fail

theorem conditionalTransfer_conforms (w : Word24) :
    (conditionalTransfer w).Conforms Repertoire := by
  have hbody (x : Operand) (hx : x = accumulator (!bit w 3) ∨ ∃ n, x = inputRegister n) :
      Fetch.Conforms Repertoire (if bit w 16 = true then
        (Fetch.ensure (!bit w 11)).bind fun _ =>
          .done { Operation.binary (.transferOn (.ofCode (field w 12 4))) x
              (accumulator (bit w 3)) with
            transfer := .between (.reg (.r (field3 w 8))) (.reg (.r (field3 w 0))) }
        else (Fetch.ensure (field w 8 4 == 0 && field w 0 3 == 0)).bind fun _ =>
          .done (.binary (.transferOn (.ofCode (field w 12 4))) x (accumulator (bit w 3)))) := by
    split
    · refine Fetch.conforms_ensure ?_
      intro _
      exact Fetch.conforms_done (.transferBoth _ _ hx _ _)
    · refine Fetch.conforms_ensure ?_
      intro _
      exact Fetch.conforms_done (.transfer _ _ hx)
  refine Fetch.conforms_ensure ?_
  intro _
  dsimp only
  split
  · exact hbody _ (Or.inl rfl)
  · exact Fetch.conforms_fail
  · exact Fetch.conforms_fail
  · exact Fetch.conforms_fail
  · exact hbody _ (Or.inr ⟨_, rfl⟩)

theorem loadUpdated_conforms (w : Word24) : (loadUpdated w).Conforms Repertoire := by
  refine Fetch.conforms_done (.loadUpdated (updateMode_mem (bits_lt _ _ 2)) (bits_lt _ _ 3) ?_)
  split
  · exact ⟨_, Or.inl rfl⟩
  · exact ⟨_, Or.inr rfl⟩

/-! ## Moves -/

theorem moveControlRegister_conforms (w : Word24) :
    (moveControlRegister w).Conforms Repertoire := by
  refine register_then (reg5_conforms _) ?_
  intro ctrl hctrl
  refine Fetch.conforms_ensure ?_
  intro _
  refine register_then (reg6_conforms w 8) ?_
  intro x hx
  exact Fetch.conforms_done (.moveControlRegister _ hx hctrl)

theorem moveControlMemory_conforms (w : Word24) :
    (moveControlMemory w).Conforms Repertoire := by
  refine register_then (reg5_conforms _) ?_
  intro ctrl hctrl
  split
  · exact Fetch.conforms_done (.moveControlImmediate (value_lt w (by decide)) hctrl)
  · refine Fetch.conforms_ensure ?_
    intro _
    refine (memory_conforms w _ _).map ?_
    intro ext x hx
    exact .moveControlMemory (dataSpace_mem _) hx hctrl

theorem moveProgram_conforms (w : Word24) : (moveProgram w).Conforms Repertoire := by
  refine Fetch.conforms_ensure ?_
  intro _
  refine register_then (reg6_conforms w 0) ?_
  intro y hy
  refine (memory_conforms w _ _).map ?_
  intro ext x hx
  exact .moveProgram hx hy

theorem movePeripheral_conforms (w : Word24) : (movePeripheral w).Conforms Repertoire := by
  unfold movePeripheral
  dsimp only
  split
  · refine (effective_conforms w _ _).map ?_
    intro ext x hx
    exact .movePeripheral (List.mem_cons_of_mem _ (dataSpace_mem _)) hx (dataSpace_mem _)
      (value_lt w (by decide))
  · split
    · refine (effective_conforms w _ _).map ?_
      intro ext x hx
      exact .movePeripheral List.mem_cons_self hx (dataSpace_mem _) (value_lt w (by decide))
    · refine register_then (reg6_conforms w 8) ?_
      intro x hx
      exact Fetch.conforms_done
        (.movePeripheralRegister _ hx (dataSpace_mem _) (value_lt w (by decide)))

/-! ## Loops, jumps and bits -/

theorem loopCount_conforms (w : Word24) : (loopCount w).Conforms LoopCount := by
  unfold loopCount
  split
  · refine Fetch.conforms_ensure ?_
    intro _
    have hhigh : field w 0 4 < 16 := bits_lt _ _ 4
    have hlow : field w 8 8 < 256 := bits_lt _ _ 8
    have hcount : 256 * field w 0 4 + field w 8 8 < 4096 := by omega
    exact Fetch.conforms_done (.immediate (ofNat_lt hcount))
  · refine Fetch.conforms_ensure ?_
    intro _
    split
    · exact Fetch.conforms_done (.memory (dataSpace_mem _) (.short (value_lt w (by decide))))
    · exact (effective_conforms w _ _).mono fun _ _ hx =>
        .memory (dataSpace_mem _) (.effective hx)
    · refine Fetch.conforms_ensure ?_
      intro _
      refine (reg6_conforms w 8).mono ?_
      rintro ext x ⟨rfl, hx⟩
      exact .register hx
    · exact Fetch.conforms_fail

theorem loop_conforms (w : Word24) : (loop w).Conforms Repertoire := by
  refine (loopCount_conforms w).bind ?_
  intro ext x hx
  split
  · refine Fetch.conforms_done ?_
    rw [List.append_nil]
    exact .rep hx
  · refine Fetch.conforms_more ?_
    intro i last
    exact Fetch.conforms_done (.targeted (.doLoop hx last))

theorem jump_conforms (w : Word24) : (jump w).Conforms Repertoire := by
  have hbody (op : Opcode) (hop : IsJump op) :
      Fetch.Conforms Repertoire
        ((effective w .none false).bind fun target => .done (.unary op target)) := by
    refine (effective_conforms w _ _).map ?_
    intro ext x hx
    exact .targeted (.jump hop hx)
  unfold jump
  dsimp only
  split
  · refine hbody _ ?_
    split
    · exact Or.inr (Or.inl rfl)
    · exact Or.inl rfl
  · refine hbody _ (Or.inr (Or.inr ⟨.ofCode (field w 0 4), ?_⟩))
    split
    · exact Or.inr rfl
    · exact Or.inl rfl
  · exact Fetch.conforms_fail

theorem jumpShort_conforms (w : Word24) : (jumpShort w).Conforms Repertoire := by
  have htarget : value w 0 12 < 4096 := value_lt w (by decide)
  unfold jumpShort
  dsimp only
  split
  · exact Fetch.conforms_done (.targeted (.jumpShort (Or.inl rfl) htarget))
  · exact Fetch.conforms_done (.targeted (.jumpShort (Or.inr (Or.inl rfl)) htarget))
  · exact Fetch.conforms_done (.targeted (.jumpShort (Or.inr (Or.inr ⟨_, Or.inl rfl⟩)) htarget))
  · exact Fetch.conforms_done (.targeted (.jumpShort (Or.inr (Or.inr ⟨_, Or.inr rfl⟩)) htarget))
  · exact Fetch.conforms_fail

theorem bitPlace_conforms (w : Word24) :
    (bitPlace w).Conforms fun ext place => BitPlace ext place.1 := by
  unfold bitPlace
  split
  · exact Fetch.conforms_done (.memory (dataSpace_mem _) (.short (value_lt w (by decide))))
  · refine (effective_conforms w _ _).map ?_
    intro ext x hx
    exact .memory (dataSpace_mem _) (.effective hx)
  · exact Fetch.conforms_done (.peripheral (dataSpace_mem _) (value_lt w (by decide)))
  · refine register_then (reg6_conforms w 8) ?_
    intro x hx
    refine Fetch.conforms_ensure ?_
    intro _
    exact Fetch.conforms_done (.register hx)

theorem bitOperation_conforms (w : Word24) : (bitOperation w).Conforms Repertoire := by
  have hnumber : value w 0 5 < 32 := value_lt w (by decide)
  refine (bitPlace_conforms w).bind ?_
  rintro ext ⟨x, isJump⟩ hx
  cases isJump with
  | true =>
      refine Fetch.conforms_more ?_
      intro i target
      exact Fetch.conforms_done (.targeted (.bitJump _ _ hnumber hx target))
  | false =>
      refine Fetch.conforms_done ?_
      rw [List.append_nil]
      exact .bit _ _ hnumber hx

/-! ## First words -/

theorem control_conforms (w : Word24) : (control w).Conforms Repertoire := by
  unfold control
  cases h : fixed? w with
  | some op => exact Fetch.conforms_done (.plain (fixed_mem h))
  | none =>
      dsimp only
      split
      · exact statusLogic_conforms w
      · exact divideOrNormalize_conforms w
      · exact conditionalTransfer_conforms w
      · exact conditionalTransfer_conforms w
      · split
        · exact loadUpdated_conforms w
        · exact moveControlRegister_conforms w
      · exact moveControlMemory_conforms w
      · exact loop_conforms w
      · exact moveProgram_conforms w
      · split
        · exact movePeripheral_conforms w
        · exact exchange_conforms w
      · split
        · exact movePeripheral_conforms w
        · exact exchange_conforms w
      · split
        · exact jump_conforms w
        · exact bitOperation_conforms w
      · split
        · exact jump_conforms w
        · exact bitOperation_conforms w
      · exact jumpShort_conforms w
      · exact jumpShort_conforms w
      · exact jumpShort_conforms w
      · exact jumpShort_conforms w
      · exact Fetch.conforms_fail

theorem start_conforms (w : Word24) : (start w).Conforms Repertoire := by
  unfold start
  split
  · exact control_conforms w
  · exact parallel_conforms w

end Decoder
end Dsp56k
end Disassembler
