import Disassembler.Proofs.Binary.Alike
import Disassembler.Proofs.Dsp56k.Extent

/-!
# What the first word determines

The words after the first one only hold addresses and immediate data.  The first
word alone determines the operation, the kinds of its operands, and how many
words there are.
-/

namespace Disassembler
namespace Dsp56k

/-! ## Kinds of operands -/

inductive Operand.Kind where
  | immShort | immLong | reg | indirect | absShort | absLong | ioShort
  deriving DecidableEq, Repr

def Operand.kind : Operand -> Kind
  | immShort _ => .immShort
  | immLong _ => .immLong
  | reg _ => .reg
  | indirect _ _ _ => .indirect
  | absShort _ _ => .absShort
  | absLong _ _ => .absLong
  | ioShort _ _ => .ioShort

def Move.kinds (m : Move) : List (Option Operand.Kind) :=
  m.operands.map (Option.map Operand.kind)

/-- The kinds of all operands, in a fixed order and with those left out that are
absent. -/
def Operation.kinds (o : Operation) : List (Option Operand.Kind) :=
  [o.first, o.second, o.third].map (Option.map Operand.kind) ++ o.transfer.kinds ++
    o.moveX.kinds ++ o.moveY.kinds

abbrev SameKind (x y : Operand) : Prop :=
  x.kind = y.kind

/-- The same but for the numbers and registers in the operands. -/
structure SameForm (o p : Operation) : Prop where
  opcode : o.opcode = p.opcode
  negated : o.negated = p.negated
  kinds : o.kinds = p.kinds

theorem SameForm.refl (o : Operation) : SameForm o o :=
  ⟨rfl, rfl, rfl⟩

section

variable {op : Opcode} {x x' y y' z z' : Operand}

theorem sameForm_unary (hx : SameKind x x') : SameForm (.unary op x) (.unary op x') where
  opcode := rfl
  negated := rfl
  kinds := by simp [Operation.kinds, Operation.unary, hx]

theorem sameForm_binary (hx : SameKind x x') (hy : SameKind y y') :
    SameForm (.binary op x y) (.binary op x' y') where
  opcode := rfl
  negated := rfl
  kinds := by simp [Operation.kinds, Operation.binary, hx, hy]

theorem sameForm_ternary (hx : SameKind x x') (hy : SameKind y y') (hz : SameKind z z') :
    SameForm (.ternary op x y z) (.ternary op x' y' z') where
  opcode := rfl
  negated := rfl
  kinds := by simp [Operation.kinds, Operation.ternary, hx, hy, hz]

theorem sameForm_ordered (forward : Bool) (hx : SameKind x x') (hy : SameKind y y') :
    SameForm (Decoder.ordered op forward x y) (Decoder.ordered op forward x' y') := by
  cases forward with
  | true => exact sameForm_binary hx hy
  | false => exact sameForm_binary hy hx

theorem kinds_directed (load : Bool) (hx : SameKind x x') (hy : SameKind y y') :
    (Decoder.directed load x y).kinds = (Decoder.directed load x' y').kinds := by
  cases load <;> simp [Move.kinds, Move.operands, Move.between, Decoder.directed, hx, hy]

theorem kinds_between (hx : SameKind x x') (hy : SameKind y y') :
    (Move.between x y).kinds = (Move.between x' y').kinds := by
  simp [Move.kinds, Move.operands, Move.between, hx, hy]

end

namespace Decoder

open Fetch (Settled settled_done settled_fail settled_ensure settled_next)
open Word24 (bit field)

structure SameMoves (m m' : Moves) : Prop where
  first : m.first.kinds = m'.first.kinds
  second : m.second.kinds = m'.second.kinds

theorem SameMoves.withMoves {m m' : Moves} (h : SameMoves m m') (o : Operation) :
    SameForm (withMoves o m) (withMoves o m') where
  opcode := rfl
  negated := rfl
  kinds := by simp [Operation.kinds, Decoder.withMoves, h.first, h.second]

/-! ## Operands -/

theorem reg5_settled (code : Nat) : Settled False Eq (reg5 code) := by
  unfold reg5
  split
  · exact settled_done rfl
  · exact settled_fail

theorem reg6_settled (w : Word24) (low : Nat) : Settled False Eq (reg6 w low) := by
  unfold reg6
  split
  · exact settled_done rfl
  · exact settled_fail

theorem effective_settled (w : Word24) (space : Space) (allowImmediate : Bool) :
    Settled False SameKind (effective w space allowImmediate) := by
  unfold effective
  split
  · exact settled_next fun _ _ => rfl
  · exact settled_ensure fun _ => settled_next fun _ _ => rfl
  · exact settled_fail
  · exact settled_done rfl

theorem memory_settled (w : Word24) (space : Space) (allowImmediate : Bool) :
    Settled False SameKind (memory w space allowImmediate) := by
  unfold memory
  split
  · exact effective_settled w space allowImmediate
  · exact settled_done rfl

/-! ## Parallel instructions -/

theorem immediateOrRegister_settled (w : Word24) :
    Settled False SameMoves (immediateOrRegister w) := by
  unfold immediateOrRegister
  split
  · exact settled_done ⟨rfl, rfl⟩
  · split
    · exact settled_done ⟨rfl, rfl⟩
    · split
      · apply (reg5_settled _).bind
        intro src
        apply (reg5_settled _).bind
        intro dst
        exact settled_done ⟨rfl, rfl⟩
      · apply (reg5_settled _).bind
        intro dst
        exact settled_done ⟨rfl, rfl⟩

theorem oneSpace_settled (w : Word24) : Settled False SameMoves (oneSpace w) := by
  apply (reg5_settled _).bind
  intro reg
  apply (memory_settled w _ _).map
  intro x y hxy
  exact ⟨kinds_directed _ hxy rfl, rfl⟩

theorem longSpace_settled (w : Word24) : Settled False SameMoves (longSpace w) := by
  apply (memory_settled w _ _).map
  intro x y hxy
  exact ⟨kinds_directed _ hxy rfl, rfl⟩

theorem spaceAndRegister_settled (w : Word24) : Settled False SameMoves (spaceAndRegister w) := by
  unfold spaceAndRegister
  split
  · apply (effective_settled w _ _).map
    intro x y hxy
    exact ⟨rfl, kinds_directed _ hxy rfl⟩
  · apply (effective_settled w _ _).map
    intro x y hxy
    exact ⟨kinds_directed _ hxy rfl, rfl⟩

theorem moves_settled (w : Word24) : Settled False SameMoves (moves w) := by
  unfold moves
  split
  · exact settled_done ⟨rfl, rfl⟩
  · split
    · exact spaceAndRegister_settled w
    · exact immediateOrRegister_settled w
    · exact immediateOrRegister_settled w
    · split
      · exact oneSpace_settled w
      · exact longSpace_settled w
    · exact oneSpace_settled w

theorem parallel_settled (w : Word24) : Settled False SameForm (parallel w) := by
  unfold parallel
  split
  · exact settled_fail
  · apply (moves_settled w).map
    intro m m' h
    exact h.withMoves _

theorem exchange_settled (w : Word24) : Settled False SameForm (exchange w) := by
  unfold exchange
  split
  · exact settled_fail
  · dsimp only
    split
    · apply (effective_settled w _ _).map
      intro x y hxy
      refine SameMoves.withMoves ?_ _
      exact ⟨rfl, kinds_between rfl hxy⟩
    · apply (effective_settled w _ _).map
      intro x y hxy
      refine SameMoves.withMoves ?_ _
      exact ⟨kinds_between rfl hxy, rfl⟩

/-! ## Control instructions -/

theorem statusLogic_settled (w : Word24) : Settled False SameForm (statusLogic w) := by
  unfold statusLogic
  dsimp only
  split
  · exact settled_done (SameForm.refl _)
  · exact settled_fail

theorem divideOrNormalize_settled (w : Word24) : Settled False SameForm (divideOrNormalize w) := by
  unfold divideOrNormalize
  split
  · exact settled_done (SameForm.refl _)
  · split
    · exact settled_done (SameForm.refl _)
    · exact settled_fail

theorem conditionalTransfer_settled (w : Word24) :
    Settled False SameForm (conditionalTransfer w) := by
  have hbody (x : Operand) :
      Settled False SameForm (if bit w 16 = true then
        (Fetch.ensure (!bit w 11)).bind fun _ =>
          .done { Operation.binary (.transferOn (.ofCode (field w 12 4))) x
              (accumulator (bit w 3)) with
            transfer := .between (.reg (.r (field3 w 8))) (.reg (.r (field3 w 0))) }
        else (Fetch.ensure (field w 8 4 == 0 && field w 0 3 == 0)).bind fun _ =>
          .done (.binary (.transferOn (.ofCode (field w 12 4))) x (accumulator (bit w 3))) :
        Decoder Operation) := by
    split
    · exact settled_ensure fun _ => settled_done (SameForm.refl _)
    · exact settled_ensure fun _ => settled_done (SameForm.refl _)
  apply settled_ensure
  intro _
  dsimp only
  split
  · exact hbody _
  · exact settled_fail
  · exact settled_fail
  · exact settled_fail
  · exact hbody _

theorem moveControlRegister_settled (w : Word24) :
    Settled False SameForm (moveControlRegister w) := by
  apply (reg5_settled _).bind
  intro ctrl
  apply settled_ensure
  intro _
  apply (reg6_settled w 8).bind
  intro reg
  exact settled_done (SameForm.refl _)

theorem moveControlMemory_settled (w : Word24) : Settled False SameForm (moveControlMemory w) := by
  apply (reg5_settled _).bind
  intro ctrl
  split
  · exact settled_done (SameForm.refl _)
  · apply settled_ensure
    intro _
    apply (memory_settled w _ _).map
    intro x y hxy
    exact sameForm_ordered _ hxy rfl

theorem moveProgram_settled (w : Word24) : Settled False SameForm (moveProgram w) := by
  apply settled_ensure
  intro _
  apply (reg6_settled w 0).bind
  intro reg
  apply (memory_settled w _ _).map
  intro x y hxy
  exact sameForm_ordered _ hxy rfl

theorem movePeripheral_settled (w : Word24) : Settled False SameForm (movePeripheral w) := by
  unfold movePeripheral
  dsimp only
  split
  · apply (effective_settled w _ _).map
    intro x y hxy
    exact sameForm_ordered _ hxy rfl
  · split
    · apply (effective_settled w _ _).map
      intro x y hxy
      exact sameForm_ordered _ hxy rfl
    · apply (reg6_settled w 8).bind
      intro reg
      exact settled_done (SameForm.refl _)

theorem loopCount_settled (w : Word24) : Settled False SameKind (loopCount w) := by
  unfold loopCount
  split
  · exact settled_ensure fun _ => settled_done rfl
  · apply settled_ensure
    intro _
    split
    · exact settled_done rfl
    · exact effective_settled w _ _
    · apply settled_ensure
      intro _
      apply Fetch.Alike.mono (reg6_settled w 8)
      intro x y hxy
      exact congrArg Operand.kind hxy
    · exact settled_fail

theorem loop_settled (w : Word24) : Settled False SameForm (loop w) := by
  refine Fetch.Alike.bind (loopCount_settled w) ?_
  intro x y hxy
  cases bit w 5 with
  | true => exact Fetch.Alike.done (sameForm_unary hxy)
  | false =>
      refine Fetch.Alike.map (Fetch.Alike.next fun _ _ => trivial) ?_
      intro last last' _
      exact sameForm_binary hxy rfl

theorem jump_settled (w : Word24) : Settled False SameForm (jump w) := by
  have hbody (op : Opcode) : Settled False SameForm
      ((effective w .none false).bind fun target => .done (.unary op target)) := by
    apply (effective_settled w _ _).map
    intro x y hxy
    exact sameForm_unary hxy
  unfold jump
  dsimp only
  split
  · exact hbody _
  · exact hbody _
  · exact settled_fail

theorem jumpShort_settled (w : Word24) : Settled False SameForm (jumpShort w) := by
  unfold jumpShort
  dsimp only
  split
  · exact settled_done (SameForm.refl _)
  · exact settled_done (SameForm.refl _)
  · exact settled_done (SameForm.refl _)
  · exact settled_done (SameForm.refl _)
  · exact settled_fail

theorem bitPlace_settled (w : Word24) :
    Settled False (fun p q => SameKind p.1 q.1 ∧ p.2 = q.2) (bitPlace w) := by
  unfold bitPlace
  split
  · exact settled_done ⟨rfl, rfl⟩
  · apply (effective_settled w _ _).map
    intro x y hxy
    exact ⟨hxy, rfl⟩
  · exact settled_done ⟨rfl, rfl⟩
  · apply (reg6_settled w 8).bind
    intro reg
    exact settled_ensure fun _ => settled_done ⟨rfl, rfl⟩

theorem bitOperation_settled (w : Word24) : Settled False SameForm (bitOperation w) := by
  refine Fetch.Alike.bind (bitPlace_settled w) ?_
  rintro ⟨x, isJump⟩ ⟨y, _⟩ ⟨hxy, rfl⟩
  cases isJump with
  | true =>
      refine Fetch.Alike.map (Fetch.Alike.next fun _ _ => trivial) ?_
      intro target target' _
      exact sameForm_ternary rfl hxy rfl
  | false => exact Fetch.Alike.done (sameForm_binary rfl hxy)

/-! ## First words -/

theorem control_settled (w : Word24) : Settled False SameForm (control w) := by
  unfold control
  split
  · exact settled_done (SameForm.refl _)
  · split
    · exact statusLogic_settled w
    · exact divideOrNormalize_settled w
    · exact conditionalTransfer_settled w
    · exact conditionalTransfer_settled w
    · split
      · exact settled_done (SameForm.refl _)
      · exact moveControlRegister_settled w
    · exact moveControlMemory_settled w
    · exact loop_settled w
    · exact moveProgram_settled w
    · split
      · exact movePeripheral_settled w
      · exact exchange_settled w
    · split
      · exact movePeripheral_settled w
      · exact exchange_settled w
    · split
      · exact jump_settled w
      · exact bitOperation_settled w
    · split
      · exact jump_settled w
      · exact bitOperation_settled w
    · exact jumpShort_settled w
    · exact jumpShort_settled w
    · exact jumpShort_settled w
    · exact jumpShort_settled w
    · exact settled_fail

/-- The decisions after the first word do not depend on the words that they look
at. -/
theorem start_settled (w : Word24) : Settled False SameForm (start w) := by
  unfold start
  split
  · exact control_settled w
  · exact parallel_settled w

end Decoder

/-! ## Instructions -/

theorem Encodes.sameForm {code code' : List Word24} {inst inst' : Instruction}
    (h : Encodes code inst) (h' : Encodes code' inst')
    (hfirst : leadingWord code = leadingWord code') :
    code.length = code'.length ∧ SameForm inst.toOperation inst'.toOperation := by
  cases h with
  | @intro header tail o hreads =>
      cases h' with
      | @intro header' tail' o' hreads' =>
          have hheader : header = header' := BitVec.eq_of_toNat_eq hfirst
          subst hheader
          rcases (Decoder.start_settled header).of_reads hreads hreads' with ⟨hlength, hform⟩
          exact ⟨congrArg (· + 1) hlength, hform⟩

/-- What is decoded begins with the first word of its input. -/
theorem exists_encodes {words : List Word24} (h : (decode words).opcode ≠ .data) :
    ∃ code, leadingWord code = leadingWord words ∧ Encodes code (decode words) := by
  rcases decode_cases words with ⟨code, rest, hwords, hcode⟩ | hdata
  · refine ⟨code, ?_, hcode⟩
    rw [hwords]
    cases code with
    | nil => exact absurd hcode.one_le_length (by decide)
    | cons header tail => rfl
  · rw [hdata] at h
    exact absurd rfl h

/-- Instructions with the same first word have the same length, and differ in
nothing but the numbers and registers in their operands. -/
theorem decode_sameForm {words words' : List Word24}
    (hfirst : leadingWord words = leadingWord words') (h : (decode words).opcode ≠ .data)
    (h' : (decode words').opcode ≠ .data) :
    (decode words).length = (decode words').length ∧
      SameForm (decode words).toOperation (decode words').toOperation := by
  rcases exists_encodes h with ⟨code, hcode, hencodes⟩
  rcases exists_encodes h' with ⟨code', hcode', hencodes'⟩
  rcases hencodes.sameForm hencodes' (by rw [hcode, hcode', hfirst]) with ⟨hlength, hform⟩
  rw [hencodes.length_eq, hencodes'.length_eq]
  exact ⟨hlength, hform⟩

theorem decodeWords_opcode_eq_data (header : Word24) (ext : List Word24) :
    (decodeWords header ext).opcode = .data ↔
      ((Decoder.start header).run 1 ext).isSome = false := by
  rw [decodeWords]
  cases hrun : (Decoder.start header).run 1 ext with
  | none => exact iff_of_true rfl rfl
  | some result =>
      rcases result with ⟨o, n⟩
      rcases Fetch.exists_reads_of_run hrun with ⟨ys, zs, _, _, hreads⟩
      have hop := (Decoder.start_conforms header 1 ys o hreads).opcode_ne_data
      exact iff_of_false hop Bool.false_ne_true.symm

/-- It depends on the first word and the number of words alone whether there is
an instruction. -/
theorem decode_opcode_eq_data_iff {words words' : List Word24}
    (hfirst : leadingWord words = leadingWord words') (hlength : words.length = words'.length) :
    (decode words).opcode = .data ↔ (decode words').opcode = .data := by
  cases words with
  | nil =>
      cases words' with
      | nil => exact Iff.rfl
      | cons header' rest' => cases hlength
  | cons header rest =>
      cases words' with
      | nil => cases hlength
      | cons header' rest' =>
          have hheader : header = header' := BitVec.eq_of_toNat_eq hfirst
          subst hheader
          have hrun := Fetch.Alike.isSome_run (i := 1) (Decoder.start_settled header)
            (Nat.succ.inj hlength)
          rw [decode, decode, decodeWords_opcode_eq_data, decodeWords_opcode_eq_data, hrun]

end Dsp56k
end Disassembler
