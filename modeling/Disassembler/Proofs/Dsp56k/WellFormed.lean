import Disassembler.Proofs.Dsp56k.Extent

/-!
# Well formed instructions

The registers, modes and spaces in a decoded instruction are those that there
are, operands and moves have no gaps before them, and moves stand only beside the
operations that can have them.
-/

namespace Disassembler
namespace Dsp56k

open Decoder (accumulator inputRegister xRegister yRegister longRegister factors bothMode bitOpcode
  bitJumpOpcode ordered directed Moves withMoves register6?)

/-! ## Ranges -/

def spaces : List Space :=
  [.none, .x, .y, .l, .p]

namespace Operand

/-- Registers, modes and spaces are in range. -/
def WellFormed : Operand -> Prop
  | reg r => r ∈ Register.stored ++ Register.operandOnly
  | indirect mode space r => mode ∈ indirectModes ∧ space ∈ spaces ∧ r ≤ 7
  | absShort space _ | absLong space _ | ioShort space _ => space ∈ spaces
  | immShort _ | immLong _ => True

/-- The space of an operand in memory. -/
def space? : Operand -> Option Space
  | indirect _ space _ | absShort space _ | absLong space _ | ioShort space _ => some space
  | reg _ | immShort _ | immLong _ => none

end Operand

/-- Address registers, one of `r0` to `r3` and one of `r4` to `r7`. -/
def InDifferentBanks (r s : Nat) : Prop :=
  r ≤ 3 ∧ 4 ≤ s ∧ s ≤ 7 ∨ 4 ≤ r ∧ r ≤ 7 ∧ s ≤ 3

/-- An operand in X space and an operand in Y space, if both are there, are
addressed by registers of different banks. -/
def UseDifferentBanks (operands : List Operand) : Prop :=
  ∀ x ∈ operands, ∀ y ∈ operands, x.space? = some .x -> y.space? = some .y ->
    ∃ mode mode' r s, x = .indirect mode .x r ∧ y = .indirect mode' .y s ∧ InDifferentBanks r s

/-- The operands of a move that are present. -/
def Move.present (m : Move) : List Operand :=
  m.operands.filterMap id

/-- A move has a source if it has a destination. -/
def Move.HasSource (m : Move) : Prop :=
  m.destination.isSome = true -> m.source.isSome = true

namespace Operation

/-- The operands of the parallel moves, in their order. -/
def moved (o : Operation) : List Operand :=
  o.moveX.present ++ o.moveY.present

/-- All operands that are present, in their order. -/
def present (o : Operation) : List Operand :=
  [o.first, o.second, o.third].filterMap id ++ o.transfer.present ++ o.moved

/-- Operands and moves have no gaps before them, and stand only beside the
operations that can have them. -/
structure WellFormed (o : Operation) : Prop where
  opcode : o.opcode ≠ .unlisted
  second : o.second.isSome = true -> o.first.isSome = true
  third : o.third.isSome = true -> o.second.isSome = true
  transfer : o.transfer.source.isSome = o.transfer.destination.isSome
  moveX : o.moveX.HasSource
  moveY : o.moveY.HasSource
  moves : o.moveY.source.isSome = true -> o.moveX.source.isSome = true
  operands : ∀ x ∈ o.present, x.WellFormed
  negated : o.negated = true -> o.opcode ∈ [.mpy, .mpyr, .mac, .macr]
  conditional : o.transfer ≠ {} -> ∃ c, o.opcode = .transferOn c
  parallel : o.moveX ≠ {} ∨ o.moveY ≠ {} -> o.opcode ∈ arithmeticOpcodes
  banks : UseDifferentBanks o.moved

end Operation

/-! ## Operands -/

theorem Register.mem_of_ne_unlisted {r : Register} (h : r ≠ .unlisted) :
    r ∈ stored ++ operandOnly := by
  cases r with
  | r i | n i | m i =>
      revert i
      decide
  | unlisted => exact absurd rfl h
  | _ => decide

theorem IsRegister.wellFormed {x : Operand} (hx : IsRegister x) : x.WellFormed := by
  rcases hx with ⟨code, r, hcode, rfl⟩
  apply Register.mem_of_ne_unlisted
  rintro rfl
  unfold register6? at hcode
  split at hcode
  case h_20 =>
    dsimp only at hcode
    split at hcode <;> cases hcode
  all_goals cases hcode

theorem wellFormed_accumulator (b : Bool) : (accumulator b).WellFormed := by
  apply Register.mem_of_ne_unlisted
  cases b <;> decide

theorem wellFormed_inputRegister (n : Nat) : (inputRegister n).WellFormed := by
  apply Register.mem_of_ne_unlisted
  split <;> decide

theorem wellFormed_xRegister (n : Nat) : (xRegister n).WellFormed := by
  apply Register.mem_of_ne_unlisted
  split <;> decide

theorem wellFormed_yRegister (n : Nat) : (yRegister n).WellFormed := by
  apply Register.mem_of_ne_unlisted
  split <;> decide

theorem wellFormed_longRegister (n : Nat) : (longRegister n).WellFormed := by
  apply Register.mem_of_ne_unlisted
  split <;> decide

theorem wellFormed_factors (n : Nat) :
    (Operand.reg (factors n).1).WellFormed ∧ (Operand.reg (factors n).2).WellFormed := by
  unfold factors
  split <;> exact ⟨Register.mem_of_ne_unlisted nofun, Register.mem_of_ne_unlisted nofun⟩

theorem mem_spaces_of_mem_dataSpaces {space : Space} (h : space ∈ dataSpaces) :
    space ∈ spaces :=
  (by decide : dataSpaces ⊆ spaces) h

theorem mem_indirectModes_of_mem_updateModes {mode : IndirectMode} (h : mode ∈ updateModes) :
    mode ∈ indirectModes :=
  (by decide : updateModes ⊆ indirectModes) h

theorem bothMode_mem (n : Nat) : bothMode n ∈ indirectModes := by
  unfold bothMode
  split <;> decide

section

variable {space : Space} {load : Bool} {ext : List Word24} {x : Operand}

theorem Effective.wellFormed (hspace : space ∈ spaces) (hx : Effective space load ext x) :
    x.WellFormed := by
  cases hx with
  | indirect hmode hr => exact ⟨hmode, hspace, Nat.le_of_lt_succ hr⟩
  | absolute ext => exact hspace
  | immediate ext hallow => trivial

theorem Memory.wellFormed (hspace : space ∈ spaces) (hx : Memory space load ext x) :
    x.WellFormed := by
  cases hx with
  | effective hx => exact hx.wellFormed hspace
  | short ha => exact hspace

theorem LoopCount.wellFormed (hx : LoopCount ext x) : x.WellFormed := by
  cases hx with
  | immediate hv => trivial
  | memory hspace hx => exact hx.wellFormed (mem_spaces_of_mem_dataSpaces hspace)
  | register hx => exact hx.wellFormed

theorem BitPlace.wellFormed (hx : BitPlace ext x) : x.WellFormed := by
  cases hx with
  | memory hspace hx => exact hx.wellFormed (mem_spaces_of_mem_dataSpaces hspace)
  | peripheral hspace ha => exact mem_spaces_of_mem_dataSpaces hspace
  | register hx => exact hx.wellFormed

end

/-! ## Spaces -/

/-- An operand of a space, or in no space. -/
def Operand.IsWithin (space : Space) (x : Operand) : Prop :=
  x.space? = none ∨ x.space? = some space

theorem IsRegister.isWithin {x : Operand} (hx : IsRegister x) (space : Space) :
    x.IsWithin space := by
  rcases hx with ⟨code, r, _, rfl⟩
  exact Or.inl rfl

theorem Effective.isWithin {space : Space} {load : Bool} {ext : List Word24} {x : Operand}
    (hx : Effective space load ext x) : x.IsWithin space := by
  cases hx with
  | indirect hmode hr => exact Or.inr rfl
  | absolute ext => exact Or.inr rfl
  | immediate ext hallow => exact Or.inl rfl

theorem Memory.isWithin {space : Space} {load : Bool} {ext : List Word24} {x : Operand}
    (hx : Memory space load ext x) : x.IsWithin space := by
  cases hx with
  | effective hx => exact hx.isWithin
  | short ha => exact Or.inr rfl

theorem useDifferentBanks_of_isWithin {operands : List Operand} {space : Space}
    (h : ∀ x ∈ operands, x.IsWithin space) : UseDifferentBanks operands := by
  intro x hx y hy hspace hspace'
  rcases h x hx with hnone | hsome
  · rw [hnone] at hspace
    cases hspace
  · rcases h y hy with hnone' | hsome'
    · rw [hnone'] at hspace'
      cases hspace'
    · rw [hsome] at hspace
      rw [hsome'] at hspace'
      cases hspace
      cases hspace'

theorem useDifferentBanks_of_indirect {operands : List Operand} (mode mode' : IndirectMode)
    {r s : Nat} (hbanks : InDifferentBanks r s)
    (h : ∀ x ∈ operands,
      x.space? = none ∨ x = .indirect mode .x r ∨ x = .indirect mode' .y s) :
    UseDifferentBanks operands := by
  intro x hx y hy hspace hspace'
  have hxr : x = .indirect mode .x r := by
    rcases h x hx with hnone | rfl | rfl
    · rw [hnone] at hspace
      cases hspace
    · rfl
    · cases hspace
  have hys : y = .indirect mode' .y s := by
    rcases h y hy with hnone | rfl | rfl
    · rw [hnone] at hspace'
      cases hspace'
    · cases hspace'
    · rfl
  exact ⟨mode, mode', r, s, hxr, hys, hbanks⟩

/-! ## Moves -/

section

variable {P : Operand -> Prop} {x y : Operand}

@[simp] theorem Move.present_empty : ({} : Move).present = [] :=
  rfl

@[simp] theorem Move.forall_present_between :
    (∀ a ∈ (Move.between x y).present, P a) ↔ P x ∧ P y := by
  simp [present, operands, between]

@[simp] theorem Move.forall_present_directed {load : Bool} :
    (∀ a ∈ (directed load x y).present, P a) ↔ P x ∧ P y := by
  cases load with
  | true => exact forall_present_between
  | false => exact forall_present_between.trans and_comm

end

theorem Move.hasSource_directed (load : Bool) (x y : Operand) :
    (directed load x y).HasSource := by
  cases load <;> exact fun _ => rfl

namespace Beside

variable {ext : List Word24} {m : Moves}

theorem hasSource (h : Beside ext m) : m.first.HasSource ∧ m.second.HasSource := by
  cases h with
  | none => exact ⟨nofun, nofun⟩
  | update hmode hr => exact ⟨nofun, nofun⟩
  | registers hx hy => exact ⟨fun _ => rfl, nofun⟩
  | immediate hv hx => exact ⟨fun _ => rfl, nofun⟩
  | oneSpace hspace hx hy => exact ⟨Move.hasSource_directed _ _ _, nofun⟩
  | longSpace load hx n => exact ⟨Move.hasSource_directed _ _ _, nofun⟩
  | spaceX hx m acc hn => exact ⟨Move.hasSource_directed _ _ _, fun _ => rfl⟩
  | spaceY acc hm hx n => exact ⟨fun _ => rfl, Move.hasSource_directed _ _ _⟩
  | bothSpaces => exact ⟨Move.hasSource_directed _ _ _, Move.hasSource_directed _ _ _⟩
  | exchangeX acc hx => exact ⟨fun _ => rfl, fun _ => rfl⟩
  | exchangeY acc hx => exact ⟨fun _ => rfl, fun _ => rfl⟩

/-- There is no second move without a first one. -/
theorem isSome_source (h : Beside ext m) (hsecond : m.second.source.isSome = true) :
    m.first.source.isSome = true := by
  cases h with
  | none => cases hsecond
  | @spaceX load => cases load <;> rfl
  | bothSpaces load => cases load <;> rfl
  | @oneSpace _ load => cases load <;> rfl
  | longSpace load => cases load <;> rfl
  | _ => rfl

theorem wellFormed (h : Beside ext m) :
    (∀ x ∈ m.first.present, x.WellFormed) ∧ ∀ x ∈ m.second.present, x.WellFormed := by
  have hdata {space : Space} (hspace : space ∈ dataSpaces) : space ∈ spaces :=
    mem_spaces_of_mem_dataSpaces hspace
  cases h with
  | none => simp
  | @update mode r hmode hr =>
      have hx : (Operand.indirect mode .none r).WellFormed :=
        ⟨mem_indirectModes_of_mem_updateModes hmode, by decide, Nat.le_of_lt_succ hr⟩
      simp [Move.present, Move.operands, hx]
  | registers hx hy => simp [hx.wellFormed, hy.wellFormed]
  | @immediate v x hv hx =>
      have himmediate : (Operand.immShort v).WellFormed := trivial
      simp [himmediate, hx.wellFormed]
  | oneSpace hspace hx hy => simp [hx.wellFormed (hdata hspace), hy.wellFormed]
  | longSpace load hx n => simp [hx.wellFormed (by decide), wellFormed_longRegister]
  | spaceX hx m acc hn =>
      simp [hx.wellFormed (by decide), wellFormed_xRegister, wellFormed_yRegister,
        wellFormed_accumulator]
  | spaceY acc hm hx n =>
      simp [hx.wellFormed (by decide), wellFormed_xRegister, wellFormed_yRegister,
        wellFormed_accumulator]
  | @bothSpaces loadX loadY modeX modeY m n r s hr hs hbank =>
      have hx : (Operand.indirect (bothMode modeX) .x r).WellFormed :=
        ⟨bothMode_mem modeX, by decide, Nat.le_of_lt_succ hr⟩
      have hy : (Operand.indirect (bothMode modeY) .y s).WellFormed :=
        ⟨bothMode_mem modeY, by decide, Nat.le_of_lt_succ hs⟩
      simp [hx, hy, wellFormed_xRegister, wellFormed_yRegister]
  | exchangeX acc hx =>
      have hx0 : (Operand.reg .x0).WellFormed := wellFormed_xRegister 0
      simp [hx.wellFormed (by decide), wellFormed_accumulator, hx0]
  | exchangeY acc hx =>
      have hy0 : (Operand.reg .y0).WellFormed := wellFormed_yRegister 0
      simp [hx.wellFormed (by decide), wellFormed_accumulator, hy0]

theorem useDifferentBanks (h : Beside ext m) :
    UseDifferentBanks (m.first.present ++ m.second.present) := by
  -- Only two moves in memory can be in different spaces.
  have hregister (r : Register) (space : Space) : (Operand.reg r).IsWithin space := Or.inl rfl
  have hwithin (space : Space) (hfirst : ∀ x ∈ m.first.present, x.IsWithin space)
      (hsecond : ∀ x ∈ m.second.present, x.IsWithin space) :
      UseDifferentBanks (m.first.present ++ m.second.present) :=
    useDifferentBanks_of_isWithin (List.forall_mem_append.2 ⟨hfirst, hsecond⟩)
  cases h with
  | none => exact hwithin .none (by simp) (by simp)
  | @update mode r hmode hr =>
      have hx : (Operand.indirect mode .none r).IsWithin .none := Or.inr rfl
      exact hwithin .none (by simp [Move.present, Move.operands, hx]) (by simp)
  | registers hx hy =>
      exact hwithin .none (Move.forall_present_between.2 ⟨hx.isWithin _, hy.isWithin _⟩)
        (by simp)
  | immediate hv hx =>
      exact hwithin .none (Move.forall_present_between.2 ⟨Or.inl rfl, hx.isWithin _⟩)
        (by simp)
  | oneSpace hspace hx hy =>
      exact hwithin _ (Move.forall_present_directed.2 ⟨hx.isWithin, hy.isWithin _⟩)
        (by simp)
  | longSpace load hx n =>
      exact hwithin .l (Move.forall_present_directed.2 ⟨hx.isWithin, hregister _ _⟩) (by simp)
  | spaceX hx m acc hn =>
      exact hwithin .x (Move.forall_present_directed.2 ⟨hx.isWithin, hregister _ _⟩)
        (Move.forall_present_between.2 ⟨hregister _ _, hregister _ _⟩)
  | spaceY acc hm hx n =>
      exact hwithin .y (Move.forall_present_between.2 ⟨hregister _ _, hregister _ _⟩)
        (Move.forall_present_directed.2 ⟨hx.isWithin, hregister _ _⟩)
  | @bothSpaces loadX loadY modeX modeY m n r s hr hs hbank =>
      have hbanks : InDifferentBanks r s := by
        unfold InDifferentBanks
        omega
      apply useDifferentBanks_of_indirect (bothMode modeX) (bothMode modeY) hbanks
      refine List.forall_mem_append.2 ⟨?_, ?_⟩
      · exact Move.forall_present_directed.2 ⟨Or.inr (Or.inl rfl), Or.inl rfl⟩
      · exact Move.forall_present_directed.2 ⟨Or.inr (Or.inr rfl), Or.inl rfl⟩
  | exchangeX acc hx =>
      exact hwithin .x (Move.forall_present_between.2 ⟨hregister _ _, hx.isWithin⟩)
        (Move.forall_present_between.2 ⟨hregister _ _, hregister _ _⟩)
  | exchangeY acc hx =>
      exact hwithin .y (Move.forall_present_between.2 ⟨hregister _ _, hregister _ _⟩)
        (Move.forall_present_between.2 ⟨hregister _ _, hx.isWithin⟩)

end Beside

/-! ## Operations -/

namespace Arithmetic

variable {o : Operation}

theorem wellFormed_operands (h : Arithmetic o) :
    ∀ x ∈ [o.first, o.second, o.third].filterMap id, x.WellFormed := by
  cases h with
  | move => simp [Operation.nullary]
  | single hop acc => simp [Operation.unary, wellFormed_accumulator]
  | both hop acc => simp [Operation.binary, wellFormed_accumulator]
  | @pair op r hop hr acc =>
      have hreg : (Operand.reg r).WellFormed := (by decide : [Register.x, .y] ⊆ _) hr
      simp [Operation.binary, hreg, wellFormed_accumulator]
  | input hop n acc => simp [Operation.binary, wellFormed_inputRegister, wellFormed_accumulator]
  | product hop n acc negated =>
      simp [Operation.ternary, (wellFormed_factors n).1, (wellFormed_factors n).2,
        wellFormed_accumulator]

theorem transfer_eq (h : Arithmetic o) : o.transfer = {} := by
  cases h <;> rfl

theorem wellFormed_withMoves (ho : Arithmetic o) {ext : List Word24} {m : Moves}
    (hm : Beside ext m) : (withMoves o m).WellFormed where
  opcode := by
    have hop := ho.opcode_mem
    intro heq
    rw [show o.opcode = .unlisted from heq] at hop
    exact absurd hop (by decide)
  second := by
    cases ho <;> simp [withMoves, Operation.nullary, Operation.unary, Operation.binary,
      Operation.ternary]
  third := by
    cases ho <;> simp [withMoves, Operation.nullary, Operation.unary, Operation.binary,
      Operation.ternary]
  transfer := by
    show o.transfer.source.isSome = o.transfer.destination.isSome
    rw [ho.transfer_eq]
  moveX := hm.hasSource.1
  moveY := hm.hasSource.2
  moves := hm.isSome_source
  operands := by
    have hmoves : ∀ x ∈ m.first.present ++ m.second.present, x.WellFormed :=
      List.forall_mem_append.2 hm.wellFormed
    have htransfer : (withMoves o m).transfer = {} := ho.transfer_eq
    rw [Operation.present, htransfer, Move.present_empty, List.append_nil]
    exact List.forall_mem_append.2 ⟨ho.wellFormed_operands, hmoves⟩
  negated := by
    intro hnegated
    cases ho with
    | product hop n acc negated => exact hop
    | _ => cases hnegated
  conditional := by
    intro htransfer
    exact absurd ho.transfer_eq htransfer
  parallel := fun _ => ho.opcode_mem
  banks := hm.useDifferentBanks

end Arithmetic

section

variable {op : Opcode} {x y z : Operand}

/-- An operation without a transfer and moves. -/
theorem wellFormed_of_operands (hop : op ≠ .unlisted) {first second third : Option Operand}
    (hsecond : second.isSome = true -> first.isSome = true)
    (hthird : third.isSome = true -> second.isSome = true)
    (hoperands : ∀ x ∈ [first, second, third].filterMap id, x.WellFormed) :
    Operation.WellFormed { opcode := op, first, second, third } where
  opcode := hop
  second := hsecond
  third := hthird
  transfer := rfl
  moveX := nofun
  moveY := nofun
  moves := nofun
  operands := by
    simpa only [Operation.present, Operation.moved, Move.present_empty, List.append_nil]
      using hoperands
  negated := nofun
  conditional h := absurd rfl h
  parallel h := h.elim (absurd rfl) (absurd rfl)
  banks := List.forall_mem_nil _

theorem wellFormed_nullary (hop : op ≠ .unlisted) : (Operation.nullary op).WellFormed :=
  wellFormed_of_operands hop nofun nofun nofun

theorem wellFormed_unary (hop : op ≠ .unlisted) (hx : x.WellFormed) :
    (Operation.unary op x).WellFormed :=
  wellFormed_of_operands hop nofun nofun (by simp [hx])

theorem wellFormed_binary (hop : op ≠ .unlisted) (hx : x.WellFormed) (hy : y.WellFormed) :
    (Operation.binary op x y).WellFormed :=
  wellFormed_of_operands hop (fun _ => rfl) nofun (by simp [hx, hy])

theorem wellFormed_ternary (hop : op ≠ .unlisted) (hx : x.WellFormed) (hy : y.WellFormed)
    (hz : z.WellFormed) : (Operation.ternary op x y z).WellFormed :=
  wellFormed_of_operands hop (fun _ => rfl) (fun _ => rfl) (by simp [hx, hy, hz])

theorem wellFormed_ordered (op : Opcode) (hop : op ≠ .unlisted) (load : Bool)
    (hx : x.WellFormed) (hy : y.WellFormed) : (ordered op load x y).WellFormed := by
  cases load with
  | true => exact wellFormed_binary hop hx hy
  | false => exact wellFormed_binary hop hy hx

end

theorem ne_unlisted_of_isJump {op : Opcode} (h : IsJump op) : op ≠ .unlisted := by
  rcases h with rfl | rfl | ⟨c, rfl | rfl⟩ <;> exact nofun

theorem Targeted.wellFormed {ext : List Word24} {o : Operation} (h : Targeted ext o) :
    o.WellFormed := by
  cases h with
  | jump hop hx => exact wellFormed_unary (ne_unlisted_of_isJump hop) (hx.wellFormed (by decide))
  | jumpShort hop ha =>
      have hspace : Space.none ∈ spaces := by decide
      exact wellFormed_unary (ne_unlisted_of_isJump hop) hspace
  | doLoop hx last =>
      have hspace : Space.none ∈ spaces := by decide
      exact wellFormed_binary nofun hx.wellFormed hspace
  | bitJump call value hn hx target =>
      have hop : bitJumpOpcode call value ≠ .unlisted := by
        cases call <;> cases value <;> exact nofun
      have hspace : Space.none ∈ spaces := by decide
      exact wellFormed_ternary hop trivial hx.wellFormed hspace

/-- The source of a conditional transfer. -/
theorem wellFormed_transferSource {x : Operand} {acc : Bool}
    (hx : x = accumulator (!acc) ∨ ∃ n, x = inputRegister n) : x.WellFormed := by
  rcases hx with rfl | ⟨n, rfl⟩
  · exact wellFormed_accumulator _
  · exact wellFormed_inputRegister n

theorem wellFormed_addressRegister (i : Fin 8) : (Operand.reg (.r i)).WellFormed :=
  Register.mem_of_ne_unlisted nofun

/-- A conditional transfer with a transfer between address registers. -/
theorem wellFormed_transferBoth (c : Condition) (acc : Bool) {x : Operand} (hx : x.WellFormed)
    (r s : Fin 8) :
    Operation.WellFormed { Operation.binary (.transferOn c) x (accumulator acc) with
      transfer := .between (.reg (.r r)) (.reg (.r s)) } where
  opcode := nofun
  second := fun _ => rfl
  third := nofun
  transfer := rfl
  moveX := nofun
  moveY := nofun
  moves := nofun
  operands := by
    simp [Operation.present, Operation.moved, Operation.binary, Move.present, Move.operands,
      Move.between, hx, wellFormed_accumulator, wellFormed_addressRegister]
  negated := nofun
  conditional := fun _ => ⟨c, rfl⟩
  parallel h := h.elim (absurd rfl) (absurd rfl)
  banks := List.forall_mem_nil _

theorem Repertoire.wellFormed {ext : List Word24} {o : Operation} (h : Repertoire ext o) :
    o.WellFormed := by
  have hdata {space : Space} (hspace : space ∈ dataSpaces) : space ∈ spaces :=
    mem_spaces_of_mem_dataSpaces hspace
  cases h with
  | parallel ho hm => exact ho.wellFormed_withMoves hm
  | plain hop => exact wellFormed_nullary ((by decide : ∀ op ∈ _, op ≠ .unlisted) _ hop)
  | @statusLogic op v r hop hv hr =>
      have hreg : (Operand.reg r).WellFormed := (by decide : [Register.mr, .ccr, .omr] ⊆ _) hr
      exact wellFormed_binary ((by decide : ∀ op ∈ _, op ≠ .unlisted) _ hop) trivial hreg
  | divide n acc =>
      exact wellFormed_binary nofun (wellFormed_inputRegister n) (wellFormed_accumulator acc)
  | normalize r acc =>
      exact wellFormed_binary nofun (wellFormed_addressRegister r) (wellFormed_accumulator acc)
  | transfer c acc hx =>
      exact wellFormed_binary nofun (wellFormed_transferSource hx) (wellFormed_accumulator acc)
  | transferBoth c acc hx r s =>
      exact wellFormed_transferBoth c acc (wellFormed_transferSource hx) r s
  | @loadUpdated mode r s hmode hr hs =>
      have hx : (Operand.indirect mode .none r).WellFormed :=
        ⟨mem_indirectModes_of_mem_updateModes hmode, by decide, Nat.le_of_lt_succ hr⟩
      have hreg : (Operand.reg s).WellFormed := by
        apply Register.mem_of_ne_unlisted
        rcases hs with ⟨k, rfl | rfl⟩ <;> exact nofun
      exact wellFormed_binary nofun hx hreg
  | moveControlRegister load hx hy =>
      exact wellFormed_ordered .movec nofun load hx.wellFormed hy.wellFormed
  | moveControlImmediate hv hy => exact wellFormed_binary nofun trivial hy.wellFormed
  | moveControlMemory hspace hx hy =>
      exact wellFormed_ordered .movec nofun _ (hx.wellFormed (hdata hspace)) hy.wellFormed
  | moveProgram hx hy =>
      exact wellFormed_ordered .movem nofun _ (hx.wellFormed (by decide)) hy.wellFormed
  | movePeripheral hspace hx hspace' ha =>
      have hmem := (by decide : .p :: dataSpaces ⊆ spaces) hspace
      exact wellFormed_ordered .movep nofun _ (hx.wellFormed hmem) (hdata hspace')
  | movePeripheralRegister load hx hspace ha =>
      exact wellFormed_ordered .movep nofun load hx.wellFormed (hdata hspace)
  | rep hx => exact wellFormed_unary nofun hx.wellFormed
  | bit upper value hn hx =>
      have hop : bitOpcode upper value ≠ .unlisted := by
        cases upper <;> cases value <;> exact nofun
      exact wellFormed_binary hop trivial hx.wellFormed
  | targeted h => exact h.wellFormed

theorem decode_operation_wellFormed (words : List Word24) : (decode words).WellFormed := by
  rcases decode_cases words with ⟨code, rest, _, hcode⟩ | hdata
  · exact hcode.repertoire.wellFormed
  · rw [hdata]
    exact wellFormed_nullary nofun

end Dsp56k
end Disassembler
