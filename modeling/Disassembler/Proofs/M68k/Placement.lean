import Disassembler.Proofs.M68k.Destination
import Disassembler.Proofs.M68k.Relative

/-!
# Where relative operands are placed

After each first word, an operand relative to the program counter comes after as
many extension words as its operation says.  So it refers to the address that its
displacement gives from there.
-/

namespace Disassembler
namespace M68k

/-! ## Where the operands of an operation are -/

namespace Operation

/-- The displacement of the operand is in the words, if it has one. -/
def Places (o : Operation) (words : List UInt16) (x : Operand) : Prop :=
  ∀ d, x.relative? = some d ->
    ∃ n, o.displacement? words x = some n ∧ d = Int32.ofInt (o.origin x + n)

theorem places_of_eq_none {o : Operation} {words : List UInt16} {x : Operand}
    (h : x.relative? = none) : o.Places words x := by
  intro d hd
  rw [h] at hd
  cases hd

theorem places_of_isAt {o : Operation} {words : List UInt16} {x : Operand}
    (h : x.IsAt (1 + o.wordsBefore) (words.drop (1 + o.wordsBefore))) : o.Places words x := by
  intro d hd
  rcases h d hd with ⟨hbranch, n, hn, rfl⟩
  refine ⟨n, ?_, ?_⟩
  · cases x with
    | branch b => cases hbranch
    | _ => exact hn
  · cases x with
    | branch b => cases hbranch
    | _ => rfl

end Operation

namespace Decoder

open Fetch (conformsAt_done conformsAt_fail conformsAt_more conformsAt_ensure)
open Operation (forall_unary forall_binary forall_ternary)
open Word16 (bit field)

/-- No operand is relative to the program counter. -/
def Absolute (d : Decoder Operation) : Prop :=
  d.Conforms fun _ o => ∀ x ∈ o.present, x.relative? = none

/-- Operands are where they are expected after the first word. -/
def Placed (w : UInt16) (d : Decoder Operation) : Prop :=
  d.ConformsAt 1 fun ext o => ∀ x ∈ o.present, o.Places (w :: ext) x

theorem Absolute.conformsAt {d : Decoder Operation} (h : Absolute d) (i : Nat)
    (words : List UInt16 -> List UInt16) :
    d.ConformsAt i fun ext o => ∀ x ∈ o.present, o.Places (words ext) x := by
  refine Fetch.ConformsAt.mono (h i) ?_
  intro ext o ho x hx
  exact Operation.places_of_eq_none (ho x hx)

theorem Absolute.placed {d : Decoder Operation} (h : Absolute d) (w : UInt16) : Placed w d :=
  h.conformsAt 1 (w :: ·)

theorem absolute_done {o : Operation} (h : ∀ x ∈ o.present, x.relative? = none) :
    Absolute (.done o) :=
  Fetch.conforms_done h

theorem absolute_next {f : UInt16 -> Decoder Operation} (h : ∀ ext, Absolute (f ext)) :
    Absolute (Fetch.next.bind f) :=
  Fetch.conforms_more fun _ ext => h ext

section

variable {cpu : Cpu} {w : UInt16} {size : Suffix} {allowed : Mode -> Bool}

/-- An effective address that is not relative to the program counter. -/
theorem absolute_effective {f : Operand -> Operation}
    (hallowed : ∀ m, allowed m = true -> m.isAlterable = true)
    (hf : ∀ x, x.relative? = none -> ∀ y ∈ (f x).present, y.relative? = none) :
    Absolute ((effective cpu w size allowed).bind fun x => .done (f x)) := by
  refine (effective_yields cpu w size allowed).conforms.map ?_
  intro ext x hx
  exact hf x (hx.relative?_eq_none hallowed)

/-- An effective address after some words. -/
theorem effective_placed (before : List UInt16) {f : Operand -> Operation}
    (hf : ∀ x, Accepts cpu allowed x -> (f x).wordsBefore = before.length ∧
      ∀ y ∈ (f x).present, y = x ∨ y.relative? = none) :
    ((effective cpu w size allowed).bind fun x => .done (f x)).ConformsAt (1 + before.length)
      fun ext o => ∀ y ∈ o.present, o.Places (w :: (before ++ ext)) y := by
  refine (effective_isAt cpu w size allowed _).bind ?_
  rintro ext x ⟨hx, hat⟩
  refine conformsAt_done ?_
  intro y hy
  rcases hf x hx with ⟨hbefore, hpresent⟩
  rcases hpresent y hy with rfl | hnone
  · apply Operation.places_of_isAt
    rw [hbefore, List.append_nil, Nat.add_comm 1, List.drop_succ_cons, List.drop_left,
      Nat.add_comm]
    exact hat
  · exact Operation.places_of_eq_none hnone

end

/-! ## The digit 0 -/

theorem registerOf_relative? (n : Nat) : (registerOf n).relative? = none := by
  unfold registerOf
  split <;> rfl

theorem bounds_placed (cpu : Cpu) (w : UInt16) : Placed w (bounds cpu w) := by
  have hbody (size : Suffix) :
      Placed w (Fetch.next.bind fun ext => (effective cpu w size Mode.isControl).bind fun src =>
        .done (.binary (if bit ext 11 then Opcode.chk2 else Opcode.cmp2) size src
          (registerOf (field ext 12 4)))) := by
    refine conformsAt_more ?_
    intro ext
    apply effective_placed [ext]
    intro x _
    constructor
    · cases bit ext 11 <;> rfl
    · exact forall_binary (Or.inl rfl) (Or.inr (registerOf_relative? _))
  refine conformsAt_ensure ?_
  intro _
  dsimp only
  split
  · exact hbody .byte
  · exact hbody .word
  · exact hbody .long
  · exact conformsAt_fail

theorem compareSwap_absolute (cpu : Cpu) (w : UInt16) : Absolute (compareSwap cpu w) := by
  have hbody (size : Suffix) :
      Absolute (if field w 0 6 = 0x3c then
        (Fetch.ensure (size != .byte)).bind fun _ => compareSwap2 size
      else Fetch.next.bind fun ext =>
        (effective cpu w size Mode.isMemoryAlterable).bind fun dst =>
          .done (.ternary .cas size (dataRegOf ext 0) (dataRegOf ext 6) dst)) := by
    split
    · refine Fetch.conforms_ensure ?_
      intro _
      refine absolute_next ?_
      intro ext1
      refine absolute_next ?_
      intro ext2
      exact absolute_done (forall_ternary rfl rfl rfl)
    · refine absolute_next ?_
      intro ext
      apply absolute_effective isAlterable_of_isMemoryAlterable
      intro x hx
      exact forall_ternary rfl rfl hx
  refine Fetch.conforms_ensure ?_
  intro _
  dsimp only
  split
  · exact hbody .byte
  · exact hbody .word
  · exact hbody .long
  · exact Fetch.conforms_fail

theorem immediate_conforms (size : Suffix) :
    (immediate size).Conforms fun ext x =>
      IsImmediate x ∧ ext.length = if size = .long then 2 else 1 := by
  cases size with
  | long =>
      refine Fetch.conforms_more ?_
      intro i high
      refine Fetch.conforms_more ?_
      intro j low
      exact Fetch.conforms_done ⟨⟨_, rfl⟩, rfl⟩
  | _ =>
      refine Fetch.conforms_more ?_
      intro i ext
      exact Fetch.conforms_done ⟨⟨_, rfl⟩, rfl⟩

theorem immediateSized_placed (cpu : Cpu) (w : UInt16) (op : Opcode) (size : Suffix) :
    Placed w (immediateSized cpu w op size) := by
  refine ((immediate_conforms size).conformsAt 1).bind ?_
  rintro before x ⟨⟨v, rfl⟩, hlength⟩
  split
  · split
    · exact (absolute_done (forall_binary rfl rfl)).conformsAt _ _
    · exact (absolute_done (forall_binary rfl rfl)).conformsAt _ _
    · exact conformsAt_fail
  · by_cases hop : op = .cmpi
    · apply effective_placed before
      intro x _
      rw [hop]
      exact ⟨hlength.symm, forall_binary (Or.inr rfl) (Or.inl rfl)⟩
    · apply Absolute.conformsAt
      apply absolute_effective
      · intro m hm
        rw [immediateTarget, if_neg fun h => hop h.1] at hm
        exact isAlterable_of_isDataAlterable m hm
      · intro x hx
        exact forall_binary rfl hx

theorem immediateOp_placed (cpu : Cpu) (w : UInt16) (op : Opcode) :
    Placed w (immediateOp cpu w op) := by
  unfold immediateOp
  split
  · exact immediateSized_placed cpu w op _
  · unfold immediateUnsized
    split
    · exact bounds_placed cpu w
    · exact bounds_placed cpu w
    · exact bounds_placed cpu w
    · exact (compareSwap_absolute cpu w).placed w
    · exact (compareSwap_absolute cpu w).placed w
    · exact conformsAt_fail

theorem bitStatic_placed (cpu : Cpu) (w : UInt16) : Placed w (bitStatic cpu w) := by
  refine conformsAt_more ?_
  intro n
  by_cases hop : bitOpcode w = .btst
  · apply effective_placed [n]
    intro x _
    rw [hop]
    exact ⟨rfl, forall_binary (Or.inr rfl) (Or.inl rfl)⟩
  · apply Absolute.conformsAt
    apply absolute_effective
    · intro m hm
      rw [if_neg hop] at hm
      exact isAlterable_of_isDataAlterable m hm
    · intro x hx
      exact forall_binary rfl hx

theorem bitDynamic_placed (cpu : Cpu) (w : UInt16) : Placed w (bitDynamic cpu w) := by
  by_cases hop : bitOpcode w = .btst
  · apply effective_placed []
    intro x _
    rw [hop]
    exact ⟨rfl, forall_binary (Or.inr rfl) (Or.inl rfl)⟩
  · apply Absolute.placed
    apply absolute_effective
    · intro m hm
      rw [if_neg hop] at hm
      exact isAlterable_of_isDataAlterable m hm
    · intro x hx
      exact forall_binary rfl hx

theorem movePeripheral_absolute (w : UInt16) : Absolute (movePeripheral w) := by
  refine absolute_next ?_
  intro disp
  apply absolute_done
  split <;> exact forall_binary rfl rfl

theorem moveSpace_absolute (cpu : Cpu) (w : UInt16) : Absolute (moveSpace cpu w) := by
  refine Fetch.conforms_ensure ?_
  intro _
  split
  · exact Fetch.conforms_fail
  · refine absolute_next ?_
    intro ext
    apply absolute_effective isAlterable_of_isMemoryAlterable
    intro x hx
    split
    · exact forall_binary (registerOf_relative? _) hx
    · exact forall_binary hx (registerOf_relative? _)

theorem line0_placed (cpu : Cpu) (w : UInt16) : Placed w (line0 cpu w) := by
  unfold line0
  split
  · split
    · exact (movePeripheral_absolute w).placed w
    · exact bitDynamic_placed cpu w
  · split
    · exact immediateOp_placed cpu w .ori
    · exact immediateOp_placed cpu w .andi
    · exact immediateOp_placed cpu w .subi
    · exact immediateOp_placed cpu w .addi
    · exact bitStatic_placed cpu w
    · exact immediateOp_placed cpu w .eori
    · exact immediateOp_placed cpu w .cmpi
    · split
      · exact (compareSwap_absolute cpu w).placed w
      · exact (moveSpace_absolute cpu w).placed w

/-! ## Moves -/

theorem moveSized_placed (cpu : Cpu) (w : UInt16) (size : Suffix) :
    Placed w (moveSized cpu w size) := by
  refine (effective_isAt cpu w size _ 1).bind ?_
  rintro ext x ⟨_, hat⟩
  -- The words of the destination come after those of the source.
  have hsource (o : Operation) (hbefore : o.wordsBefore = 0) (rest : List UInt16) :
      o.Places (w :: (ext ++ rest)) x := by
    apply Operation.places_of_isAt
    rw [hbefore]
    exact hat.append rest
  split
  · refine conformsAt_ensure ?_
    intro _
    refine conformsAt_done ?_
    exact forall_binary (hsource _ rfl _) (Operation.places_of_eq_none rfl)
  · refine ((operandOf_yields cpu _ _ size _).conforms.conformsAt _).bind ?_
    intro ext' y hy
    refine conformsAt_done ?_
    have hnone := hy.relative?_eq_none isAlterable_of_isDataAlterable
    exact forall_binary (hsource _ rfl _) (Operation.places_of_eq_none hnone)

theorem moveMultiple_placed (cpu : Cpu) (w : UInt16) : Placed w (moveMultiple cpu w) := by
  refine conformsAt_more ?_
  intro mask
  show (if bit w 10 = true then _ else _ : Decoder Operation).ConformsAt _ _
  split
  · apply effective_placed [mask]
    intro x _
    exact ⟨rfl, forall_binary (Or.inl rfl) (Or.inr rfl)⟩
  · apply effective_placed [mask]
    intro x _
    exact ⟨rfl, forall_binary (Or.inr rfl) (Or.inl rfl)⟩

theorem moveControl_absolute (cpu : Cpu) (w : UInt16) : Absolute (moveControl cpu w) := by
  refine Fetch.conforms_ensure ?_
  intro _
  refine absolute_next ?_
  intro ext
  refine Fetch.conforms_ensure ?_
  intro _
  apply absolute_done
  split
  · exact forall_binary (registerOf_relative? _) rfl
  · exact forall_binary rfl (registerOf_relative? _)

/-! ## Arithmetic and logic -/

theorem registerOrPreDec_absolute (w : UInt16) (op : Opcode) (size : Suffix) :
    ∀ x ∈ (registerOrPreDec w op size).present, x.relative? = none := by
  unfold registerOrPreDec
  split <;> exact forall_binary rfl rfl

theorem packed_absolute (cpu : Cpu) (w : UInt16) (op : Opcode) : Absolute (packed cpu w op) := by
  refine Fetch.conforms_ensure ?_
  intro _
  refine absolute_next ?_
  intro adjustment
  apply absolute_done
  unfold registerOrPreDec
  split <;> exact forall_ternary rfl rfl rfl

/-- An effective address with nothing before it, and a register. -/
theorem load_placed {cpu : Cpu} {w : UInt16} {op : Opcode} {size suffix : Suffix} {y : Operand}
    {allowed : Mode -> Bool} (hop : ∀ x, (Operation.binary op suffix x y).wordsBefore = 0)
    (hy : y.relative? = none) :
    Placed w ((effective cpu w size allowed).bind fun x => .done (.binary op suffix x y)) := by
  apply effective_placed []
  intro x _
  exact ⟨hop x, forall_binary (Or.inl rfl) (Or.inr hy)⟩

/-- A register and an effective address that is written to. -/
theorem store_absolute {cpu : Cpu} {w : UInt16} {op : Opcode} {size : Suffix} {x : Operand}
    {allowed : Mode -> Bool} (hallowed : ∀ m, allowed m = true -> m.isAlterable = true)
    (hx : x.relative? = none) :
    Absolute ((effective cpu w size allowed).bind fun y => .done (.binary op size x y)) := by
  apply absolute_effective hallowed
  intro y hy
  exact forall_binary hx hy

theorem logic_placed (cpu : Cpu) (w : UInt16) {op : Opcode}
    (hop : ∀ size x y, (Operation.binary op size x y).wordsBefore = 0) :
    Placed w (logic cpu w op) := by
  unfold logic
  split
  · exact conformsAt_fail
  · split
    · exact (store_absolute isAlterable_of_isMemoryAlterable rfl).placed w
    · exact load_placed (fun x => hop _ x _) rfl

theorem line8_placed (cpu : Cpu) (w : UInt16) : Placed w (line8 cpu w) := by
  have hor : Placed w (logic cpu w .or) := logic_placed cpu w fun _ _ _ => rfl
  unfold line8
  dsimp only
  split
  · exact load_placed (fun _ => rfl) rfl
  · exact load_placed (fun _ => rfl) rfl
  · split
    · exact (absolute_done (registerOrPreDec_absolute w _ _)).placed w
    · exact hor
  · split
    · exact (packed_absolute cpu w _).placed w
    · exact hor
  · split
    · exact (packed_absolute cpu w _).placed w
    · exact hor
  · exact hor

theorem lineC_placed (cpu : Cpu) (w : UInt16) : Placed w (lineC cpu w) := by
  have hexchange {x y : Operand} (hx : x.relative? = none) (hy : y.relative? = none) :
      Placed w (.done (.binary .exg .none x y)) :=
    (absolute_done (forall_binary hx hy)).placed w
  unfold lineC
  split
  · exact hexchange rfl rfl
  · exact hexchange rfl rfl
  · exact hexchange rfl rfl
  · exact load_placed (fun _ => rfl) rfl
  · exact load_placed (fun _ => rfl) rfl
  · exact (absolute_done (registerOrPreDec_absolute w _ _)).placed w
  · exact (absolute_done (registerOrPreDec_absolute w _ _)).placed w
  · exact logic_placed cpu w fun _ _ _ => rfl

theorem addSub_placed (cpu : Cpu) (w : UInt16) {op opAddr : Opcode} (opExtend : Opcode)
    (hop : ∀ size x y, (Operation.binary op size x y).wordsBefore = 0)
    (haddr : ∀ size x y, (Operation.binary opAddr size x y).wordsBefore = 0) :
    Placed w (addSub cpu w op opAddr opExtend) := by
  unfold addSub
  split
  · exact load_placed (fun x => haddr _ x _) rfl
  · split
    · split
      · exact (absolute_done (registerOrPreDec_absolute w _ _)).placed w
      · exact (store_absolute isAlterable_of_isMemoryAlterable rfl).placed w
    · exact load_placed (fun x => hop _ x _) rfl

theorem lineB_placed (cpu : Cpu) (w : UInt16) : Placed w (lineB cpu w) := by
  unfold lineB
  split
  · exact load_placed (fun _ => rfl) rfl
  · split
    · split
      · exact (absolute_done (forall_binary rfl rfl)).placed w
      · exact (store_absolute isAlterable_of_isDataAlterable rfl).placed w
    · exact load_placed (fun _ => rfl) rfl

/-- The extension word of a long multiplication or division is before the effective
address. -/
theorem longExtension_placed {cpu : Cpu} {w : UInt16} {f : UInt16 -> Operand -> Operation}
    (hf : ∀ ext x, (f ext x).wordsBefore = 1 ∧
      ∀ y ∈ (f ext x).present, y = x ∨ y.relative? = none) :
    Placed w ((longExtension cpu).bind fun ext =>
      (effective cpu w .long Mode.isData).bind fun x => .done (f ext x)) := by
  have hext : (longExtension cpu).ConformsAt 1 fun words _ => words.length = 1 := by
    refine conformsAt_ensure ?_
    intro _
    refine conformsAt_more ?_
    intro ext
    refine conformsAt_ensure ?_
    intro _
    exact conformsAt_done rfl
  refine hext.bind ?_
  intro before ext hbefore
  apply effective_placed before
  intro x _
  rw [hbefore]
  exact hf ext x

theorem multiplyLong_placed (cpu : Cpu) (w : UInt16) : Placed w (multiplyLong cpu w) := by
  apply longExtension_placed
  intro ext x
  cases bit ext 11 <;> split <;> exact ⟨rfl, forall_binary (Or.inl rfl) (Or.inr rfl)⟩

theorem divideLong_placed (cpu : Cpu) (w : UInt16) : Placed w (divideLong cpu w) := by
  apply longExtension_placed
  intro ext x
  cases bit ext 11 <;> split
  · exact ⟨rfl, forall_binary (Or.inl rfl) (Or.inr rfl)⟩
  · split <;> exact ⟨rfl, forall_binary (Or.inl rfl) (Or.inr rfl)⟩
  · exact ⟨rfl, forall_binary (Or.inl rfl) (Or.inr rfl)⟩
  · split <;> exact ⟨rfl, forall_binary (Or.inl rfl) (Or.inr rfl)⟩

/-! ## Branches, loops and quick arithmetic -/

theorem places_branch {o : Operation} {w : UInt16} {ext : List UInt16} {n : Int} {d : Int32}
    (hn : branchDisplacement? o.opcode w ext = some n) (hd : d = Int32.ofInt n + byteOffset 1) :
    o.Places (w :: ext) (.branch d) := by
  intro d' hd'
  cases hd'
  refine ⟨n, hn, ?_⟩
  rw [hd]
  exact ofInt_add_byteOffset n 1

/-- A branch has its displacement in its first word, unless that has one of two
special values there. -/
theorem branchDisplacement?_branchOpcode (n : Nat) (w : UInt16) (ext : List UInt16) :
    branchDisplacement? (branchOpcode n) w ext =
      match field w 0 8 with
      | 0 => signedWord? ext
      | 255 => signedLong? ext
      | _ => some (Word16.lowSigned w).toInt := by
  unfold branchOpcode
  split <;> rfl

theorem line6_placed (cpu : Cpu) (w : UInt16) : Placed w (line6 cpu w) := by
  unfold line6
  dsimp only
  split
  · rename_i hlow
    refine conformsAt_more ?_
    intro ext
    refine conformsAt_done ?_
    apply forall_unary
    apply places_branch
    · show branchDisplacement? (branchOpcode _) _ _ = _
      rw [branchDisplacement?_branchOpcode, hlow]
      rfl
    · rw [Int32.ofInt_int16ToInt, Int32.add_comm]
  · rename_i hlow
    refine conformsAt_ensure ?_
    intro _
    refine conformsAt_more ?_
    intro high
    refine conformsAt_more ?_
    intro low
    refine conformsAt_done ?_
    apply forall_unary
    apply places_branch
    · show branchDisplacement? (branchOpcode _) _ _ = _
      rw [branchDisplacement?_branchOpcode, hlow]
      rfl
    · rw [Int32.ofInt_toInt, Int32.add_comm]
  · rename_i hword hlong
    refine conformsAt_done ?_
    apply forall_unary
    apply places_branch
    · show branchDisplacement? (branchOpcode _) _ _ = _
      rw [branchDisplacement?_branchOpcode]
      split
      · exact absurd (by assumption) hword
      · exact absurd (by assumption) hlong
      · rfl
    · rw [Int32.ofInt_int8ToInt, Int32.add_comm]

theorem trapOnCondition_absolute (cpu : Cpu) (w : UInt16) (c : Condition) :
    Absolute (trapOnCondition cpu w c) := by
  have himmediate (size : Suffix) : Absolute ((immediate size).bind fun x =>
      .done (.unary (.trapOn c) size x)) := by
    refine (immediate_conforms size).map ?_
    rintro ext x ⟨⟨v, rfl⟩, _⟩
    exact forall_unary rfl
  refine Fetch.conforms_ensure ?_
  intro _
  split
  · exact himmediate .word
  · exact himmediate .long
  · exact absolute_done (List.forall_mem_nil _)

theorem conditional_placed (cpu : Cpu) (w : UInt16) : Placed w (conditional cpu w) := by
  unfold conditional
  dsimp only
  split
  · refine conformsAt_more ?_
    intro disp
    refine conformsAt_done ?_
    apply forall_binary
    · exact Operation.places_of_eq_none rfl
    · apply places_branch rfl
      rw [Int32.ofInt_int16ToInt, Int32.add_comm]
  · split
    · exact (trapOnCondition_absolute cpu w _).placed w
    · apply Absolute.placed
      apply absolute_effective isAlterable_of_isDataAlterable
      intro x hx
      exact forall_unary hx

theorem line5_placed (cpu : Cpu) (w : UInt16) : Placed w (line5 cpu w) := by
  unfold line5
  split
  · exact conditional_placed cpu w
  · apply Absolute.placed
    apply store_absolute
    · intro m hm
      simp only [Bool.and_eq_true] at hm
      exact hm.1
    · rfl

/-! ## Shifts and bit fields -/

theorem bitfield_placed (cpu : Cpu) (w : UInt16) : Placed w (bitfield cpu w) := by
  refine conformsAt_ensure ?_
  intro _
  refine conformsAt_more ?_
  intro ext
  have hchange {op : Opcode} (hop : op.writes = true) {f : Operand -> Operation}
      (hf : ∀ x, x.relative? = none -> ∀ y ∈ (f x).present, y.relative? = none) :
      ((effective cpu w .none (bitfieldTarget op)).bind fun x => .done (f x)).ConformsAt 2
        fun ext' o => ∀ x ∈ o.present, o.Places (w :: ext :: ext') x :=
    Absolute.conformsAt
      (absolute_effective (fun _ hm => isAlterable_of_bitfieldTarget hm hop) hf) 2 (w :: ext :: ·)
  have hread {op : Opcode} {f : Operand -> Operation} (hf : ∀ x, (f x).wordsBefore = 1 ∧
      ∀ y ∈ (f x).present, y = x ∨ y.relative? = none) :
      ((effective cpu w .none (bitfieldTarget op)).bind fun x => .done (f x)).ConformsAt 2
        fun ext' o => ∀ x ∈ o.present, o.Places (w :: ext :: ext') x :=
    effective_placed [ext] fun x _ => hf x
  unfold bitfieldOpcode
  dsimp only
  split
  · exact hread fun x => ⟨rfl, forall_unary (Or.inl rfl)⟩
  · exact hread fun x => ⟨rfl, forall_binary (Or.inl rfl) (Or.inr rfl)⟩
  · exact hchange rfl fun x hx => forall_unary hx
  · exact hread fun x => ⟨rfl, forall_binary (Or.inl rfl) (Or.inr rfl)⟩
  · exact hchange rfl fun x hx => forall_unary hx
  · exact hread fun x => ⟨rfl, forall_binary (Or.inl rfl) (Or.inr rfl)⟩
  · exact hchange rfl fun x hx => forall_unary hx
  · exact hchange rfl fun x hx => forall_binary rfl hx

theorem lineE_placed (cpu : Cpu) (w : UInt16) : Placed w (lineE cpu w) := by
  unfold lineE
  split
  · split
    · exact bitfield_placed cpu w
    · apply Absolute.placed
      apply absolute_effective isAlterable_of_isMemoryAlterable
      intro x hx
      exact forall_unary hx
  · apply Absolute.placed
    apply absolute_done
    apply forall_binary
    · split <;> rfl
    · rfl

/-! ## The digit 4 -/

theorem immediate_absolute {size : Suffix} {f : Operand -> Operation}
    (hf : ∀ x, x.relative? = none -> ∀ y ∈ (f x).present, y.relative? = none) :
    Absolute ((immediate size).bind fun x => .done (f x)) := by
  refine (immediate_conforms size).map ?_
  rintro ext x ⟨⟨v, rfl⟩, _⟩
  exact hf _ rfl

theorem fixed_absolute {cpu : Cpu} {w : UInt16} {d : Decoder Operation}
    (h : fixed? cpu w = some d) : Absolute d := by
  have hplain (op : Opcode) : Absolute (.done (.nullary op .none)) :=
    absolute_done (List.forall_mem_nil _)
  unfold fixed? at h
  split at h <;> cases h
  · exact hplain .illegal
  · exact hplain .reset
  · exact hplain .nop
  · exact immediate_absolute fun x hx => forall_unary hx
  · exact hplain .rte
  · refine Fetch.conforms_ensure ?_
    intro _
    exact immediate_absolute fun x hx => forall_unary hx
  · exact hplain .rts
  · exact hplain .trapv
  · exact hplain .rtr
  · exact moveControl_absolute cpu w
  · exact moveControl_absolute cpu w

theorem numbered_absolute {cpu : Cpu} {w : UInt16} {d : Decoder Operation}
    (h : numbered? cpu w = some d) : Absolute d := by
  unfold numbered? at h
  dsimp only at h
  split at h <;> cases h
  case h_3 => exact immediate_absolute fun x hx => forall_binary rfl hx
  case h_4 =>
    refine Fetch.conforms_ensure ?_
    intro _
    exact immediate_absolute fun x hx => forall_binary rfl hx
  case h_6 => exact absolute_done (forall_binary rfl rfl)
  case h_7 => exact absolute_done (forall_binary rfl rfl)
  case h_9 =>
    refine Fetch.conforms_ensure ?_
    intro _
    exact absolute_done (forall_unary rfl)
  case h_12 =>
    refine Fetch.conforms_ensure ?_
    intro _
    exact absolute_done (forall_unary rfl)
  all_goals exact absolute_done (forall_unary rfl)

/-- An instruction with nothing but an effective address. -/
theorem single_placed (cpu : Cpu) (w : UInt16) {op : Opcode} {size : Suffix}
    {allowed : Mode -> Bool} (hop : ∀ x, (Operation.unary op size x).wordsBefore = 0) :
    Placed w (single cpu w op size allowed) := by
  apply effective_placed []
  intro x _
  exact ⟨hop x, forall_unary (Or.inl rfl)⟩

theorem addressed_placed {cpu : Cpu} {w : UInt16} {d : Decoder Operation}
    (h : addressed? cpu w = some d) : Placed w d := by
  unfold addressed? at h
  split at h <;> cases h
  · exact single_placed cpu w fun _ => rfl
  · exact single_placed cpu w fun _ => rfl
  · exact single_placed cpu w fun _ => rfl
  · exact single_placed cpu w fun _ => rfl
  · exact single_placed cpu w fun _ => rfl
  · exact (store_absolute isAlterable_of_isDataAlterable rfl).placed w
  · refine conformsAt_ensure ?_
    intro _
    exact (store_absolute isAlterable_of_isDataAlterable rfl).placed w
  · exact load_placed (fun _ => rfl) rfl
  · exact load_placed (fun _ => rfl) rfl
  · exact multiplyLong_placed cpu w
  · exact divideLong_placed cpu w
  · exact moveMultiple_placed cpu w
  · exact moveMultiple_placed cpu w
  · exact moveMultiple_placed cpu w
  · exact moveMultiple_placed cpu w

theorem check_placed (cpu : Cpu) (w : UInt16) (size : Suffix) : Placed w (check cpu w size) := by
  unfold check
  exact load_placed (fun _ => rfl) rfl

theorem checked_placed {cpu : Cpu} {w : UInt16} {d : Decoder Operation}
    (h : checked? cpu w = some d) : Placed w d := by
  unfold checked? at h
  split at h <;> cases h
  · exact load_placed (fun _ => rfl) rfl
  · exact check_placed cpu w .word
  · refine conformsAt_ensure ?_
    intro _
    exact check_placed cpu w .long

theorem sizedSingle_placed (cpu : Cpu) (w : UInt16) : Placed w (sizedSingle cpu w) := by
  unfold sizedSingle
  split
  case h_6 => exact conformsAt_fail
  all_goals exact single_placed cpu w fun _ => rfl

theorem line4_placed (cpu : Cpu) (w : UInt16) : Placed w (line4 cpu w) := by
  unfold line4
  cases hfixed : fixed? cpu w with
  | some d => exact (fixed_absolute hfixed).placed w
  | none =>
      cases hnumbered : numbered? cpu w with
      | some d => exact (numbered_absolute hnumbered).placed w
      | none =>
          cases haddressed : addressed? cpu w with
          | some d => exact addressed_placed haddressed
          | none =>
              cases hchecked : checked? cpu w with
              | some d => exact checked_placed hchecked
              | none => exact sizedSingle_placed cpu w

/-! ## The line -/

theorem line_placed (cpu : Cpu) (w : UInt16) : Placed w (line cpu w) := by
  unfold line
  split
  · exact line0_placed cpu w
  · exact moveSized_placed cpu w .byte
  · exact moveSized_placed cpu w .long
  · exact moveSized_placed cpu w .word
  · exact line4_placed cpu w
  · exact line5_placed cpu w
  · exact line6_placed cpu w
  · refine conformsAt_ensure ?_
    intro _
    exact (absolute_done (forall_binary rfl rfl)).placed w
  · exact line8_placed cpu w
  · exact addSub_placed cpu w .subx (fun _ _ _ => rfl) fun _ _ _ => rfl
  · exact lineB_placed cpu w
  · exact lineC_placed cpu w
  · exact addSub_placed cpu w .addx (fun _ _ _ => rfl) fun _ _ _ => rfl
  · exact lineE_placed cpu w
  · exact conformsAt_fail

end Decoder

end M68k
end Disassembler
