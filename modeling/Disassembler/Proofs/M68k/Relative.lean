import Disassembler.M68k.Analysis
import Disassembler.Proofs.M68k.Operand
import Disassembler.Proofs.Text.Numeral

/-!
# Operands relative to the program counter

The displacement of such an operand is in its extension words, or in the first
word of a branch, and counts from where these words begin.  The place of the words
follows from what else the operation has in extension words.
-/

namespace Disassembler
namespace M68k

/-! ## Displacements in words -/

/-- The signed word at the front. -/
def signedWord? : List UInt16 -> Option Int
  | w :: _ => some w.toInt16.toInt
  | [] => none

/-- The signed long word at the front. -/
def signedLong? : List UInt16 -> Option Int
  | high :: low :: _ => some (Word32.ofWords high low).toInt32.toInt
  | _ => none

/-- A displacement of the size with the given code in a full extension word. -/
def sizedDisplacement? (code : Nat) (words : List UInt16) : Option Int :=
  match code with
  | 1 => some 0
  | 2 => signedWord? words
  | 3 => signedLong? words
  | _ => none

/-- The displacement of a branch whose first word is `header`.  Without a word of its
own it is the low byte of the first word. -/
def branchDisplacement? (op : Opcode) (header : UInt16) (ext : List UInt16) : Option Int :=
  match op with
  | .loop _ => signedWord? ext
  | _ =>
      match Word16.field header 0 8 with
      | 0 => signedWord? ext
      | 255 => signedLong? ext
      | _ => some (Word16.lowSigned header).toInt

namespace Operand

def isBranch : Operand -> Bool
  | branch _ => true
  | _ => false

/-- Relative to the program counter, which is not suppressed. -/
def isRelative : Operand -> Bool
  | branch _ | pcDisp _ | pcIndexed _ _ => true
  | x => x.fullExt?.any fun e => e.hasBase && e.base == .pc

/-- The displacement in the extension words of an operand that is no branch. -/
def displacement? (x : Operand) (ext : List UInt16) : Option Int :=
  match x with
  | pcDisp _ => signedWord? ext
  | pcIndexed _ _ => ext.head?.map fun w => (Word16.lowSigned w).toInt
  | _ => ext.head?.bind fun w => sizedDisplacement? (Word16.field w 4 2) ext.tail

end Operand

namespace Operation

/-- How many extension words are in front of those of an operand relative to the
program counter: immediate data, a mask of registers, or registers.  A destination in
memory has its words behind them. -/
def wordsBefore (o : Operation) : Nat :=
  match o.opcode with
  | .cmpi => if o.suffix = .long then 2 else 1
  | .btst =>
      match o.first with
      | some (.immediate _) => 1
      | _ => 0
  | .mulu | .muls | .divu | .divs => if o.suffix = .long then 1 else 0
  | .divul | .divsl | .movem | .cmp2 | .chk2 => 1
  | .bftst | .bfextu | .bfexts | .bfffo => 1
  | _ => 0

/-- The byte offset that a displacement counts from. -/
def origin (o : Operation) : Operand -> Nat
  | .branch _ => 2
  | _ => 2 * (1 + o.wordsBefore)

/-- The displacement of an operand in the words of the instruction. -/
def displacement? (o : Operation) (words : List UInt16) : Operand -> Option Int
  | .branch _ => words.head?.bind fun header => branchDisplacement? o.opcode header words.tail
  | x => x.displacement? (words.drop (1 + o.wordsBefore))

end Operation

/-! ## Arithmetic -/

theorem toUInt32_ofInt (n : Int) : (Int32.ofInt n).toUInt32 = UInt32.ofInt n := by
  apply UInt32.toNat_inj.1
  show (BitVec.ofInt 32 n).toNat = (UInt32.ofInt n).toNat
  rw [BitVec.toNat_ofInt, UInt32.ofInt, UInt32.toNat_ofNat']
  omega

theorem relative_ofInt (addr : UInt32) (n : Int) :
    relative addr (Int32.ofInt n) = UInt32.ofInt (addr.toNat + n) := by
  have haddr : UInt32.ofInt addr.toNat = addr := by
    have hlt := addr.toNat_lt
    apply UInt32.toNat_inj.1
    rw [UInt32.ofInt, UInt32.toNat_ofNat']
    omega
  rw [relative, toUInt32_ofInt, UInt32.ofInt_add, haddr]

/-! ## Operands that are kept relative to the instruction -/

namespace Operand

/-- The displacement from the start of the instruction. -/
def relative? : Operand -> Option Int32
  | branch d | pcDisp d | pcIndexed d _ => some d
  | x => x.fullExt?.bind fun e => if e.hasBase && e.base == .pc then some e.baseDisp else none

theorem isSome_relative? {x : Operand} (h : x.isRelative = true) : x.relative?.isSome = true := by
  cases x with
  | postIndexed e | preIndexed e | memoryIndirect e | noMemoryIndirect e =>
      have hpc : (e.hasBase && e.base == .pc) = true := h
      simp only [relative?, fullExt?, Option.bind_some, hpc]
      rfl
  | branch d | pcDisp d | pcIndexed d i => rfl
  | _ => cases h

theorem address?_of_relative? {x : Operand} {d : Int32} (h : x.relative? = some d)
    (addr : UInt32) : x.address? none addr = some (relative addr d) := by
  cases x with
  | postIndexed e | preIndexed e | memoryIndirect e | noMemoryIndirect e =>
      simp only [relative?, fullExt?, Option.bind_some, Option.ite_none_right_eq_some,
        Option.some.injEq] at h
      rcases h with ⟨hpc, rfl⟩
      simp only [Bool.and_eq_true, beq_iff_eq] at hpc
      simp [address?, FullExt.address?, hpc]
  | branch d' | pcDisp d' | pcIndexed d' i =>
      cases h
      simp [address?]
  | _ => cases h

/-- The words are those of the operand, of which the first one is at index `i` of
the instruction. -/
def IsAt (i : Nat) (ext : List UInt16) (x : Operand) : Prop :=
  ∀ d, x.relative? = some d -> x.isBranch = false ∧
    ∃ n, x.displacement? ext = some n ∧ d = Int32.ofInt (2 * i + n)

theorem isAt_of_eq_none {x : Operand} (h : x.relative? = none) (i : Nat) (ext : List UInt16) :
    x.IsAt i ext := by
  intro d hd
  rw [h] at hd
  cases hd

end Operand

theorem signedWord?_append {ext : List UInt16} {n : Int} (h : signedWord? ext = some n)
    (rest : List UInt16) : signedWord? (ext ++ rest) = some n := by
  cases ext with
  | nil => cases h
  | cons w ext => exact h

theorem signedLong?_append {ext : List UInt16} {n : Int} (h : signedLong? ext = some n)
    (rest : List UInt16) : signedLong? (ext ++ rest) = some n := by
  match ext with
  | high :: low :: ext => exact h
  | [_] => cases h
  | [] => cases h

theorem sizedDisplacement?_append {code : Nat} {ext : List UInt16} {n : Int}
    (h : sizedDisplacement? code ext = some n) (rest : List UInt16) :
    sizedDisplacement? code (ext ++ rest) = some n := by
  unfold sizedDisplacement? at h ⊢
  split at h
  · exact h
  · exact signedWord?_append h rest
  · exact signedLong?_append h rest
  · cases h

theorem Operand.displacement?_append {x : Operand} {ext : List UInt16} {n : Int}
    (h : x.displacement? ext = some n) (rest : List UInt16) :
    x.displacement? (ext ++ rest) = some n := by
  unfold displacement? at h ⊢
  cases ext with
  | nil => split at h <;> cases h
  | cons w ext =>
      split at h
      · exact signedWord?_append h rest
      · exact h
      · exact sizedDisplacement?_append h rest

/-- Words after those of the operand do not matter. -/
theorem Operand.IsAt.append {i : Nat} {ext : List UInt16} {x : Operand} (h : x.IsAt i ext)
    (rest : List UInt16) : x.IsAt i (ext ++ rest) := by
  intro d hd
  rcases h d hd with ⟨hbranch, n, hn, rfl⟩
  exact ⟨hbranch, n, displacement?_append hn rest, rfl⟩

/-- No other mode is relative to the program counter. -/
theorem Addressing.relative?_eq_none {cpu : Cpu} {m : Mode} {x : Operand}
    (hx : Addressing cpu m x) (hdisp : m ≠ .pcDisp) (hindex : m ≠ .pcIndex) :
    x.relative? = none := by
  cases hx with
  | pcDisp => exact absurd rfl hdisp
  | pcIndex | pcIndexFull => exact absurd rfl hindex
  | indexFull r h020 hx =>
      cases hx with
      | direct he | preIndexed he h | postIndexed he h | memory he h =>
          simp [Operand.relative?, Operand.fullExt?, he.base_eq, Decoder.Base.toIndexReg]
  | _ => rfl

theorem Accepts.relative?_eq_none {cpu : Cpu} {allowed : Mode -> Bool} {x : Operand}
    (hx : Accepts cpu allowed x) (hallowed : ∀ m, allowed m = true -> m.isAlterable = true) :
    x.relative? = none := by
  rcases hx with ⟨m, hm, hx⟩
  apply hx.relative?_eq_none
  · rintro rfl
    cases hallowed .pcDisp hm
  · rintro rfl
    cases hallowed .pcIndex hm

namespace Decoder

open Fetch (conformsAt_done conformsAt_fail conformsAt_more conformsAt_ensure)
open Word16 (bit field)

/-! ## Where operands are -/

theorem ofInt_add_byteOffset (n : Int) (i : Nat) :
    Int32.ofInt n + byteOffset i = Int32.ofInt (2 * i + n) := by
  have hoffset : byteOffset i = Int32.ofInt (2 * i) := Int32.ofInt_eq_ofNat.symm
  rw [hoffset, Int.add_comm (2 * i), Int32.ofInt_add]

theorem long_conforms : long.Conforms fun ext v => signedLong? ext = some v.toInt32.toInt :=
  Fetch.conforms_more fun _ _ => Fetch.conforms_more fun _ _ => Fetch.conforms_done rfl

theorem displacement_conforms {code : Nat} (hzero : code ≠ 0) (hlt : code < 4) :
    (displacement code).Conforms fun ext d? =>
      ∃ n, sizedDisplacement? code ext = some n ∧ d?.getD 0 = Int32.ofInt n := by
  match code with
  | 1 => exact Fetch.conforms_done ⟨0, rfl, rfl⟩
  | 2 =>
      refine Fetch.conforms_more ?_
      intro i w
      exact Fetch.conforms_done ⟨_, rfl, (Int32.ofInt_int16ToInt _).symm⟩
  | 3 =>
      refine long_conforms.map ?_
      intro ext v hv
      exact ⟨_, hv, (Int32.ofInt_toInt _).symm⟩

theorem indirection_spec {hasIndex : Bool} {selection : Nat} {kind : FullExt -> Operand}
    (h : indirection? hasIndex selection = some kind) (e : FullExt) :
    (kind e).relative? = (if e.hasBase && e.base == .pc then some e.baseDisp else none) ∧
      (∀ ext, (kind e).displacement? ext =
        ext.head?.bind fun w => sizedDisplacement? (field w 4 2) ext.tail) ∧
      (kind e).isBranch = false := by
  unfold indirection? at h
  split at h <;> cases h <;> exact ⟨rfl, fun _ => rfl, rfl⟩

theorem full_isAt (base : Base) (i : Nat) (w : UInt16) :
    (full base (byteOffset i) w).Conforms fun ext x => x.IsAt i (w :: ext) := by
  refine Fetch.conforms_ensure ?_
  intro _
  refine Fetch.conforms_ensure ?_
  intro hcode
  have hzero : field w 4 2 ≠ 0 := by simpa using hcode
  refine (displacement_conforms hzero (bits_lt _ 4 2)).bind ?_
  rintro xs baseDisp? ⟨n, hn, hdisp⟩
  refine (displacement_yields (field w 0 2)).conforms.bind ?_
  intro ys outerDisp? _
  cases hkind : indirection? (!bit w 6) (field w 0 3) with
  | none => exact Fetch.conforms_fail
  | some kind =>
      refine Fetch.conforms_done ?_
      rw [List.append_nil]
      rcases indirection_spec hkind _ with ⟨hrelative, hwords, hbranch⟩
      intro d hd
      rw [hrelative] at hd
      simp only [Option.ite_none_right_eq_some, Bool.and_eq_true, beq_iff_eq] at hd
      rcases hd with ⟨⟨hbase, hpc⟩, hd⟩
      refine ⟨hbranch, n, ?_, ?_⟩
      · rw [hwords]
        exact sizedDisplacement?_append hn ys
      · cases base with
        | addr r => cases hpc
        | pc =>
            rw [← Option.some.inj hd, if_pos ⟨rfl, hbase⟩, hdisp]
            exact ofInt_add_byteOffset n i

theorem brief_isAt (base : Base) (i : Nat) (w : UInt16) :
    (brief base (byteOffset i) w).IsAt i [w] := by
  cases base with
  | addr r => exact Operand.isAt_of_eq_none rfl i [w]
  | pc =>
      intro d hd
      refine ⟨rfl, _, rfl, ?_⟩
      cases hd
      rw [← Int32.ofInt_int8ToInt, Int32.add_comm]
      exact ofInt_add_byteOffset _ i

theorem indexed_isAt (cpu : Cpu) (base : Base) (i : Nat) :
    (indexed cpu base).ConformsAt i fun ext x => x.IsAt i ext := by
  refine conformsAt_more ?_
  intro w
  show (if bit w 8 = true then _ else _ : Decoder Operand).ConformsAt _ _
  split
  · refine conformsAt_ensure ?_
    intro _
    exact full_isAt base i w (i + 1)
  · refine conformsAt_ensure ?_
    intro _
    exact conformsAt_done (brief_isAt base i w)

theorem operand_isAt (cpu : Cpu) (mode : Mode) (reg : Fin 8) (size : Suffix) (i : Nat) :
    (operand cpu mode reg size).ConformsAt i fun ext x => x.IsAt i ext := by
  have hnone (hdisp : mode ≠ .pcDisp) (hindex : mode ≠ .pcIndex) :
      (operand cpu mode reg size).ConformsAt i fun ext x => x.IsAt i ext := by
    refine Fetch.ConformsAt.mono ((operand_yields cpu mode reg size).conforms i) ?_
    intro ext x hx
    exact Operand.isAt_of_eq_none (hx.relative?_eq_none hdisp hindex) i ext
  cases mode with
  | pcDisp =>
      refine conformsAt_more ?_
      intro w
      refine conformsAt_done ?_
      intro d hd
      refine ⟨rfl, _, rfl, ?_⟩
      cases hd
      rw [← Int32.ofInt_int16ToInt, Int32.add_comm]
      exact ofInt_add_byteOffset _ i
  | pcIndex => exact indexed_isAt cpu .pc i
  | _ => exact hnone nofun nofun

theorem effective_isAt (cpu : Cpu) (w : UInt16) (size : Suffix) (allowed : Mode -> Bool)
    (i : Nat) :
    (effective cpu w size allowed).ConformsAt i fun ext x =>
      Accepts cpu allowed x ∧ x.IsAt i ext := by
  intro ext x hreads
  constructor
  · exact (effective_yields cpu w size allowed).conforms i ext x hreads
  · revert ext x
    show (effective cpu w size allowed).ConformsAt i _
    unfold effective operandOf
    split
    · split
      · exact operand_isAt cpu _ _ size i
      · exact conformsAt_fail
    · exact conformsAt_fail

end Decoder

end M68k
end Disassembler
