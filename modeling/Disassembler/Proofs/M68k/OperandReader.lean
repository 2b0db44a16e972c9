import Disassembler.Proofs.M68k.RegisterList

/-!
# Reading operands

A reader for the operands that there are without the extensions of the 68020.
It takes an operand from the front of a text, and finds the one that the text
was printed from.  What a text says depends on where it stands: in a branch an
address is the target, and in a multiple move registers make up a list.
-/

namespace Disassembler
namespace M68k
namespace Reader

open Number

/-! ## Operands -/

/-- Read an index register with its size and the parenthesis after it. -/
def readIndex : List Char -> Option (Index × List Char)
  | bank :: c :: '.' :: size :: ')' :: s =>
      let reg := IndexReg.ofNumber (RegList.bankStart bank + digit c)
      some ({ reg, long := size = 'l', scale := 0 }, s)
  | _ => none

def displacementTo (addr : UInt32) (n : Int) : Int32 :=
  (UInt32.ofNat n.toNat - addr).toInt32

/-- Read what follows the number of a displacement or an address. -/
def readAddress (addr : UInt32) (n : Int) : List Char -> Option (Operand × List Char)
  | '.' :: 'w' :: s => some (.absWord (.ofNat n.toNat), s)
  | '(' :: 'p' :: 'c' :: ')' :: s => some (.pcDisp (displacementTo addr n), s)
  | '(' :: 'p' :: 'c' :: ',' :: s =>
      (readIndex s).map fun r => (.pcIndexed (displacementTo addr n) r.1, r.2)
  | '(' :: 'a' :: c :: ')' :: s => some (.disp16 (digit c) (.ofInt n), s)
  | '(' :: 'a' :: c :: ',' :: s =>
      (readIndex s).map fun r => (.indexed (digit c) (.ofInt n) r.1, r.2)
  | s => some (.absLong (.ofNat n.toNat), s)

/-- Read an operand that is spelled alike everywhere. -/
def readPlain (addr : UInt32) : List Char -> Option (Operand × List Char)
  | 'd' :: c :: s => some (.dataReg (digit c), s)
  | 'a' :: c :: s => some (.addrReg (digit c), s)
  | '(' :: 'a' :: c :: ')' :: '+' :: s => some (.postInc (digit c), s)
  | '(' :: 'a' :: c :: ')' :: s => some (.indirect (digit c), s)
  | '-' :: '(' :: 'a' :: c :: ')' :: s => some (.preDec (digit c), s)
  | '#' :: s => some (.immediate (.ofNat (readNumber s).1.toNat), (readNumber s).2)
  | 's' :: 'r' :: s => some (.sr, s)
  | 'c' :: 'c' :: 'r' :: s => some (.ccr, s)
  | 'u' :: 's' :: 'p' :: s => some (.usp, s)
  | s => readAddress addr (readNumber s).1 (readNumber s).2

/-- What the operands of an opcode can be, besides those that are spelled alike
everywhere. -/
inductive Context where
  | general
  | list
  | control
  | target
  deriving DecidableEq

/-- An address is the target of a branch. -/
def asTarget (addr : UInt32) : Operand -> Operand
  | .absLong a => .branch (a - addr).toInt32
  | x => x

def controlRegOf? (name : List Char) : Option UInt16 :=
  (Decoder.controlRegNames.find? fun r => r.2.toList == name).map Prod.fst

/-- Read an operand where it stands. -/
def readOperand (k : Context) (addr : UInt32) (s : List Char) : Option (Operand × List Char) :=
  let word := s.takeWhile (· != ',')
  let rest := s.dropWhile (· != ',')
  match k with
  | .general => readPlain addr s
  | .target => (readPlain addr s).map fun r => (asTarget addr r.1, r.2)
  | .control =>
      match controlRegOf? word with
      | some code => some (.controlReg code, rest)
      | none => readPlain addr s
  | .list =>
      if s.head?.all (· ∈ [',', 'd', 'a']) then some (.regList (RegList.readMask word), rest)
      else readPlain addr s

/-! ## Reading numbers -/

/-- The end of an operand. -/
inductive AtComma : List Char -> Prop
  | nil : AtComma []
  | comma (s : List Char) : AtComma (',' :: s)

theorem AtComma.afterNumber {s : List Char} (h : AtComma s) : AfterNumber s := by
  cases h with
  | nil => simp [AfterNumber]
  | comma s =>
      intro c hc
      cases hc
      decide

/-! ## Reading addresses -/

/-- Nothing but a number begins like one. -/
theorem readPlain_numberStart (addr : UInt32) {c : Char} (hc : c ∈ numberStart) (s : List Char) :
    readPlain addr (c :: s) =
        readAddress addr (readNumber (c :: s)).1 (readNumber (c :: s)).2 ∧
      readPlain addr ('-' :: c :: s) =
        readAddress addr (readNumber ('-' :: c :: s)).1 (readNumber ('-' :: c :: s)).2 := by
  -- With the character known, the reader gets to its last case by computation.
  simp only [numberStart, List.mem_cons, List.not_mem_nil, or_false] at hc
  rcases hc with rfl | rfl | rfl | rfl | rfl | rfl | rfl | rfl | rfl | rfl | rfl <;>
    exact ⟨rfl, rfl⟩

theorem readPlain_unsignedText (addr : UInt32) (style : Style) (n : Nat) {s : List Char}
    (hs : AfterNumber s) :
    readPlain addr (unsignedText style n ++ s) = readAddress addr n s := by
  have hread := readNumber_unsignedText style n hs
  rcases exists_unsignedText_eq_cons style n with ⟨c, hc, cs, h⟩
  rw [h, List.cons_append] at hread ⊢
  rw [(readPlain_numberStart addr hc _).1, hread]

theorem readPlain_signed (addr : UInt32) (style : Style) (v : Int32) {s : List Char}
    (hs : AfterNumber s) :
    readPlain addr ((Number.signed style v).toList ++ s) = readAddress addr v.toInt s := by
  rw [toList_signed]
  split
  · rename_i hneg
    have hread := readNumber_neg_unsignedText style v.toInt.natAbs hs
    rcases exists_unsignedText_eq_cons style v.toInt.natAbs with ⟨c, hc, cs, h⟩
    have habs : -(v.toInt.natAbs : Int) = v.toInt := by omega
    rw [List.cons_append]
    rw [h, List.cons_append] at hread ⊢
    rw [(readPlain_numberStart addr hc _).2, hread, habs]
  · rename_i hneg
    have habs : (v.toInt.natAbs : Int) = v.toInt := by omega
    rw [readPlain_unsignedText addr style _ hs, habs]

theorem readPlain_hex (addr v : UInt32) {s : List Char} (hs : AfterNumber s) :
    readPlain addr ((Number.hex v).toList ++ s) = readAddress addr v.toNat s := by
  rw [toList_hex, readPlain_unsignedText addr .hex _ hs]

/-- A sign extended address is read as its low word. -/
theorem readPlain_absWord (addr : UInt32) (a : UInt16) (s : List Char) :
    readPlain addr ((Number.absWord a).toList ++ '.' :: 'w' :: s) = some (.absWord a, s) := by
  rcases exists_toList_absWord a with ⟨n, hn, htext⟩
  have hs : AfterNumber ('.' :: 'w' :: s) := afterNumber_cons (by decide) _
  rw [htext, readPlain_unsignedText addr .hex n hs, readAddress, Int.toNat_natCast, hn]

/-! ## Operands that are spelled alike everywhere -/

/-- An index without a scale. -/
def IsBrief (i : Index) : Prop :=
  i.scale = 0 ∧ ∃ r : Fin 8, i.reg = .d r ∨ i.reg = .a r

/-- The operands that are spelled alike everywhere. -/
def IsPlain : Operand -> Prop
  | .dataReg r | .addrReg r | .indirect r | .postInc r | .preDec r | .disp16 r _ => r < 8
  | .indexed r _ i => r < 8 ∧ IsBrief i
  | .pcIndexed _ i => IsBrief i
  | .absWord _ | .absLong _ | .pcDisp _ | .immediate _ | .sr | .ccr | .usp => True
  | _ => False

theorem toList_index {i : Index} (hi : IsBrief i) :
    ∃ bank c, IndexReg.ofNumber (RegList.bankStart bank + digit c) = i.reg ∧
      i.text.toList = [bank, c, '.', if i.long then 'l' else 'w'] := by
  rcases i with ⟨reg, long, scale⟩
  rcases hi with ⟨rfl, r, rfl | rfl⟩
  · rcases register_digit r.isLt with ⟨htext, hdigit⟩
    refine ⟨'d', Nat.digitChar r, ?_, ?_⟩
    · simp [RegList.bankStart, hdigit, IndexReg.ofNumber]
    · cases long <;> simp [Index.text, IndexReg.name, htext, scaleText]
  · rcases register_digit r.isLt with ⟨htext, hdigit⟩
    have hlow : ¬8 + r.val < 8 := by omega
    have hhigh : 8 + r.val < 16 := by omega
    refine ⟨'a', Nat.digitChar r, ?_, ?_⟩
    · simp [RegList.bankStart, hdigit, IndexReg.ofNumber, hlow, hhigh]
    · cases long <;> simp [Index.text, IndexReg.name, htext, scaleText]

theorem readIndex_text {i : Index} (hi : IsBrief i) (s : List Char) :
    readIndex (i.text.toList ++ ')' :: s) = some (i, s) := by
  rcases toList_index hi with ⟨bank, c, hreg, htext⟩
  rcases i with ⟨reg, long, scale⟩
  rcases hi with ⟨rfl, _⟩
  rw [htext]
  cases long <;> simp [readIndex, hreg]

theorem relative_sub (addr : UInt32) (d : Int32) : (relative addr d - addr).toInt32 = d := by
  rw [relative, UInt32.add_comm, UInt32.add_sub_cancel, Int32.toInt32_toUInt32]

theorem displacementTo_relative (addr : UInt32) (d : Int32) :
    displacementTo addr (relative addr d).toNat = d := by
  rw [displacementTo, Int.toNat_natCast, UInt32.ofNat_toNat, relative_sub]

/-- An operand that is spelled alike everywhere is read back. -/
theorem readPlain_text {x : Operand} (hx : IsPlain x) (addr : UInt32) (style : Style)
    {s : List Char} (hs : AtComma s) :
    readPlain addr ((x.text addr style).toList ++ s) = some (x, s) := by
  cases x with
  | dataReg r | addrReg r | postInc r | preDec r =>
      rcases register_digit (r := r) hx with ⟨htext, hdigit⟩
      simp [Operand.text, htext, readPlain, hdigit]
  | indirect r =>
      rcases register_digit (r := r) hx with ⟨htext, hdigit⟩
      -- A `+` would make it another mode, but only a comma can follow.
      cases hs <;> simp [Operand.text, htext, readPlain, hdigit]
  | disp16 r d =>
      rcases register_digit (r := r) hx with ⟨htext, hdigit⟩
      have hafter : AfterNumber ('(' :: 'a' :: Nat.digitChar r :: ')' :: s) :=
        afterNumber_cons (by decide) _
      have hread := readPlain_signed addr style d.toInt32 hafter
      simpa [Operand.text, htext, readAddress, hdigit] using hread
  | indexed r d i =>
      rcases hx with ⟨hr, hi⟩
      rcases register_digit hr with ⟨htext, hdigit⟩
      have hafter : AfterNumber
          ('(' :: 'a' :: Nat.digitChar r :: ',' :: (i.text.toList ++ ')' :: s)) :=
        afterNumber_cons (by decide) _
      have hread := readPlain_signed addr style d.toInt32 hafter
      simpa [Operand.text, htext, readAddress, hdigit, readIndex_text hi] using hread
  | absWord a => simpa [Operand.text] using readPlain_absWord addr a s
  | absLong a =>
      have hread := readPlain_hex addr a hs.afterNumber
      cases hs <;> simpa [Operand.text, readAddress] using hread
  | pcDisp d =>
      have hafter : AfterNumber ('(' :: 'p' :: 'c' :: ')' :: s) := afterNumber_cons (by decide) _
      have hread := readPlain_hex addr (relative addr d) hafter
      simpa [Operand.text, readAddress, displacementTo_relative] using hread
  | pcIndexed d i =>
      have hafter : AfterNumber ('(' :: 'p' :: 'c' :: ',' :: (i.text.toList ++ ')' :: s)) :=
        afterNumber_cons (by decide) _
      have hread := readPlain_hex addr (relative addr d) hafter
      simpa [Operand.text, readAddress, displacementTo_relative, readIndex_text hx] using hread
  | immediate v =>
      have hread := readNumber_unsignedText .hex v.toNat hs.afterNumber
      rw [← toList_hex] at hread
      simp [Operand.text, readPlain, hread]
  | sr | ccr | usp => simp [Operand.text, readPlain]
  | _ => exact hx.elim

/-! ## Operands where they stand -/

/-- The operands that the reader knows in a context. -/
inductive Readable : Context -> Operand -> Prop
  | general {x : Operand} (hx : IsPlain x) : Readable .general x
  | memory {x : Operand} (hx : IsPlain x) (hd : ∀ r, x ≠ .dataReg r) (ha : ∀ r, x ≠ .addrReg r) :
      Readable .list x
  | regList (mask : UInt16) : Readable .list (.regList mask)
  | dataReg (r : Fin 8) : Readable .control (.dataReg r)
  | addrReg (r : Fin 8) : Readable .control (.addrReg r)
  | controlReg {code : UInt16} (hcode : code ∈ Decoder.controlRegNames.map Prod.fst) :
      Readable .control (.controlReg code)
  | counter (r : Fin 8) : Readable .target (.dataReg r)
  | target (d : Int32) : Readable .target (.branch d)

/-- Nothing but a register begins like one. -/
theorem exists_text_eq_cons {x : Operand} (hx : IsPlain x) (hd : ∀ r, x ≠ .dataReg r)
    (ha : ∀ r, x ≠ .addrReg r) (addr : UInt32) (style : Style) :
    ∃ c cs, (x.text addr style).toList = c :: cs ∧ c ∉ [',', 'd', 'a'] := by
  have hsigned : ∀ v : Int32, ∃ c cs,
      (Number.signed style v).toList = c :: cs ∧ c ∉ [',', 'd', 'a'] := by
    intro v
    rcases exists_unsignedText_eq_cons style v.toInt.natAbs with ⟨c, hc, cs, h⟩
    have hstart : ∀ c ∈ numberStart, c ∉ [',', 'd', 'a'] := by simp [numberStart]
    rw [toList_signed]
    split
    · exact ⟨'-', _, rfl, by decide⟩
    · exact ⟨c, cs, h, hstart c hc⟩
  cases x with
  | dataReg r => exact absurd rfl (hd r)
  | addrReg r => exact absurd rfl (ha r)
  | disp16 r d =>
      rcases hsigned d.toInt32 with ⟨c, cs, h, hc⟩
      simp only [Operand.text, String.toList_append, h, List.cons_append]
      exact ⟨c, _, rfl, hc⟩
  | indexed r d i =>
      rcases hsigned d.toInt32 with ⟨c, cs, h, hc⟩
      simp only [Operand.text, String.toList_append, h, List.cons_append]
      exact ⟨c, _, rfl, hc⟩
  | absWord a =>
      rcases exists_toList_absWord a with ⟨n, _, h⟩
      simp only [Operand.text, String.toList_append, h, unsignedText, List.cons_append]
      exact ⟨'$', _, rfl, by decide⟩
  | indirect r | postInc r | preDec r | absLong a | pcDisp d | pcIndexed d i | immediate v | sr
  | ccr | usp =>
      simp [Operand.text, Number.hex]
  | _ => exact hx.elim

theorem AtComma.takeWhile_append {word s : List Char} (hs : AtComma s)
    (hword : ∀ c ∈ word, (c != ',') = true) : (word ++ s).takeWhile (· != ',') = word := by
  rw [List.takeWhile_append_of_pos hword]
  cases hs <;> simp

theorem AtComma.dropWhile_append {word s : List Char} (hs : AtComma s)
    (hword : ∀ c ∈ word, (c != ',') = true) : (word ++ s).dropWhile (· != ',') = s := by
  rw [List.dropWhile_append_of_pos hword]
  cases hs <;> simp

theorem readOperand_regList (addr : UInt32) (style : Style) (mask : UInt16) {s : List Char}
    (hs : AtComma s) :
    readOperand .list addr (((Operand.regList mask).text addr style).toList ++ s) =
      some (.regList mask, s) := by
  have hword : ∀ c ∈ (RegList.text mask).toList, (c != ',') = true := by
    intro c hc
    have hparts : ∀ c ∈ RegList.partChars, (c != ',') = true := by simp [RegList.partChars]
    rcases RegList.mem_toList_text hc with rfl | hc
    · decide
    · exact hparts c hc
  have hhead : ((RegList.text mask).toList ++ s).head?.all (· ∈ [',', 'd', 'a']) = true := by
    cases hm : (RegList.text mask).toList with
    | nil => cases hs <;> simp
    | cons c cs =>
        have hc : c ∈ (RegList.text mask).toList.head? := by simp [hm]
        rcases RegList.head_text hc with rfl | rfl <;> simp
  simp only [Operand.text, readOperand, hhead, if_true, hs.takeWhile_append hword,
    hs.dropWhile_append hword, RegList.readMask_text]

/-- A numbered register is no control register. -/
theorem readOperand_register {bank : Char} (hbank : bank = 'd' ∨ bank = 'a') (r : Fin 8)
    (addr : UInt32) {s : List Char} (hs : AtComma s) :
    readOperand .control addr ([bank, Nat.digitChar r] ++ s) =
      readPlain addr ([bank, Nat.digitChar r] ++ s) := by
  have hnone : ∀ r : Fin 8, controlRegOf? ['d', Nat.digitChar r] = none ∧
      controlRegOf? ['a', Nat.digitChar r] = none := by decide
  have hword : ∀ c ∈ [bank, Nat.digitChar r], (c != ',') = true := by
    rcases hbank with rfl | rfl <;> simp
  simp only [readOperand, hs.takeWhile_append hword]
  rcases hbank with rfl | rfl
  · rw [(hnone r).1]
  · rw [(hnone r).2]

/-- The name of a control register is a word that stands for nothing else. -/
theorem controlRegText_spec {code : UInt16}
    (hcode : code ∈ Decoder.controlRegNames.map Prod.fst) :
    (∀ c ∈ (controlRegText code).toList, (c != ',') = true ∧ c ≠ ' ') ∧
      (controlRegText code).toList ≠ [] ∧
      controlRegOf? (controlRegText code).toList = some code := by
  have htable : (Decoder.controlRegNames.all fun r =>
      (controlRegText r.1).toList.all (fun c => c != ',' && c != ' ') &&
        (controlRegText r.1).toList != [] &&
        controlRegOf? (controlRegText r.1).toList == some r.1) = true := by decide
  rcases List.mem_map.1 hcode with ⟨r, hr, rfl⟩
  have hspec := List.all_eq_true.1 htable r hr
  simp only [Bool.and_eq_true, List.all_eq_true, bne_iff_ne, beq_iff_eq] at hspec ⊢
  exact ⟨hspec.1.1, hspec.1.2, hspec.2⟩

theorem readOperand_controlReg {code : UInt16}
    (hcode : code ∈ Decoder.controlRegNames.map Prod.fst) (addr : UInt32) (style : Style)
    {s : List Char} (hs : AtComma s) :
    readOperand .control addr (((Operand.controlReg code).text addr style).toList ++ s) =
      some (.controlReg code, s) := by
  have hspec := controlRegText_spec hcode
  have hword : ∀ c ∈ (controlRegText code).toList, (c != ',') = true := by
    intro c hc
    exact (hspec.1 c hc).1
  simp only [Operand.text, readOperand, hs.takeWhile_append hword, hs.dropWhile_append hword,
    hspec.2.2]

/-- An operand is read back where it stands. -/
theorem readOperand_text {k : Context} {x : Operand} (hx : Readable k x) (addr : UInt32)
    (style : Style) {s : List Char} (hs : AtComma s) :
    readOperand k addr ((x.text addr style).toList ++ s) = some (x, s) := by
  cases hx with
  | general hx => exact readPlain_text hx addr style hs
  | memory hx hd ha =>
      have hread := readPlain_text hx addr style hs
      rcases exists_text_eq_cons hx hd ha addr style with ⟨c, cs, h, hc⟩
      rw [h] at hread ⊢
      rw [readOperand, if_neg (by simpa using hc), hread]
  | regList mask => exact readOperand_regList addr style mask hs
  | dataReg r =>
      have hread := readPlain_text (x := .dataReg r) r.isLt addr style hs
      have htext : ((Operand.dataReg r).text addr style).toList = ['d', Nat.digitChar r] := by
        simp [Operand.text, (register_digit r.isLt).1]
      rw [htext] at hread ⊢
      rw [readOperand_register (Or.inl rfl) r addr hs, hread]
  | addrReg r =>
      have hread := readPlain_text (x := .addrReg r) r.isLt addr style hs
      have htext : ((Operand.addrReg r).text addr style).toList = ['a', Nat.digitChar r] := by
        simp [Operand.text, (register_digit r.isLt).1]
      rw [htext] at hread ⊢
      rw [readOperand_register (Or.inr rfl) r addr hs, hread]
  | controlReg hcode => exact readOperand_controlReg hcode addr style hs
  | counter r =>
      have hread := readPlain_text (x := .dataReg r) r.isLt addr style hs
      rw [readOperand, hread]
      rfl
  | target d =>
      -- A target is spelled like the absolute address that it leads to.
      have hread := readPlain_text (x := .absLong (relative addr d)) trivial addr style hs
      have htext : (Operand.branch d).text addr style =
          (Operand.absLong (relative addr d)).text addr style := rfl
      rw [htext, readOperand, hread, Option.map_some, asTarget, relative_sub]

end Reader
end M68k
end Disassembler
