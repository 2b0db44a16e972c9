import Disassembler.Proofs.M68k.OperandReader

/-!
# Reading instructions

A reader for the aligned form of an instruction.  The opcode column ends at the
first blank, and operands are separated by commas.
-/

namespace Disassembler
namespace M68k
namespace Reader

open Number
open Text (NoBlank)

/-! ## Instructions -/

/-- What the operands of an opcode can be. -/
def contextOf : Opcode -> Context
  | .movem => .list
  | .movec => .control
  | .bsr | .branch _ | .loop _ => .target
  | _ => .general

def suffixOf (name : List Char) : Suffix :=
  (Suffix.all.find? fun size => size.name.toList == name).getD .none

/-- Read the operands of an instruction. -/
def readOperands (op : Opcode) (size : Suffix) (addr : UInt32) (s : List Char) :
    Option Operation :=
  if s = [] then some (.nullary op size)
  else
    match readOperand (contextOf op) addr s with
    | some (x, ',' :: s) =>
        (readOperand (contextOf op) addr s).map fun r => .binary op size x r.1
    | some (x, _) => some (.unary op size x)
    | none => none

/-- Read the aligned form of the instruction at an address.  What is shown as
data does not matter. -/
def readOperation (addr : UInt32) (s : List Char) : Option Operation :=
  let mnemonic := s.takeWhile (· != ' ')
  let operands := (s.dropWhile (· != ' ')).dropWhile (· == ' ')
  if mnemonic = Opcode.data.name.toList then some (.nullary .data .none)
  else
    let op := Opcode.ofName (String.ofList (mnemonic.takeWhile (· != '.')))
    readOperands op (suffixOf (mnemonic.dropWhile (· != '.'))) addr operands

/-! ## Mnemonics -/

theorem ofName_name {op : Opcode} (hop : op ∈ Opcode.all) : Opcode.ofName op.name = op := by
  -- The catalogue is closed, so that its names are compared by evaluation.
  have hall : ∀ op ∈ Opcode.all, Opcode.ofName op.name = op := by decide +kernel
  exact hall op hop

/-- Only the word for data has a point in its name, and only an opcode without
operands has more than six letters. -/
theorem name_shape {op : Opcode} (hop : op ∈ Opcode.all) (hdata : op ≠ .data) :
    (∀ c ∈ op.name.toList, (c != '.') = true ∧ c ≠ ' ') ∧
      (op ≠ .illegal -> op.name.toList.length ≤ 6) ∧ op.name.toList ≠ ['d', 'c'] := by
  have hall : ∀ op ∈ Opcode.all, op ≠ .data ->
      op.name.toList.all (fun c => c != '.' && c != ' ') = true ∧
        (op ≠ .illegal -> op.name.toList.length ≤ 6) ∧ op.name.toList ≠ ['d', 'c'] := by
    decide +kernel
  have hop' := hall op hop hdata
  simp only [List.all_eq_true, Bool.and_eq_true, bne_iff_ne] at hop' ⊢
  exact hop'

theorem length_suffix_le (size : Suffix) : size.name.length ≤ 2 := by
  cases size <;> decide

theorem noBlank_suffix (size : Suffix) : NoBlank size.name.toList := by
  cases size <;> simp [Suffix.name, NoBlank]

theorem cut_suffix (size : Suffix) :
    size.name.toList.takeWhile (· != '.') = [] ∧
      size.name.toList.dropWhile (· != '.') = size.name.toList := by
  cases size <;> simp [Suffix.name]

theorem suffixOf_name (size : Suffix) : suffixOf size.name.toList = size := by
  cases size <;> rfl

theorem cut_mnemonic {op : Opcode} (hop : op ∈ Opcode.all) (hdata : op ≠ .data) (size : Suffix) :
    (op.name ++ size.name).toList.takeWhile (· != '.') = op.name.toList ∧
      (op.name ++ size.name).toList.dropWhile (· != '.') = size.name.toList := by
  have hname : ∀ c ∈ op.name.toList, (c != '.') = true := by
    intro c hc
    exact ((name_shape hop hdata).1 c hc).1
  rw [String.toList_append, List.takeWhile_append_of_pos hname,
    List.dropWhile_append_of_pos hname, (cut_suffix size).1, (cut_suffix size).2,
    List.append_nil]
  exact ⟨rfl, rfl⟩

theorem noBlank_mnemonic {op : Opcode} (hop : op ∈ Opcode.all) (hdata : op ≠ .data)
    (size : Suffix) : NoBlank (op.name ++ size.name).toList := by
  rw [String.toList_append, Text.noBlank_append]
  refine ⟨?_, noBlank_suffix size⟩
  intro c hc
  exact ((name_shape hop hdata).1 c hc).2

/-- No instruction is taken for data. -/
theorem mnemonic_ne_data {op : Opcode} (hop : op ∈ Opcode.all) (hdata : op ≠ .data)
    (size : Suffix) : (op.name ++ size.name).toList ≠ Opcode.data.name.toList := by
  intro heq
  have hcut := (cut_mnemonic hop hdata size).1
  have hdc : Opcode.data.name.toList.takeWhile (· != '.') = ['d', 'c'] := by decide
  rw [heq, hdc] at hcut
  exact (name_shape hop hdata).2.2 hcut.symm

/-! ## Blanks -/

theorem noBlank_index {i : Index} (hi : IsBrief i) : NoBlank i.text.toList := by
  rcases i with ⟨reg, long, scale⟩
  obtain ⟨rfl, r, rfl | rfl⟩ := hi <;> cases long <;>
    simp [Index.text, IndexReg.name, scaleText, noBlank_decDigits]

theorem noBlank_plain {x : Operand} (hx : IsPlain x) (addr : UInt32) (style : Style) :
    NoBlank (x.text addr style).toList := by
  cases x with
  | indexed r d i =>
      simp [Operand.text, noBlank_signed, noBlank_decDigits, noBlank_index hx.2]
  | pcIndexed d i => simp [Operand.text, noBlank_hex, noBlank_index hx]
  | dataReg _ | addrReg _ | indirect _ | postInc _ | preDec _ | disp16 _ _ | absWord _ | absLong _
  | pcDisp _ | immediate _ | sr | ccr | usp =>
      simp [Operand.text, noBlank_signed, noBlank_decDigits, noBlank_hex, noBlank_absWord]
  | _ => exact hx.elim

theorem noBlank_operand {k : Context} {x : Operand} (hx : Readable k x) (addr : UInt32)
    (style : Style) : NoBlank (x.text addr style).toList := by
  cases hx with
  | general hx => exact noBlank_plain hx addr style
  | memory hx hd ha => exact noBlank_plain hx addr style
  | regList mask =>
      have hparts : ∀ c ∈ RegList.partChars, c ≠ ' ' := by simp [RegList.partChars]
      intro c hc
      rcases RegList.mem_toList_text hc with rfl | hc
      · decide
      · exact hparts c hc
  | dataReg r | counter r => exact noBlank_plain (x := .dataReg r) r.isLt addr style
  | addrReg r => exact noBlank_plain (x := .addrReg r) r.isLt addr style
  | controlReg hcode =>
      intro c hc
      exact ((controlRegText_spec hcode).1 c hc).2
  | target d => exact noBlank_hex (relative addr d)

/-! ## Reading back -/

/-- The operations that the reader knows. -/
inductive ReadableOperation : Operation -> Prop
  | nullary {op : Opcode} (size : Suffix) (hop : op ∈ Opcode.all) (hdata : op ≠ .data) :
      ReadableOperation (.nullary op size)
  | unary {op : Opcode} (size : Suffix) {x : Operand} (hop : op ∈ Opcode.all)
      (hop' : op ∉ [.data, .illegal, .movem]) (hx : Readable (contextOf op) x) :
      ReadableOperation (.unary op size x)
  | binary {op : Opcode} (size : Suffix) {x y : Operand} (hop : op ∈ Opcode.all)
      (hop' : op ∉ [.data, .illegal]) (hx : Readable (contextOf op) x)
      (hy : Readable (contextOf op) y) : ReadableOperation (.binary op size x y)

namespace ReadableOperation

variable {o : Operation}

theorem opcode_mem (h : ReadableOperation o) : o.opcode ∈ Opcode.all := by
  cases h <;> assumption

theorem opcode_ne_data (h : ReadableOperation o) : o.opcode ≠ .data := by
  cases h with
  | nullary size hop hdata => exact hdata
  | unary size hop hop' hx =>
      rintro rfl
      exact hop' (by decide)
  | binary size hop hop' hx hy =>
      rintro rfl
      exact hop' (by decide)

end ReadableOperation

/-- Only an empty register list has no text. -/
theorem text_ne_nil {k : Context} {x : Operand} (hk : k ≠ .list) (hx : Readable k x)
    (addr : UInt32) (style : Style) : (x.text addr style).toList ≠ [] := by
  cases hx with
  | general hx =>
      cases x with
      | dataReg _ | addrReg _ | indirect _ | postInc _ | preDec _ | disp16 _ _ | indexed _ _ _
      | absWord _ | absLong _ | pcDisp _ | pcIndexed _ _ | immediate _ | sr | ccr | usp =>
          simp [Operand.text, Number.hex]
      | _ => exact hx.elim
  | memory hx hd ha => exact absurd rfl hk
  | regList mask => exact absurd rfl hk
  | dataReg r | addrReg r | counter r | target d => simp [Operand.text, Number.hex]
  | controlReg hcode => exact (controlRegText_spec hcode).2.1

theorem contextOf_ne_list {op : Opcode} (hop : op ≠ .movem) : contextOf op ≠ .list := by
  cases op with
  | movem => exact absurd rfl hop
  | _ => simp [contextOf]

def operandsText (o : Operation) (addr : UInt32) (style : Style) : String :=
  separated "" addr style o.first ++ separated "," addr style o.second

theorem readOperands_unary {op : Opcode} {x : Operand} (size : Suffix) (hop : op ≠ .movem)
    (hx : Readable (contextOf op) x) (addr : UInt32) (style : Style) :
    readOperands op size addr (x.text addr style).toList = some (.unary op size x) := by
  have hread := readOperand_text hx addr style AtComma.nil
  rw [List.append_nil] at hread
  rw [readOperands, if_neg (text_ne_nil (contextOf_ne_list hop) hx addr style), hread]

theorem readOperands_binary {op : Opcode} {x y : Operand} (size : Suffix)
    (hx : Readable (contextOf op) x) (hy : Readable (contextOf op) y) (addr : UInt32)
    (style : Style) :
    readOperands op size addr ((x.text addr style).toList ++ ',' :: (y.text addr style).toList) =
      some (.binary op size x y) := by
  have hfirst := readOperand_text hx addr style (AtComma.comma (y.text addr style).toList)
  have hsecond := readOperand_text hy addr style AtComma.nil
  rw [List.append_nil] at hsecond
  rw [readOperands, if_neg (by simp), hfirst]
  simp only [hsecond, Option.map_some]

theorem readOperands_text {o : Operation} (h : ReadableOperation o) (addr : UInt32)
    (style : Style) :
    readOperands o.opcode o.suffix addr (operandsText o addr style).toList = some o := by
  cases h with
  | nullary size hop hdata => rfl
  | @unary op size x hop hop' hx =>
      have htext : (operandsText (.unary op size x) addr style).toList =
          (x.text addr style).toList := by
        simp [operandsText, separated, Operation.unary]
      have hmovem : op ≠ .movem := by
        rintro rfl
        exact hop' (by decide)
      rw [htext]
      exact readOperands_unary size hmovem hx addr style
  | @binary op size x y hop hop' hx hy =>
      have htext : (operandsText (.binary op size x y) addr style).toList =
          (x.text addr style).toList ++ ',' :: (y.text addr style).toList := by
        simp [operandsText, separated, Operation.binary]
      rw [htext]
      exact readOperands_binary size hx hy addr style

theorem noBlank_operands {o : Operation} (h : ReadableOperation o) (addr : UInt32)
    (style : Style) : NoBlank (operandsText o addr style).toList := by
  cases h with
  | nullary size hop hdata => simp [operandsText, separated, Operation.nullary]
  | unary size hop hop' hx =>
      simp [operandsText, separated, Operation.unary, noBlank_operand hx]
  | binary size hop hop' hx hy =>
      simp [operandsText, separated, Operation.binary, noBlank_operand hx, noBlank_operand hy]

/-- A blank separates the operands from the mnemonic. -/
theorem width_lt {o : Operation} (h : ReadableOperation o) {addr : UInt32} {style : Style}
    (hoperands : (operandsText o addr style).toList ≠ []) :
    Text.width (o.opcode.name ++ o.suffix.name) < Instruction.opcodeWidth := by
  have hillegal : o.opcode ≠ .illegal := by
    cases h with
    | nullary size hop hdata =>
        exact absurd (by simp [operandsText, separated, Operation.nullary]) hoperands
    | unary size hop hop' hx =>
        rintro rfl
        exact hop' (by decide)
    | binary size hop hop' hx hy =>
        rintro rfl
        exact hop' (by decide)
  have hwidth := Text.width_le_length (o.opcode.name ++ o.suffix.name)
  have hname := (name_shape h.opcode_mem h.opcode_ne_data).2.1 hillegal
  have hsize := length_suffix_le o.suffix
  rw [String.length_append, ← String.length_toList] at hwidth
  have hcolumn : Instruction.opcodeWidth = 9 := rfl
  omega

/-- The aligned form of an instruction that is no data. -/
theorem text_eq {i : Instruction} (h : ReadableOperation i.toOperation) (addr : UInt32)
    (style : Style) :
    i.text addr style =
      Text.trimBlanks (Text.padRight Instruction.opcodeWidth (i.opcode.name ++ i.suffix.name) ++
        operandsText i.toOperation addr style) := by
  rw [Instruction.text, if_neg h.opcode_ne_data]
  rcases i with ⟨o, header, length⟩
  cases h with
  | nullary => simp [operandsText, Instruction.mnemonic, separated]
  | unary => simp [operandsText, Instruction.mnemonic, separated]
  | binary => simp [operandsText, Instruction.mnemonic, separated, String.append_assoc]

/-- An instruction is read back from its text. -/
theorem readOperation_text {i : Instruction} (h : ReadableOperation i.toOperation)
    (addr : UInt32) (style : Style) :
    readOperation addr (i.text addr style).toList = some i.toOperation := by
  have hcut := Text.cut_trimBlanks_padRight (n := Instruction.opcodeWidth)
    (noBlank_mnemonic h.opcode_mem h.opcode_ne_data i.suffix)
    (noBlank_operands h addr style).trimmed (width_lt h)
  have hname := cut_mnemonic h.opcode_mem h.opcode_ne_data i.suffix
  have hdata := mnemonic_ne_data h.opcode_mem h.opcode_ne_data i.suffix
  rw [readOperation, text_eq h addr style]
  simp only [hcut.1, hcut.2, if_neg hdata, hname.1, hname.2, String.ofList_toList,
    ofName_name h.opcode_mem, suffixOf_name]
  exact readOperands_text h addr style

/-- What is shown as data is read as data. -/
theorem readOperation_data {i : Instruction} (hop : i.opcode = .data) (addr : UInt32)
    (style : Style) :
    readOperation addr (i.text addr style).toList = some (.nullary .data .none) := by
  have hcolumn : (Text.padRight Instruction.opcodeWidth Opcode.data.name).toList =
      Opcode.data.name.toList ++ [' ', ' ', ' ', ' ', ' '] := by decide
  have hword : ∀ c ∈ Opcode.data.name.toList, (c != ' ') = true := by simp [Opcode.name]
  rw [Instruction.text, if_pos hop, String.toList_append, hcolumn, List.append_assoc,
    readOperation, List.takeWhile_append_of_pos hword]
  simp

end Reader
end M68k
end Disassembler
