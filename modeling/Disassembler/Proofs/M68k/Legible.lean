import Disassembler.Proofs.M68k.RegisterList
import Disassembler.Proofs.M68k.WellFormed
import Disassembler.Proofs.Text.Character
import Disassembler.Proofs.Text.Glyph

/-!
# Legible text

The text of a decoded instruction has no mark for something unknown in it, and
blanks only between the mnemonic and the operands.
-/

namespace Disassembler
namespace M68k

open Number (forall_mem_decDigits forall_mem_hex forall_mem_signed forall_mem_absWord)

/-! ## Words -/

/-- Only characters that show, and no mark for something unknown. -/
def Legible (cs : List Char) : Prop :=
  ∀ c ∈ cs, Text.IsGraphic c ∧ c ≠ '?'

@[simp] theorem legible_nil : Legible [] :=
  List.forall_mem_nil _

@[simp] theorem legible_cons {c : Char} {cs : List Char} :
    Legible (c :: cs) ↔ ((0x20 < c.toNat ∧ c.toNat < 0x7f) ∧ c ≠ '?') ∧ Legible cs :=
  List.forall_mem_cons

@[simp] theorem legible_append {cs ds : List Char} :
    Legible (cs ++ ds) ↔ Legible cs ∧ Legible ds :=
  List.forall_mem_append

theorem Legible.isGraphic {s : String} (h : Legible s.toList) : Text.HasOnly Text.IsGraphic s := by
  intro c hc
  exact (h c hc).1

theorem Legible.noBlank {s : String} (h : Legible s.toList) : Text.NoBlank s.toList :=
  Text.noBlank_of_isGraphic h.isGraphic

theorem Legible.join {separator : String} {ss : List String} (hsep : Legible separator.toList)
    (hss : ∀ s ∈ ss, Legible s.toList) : Legible (Text.join separator ss).toList :=
  Text.HasOnly.join hsep hss

/-! ## Parts of operands -/

theorem legible_numberChars : Legible Number.numberChars := by
  simp [Number.numberChars]

@[simp] theorem legible_decDigits (n : Nat) : Legible (Number.decDigits n).toList :=
  forall_mem_decDigits legible_numberChars n

@[simp] theorem legible_hex (v : UInt32) : Legible (Number.hex v).toList :=
  forall_mem_hex legible_numberChars v

@[simp] theorem legible_signed (style : Style) (v : Int32) :
    Legible (Number.signed style v).toList :=
  forall_mem_signed legible_numberChars style v

@[simp] theorem legible_absWord (a : UInt16) : Legible (Number.absWord a).toList :=
  forall_mem_absWord legible_numberChars a

theorem legible_regList (mask : UInt16) : Legible (RegList.text mask).toList := by
  have hparts : Legible RegList.partChars := by simp [RegList.partChars]
  intro c hc
  rcases RegList.mem_toList_text hc with rfl | hc
  · decide
  · exact hparts c hc

theorem legible_controlReg {code : UInt16} (hcode : code ∈ Decoder.controlRegNames.map Prod.fst) :
    Legible (controlRegText code).toList ∧ (controlRegText code).toList ≠ [] := by
  have htable : (Decoder.controlRegNames.all fun r =>
      (controlRegText r.1).toList.all (fun c => Text.IsGraphic c && c != '?') &&
        (controlRegText r.1).toList != []) = true := by
    decide
  rcases List.mem_map.1 hcode with ⟨r, hr, rfl⟩
  have hspec := List.all_eq_true.1 htable r hr
  simp only [Bool.and_eq_true, List.all_eq_true, decide_eq_true_eq, bne_iff_ne] at hspec
  exact hspec

theorem IndexReg.IsGeneral.legible {r : IndexReg} (hr : r.IsGeneral) : Legible r.name.toList := by
  rcases hr with ⟨n, rfl | rfl⟩ <;> simp [IndexReg.name]

theorem legible_scaleText (scale : Nat) : Legible (scaleText scale).toList := by
  unfold scaleText
  split <;> simp

theorem legible_index {i : Index} (hi : i.reg.IsGeneral) : Legible i.text.toList := by
  unfold Index.text
  split
  · simp
  · cases i.long <;> simp [hi.legible, legible_scaleText]

theorem legible_components {e : FullExt} (he : e.WellFormed) (addr : UInt32) {s : String}
    (hs : some s ∈ e.components addr) : Legible s.toList := by
  have hdisp : Legible (e.baseDispText addr).toList := by
    unfold FullExt.baseDispText
    split <;> simp
  have hbase : Legible e.base.name.toList := by
    rcases he.base with h | ⟨n, h⟩ <;> simp [h, IndexReg.name]
  have hindex : Legible e.index.text.toList := by
    have hreg := he.index
    split at hreg
    · exact legible_index hreg
    · simp [Index.text, hreg]
  simp only [FullExt.components, List.mem_cons, List.not_mem_nil, or_false] at hs
  have hpart {b : Bool} {t : String} (ht : Legible t.toList)
      (heq : some s = if b = true then some t else none) : Legible s.toList := by
    split at heq
    · cases heq
      exact ht
    · cases heq
  rcases hs with hs | hs | hs | hs
  · exact hpart hdisp hs
  · exact hpart hbase hs
  · exact hpart hindex hs
  · exact hpart (legible_hex _) hs

theorem legible_bracketed {ss : List String} (hss : ∀ s ∈ ss, Legible s.toList) {s : String}
    (hs : s ∈ if ss.isEmpty then [] else ["[" ++ Text.join "," ss ++ "]"]) :
    Legible s.toList := by
  have hjoin : Legible (Text.join "," ss).toList := Legible.join (by simp) hss
  split at hs
  · cases hs
  · rw [List.mem_singleton.1 hs]
    simp [hjoin]

theorem legible_fullExt {e : FullExt} (he : e.WellFormed) (inner : Nat) (addr : UInt32) :
    Legible (e.text inner addr).toList := by
  have hinside : ∀ s ∈ ((e.components addr).take inner).filterMap id, Legible s.toList := by
    intro s hs
    exact legible_components he addr (List.mem_of_mem_take (by simpa using hs))
  have houtside : ∀ s ∈ ((e.components addr).drop inner).filterMap id, Legible s.toList := by
    intro s hs
    exact legible_components he addr (List.mem_of_mem_drop (by simpa using hs))
  rw [FullExt.text, String.toList_append, String.toList_append, legible_append, legible_append]
  refine ⟨⟨by simp, Legible.join (by simp) ?_⟩, by simp⟩
  intro s hs
  rcases List.mem_append.1 hs with hs | hs
  · exact legible_bracketed hinside hs
  · exact houtside s hs

/-! ## Operands -/

theorem legible_operand {x : Operand} (hx : x.WellFormed) (addr : UInt32) (style : Style) :
    Legible (x.text addr style).toList := by
  cases x with
  | indexed r d i => simp [Operand.text, legible_index hx.2.reg]
  | pcIndexed d i => simp [Operand.text, legible_index hx.reg]
  | regList mask => exact legible_regList mask
  | controlReg code => exact (legible_controlReg hx).1
  | indirectPair r s => simp [Operand.text, hx.1.legible, hx.2.legible]
  | postIndexed e | preIndexed e | memoryIndirect e | noMemoryIndirect e =>
      exact legible_fullExt hx _ addr
  | _ => simp [Operand.text]

theorem legible_bitfield (b : Bitfield) : Legible b.text.toList := by
  have hpart : ∀ isReg v, Legible (Bitfield.partText isReg v).toList := by
    intro isReg v
    cases isReg <;> simp [Bitfield.partText]
  simp [Bitfield.text, hpart]

/-! ## Mnemonics -/

/-- Only an opcode without sizes has more than six letters. -/
theorem Opcode.name_spec {op : Opcode} (hop : op ≠ .unlisted) :
    Legible op.name.toList ∧ op.name ≠ "" ∧ (op ≠ .illegal -> op.name.length ≤ 6) := by
  have hspec : op.name.toList.all (fun c => Text.IsGraphic c && c != '?') = true ∧
      op.name ≠ "" ∧ (op ≠ .illegal -> op.name.toList.length ≤ 6) := by
    cases op with
    | branch c | loop c | set c | trapOn c =>
        cases c <;> exact ⟨by decide, by decide, fun _ => by decide⟩
    | unlisted => exact absurd rfl hop
    | illegal => exact ⟨by decide, by decide, fun h => absurd rfl h⟩
    | _ => exact ⟨by decide, by decide, fun _ => by decide⟩
  simp only [List.all_eq_true, Bool.and_eq_true, bne_iff_ne, decide_eq_true_eq,
    String.length_toList] at hspec
  exact hspec

theorem Suffix.name_spec (size : Suffix) :
    Legible size.name.toList ∧ size.name.length ≤ 2 := by
  constructor
  · cases size <;> simp [name]
  · cases size <;> decide

/-- A word that leaves room for a blank in the column of mnemonics. -/
structure FitsColumn (s : String) : Prop where
  legible : Legible s.toList
  ne_empty : s ≠ ""
  length_lt : s.length < Instruction.opcodeWidth
  width_eq : Text.width s = s.length

theorem fitsColumn_mnemonic {cpu : Cpu} {op : Opcode} {size : Suffix}
    (hsize : size ∈ op.sizes cpu) : FitsColumn (op.name ++ size.name) := by
  have hlisted : op ≠ .unlisted := by
    rintro rfl
    cases hsize
  have hop := Opcode.name_spec hlisted
  have hsuffix := size.name_spec
  have hlegible : Legible (op.name ++ size.name).toList := by
    rw [String.toList_append, legible_append]
    exact ⟨hop.1, hsuffix.1⟩
  have hascii : ∀ c ∈ (op.name ++ size.name).toList, c.toNat < 0x80 := by
    intro c hc
    exact Nat.lt_of_lt_of_le (hlegible c hc).1.2 (by decide)
  refine ⟨hlegible, by simp [hop.2.1], ?_, Text.width_ascii hascii⟩
  by_cases hillegal : op = .illegal
  · subst hillegal
    cases List.mem_singleton.1 hsize
    decide
  · have hlength := hop.2.2 hillegal
    have hlength' := hsuffix.2
    have hcolumn : Instruction.opcodeWidth = 9 := rfl
    rw [String.length_append]
    omega

/-! ## Operations -/

/-- The operands with their bit fields, as in the aligned form. -/
def Operation.operandsText (o : Operation) (addr : UInt32) (style : Style) : String :=
  separated "" addr style o.first ++ ((o.firstField.map Bitfield.text).getD "" ++
    (separated "," addr style o.second ++ ((o.secondField.map Bitfield.text).getD "" ++
      separated "," addr style o.third)))

theorem legible_separated {separator : String} (hsep : Legible separator.toList)
    {x : Option Operand} (hx : ∀ y, x = some y -> y.WellFormed) (addr : UInt32) (style : Style) :
    Legible (separated separator addr style x).toList := by
  cases x with
  | none => simp [separated]
  | some y => simp [separated, hsep, legible_operand (hx y rfl)]

theorem legible_field (b : Option Bitfield) :
    Legible ((b.map Bitfield.text).getD "").toList := by
  cases b with
  | none => simp
  | some b => exact legible_bitfield b

section

variable {o : Operation} (h : o.WellFormed)

include h

theorem Operation.WellFormed.of_mem {x : Operand}
    (hx : some x ∈ [o.first, o.second, o.third]) : x.WellFormed :=
  h.operands x (by simpa [Operation.present] using hx)

theorem Operation.WellFormed.legible_operandsText (addr : UInt32) (style : Style) :
    Legible (o.operandsText addr style).toList := by
  have hfirst : ∀ x, o.first = some x -> x.WellFormed := fun x hx => h.of_mem (by simp [hx])
  have hsecond : ∀ x, o.second = some x -> x.WellFormed := fun x hx => h.of_mem (by simp [hx])
  have hthird : ∀ x, o.third = some x -> x.WellFormed := fun x hx => h.of_mem (by simp [hx])
  simp only [Operation.operandsText, String.toList_append, legible_append]
  exact ⟨legible_separated (by simp) hfirst addr style, legible_field _,
    legible_separated (by simp) hsecond addr style, legible_field _,
    legible_separated (by simp) hthird addr style⟩

end

/-- Only a list of registers can have no text. -/
theorem text_ne_nil {x : Operand} (hx : x.WellFormed) (hlist : ∀ mask, x ≠ .regList mask)
    (addr : UInt32) (style : Style) : (x.text addr style).toList ≠ [] := by
  cases x with
  | regList mask => exact absurd rfl (hlist mask)
  | controlReg code => exact (legible_controlReg hx).2
  | postIndexed e | preIndexed e | memoryIndirect e | noMemoryIndirect e =>
      simp [Operand.text, FullExt.text]
  | _ => simp [Operand.text, Number.hex]

namespace Repertoire

variable {cpu : Cpu} {o : Operation}

theorem first_ne_regList (h : Repertoire cpu o) (hsecond : o.second = none) (mask : UInt16) :
    o.first ≠ some (.regList mask) := by
  intro hfirst
  -- Only `movem` has a list of registers, and it has two operands.
  cases h with
  | shiftMemory hop hx | bitfieldChange h020 hop hx ext | single hop hsize hx | tst hsize hx
  | byteSingle hop hx | control hop hx | set c hx =>
      cases hfirst
      cases hx.isSpecial
  | swap | ext | extb | unlk | plain | stop | rtd | trap | bkpt | branch | bsr | trapOn
  | trapOnImmediate => cases hfirst
  | _ => cases hsecond

theorem separated_ne_empty (h : Repertoire cpu o) (hfirst : o.first.isSome = true)
    (addr : UInt32) (style : Style) :
    separated "" addr style o.first ≠ "" ∨ separated "," addr style o.second ≠ "" := by
  rcases Option.isSome_iff_exists.1 hfirst with ⟨x, hx⟩
  cases hsecond : o.second with
  | some y => simp [separated]
  | none =>
      have hlist : ∀ mask, x ≠ .regList mask := by
        rintro mask rfl
        exact h.first_ne_regList hsecond mask hx
      have htext := text_ne_nil (h.wellFormed.of_mem (by simp [hx])) hlist addr style
      left
      rw [hx, separated, String.empty_append]
      exact fun hempty => htext (String.toList_eq_nil_iff.2 hempty)

theorem operandsText_ne_nil (h : Repertoire cpu o) (hfirst : o.first.isSome = true)
    (addr : UInt32) (style : Style) : (o.operandsText addr style).toList ≠ [] := by
  rcases h.separated_ne_empty hfirst addr style with hne | hne <;>
    simp [Operation.operandsText, hne]

end Repertoire

/-! ## Instructions -/

/-- Both forms are legible, and in the aligned one the operands stand in a column
of their own. -/
structure Instruction.IsLegible (i : Instruction) (addr : UInt32) (style : Style) : Prop where
  text : '?' ∉ (i.text addr style).toList
  terse : '?' ∉ (i.terse addr style).toList
  mnemonic : i.mnemonic.length < opcodeWidth
  operands : i.opcode = .data ∨ i.first.isSome = true -> ∃ gap operands,
    0 < gap ∧ i.mnemonic.length + gap = opcodeWidth ∧ operands ≠ [] ∧ ' ' ∉ operands ∧
      (i.text addr style).toList = i.mnemonic.toList ++ (List.replicate gap ' ' ++ operands)

theorem Legible.not_mem {cs : List Char} (h : Legible cs) : '?' ∉ cs := by
  intro hmem
  exact (h '?' hmem).2 rfl

theorem not_mem_separated {separator : String} (hsep : '?' ∉ separator.toList)
    {x : Option Operand} (hx : ∀ y, x = some y -> y.WellFormed) (addr : UInt32) (style : Style) :
    '?' ∉ (separated separator addr style x).toList := by
  cases x with
  | none => simp [separated]
  | some y => simp [separated, hsep, (legible_operand (hx y rfl) addr style).not_mem]

theorem text_eq_of_ne_data {i : Instruction} (hop : i.opcode ≠ .data) (addr : UInt32)
    (style : Style) : i.text addr style =
      Text.trimBlanks (Text.padRight Instruction.opcodeWidth i.mnemonic ++
        i.operandsText addr style) := by
  rw [Instruction.text, if_neg hop]
  simp only [Operation.operandsText, String.append_assoc]

theorem isLegible_of_repertoire {cpu : Cpu} {i : Instruction} (h : Repertoire cpu i.toOperation)
    (addr : UInt32) (style : Style) : i.IsLegible addr style := by
  have hop : i.opcode ≠ .data := h.opcode_ne_data
  have hwf : i.WellFormed := h.wellFormed
  have hmnemonic : FitsColumn i.mnemonic := fitsColumn_mnemonic h.size_mem
  have hoperands := hwf.legible_operandsText addr style
  -- The mnemonic, the blanks up to the column and the operands, which end in no blank.
  have htext := Text.toList_trimBlanks_padRight Instruction.opcodeWidth
    hmnemonic.legible.noBlank.trimmed hoperands.noBlank.trimmed
  rw [← text_eq_of_ne_data hop, hmnemonic.width_eq] at htext
  have hlt := hmnemonic.length_lt
  refine ⟨?_, ?_, hlt, ?_⟩
  · rw [htext]
    split
    · exact hmnemonic.legible.not_mem
    · simp [hmnemonic.legible.not_mem, hoperands.not_mem]
  · have hfirst : '?' ∉ (separated " " addr style i.first).toList :=
      not_mem_separated (by simp) (fun x hx => hwf.of_mem (by simp [hx])) addr style
    have hsecond : '?' ∉ (separated "," addr style i.second).toList :=
      not_mem_separated (by simp) (fun x hx => hwf.of_mem (by simp [hx])) addr style
    rw [Instruction.terse, if_neg hop]
    simp [hmnemonic.legible.not_mem, hfirst, hsecond]
  · rintro (hdata | hfirst)
    · exact absurd hdata hop
    · have hne := h.operandsText_ne_nil hfirst addr style
      rw [if_neg hne] at htext
      refine ⟨Instruction.opcodeWidth - i.mnemonic.length, _, by omega, by omega, hne, ?_, htext⟩
      intro hblank
      exact hoperands.noBlank ' ' hblank rfl

theorem isLegible_data (header : UInt16) (addr : UInt32) (style : Style) :
    (Instruction.data header).IsLegible addr style := by
  have hop : (Instruction.data header).opcode = .data := rfl
  have hmnemonic : (Instruction.data header).mnemonic = Opcode.data.name := by
    simp [Instruction.mnemonic, Instruction.data, Suffix.name]
  have hcolumn : (Text.padRight Instruction.opcodeWidth Opcode.data.name).toList =
      Opcode.data.name.toList ++ List.replicate 5 ' ' := by decide
  have hname : '?' ∉ Opcode.data.name.toList := by decide
  have hhex := legible_hex header.toUInt32
  have htext : ((Instruction.data header).text addr style).toList =
      Opcode.data.name.toList ++
        (List.replicate 5 ' ' ++ (Number.hex header.toUInt32).toList) := by
    rw [Instruction.text, if_pos hop, String.toList_append, hcolumn, List.append_assoc]
    rfl
  refine ⟨?_, ?_, ?_, ?_⟩
  · rw [htext]
    simp [hname, hhex.not_mem]
  · rw [Instruction.terse, if_pos hop]
    simp [Instruction.data, hname, hhex.not_mem]
  · rw [hmnemonic]
    decide
  · intro _
    rw [hmnemonic]
    refine ⟨5, _, by decide, by decide, ?_, ?_, htext⟩
    · simp [Number.hex]
    · intro hblank
      exact hhex.noBlank ' ' hblank rfl

/-- Whatever is decoded is well formed, and its text is legible. -/
theorem decode_wellFormed (cpu : Cpu) (bytes : Bytes) :
    (decode cpu bytes).WellFormed ∧
      ∀ addr style, (decode cpu bytes).IsLegible addr style := by
  rcases decode_cases cpu bytes with ⟨code, rest, _, hcode⟩ | hdata
  · exact ⟨hcode.repertoire.wellFormed, isLegible_of_repertoire hcode.repertoire⟩
  · rw [hdata]
    refine ⟨?_, isLegible_data _⟩
    constructor <;> simp [Instruction.data, Operation.present, Operation.fields, Opcode.isBitfield]

end M68k
end Disassembler
