import Disassembler.Dsp56k.Print
import Disassembler.Proofs.Dsp56k.WellFormed
import Disassembler.Proofs.Text.Character
import Disassembler.Proofs.Text.Numeral

/-!
# Legible text

The characters of the texts of operands and of the groups that they make up.  No
text of a decoded instruction has a mark for something unknown in it, and blanks
stand only between the groups.
-/

namespace Disassembler
namespace Dsp56k

/-! ## Operand text -/

/-- The characters of the texts of operands. -/
def operandChars : List Char :=
  Number.numberChars ++
    ['#', '<', ':', '(', ')', '+', 'x', 'y', 'r', 'n', 'm', 's', 'o', 'p', 'h', 'l']

/-- Only characters of operands. -/
def Spelled (s : String) : Prop :=
  Text.HasOnly (· ∈ operandChars) s

instance (s : String) : Decidable (Spelled s) :=
  inferInstanceAs (Decidable (Text.HasOnly _ s))

@[simp] theorem spelled_append {s t : String} : Spelled (s ++ t) ↔ Spelled s ∧ Spelled t :=
  Text.hasOnly_append

theorem operandChars_spec :
    ∀ c ∈ operandChars, (Text.IsGraphic c ∧ c ≠ ',') ∧ c ≠ '?' := by
  simp [operandChars, Number.numberChars, Text.IsGraphic]

theorem numberChars_subset : ∀ c ∈ Number.numberChars, c ∈ operandChars := by
  intro c hc
  exact List.mem_append_left _ hc

theorem spelled_decDigits (n : Nat) : Spelled (Number.decDigits n) :=
  Number.forall_mem_decDigits numberChars_subset n

theorem spelled_hex (v : UInt32) : Spelled (Number.hex v) :=
  Number.forall_mem_hex numberChars_subset v

theorem spelled_hexPadded (width n : Nat) : Spelled (Number.hexPadded width n) :=
  Number.forall_mem_hexPadded numberChars_subset width n

theorem Register.spelled_name {r : Register} (hr : r ∈ stored ++ operandOnly) :
    Spelled r.name := by
  cases r with
  | r i | n i | m i => exact spelled_append.2 ⟨by decide, spelled_decDigits _⟩
  | unlisted => exact absurd hr (by decide)
  | _ => decide

theorem IndirectMode.spelled_text {mode : IndirectMode} (hmode : mode ∈ indirectModes)
    (r : Nat) : Spelled (mode.text r) := by
  have hdigits := spelled_decDigits r
  have hsigns : Spelled "(" ∧ Spelled ")" ∧ Spelled ")-" ∧ Spelled ")+" ∧ Spelled "+" ∧
      Spelled "-(" ∧ Spelled "r" ∧ Spelled "n" := by
    decide
  cases mode with
  | unlisted n => cases n <;> simp [indirectModes] at hmode
  | _ => simp [IndirectMode.text, hdigits, hsigns]

theorem Space.spelled_text {space : Space} (hspace : space ∈ spaces) : Spelled space.text := by
  cases space with
  | unlisted n => simp [spaces] at hspace
  | _ => decide

theorem spelled_immediateText (style : Style) (v : UInt32) : Spelled (immediateText style v) := by
  cases style with
  | hex => exact spelled_hex v
  | decimal => exact spelled_decDigits v.toNat

theorem Register.name_ne_empty (r : Register) : r.name ≠ "" := by
  cases r <;> simp [name]

namespace Operand.WellFormed

variable {x : Operand} (hx : x.WellFormed) (style : Style)

include hx

theorem spelled_text : Spelled (x.text style) := by
  have hsigns : Spelled "#" ∧ Spelled "<" ∧ Spelled "$" ∧ Spelled "<<$" := by
    decide
  cases x with
  | immShort v | immLong v => simp [Operand.text, hsigns, spelled_immediateText]
  | reg r => exact Register.spelled_name hx
  | indirect mode space r =>
      simp [Operand.text, Space.spelled_text hx.2.1, IndirectMode.spelled_text hx.1]
  | absShort space a | absLong space a | ioShort space a =>
      simp [Operand.text, Space.spelled_text hx, hsigns, spelled_hex, spelled_hexPadded]

theorem text_ne_empty : x.text style ≠ "" := by
  cases x with
  | reg r => exact r.name_ne_empty
  | indirect mode space r => cases mode <;> simp [Operand.text, IndirectMode.text]
  | _ => simp [Operand.text]

end Operand.WellFormed

/-! ## Groups of operands -/

/-- The characters of the texts of groups. -/
def groupChars : List Char :=
  ',' :: operandChars

theorem groupChars_spec : ∀ c ∈ groupChars, Text.IsGraphic c ∧ c ≠ '?' := by
  rw [groupChars, List.forall_mem_cons]
  refine ⟨by decide, ?_⟩
  intro c hc
  exact ⟨(operandChars_spec c hc).1.1, (operandChars_spec c hc).2⟩

/-- Some text, with only characters of groups. -/
def IsGroup (s : String) : Prop :=
  Text.HasOnly (· ∈ groupChars) s ∧ s ≠ ""

theorem IsGroup.isGraphic {s : String} (h : IsGroup s) : Text.HasOnly Text.IsGraphic s :=
  h.1.mono fun c hc => (groupChars_spec c hc).1

theorem trimmed_join {ss : List String} (hss : ∀ s ∈ ss, IsGroup s) :
    Text.Trimmed (Text.join " " ss).toList :=
  Text.Trimmed.join fun s hs =>
    ⟨(Text.noBlank_of_isGraphic (hss s hs).isGraphic).trimmed, (hss s hs).2⟩

theorem Spelled.group {s : String} (h : Spelled s) : Text.HasOnly (· ∈ groupChars) s :=
  h.mono fun _ => List.mem_cons_of_mem ','

section

variable {x y : Operand} (hx : x.WellFormed) (style : Style)

include hx

theorem isGroup_operand : IsGroup (x.text style) :=
  ⟨(hx.spelled_text style).group, hx.text_ne_empty style⟩

theorem isGroup_pair (hy : y.WellFormed) : IsGroup (x.text style ++ "," ++ y.text style) := by
  refine ⟨?_, by simp⟩
  rw [Text.hasOnly_append, Text.hasOnly_append]
  exact ⟨⟨(hx.spelled_text style).group, by decide⟩, (hy.spelled_text style).group⟩

end

section

variable {m : Move} (hm : ∀ x ∈ m.present, x.WellFormed) (style : Style)

include hm

theorem isGroup_transferText (hboth : m.source.isSome = m.destination.isSome) :
    ∀ s ∈ transferText m style, IsGroup s := by
  rcases m with ⟨_ | x, _ | y⟩
  · exact nofun
  · exact nofun
  · cases hboth
  · have hx : x.WellFormed := hm x (by simp [Move.present, Move.operands])
    have hy : y.WellFormed := hm y (by simp [Move.present, Move.operands])
    exact List.forall_mem_singleton.2 (isGroup_pair hx style hy)

theorem isGroup_moveText : ∀ s ∈ moveText m style, IsGroup s := by
  rcases m with ⟨_ | x, _ | y⟩
  · exact nofun
  · exact nofun
  · have hx : x.WellFormed := hm x (by simp [Move.present, Move.operands])
    exact List.forall_mem_singleton.2 (isGroup_operand hx style)
  · have hx : x.WellFormed := hm x (by simp [Move.present, Move.operands])
    have hy : y.WellFormed := hm y (by simp [Move.present, Move.operands])
    exact List.forall_mem_singleton.2 (isGroup_pair hx style hy)

end

namespace Operation.WellFormed

variable {i : Instruction} (h : i.toOperation.WellFormed) (style : Style)

include h

theorem spelled_primaryTexts : ∀ s ∈ primaryTexts i style, Spelled s ∧ s ≠ "" := by
  have hoperand : ∀ x, some x ∈ [i.first, i.second, i.third] -> x.WellFormed := by
    intro x hx
    apply h.operands
    simp only [present, List.mem_append]
    left
    left
    simpa using hx
  have htext : ∀ x, some x ∈ [i.first, i.second, i.third] ->
      Spelled (x.text style) ∧ x.text style ≠ "" := by
    intro x hx
    exact ⟨(hoperand x hx).spelled_text style, (hoperand x hx).text_ne_empty style⟩
  have hsign : Spelled (if i.negated then "-" else "") := by
    split <;> decide
  intro s hs
  simp only [primaryTexts, List.mem_append, Option.mem_toList, Option.map_eq_some_iff] at hs
  rcases hs with (⟨x, hx, rfl⟩ | ⟨x, hx, rfl⟩) | ⟨x, hx, rfl⟩
  · have hfirst := htext x (by simp [hx])
    exact ⟨spelled_append.2 ⟨hsign, hfirst.1⟩, by simp [hfirst.2]⟩
  · exact htext x (by simp [hx])
  · exact htext x (by simp [hx])

theorem isGroup_groups : ∀ s ∈ groups i style, IsGroup s := by
  have hpresent := h.operands
  simp only [present, moved, List.forall_mem_append] at hpresent
  rcases hpresent with ⟨⟨_, htransfer⟩, hmoveX, hmoveY⟩
  simp only [groups, List.forall_mem_append]
  refine ⟨⟨⟨?_, isGroup_transferText htransfer style h.transfer⟩,
    isGroup_moveText hmoveX style⟩, isGroup_moveText hmoveY style⟩
  have hprimary := h.spelled_primaryTexts style
  intro s hs
  split at hs
  · cases hs
  · rename_i hne
    rw [List.mem_singleton.1 hs]
    refine ⟨Text.HasOnly.join (by decide) fun t ht => (hprimary t ht).1.group, ?_⟩
    exact Text.join_ne_empty (by simpa using hne) fun t ht => (hprimary t ht).2

end Operation.WellFormed

/-! ## Text -/

/-- No mark for something unknown. -/
def Known (s : String) : Prop :=
  Text.HasOnly (· ≠ '?') s

theorem known_append {s t : String} : Known (s ++ t) ↔ Known s ∧ Known t :=
  Text.hasOnly_append

theorem known_of_not_mem {s : String} (h : '?' ∉ s.toList) : Known s := by
  rintro c hc rfl
  exact h hc

theorem Known.not_mem {s : String} (h : Known s) : '?' ∉ s.toList := by
  intro hmem
  exact h '?' hmem rfl

theorem Spelled.known {s : String} (h : Spelled s) : Known s :=
  h.mono fun c hc => (operandChars_spec c hc).2

theorem IsGroup.known {s : String} (h : IsGroup s) : Known s :=
  h.1.mono fun c hc => (groupChars_spec c hc).2

/-- An opcode is a word that leaves room for a blank in the column of opcodes. -/
theorem Opcode.name_spec {op : Opcode} (hop : op ≠ .unlisted) :
    Text.HasOnly (fun c => Text.IsGraphic c ∧ c ≠ '?') op.name ∧ op.name ≠ "" ∧
      op.name.length < Instruction.opcodeWidth := by
  have hspec : op.name.toList.all (fun c => Text.IsGraphic c && c != '?') = true ∧
      op.name ≠ "" ∧ op.name.toList.length < Instruction.opcodeWidth := by
    cases op with
    | jumpOn c | callOn c | transferOn c => cases c <;> exact ⟨by decide, by decide, by decide⟩
    | unlisted => exact absurd rfl hop
    | _ => exact ⟨by decide, by decide, by decide⟩
  simp only [List.all_eq_true, Bool.and_eq_true, bne_iff_ne, decide_eq_true_eq,
    String.length_toList] at hspec
  exact hspec

theorem Opcode.width_name_lt {op : Opcode} (hop : op ≠ .unlisted) :
    Text.width op.name < Instruction.opcodeWidth :=
  Nat.lt_of_le_of_lt (Text.width_le_length op.name) (name_spec hop).2.2

theorem Opcode.known_name {op : Opcode} (hop : op ≠ .unlisted) : Known op.name :=
  (name_spec hop).1.mono fun _ hc => hc.2

theorem Instruction.spelled_rawText (i : Instruction) : Spelled i.rawText :=
  spelled_append.2 ⟨by decide, spelled_hexPadded 6 i.header⟩

namespace Operation.WellFormed

variable {i : Instruction} (h : i.toOperation.WellFormed) (style : Style)

include h

theorem known_text : Known (i.text style) := by
  have hblank : ' ' ≠ '?' := by decide
  have hname : Known i.opcode.name := Opcode.known_name h.opcode
  rw [Instruction.text]
  split
  · rename_i hdata
    rw [hdata] at hname
    exact known_append.2 ⟨hname.padRight hblank _, i.spelled_rawText.known⟩
  · have hgroups : Known (Text.join " " (groups i style)) :=
      Text.HasOnly.join (known_of_not_mem (by decide)) fun s hs =>
        (h.isGroup_groups style s hs).known
    exact (known_append.2 ⟨hname.padRight hblank _, hgroups⟩).trimBlanks

theorem known_terse : Known (i.terse style) := by
  have hblank : Known " " := known_of_not_mem (by decide)
  have hname : Known i.opcode.name := Opcode.known_name h.opcode
  rw [Instruction.terse]
  split
  · rename_i hdata
    rw [hdata] at hname
    exact known_append.2 ⟨known_append.2 ⟨hname, hblank⟩, i.spelled_rawText.known⟩
  · exact Text.HasOnly.join hblank (List.forall_mem_cons.2
      ⟨hname, fun s hs => (h.isGroup_groups style s hs).known⟩)

end Operation.WellFormed

/-- Whatever is decoded is well formed, and nothing in its text is unknown. -/
theorem wellFormed_decode (words : List Word24) :
    (decode words).WellFormed ∧
      ∀ style, '?' ∉ ((decode words).text style).toList ∧
        '?' ∉ ((decode words).terse style).toList := by
  have hwellFormed := decode_operation_wellFormed words
  refine ⟨hwellFormed, ?_⟩
  intro style
  exact ⟨(hwellFormed.known_text style).not_mem, (hwellFormed.known_terse style).not_mem⟩

end Dsp56k
end Disassembler
