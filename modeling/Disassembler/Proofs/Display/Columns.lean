import Disassembler.Listing.Render
import Disassembler.Proofs.Display.Terse

/-!
# Columns of a row

A field that fits into its column has blanks behind it up to the next one.  The
columns are made for the fields of all rows, so that in every row a field begins
where it does in the others.
-/

namespace Disassembler

open Text (HasOnly IsGraphic IsPrintable Trimmed)

namespace Text

/-! ## Texts in columns -/

/-- A text, and the blanks that fill its column. -/
def cell (width : Nat) (s : String) : List Char :=
  s.toList ++ List.replicate (width - s.length) ' '

theorem length_cell {width : Nat} {s : String} (h : s.length ≤ width) :
    (cell width s).length = width := by
  rw [cell, List.length_append, String.length_toList, List.length_replicate]
  omega

theorem isPrintable_cell {s : String} (h : HasOnly IsPrintable s) (width : Nat) :
    ∀ c ∈ cell width s, IsPrintable c :=
  List.forall_mem_append.2 ⟨h, fun _ hc => Or.inl (List.eq_of_mem_replicate hc)⟩

theorem toList_padRight {s : String} (h : HasOnly IsPrintable s) (n : Nat) :
    (padRight n s).toList = cell n s := by
  rw [padRight, String.toList_append, String.toList_ofList,
    width_ascii fun c hc => (h c hc).toNat_lt]
  rfl

theorem toList_padRight_blank {s : String} (h : HasOnly IsPrintable s) {n : Nat}
    (hle : s.length ≤ n) : (padRight n s ++ " ").toList = cell (n + 1) s := by
  rw [String.toList_append, toList_padRight h, cell, cell, Nat.succ_sub hle,
    List.replicate_succ', List.append_assoc]
  rfl

/-- The whole of a text stands at a column.  At least `gap` blanks follow, and they
lead up to the next column. -/
def StandsAt (line : List Char) (column gap next : Nat) (s : String) : Prop :=
  ∃ blanks, gap ≤ blanks ∧ column + s.length + blanks = next ∧
    s.toList ++ List.replicate blanks ' ' <+: line.drop column

/-- What a line goes on with from a column.  All that stands in front of it shows. -/
structure GoesOn (line : List Char) (column : Nat) (rest : List Char) : Prop where
  drop_eq : line.drop column = rest
  printable : ∀ c ∈ line.take column, IsPrintable c

theorem goesOn_append {s : String} (h : HasOnly IsPrintable s) (rest : List Char) :
    GoesOn (s.toList ++ rest) s.length rest where
  drop_eq := by rw [← String.length_toList, List.drop_left]
  printable := by
    rw [← String.length_toList, List.take_left]
    exact h

/-- A text that fits stands in the first column of the rest, and the line goes on
behind it. -/
theorem GoesOn.cell {line after : List Char} {column width : Nat} {s : String}
    (h : GoesOn line column (Text.cell width s ++ after)) (hs : HasOnly IsPrintable s) (gap : Nat)
    (hfits : s.length + gap ≤ width) :
    StandsAt line column gap (column + width) s ∧ GoesOn line (column + width) after := by
  have hlength := length_cell (Nat.le_of_add_right_le hfits)
  constructor
  · refine ⟨width - s.length, by omega, by omega, ?_⟩
    rw [h.drop_eq]
    exact List.prefix_append _ _
  · constructor
    · rw [← List.drop_drop, h.drop_eq, List.drop_left' hlength]
    · rw [List.take_add, h.drop_eq, List.take_left' hlength]
      exact List.forall_mem_append.2 ⟨h.printable, isPrintable_cell hs width⟩

end Text

/-! ## Widths -/

namespace Columns

/-- The fields are no wider than their columns. -/
structure Holds (c : Columns) (f : Fields) : Prop where
  address : f.address.length ≤ c.address
  bytecode : f.bytecode.length ≤ c.bytecode
  mnemonic : f.mnemonic.length ≤ c.mnemonic
  operand : f.operand.length ≤ c.operand

theorem holds_update (c : Columns) (f : Fields) : (c.update f).Holds f := by
  constructor <;> exact Nat.le_max_right _ _

theorem Holds.update {c : Columns} {f : Fields} (h : c.Holds f) (g : Fields) :
    (c.update g).Holds f where
  address := Nat.le_trans h.address (Nat.le_max_left _ _)
  bytecode := Nat.le_trans h.bytecode (Nat.le_max_left _ _)
  mnemonic := Nat.le_trans h.mnemonic (Nat.le_max_left _ _)
  operand := Nat.le_trans h.operand (Nat.le_max_left _ _)

theorem Holds.foldl {c : Columns} {f : Fields} (h : c.Holds f) (rows : List Fields) :
    (rows.foldl Columns.update c).Holds f := by
  induction rows generalizing c with
  | nil => exact h
  | cons g rows ih => exact ih (h.update g)

/-- The columns hold the fields of every row that they are made for. -/
theorem holds_ofRows {rows : List Fields} {f : Fields} (hf : f ∈ rows) :
    (ofRows rows).Holds f := by
  rcases List.append_of_mem hf with ⟨before, after, rfl⟩
  rw [ofRows, List.foldl_append, List.foldl_cons]
  exact (holds_update _ f).foldl after

end Columns

/-! ## Cutting the text of an instruction -/

namespace Fields

/-- A word and what follows it are all of a text but for the blanks between them. -/
structure CutsCleanly (text mnemonic operand : String) : Prop where
  isGraphic : HasOnly IsGraphic mnemonic
  isPrintable : HasOnly IsPrintable operand
  text_eq : ∃ blanks,
    text.toList = mnemonic.toList ++ (List.replicate blanks ' ' ++ operand.toList)

/-- A text that is cut at its first blank. -/
def SplitsCleanly (text : String) : Prop :=
  CutsCleanly text (split text).1 (split text).2

section

variable {n : Nat} {first second : String} (hfirst : HasOnly IsGraphic first) (hne : first ≠ "")
variable (hsecond : HasOnly IsPrintable second) (hends : Trimmed second.toList)
variable (hwidth : Text.width first < n)

include hfirst hne hsecond hends hwidth

theorem splitsCleanly_padRight (hne' : second ≠ "") :
    SplitsCleanly (Text.padRight n first ++ second) := by
  rw [SplitsCleanly, split_padRight hfirst hne hsecond hends hne' hwidth]
  refine ⟨hfirst, hsecond, n - Text.width first, ?_⟩
  rw [Text.padRight, String.toList_append, String.toList_append, String.toList_ofList,
    List.append_assoc]

theorem splitsCleanly_trimBlanks :
    SplitsCleanly (Text.trimBlanks (Text.padRight n first ++ second)) := by
  have htext := Text.toList_trimBlanks_padRight n (Text.noBlank_of_isGraphic hfirst).trimmed hends
  rw [SplitsCleanly, split_trimBlanks_padRight hfirst hne hsecond hends hwidth]
  refine ⟨hfirst, hsecond, ?_⟩
  split at htext
  · rename_i hnil
    refine ⟨0, ?_⟩
    rw [htext, hnil, List.replicate_zero, List.append_nil, List.append_nil]
  · exact ⟨_, htext⟩

end

end Fields

theorem M68k.splitsCleanly_text (cpu : Cpu) (bytes : Bytes) (addr : UInt32) (style : Style) :
    Fields.SplitsCleanly ((decode cpu bytes).text addr style) := by
  rcases decode_cases cpu bytes with ⟨code, rest, _, hcode⟩ | hdata
  · have hmnemonic : FitsColumn (decode cpu bytes).mnemonic :=
      fitsColumn_mnemonic hcode.repertoire.size_mem
    have hoperands := hcode.repertoire.wellFormed.legible_operandsText addr style
    have hwidth : Text.width (decode cpu bytes).mnemonic < Instruction.opcodeWidth := by
      rw [hmnemonic.width_eq]
      exact hmnemonic.length_lt
    rw [text_eq_of_ne_data hcode.repertoire.opcode_ne_data]
    exact Fields.splitsCleanly_trimBlanks hmnemonic.legible.isGraphic hmnemonic.ne_empty
      (Text.isPrintable_of_isGraphic hoperands.isGraphic) hoperands.noBlank.trimmed hwidth
  · have hhex := legible_hex (decode cpu bytes).header.toUInt32
    have hop : (decode cpu bytes).opcode = .data := by
      rw [hdata]
      rfl
    rw [Instruction.text, if_pos hop]
    exact Fields.splitsCleanly_padRight (by decide) (by decide)
      (Text.isPrintable_of_isGraphic hhex.isGraphic) hhex.noBlank.trimmed (by decide)
      (by simp [Number.hex])

theorem Dsp56k.splitsCleanly_text (words : List Word24) (style : Style) :
    Fields.SplitsCleanly ((decode words).text style) := by
  have hwellFormed := decode_operation_wellFormed words
  rcases Opcode.name_spec hwellFormed.opcode with ⟨hname, hne, _⟩
  have hwidth := Opcode.width_name_lt hwellFormed.opcode
  have hname' := hname.mono fun _ hc => hc.1
  by_cases hdata : (decode words).opcode = .data
  · have hraw : HasOnly IsGraphic (decode words).rawText :=
      (decode words).spelled_rawText.mono fun c hc => (operandChars_spec c hc).1.1
    rw [hdata] at hname' hne hwidth
    rw [Instruction.text, if_pos hdata]
    exact Fields.splitsCleanly_padRight hname' hne (Text.isPrintable_of_isGraphic hraw)
      (Text.noBlank_of_isGraphic hraw).trimmed hwidth (by simp [Instruction.rawText])
  · have hgroups := hwellFormed.isGroup_groups style
    rw [Instruction.text, if_neg hdata]
    exact Fields.splitsCleanly_trimBlanks hname' hne (isPrintable_join hgroups)
      (trimmed_join hgroups) hwidth

/-! ## Rows -/

/-- The columns at which the fields of a row begin. -/
structure Positions where
  address : Nat
  bytecode : Nat
  mnemonic : Nat
  operand : Nat
  comment : Nat

/-- The fields stand in columns of their own, one behind the other.  A blank sets off
the address and the mnemonic, and the bytecode if it is shown.  In front of the
comment there are only blanks and characters that show, so that columns are counted
in characters. -/
structure Aligned (o : ListingOptions) (p : Positions) (f : Fields) (line : String) : Prop where
  address : Text.StandsAt line.toList p.address 1 p.bytecode f.address
  bytecode : Text.StandsAt line.toList p.bytecode (if o.bytecode then 1 else 0) p.mnemonic
    f.bytecode
  mnemonic : Text.StandsAt line.toList p.mnemonic 1 p.operand f.mnemonic
  operand : Text.StandsAt line.toList p.operand 0 p.comment f.operand
  comment : line.toList.drop p.comment =
    (if f.comment = "" then "" else "  ; " ++ f.comment).toList
  printable : ∀ c ∈ line.toList.take p.comment, IsPrintable c

namespace Fields

/-- Only the comment can have other characters than blanks and those that show. -/
structure IsPlain (f : Fields) : Prop where
  address : HasOnly IsPrintable f.address
  bytecode : HasOnly IsPrintable f.bytecode
  mnemonic : HasOnly IsPrintable f.mnemonic
  operand : HasOnly IsPrintable f.operand

end Fields

namespace Listing

/-- The room for the bytecode, with the blank behind it. -/
def bytecodeWidth (o : ListingOptions) (c : Columns) : Nat :=
  if o.bytecode then c.bytecode + 1 else 0

/-- Where the columns begin behind a margin. -/
def positions (o : ListingOptions) (c : Columns) (margin : Nat) : Positions where
  address := margin
  bytecode := margin + (c.address + 1)
  mnemonic := margin + (c.address + 1) + bytecodeWidth o c
  operand := margin + (c.address + 1) + bytecodeWidth o c + (c.mnemonic + 1)
  comment := margin + (c.address + 1) + bytecodeWidth o c + (c.mnemonic + 1) + c.operand

section

variable {o : ListingOptions} {c : Columns} {f : Fields}

theorem toList_rowText (hterse : o.terse = false) (hholds : c.Holds f) (hplain : f.IsPlain)
    (hbytecode : o.bytecode = false -> f.bytecode = "") :
    (rowText o c (.code f)).toList =
      Text.cell (c.address + 1) f.address ++
        (Text.cell (bytecodeWidth o c) f.bytecode ++
          (Text.cell (c.mnemonic + 1) f.mnemonic ++
            (Text.cell c.operand f.operand ++
              (if f.comment = "" then "" else "  ; " ++ f.comment).toList))) := by
  have hroom : (if o.bytecode then Text.padRight c.bytecode f.bytecode ++ " " else "").toList =
      Text.cell (bytecodeWidth o c) f.bytecode := by
    rw [bytecodeWidth]
    cases hshown : o.bytecode with
    | true => exact Text.toList_padRight_blank hplain.bytecode hholds.bytecode
    | false =>
        rw [hbytecode hshown]
        rfl
  rw [← hroom, ← Text.toList_padRight_blank hplain.address hholds.address,
    ← Text.toList_padRight_blank hplain.mnemonic hholds.mnemonic,
    ← Text.toList_padRight hplain.operand]
  simp only [rowText, hterse, Bool.false_eq_true, if_false, String.isEmpty_iff,
    String.toList_append, List.append_assoc]

/-- Behind a margin that shows, the fields of a row are aligned. -/
theorem aligned_rowText (hterse : o.terse = false) (hholds : c.Holds f) (hplain : f.IsPlain)
    (hbytecode : o.bytecode = false -> f.bytecode = "") {margin : String}
    (hmargin : HasOnly IsPrintable margin) :
    Aligned o (positions o c margin.length) f (margin ++ rowText o c (.code f)) := by
  have hroom : f.bytecode.length + (if o.bytecode then 1 else 0) ≤ bytecodeWidth o c := by
    rw [bytecodeWidth]
    cases hshown : o.bytecode with
    | true => exact Nat.succ_le_succ hholds.bytecode
    | false =>
        rw [hbytecode hshown]
        exact Nat.le_refl 0
  have hline := Text.goesOn_append hmargin (rowText o c (.code f)).toList
  rw [← String.toList_append, toList_rowText hterse hholds hplain hbytecode] at hline
  rcases hline.cell hplain.address 1 (Nat.succ_le_succ hholds.address) with ⟨haddress, hline⟩
  rcases hline.cell hplain.bytecode _ hroom with ⟨hbytecode, hline⟩
  rcases hline.cell hplain.mnemonic 1 (Nat.succ_le_succ hholds.mnemonic) with ⟨hmnemonic, hline⟩
  rcases hline.cell hplain.operand 0 hholds.operand with ⟨hoperand, hline⟩
  exact ⟨haddress, hbytecode, hmnemonic, hoperand, hline.drop_eq, hline.printable⟩

end

end Listing

end Disassembler
