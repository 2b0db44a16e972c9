import Disassembler.Display.Columns
import Disassembler.Proofs.Dsp56k.Legible
import Disassembler.Proofs.M68k.Legible
import Disassembler.Proofs.Text.Lines
import Disassembler.Proofs.Text.Space

/-!
# Aligned and terse text

The two forms of an instruction agree.  A listing cuts the aligned form into the
mnemonic and the operands; with a single blank between them these make up the
terse form.
-/

namespace Disassembler

open Text (HasOnly IsGraphic IsPrintable Trimmed noBlank_of_isGraphic isPrintable_of_isGraphic
  isPrintable_blanks)

/-! ## Fields of a row -/

namespace Fields

/-- The mnemonic, and the operands after a blank if there are any. -/
def rejoin (fields : String × String) : String :=
  if fields.2 = "" then fields.1 else fields.1 ++ " " ++ fields.2

theorem rejoin_of_ne_empty {mnemonic operand : String} (h : operand ≠ "") :
    rejoin (mnemonic, operand) = mnemonic ++ " " ++ operand :=
  if_neg h

@[simp] theorem rejoin_empty (mnemonic : String) : rejoin (mnemonic, "") = mnemonic :=
  rfl

theorem split_word {first : String} (hfirst : HasOnly IsGraphic first) :
    split first = (first, "") := by
  have hblank := noBlank_of_isGraphic hfirst
  have htrim : Text.trim first = first :=
    Text.trim_of_trimmed (isPrintable_of_isGraphic hfirst) hblank.trimmed
  have hbreak : Text.breakOn? " " first = none :=
    Text.breakOn?_of_not_mem (d := ' ') rfl fun hmem => hblank ' ' hmem rfl
  simp only [split, htrim, hbreak]

/-- A text without white space at its ends is cut at its first blank. -/
theorem split_blank {first rest : String} (hfirst : HasOnly IsGraphic first)
    (htrim : Text.trim (first ++ " " ++ rest) = first ++ " " ++ rest) :
    split (first ++ " " ++ rest) = (first, Text.trim rest) := by
  have hblank := noBlank_of_isGraphic hfirst
  have hbreak : Text.breakOn? " " (first ++ " " ++ rest) = some (first, rest) :=
    (Text.breaksAt_of_not_mem (fun hmem => hblank ' ' hmem rfl) _).breakOn?_eq (by decide)
  simp only [split, htrim, hbreak]

/-- What stands after a column that leaves room for a blank. -/
theorem split_padRight {n : Nat} {first second : String} (hfirst : HasOnly IsGraphic first)
    (hne : first ≠ "") (hsecond : HasOnly IsPrintable second) (hends : Trimmed second.toList)
    (hne' : second ≠ "") (hwidth : Text.width first < n) :
    split (Text.padRight n first ++ second) = (first, second) := by
  have hprint : HasOnly IsPrintable (Text.padRight n first ++ second) :=
    Text.hasOnly_append.2 ⟨(isPrintable_of_isGraphic hfirst).padRight (Or.inl rfl) n, hsecond⟩
  have htrimmed : Trimmed (Text.padRight n first ++ second).toList := by
    rw [String.toList_append, Text.padRight, String.toList_append, List.append_assoc]
    exact (noBlank_of_isGraphic hfirst).trimmed.append hends
      (fun h => hne (String.toList_eq_nil_iff.1 h)) (fun h => hne' (String.toList_eq_nil_iff.1 h)) _
  have htrim := Text.trim_of_trimmed hprint htrimmed
  obtain ⟨k, hk⟩ : ∃ k, n - Text.width first = k + 1 := ⟨n - Text.width first - 1, by omega⟩
  have htext : Text.padRight n first ++ second =
      first ++ " " ++ (String.ofList (List.replicate k ' ') ++ second) := by
    rw [← String.toList_inj]
    simp [Text.padRight, hk, List.replicate_succ]
  rw [htext] at htrim ⊢
  rw [split_blank hfirst htrim, Text.trim_blanks_append, Text.trim_of_trimmed hsecond hends]

/-- The blanks that fill the column are trimmed if nothing follows. -/
theorem split_trimBlanks_padRight {n : Nat} {first second : String}
    (hfirst : HasOnly IsGraphic first) (hne : first ≠ "") (hsecond : HasOnly IsPrintable second)
    (hends : Trimmed second.toList) (hwidth : Text.width first < n) :
    split (Text.trimBlanks (Text.padRight n first ++ second)) = (first, second) := by
  have htext := Text.toList_trimBlanks_padRight n (noBlank_of_isGraphic hfirst).trimmed hends
  by_cases hempty : second = ""
  · subst hempty
    rw [if_pos (String.toList_eq_nil_iff.2 rfl), String.toList_inj] at htext
    rw [htext]
    exact split_word hfirst
  · rw [if_neg (fun h => hempty (String.toList_eq_nil_iff.1 h))] at htext
    have hcolumn : Text.trimBlanks (Text.padRight n first ++ second) =
        Text.padRight n first ++ second := by
      rw [← String.toList_inj, htext]
      simp [Text.padRight]
    rw [hcolumn]
    exact split_padRight hfirst hne hsecond hends hempty hwidth

end Fields

/-! ## The 68000 family -/

namespace M68k

/-- An instruction with two operands at most and no bit fields. -/
def Instruction.abridged (i : Instruction) : Instruction :=
  { i with third := none, firstField := none, secondField := none }

theorem Operation.WellFormed.legible_pair {o : Operation} (h : o.WellFormed) (addr : UInt32)
    (style : Style) :
    Legible (separated "" addr style o.first ++ separated "," addr style o.second).toList := by
  rw [String.toList_append, legible_append]
  exact ⟨legible_separated (by simp) (fun x hx => h.of_mem (by simp [hx])) addr style,
    legible_separated (by simp) (fun x hx => h.of_mem (by simp [hx])) addr style⟩

theorem terse_of_repertoire {cpu : Cpu} {i : Instruction} (h : Repertoire cpu i.toOperation)
    (addr : UInt32) (style : Style) :
    i.terse addr style = Fields.rejoin (Fields.split (i.abridged.text addr style)) := by
  have hop : i.opcode ≠ .data := h.opcode_ne_data
  have hmnemonic : FitsColumn i.mnemonic := fitsColumn_mnemonic h.size_mem
  have hpair := h.wellFormed.legible_pair addr style
  have htext : i.abridged.text addr style = Text.trimBlanks
      (Text.padRight Instruction.opcodeWidth i.mnemonic ++
        (separated "" addr style i.first ++ separated "," addr style i.second)) := by
    rw [text_eq_of_ne_data (i := i.abridged) hop]
    simp [Operation.operandsText, Instruction.abridged, separated, Instruction.mnemonic]
  have hwidth : Text.width i.mnemonic < Instruction.opcodeWidth := by
    rw [hmnemonic.width_eq]
    exact hmnemonic.length_lt
  rw [htext, Fields.split_trimBlanks_padRight hmnemonic.legible.isGraphic hmnemonic.ne_empty
    (isPrintable_of_isGraphic hpair.isGraphic) hpair.noBlank.trimmed hwidth,
    Instruction.terse, if_neg hop]
  cases hfirst : i.first with
  | none =>
      -- There is no second operand either.
      have hsecond : i.second = none := by
        cases hsome : i.second with
        | none => rfl
        | some y =>
            have hleft := h.wellFormed.second (by simp [hsome])
            rw [hfirst] at hleft
            cases hleft
      simp [hsecond, separated]
  | some x =>
      have hne := h.separated_ne_empty (by simp [hfirst]) addr style
      rw [hfirst] at hne
      rw [Fields.rejoin_of_ne_empty (by simpa [or_iff_not_imp_left] using hne)]
      simp [separated, String.append_assoc]

theorem terse_data (header : UInt16) (addr : UInt32) (style : Style) :
    (Instruction.data header).terse addr style =
      Fields.rejoin (Fields.split ((Instruction.data header).abridged.text addr style)) := by
  have hname : HasOnly IsGraphic Opcode.data.name := by decide
  have hhex := legible_hex header.toUInt32
  have hne : Number.hex header.toUInt32 ≠ "" := by simp [Number.hex]
  have hsplit := Fields.split_padRight (n := Instruction.opcodeWidth) hname (by decide)
    (isPrintable_of_isGraphic hhex.isGraphic) hhex.noBlank.trimmed hne (by decide)
  have hterse : (Instruction.data header).terse addr style =
      Opcode.data.name ++ " " ++ Number.hex header.toUInt32 := if_pos rfl
  have htext : (Instruction.data header).abridged.text addr style =
      Text.padRight Instruction.opcodeWidth Opcode.data.name ++ Number.hex header.toUInt32 :=
    if_pos rfl
  rw [hterse, htext, hsplit, Fields.rejoin_of_ne_empty hne]

theorem decode_terse (cpu : Cpu) (bytes : Bytes) (addr : UInt32) (style : Style) :
    (decode cpu bytes).terse addr style =
      Fields.rejoin (Fields.split ((decode cpu bytes).abridged.text addr style)) := by
  rcases decode_cases cpu bytes with ⟨code, rest, _, hcode⟩ | hdata
  · exact terse_of_repertoire hcode.repertoire addr style
  · rw [hdata]
    exact terse_data _ addr style

end M68k

/-! ## The signal processor -/

namespace Dsp56k

theorem isPrintable_join {ss : List String} (hss : ∀ s ∈ ss, IsGroup s) :
    HasOnly IsPrintable (Text.join " " ss) :=
  HasOnly.join (isPrintable_blanks 1) fun s hs =>
    isPrintable_of_isGraphic (hss s hs).isGraphic

theorem rejoin_join (first : String) {ss : List String} (hss : ∀ s ∈ ss, IsGroup s) :
    Fields.rejoin (first, Text.join " " ss) = Text.join " " (first :: ss) := by
  cases ss with
  | nil => rfl
  | cons s rest =>
      rw [Fields.rejoin_of_ne_empty
        (Text.join_ne_empty (List.cons_ne_nil s rest) fun t ht => (hss t ht).2), Text.join]

theorem Operation.WellFormed.terse_eq {i : Instruction} (h : i.toOperation.WellFormed)
    (style : Style) : i.terse style = Fields.rejoin (Fields.split (i.text style)) := by
  rcases Opcode.name_spec h.opcode with ⟨hname, hne, _⟩
  have hwidth := Opcode.width_name_lt h.opcode
  have hname' : HasOnly IsGraphic i.opcode.name := hname.mono fun _ hc => hc.1
  by_cases hdata : i.opcode = .data
  · have hraw : HasOnly IsGraphic i.rawText :=
      i.spelled_rawText.mono fun c hc => (operandChars_spec c hc).1.1
    have hne' : i.rawText ≠ "" := by simp [Instruction.rawText]
    rw [hdata] at hname' hne hwidth
    rw [Instruction.text, if_pos hdata, Instruction.terse, if_pos hdata,
      Fields.split_padRight hname' hne (isPrintable_of_isGraphic hraw)
        (noBlank_of_isGraphic hraw).trimmed hne' hwidth,
      Fields.rejoin_of_ne_empty hne']
  · have hgroups := h.isGroup_groups style
    rw [Instruction.text, if_neg hdata, Instruction.terse, if_neg hdata,
      Fields.split_trimBlanks_padRight hname' hne (isPrintable_join hgroups)
        (trimmed_join hgroups) hwidth,
      rejoin_join i.opcode.name hgroups]

end Dsp56k

/-! ## Decoded instructions -/

/-- The terse form of a decoded instruction is its aligned form, without a third
operand and bit fields, with one blank for those of the column. -/
theorem terse_eq_rejoin_split :
    (∀ (cpu : M68k.Cpu) (bytes : Bytes) (addr : UInt32) (style : Style),
      (M68k.decode cpu bytes).terse addr style =
        Fields.rejoin (Fields.split ((M68k.decode cpu bytes).abridged.text addr style))) ∧
    ∀ (words : List Word24) (style : Style),
      (Dsp56k.decode words).terse style =
        Fields.rejoin (Fields.split ((Dsp56k.decode words).text style)) := by
  constructor
  · exact M68k.decode_terse
  · intro words style
    exact (Dsp56k.decode_operation_wellFormed words).terse_eq style

end Disassembler
