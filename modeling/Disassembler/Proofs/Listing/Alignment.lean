import Disassembler.Proofs.Listing.LineBreaks
import Disassembler.Proofs.Listing.Snapshots
import Disassembler.Proofs.Listing.Tiling

/-!
# Alignment

The widths of the columns are those of all instruction rows, and all margins have the
same width.  So the fields of every row stand where they do in the others.
-/

namespace Disassembler

open Text (HasOnly IsPrintable OneLine oneLine_append)

variable {u i : Type}

/-! ## Decoded lines -/

/-- A line of some block. -/
def Machine.Lists (m : Machine u i) (l : Line u i) : Prop :=
  ∃ address limit units, l ∈ m.block address limit units

theorem Machine.Lists.exists_decode {m : Machine u i} {l : Line u i} (h : m.Lists l) :
    ∃ units, l.inst = m.decode units := by
  rcases h with ⟨address, limit, units, hl⟩
  have hlines : l ∈ m.lines address units := by
    rcases Int.lt_or_le 0 limit with hlimit | hlimit
    · rw [m.block_eq_take address limit units hlimit] at hl
      exact List.mem_of_mem_take hl
    · rw [m.block_eq_lines address limit units hlimit] at hl
      exact hl
  rcases mem_lines hlines with ⟨a, rest, _, rfl⟩
  exact ⟨rest, rfl⟩

namespace Number

theorem isPrintable_hexPadded (width n : Nat) : HasOnly IsPrintable (hexPadded width n) := by
  have hchars : ∀ c ∈ numberChars, IsPrintable c := by
    simp [numberChars, IsPrintable, Text.IsGraphic]
  exact forall_mem_hexPadded hchars width n

theorem isPrintable_bytecode (mem : Bytes) : HasOnly IsPrintable (bytecode mem) := by
  refine HasOnly.join (Text.isPrintable_blanks 1) ?_
  fun_induction byteGroups mem with
  | case1 high low rest ih =>
      exact List.forall_mem_cons.2 ⟨Text.hasOnly_append.2
        ⟨isPrintable_hexPadded 2 high.toNat, isPrintable_hexPadded 2 low.toNat⟩, ih⟩
  | case2 last => exact List.forall_mem_singleton.2 (isPrintable_hexPadded 2 last.toNat)
  | case3 => exact List.forall_mem_nil _

theorem isPrintable_bytecode24 (mem : List Word24) : HasOnly IsPrintable (bytecode24 mem) := by
  refine HasOnly.join (Text.isPrintable_blanks 1) ?_
  intro s hs
  rcases List.mem_map.1 hs with ⟨w, _, rfl⟩
  exact isPrintable_hexPadded 6 w.toNat

end Number

namespace Listing

/-! ## Fields -/

/-- Fields that can be shown in columns. -/
structure Showable (o : ListingOptions) (f : Fields) : Prop where
  plain : f.IsPlain
  bytecode : o.bytecode = false -> f.bytecode = ""
  oneLine : RemarksOneLine o -> OneLine f.comment

/-- The fields of a line, with the text of its instruction.  There are none if the
annotator has a fault. -/
inductive HasFields (o : ListingOptions) (fault : Option Fault) (text : String) :
    Except Fault Fields -> Prop where
  | fault {f : Fault} : fault = some f ->
      HasFields o fault text (.error (.report writeError [.fault f]))
  | fields {f : Fields} : Showable o f -> Fields.CutsCleanly text f.mnemonic f.operand ->
      HasFields o fault text (.ok f)

section

variable {o : ListingOptions} (hterse : o.terse = false) {addressText bytecode text : String}
variable (haddress : HasOnly IsPrintable addressText) (hbytecode : HasOnly IsPrintable bytecode)
variable (hsplits : Fields.SplitsCleanly text)

include hterse haddress hbytecode hsplits

theorem showable_fieldsOf (terse : String) {c : String} (hc : RemarksOneLine o -> OneLine c) :
    Showable o (fieldsOf o addressText bytecode terse text c) ∧
      Fields.CutsCleanly text (fieldsOf o addressText bytecode terse text c).mnemonic
        (fieldsOf o addressText bytecode terse text c).operand := by
  have hfields : fieldsOf o addressText bytecode terse text c =
      { address := addressText, bytecode := if o.bytecode then bytecode else "",
        mnemonic := (Fields.split text).1, operand := (Fields.split text).2, comment := c } := by
    simp only [fieldsOf, hterse, Bool.false_eq_true, if_false]
  have hshown : HasOnly IsPrintable (if o.bytecode then bytecode else "") := by
    split
    · exact hbytecode
    · exact List.forall_mem_nil _
  have hhidden : o.bytecode = false -> (if o.bytecode then bytecode else "") = "" := by
    intro h
    rw [h]
    rfl
  have hmnemonic := Text.isPrintable_of_isGraphic hsplits.isGraphic
  have hoperand := hsplits.isPrintable
  rw [hfields]
  rw [Fields.SplitsCleanly] at hsplits
  -- The parts are as good as any other texts from here on.
  generalize Fields.split text = parts at hsplits hmnemonic hoperand ⊢
  exact ⟨⟨⟨haddress, hshown, hmnemonic, hoperand⟩, hhidden, hc⟩, hsplits⟩

theorem hasFields (address : UInt32) (terse : String) {parts : List String}
    (hparts : ∀ s ∈ parts, OneLine s) :
    HasFields o (annotatorFault? o address terse) text do
      let c <- comment o address terse parts
      return fieldsOf o addressText bytecode terse text c := by
  rcases comment_cases o address terse parts with ⟨_, c, hc⟩ | ⟨f, hfault, hc⟩
  · have hfields := showable_fieldsOf hterse haddress hbytecode hsplits terse
      fun ho => oneLine_comment ho hparts hc
    rw [hc]
    exact .fields hfields.1 hfields.2
  · rw [hc]
    exact .fault hfault

end

theorem hasFields68 {o : ListingOptions} (hterse : o.terse = false) {table : Option SymbolTable}
    (htable : ∀ t ∈ table, t.IsValid) (regs : Option M68k.Registers) {l : Line68}
    (hl : ∃ cpu, (Machine.m68k cpu).Lists l) :
    HasFields o (fault68? o l) (l.inst.text l.address o.style) (fields68 o table regs l) := by
  rcases hl with ⟨cpu, hl⟩
  rcases hl.exists_decode with ⟨units, hinst⟩
  have hdollar : HasOnly IsPrintable "$" := Text.isPrintable_of_isGraphic (by decide)
  refine hasFields hterse ?_ (Number.isPrintable_bytecode l.mem) ?_ l.address _ ?_
  · exact Text.hasOnly_append.2 ⟨hdollar, Number.isPrintable_hexPadded 8 l.address.toNat⟩
  · rw [hinst]
    exact M68k.splitsCleanly_text cpu units l.address o.style
  · simp only [List.forall_mem_cons]
    exact ⟨oneLine_addressComment68 htable regs l,
      l.inst.oneLine_branchComment l.address regs, List.forall_mem_nil _⟩

theorem hasFields56 {o : ListingOptions} (hterse : o.terse = false)
    (regs : Option Dsp56k.Registers) {l : Line56} (hl : Machine.dsp56k.Lists l) :
    HasFields o (fault56? o l) (l.inst.text o.style) (fields56 o regs l) := by
  rcases hl.exists_decode with ⟨units, hinst⟩
  have hspace : HasOnly IsPrintable "p:$" := Text.isPrintable_of_isGraphic (by decide)
  refine hasFields hterse ?_ (Number.isPrintable_bytecode24 l.mem) ?_ l.address _ ?_
  · exact Text.hasOnly_append.2 ⟨hspace, Number.isPrintable_hexPadded 4 l.address.toNat⟩
  · rw [hinst]
    exact Dsp56k.splitsCleanly_text units o.style
  · simp only [List.forall_mem_cons]
    exact ⟨l.inst.oneLine_addressComment l.address regs,
      l.inst.oneLine_branchComment l.address regs, List.forall_mem_nil _⟩

/-! ## Rows -/

/-- The labels of a line, and then its fields. -/
def rowsWith (labels : Line u i -> List Row) (fieldsOf : Line u i -> Except Fault Fields)
    (l : Line u i) : Except Fault (List Row) := do
  let fields <- fieldsOf l
  return labels l ++ [.code fields]

theorem rows68_eq_rowsWith (o : ListingOptions) (table : Option SymbolTable)
    (regs : Option M68k.Registers) :
    rows68 o table regs = rowsWith (fun l => labelOf table l.address) (fields68 o table regs) :=
  rfl

theorem rows56_eq_rowsWith (o : ListingOptions) (regs : Option Dsp56k.Registers) :
    rows56 o regs = rowsWith (fun _ => []) (fields56 o regs) :=
  rfl

/-- The rows of a line whose fields can be shown, and are all of its instruction. -/
inductive RowsShow (o : ListingOptions) (fieldsOf : Line u i -> Except Fault Fields)
    (text : Line u i -> String) (labels : Line u i -> List Row) (l : Line u i) :
    List Row -> Prop where
  | code {f : Fields} : fieldsOf l = .ok f -> Showable o f ->
      Fields.CutsCleanly (text l) f.mnemonic f.operand ->
        RowsShow o fieldsOf text labels l (labels l ++ [.code f])

/-- Rows of a listing before blanks are trimmed.  Every row with fields has them in
the same columns, and every line has such a row.  No row has a line break. -/
structure LinesUp (o : ListingOptions) (fieldsOf : Line u i -> Except Fault Fields)
    (text : Line u i -> String) (row : Nat -> Nat) (lines : List (Line u i)) (p : Positions)
    (rows : List Row) (padded : List String) : Prop where
  length_eq : padded.length = rows.length
  aligned : ∀ (r : Nat) (f : Fields), rows[r]? = some (Row.code f) ->
    ∃ line, padded[r]? = some line ∧ Aligned o p f line
  row_of_line : ∀ k (hk : k < lines.length), ∃ f, fieldsOf lines[k] = .ok f ∧
    Fields.CutsCleanly (text lines[k]) f.mnemonic f.operand ∧ rows[row k]? = some (Row.code f)
  oneLine : RemarksOneLine o -> ∀ line ∈ padded, OneLine line

/-- A listing has its rows in columns, or a fault of the annotator.  A row as it is
written ends with its only line break, and with no blank in front of it. -/
inductive Rendered (o : ListingOptions) (fault? : Line u i -> Option Fault)
    (fieldsOf : Line u i -> Except Fault Fields) (text : Line u i -> String)
    (row : Nat -> Nat) (lines : List (Line u i)) : Except Fault (List String) -> Prop where
  | fault {l : Line u i} {f : Fault} : l ∈ lines -> fault? l = some f ->
      Rendered o fault? fieldsOf text row lines (.error (.report writeError [.fault f]))
  | rows {p : Positions} {rows : List Row} {branches : List Branch} :
      LinesUp o fieldsOf text row lines p rows (paddedTexts o rows branches) ->
      (∀ line ∈ rowTexts o rows branches, ∃ s, line = s ++ "\n" ∧
        s.toList.getLast? ≠ some ' ' ∧ (RemarksOneLine o -> OneLine s)) ->
      Rendered o fault? fieldsOf text row lines (.ok (rowTexts o rows branches))

section

variable {o : ListingOptions} {fault? : Line u i -> Option Fault}
variable {fieldsOf : Line u i -> Except Fault Fields} {text : Line u i -> String}
variable {labels : Line u i -> List Row} {lines : List (Line u i)} {groups : List (List Row)}

theorem HasFields.rowsShow {l : Line u i} (h : HasFields o (fault? l) (text l) (fieldsOf l)) :
    (∃ f, fault? l = some f ∧
      rowsWith labels fieldsOf l = .error (.report writeError [.fault f])) ∨
    ∃ rows, rowsWith labels fieldsOf l = .ok rows ∧ RowsShow o fieldsOf text labels l rows := by
  rw [rowsWith]
  generalize hresult : fieldsOf l = result at h
  cases h with
  | fault hfault => exact Or.inl ⟨_, hfault, rfl⟩
  | fields hshow hcuts => exact Or.inr ⟨_, rfl, .code hresult hshow hcuts⟩

/-- Lines have their rows together, unless the annotator has a fault on one. -/
theorem mapM_rowsWith (h : ∀ l ∈ lines, HasFields o (fault? l) (text l) (fieldsOf l)) :
    (∃ l ∈ lines, ∃ f, fault? l = some f ∧
      lines.mapM (rowsWith labels fieldsOf) = .error (.report writeError [.fault f])) ∨
    ∃ groups, lines.mapM (rowsWith labels fieldsOf) = .ok groups ∧
      List.Forall₂ (RowsShow o fieldsOf text labels) lines groups := by
  induction lines with
  | nil => exact Or.inr ⟨[], rfl, .nil⟩
  | cons l lines ih =>
      rw [List.mapM_cons]
      rcases (h l List.mem_cons_self).rowsShow with ⟨f, hf, hrows⟩ | ⟨rows, hrows, hshow⟩
      · left
        rw [hrows]
        exact ⟨l, List.mem_cons_self, f, hf, rfl⟩
      · rcases ih fun l hl => h l (List.mem_cons_of_mem _ hl) with
          ⟨l', hl', f, hf, herror⟩ | ⟨groups, hgroups, hrest⟩
        · left
          rw [hrows, herror]
          exact ⟨l', List.mem_cons_of_mem l hl', f, hf, rfl⟩
        · right
          rw [hrows, hgroups]
          exact ⟨_, rfl, .cons hshow hrest⟩

/-- The fields of a line are in its row. -/
theorem exists_code_row (h : List.Forall₂ (RowsShow o fieldsOf text labels) lines groups)
    {k : Nat} (hk : k < lines.length) : ∃ f, fieldsOf lines[k] = .ok f ∧
      Fields.CutsCleanly (text lines[k]) f.mnemonic f.operand ∧
        groups.flatten[instructionRow labels lines k]? = some (.code f) := by
  induction h generalizing k with
  | nil => exact absurd hk (Nat.not_lt_zero k)
  | @cons l rows lines groups hl _ ih =>
      cases hl with
      | code hfields _ hcuts =>
          rw [List.flatten_cons, List.append_assoc]
          cases k with
          | zero =>
              refine ⟨_, hfields, hcuts, ?_⟩
              simp [instructionRow]
          | succ k =>
              rw [instructionRow_cons_succ, List.getElem?_append_right (Nat.le_add_right _ _),
                Nat.add_sub_cancel_left]
              exact ih (Nat.lt_of_succ_lt_succ hk)

theorem mem_flatten_cases (h : List.Forall₂ (RowsShow o fieldsOf text labels) lines groups)
    (hlabels : ∀ l ∈ lines, ∀ row ∈ labels l, ∃ name, row = .label name ∧ OneLine name)
    {row : Row} (hrow : row ∈ groups.flatten) :
    (∃ name, row = .label name ∧ OneLine name) ∨ ∃ f, row = .code f ∧ Showable o f := by
  induction h with
  | nil => cases hrow
  | cons hl _ ih =>
      rcases List.forall_mem_cons.1 hlabels with ⟨hfirst, hlabels⟩
      rw [List.flatten_cons, List.mem_append] at hrow
      rcases hrow with hrow | hrow
      · cases hl with
        | code _ hshow _ =>
            rcases List.mem_append.1 hrow with hrow | hrow
            · exact Or.inl (hfirst row hrow)
            · exact Or.inr ⟨_, List.mem_singleton.1 hrow, hshow⟩
      · exact ih hlabels hrow

/-- A row with fields is aligned behind any of the margins. -/
theorem aligned_of_mem (hterse : o.terse = false) {rows : List Row} {branches : List Branch}
    {margin : String} {f : Fields} (hmargin : margin ∈ margins o rows.length branches)
    (hrow : Row.code f ∈ rows) (hshow : Showable o f) :
    Aligned o
      (positions o (Columns.ofRows (codeFields rows)) (marginWidth o rows.length branches)) f
      (margin ++ rowText o (Columns.ofRows (codeFields rows)) (.code f)) := by
  have hmem : f ∈ codeFields rows := List.mem_filterMap.2 ⟨.code f, hrow, rfl⟩
  rcases margin_spec hmargin with ⟨hprint, hwidth⟩
  rw [← hwidth]
  exact aligned_rowText hterse (Columns.holds_ofRows hmem) hshow.plain hshow.bytecode hprint

theorem linesUp_paddedTexts (hterse : o.terse = false)
    (hlabels : ∀ l ∈ lines, ∀ row ∈ labels l, ∃ name, row = .label name ∧ OneLine name)
    (h : List.Forall₂ (RowsShow o fieldsOf text labels) lines groups) (branches : List Branch) :
    LinesUp o fieldsOf text (instructionRow labels lines) lines
      (positions o (Columns.ofRows (codeFields groups.flatten))
        (marginWidth o groups.flatten.length branches))
      groups.flatten (paddedTexts o groups.flatten branches) := by
  have hcases : ∀ row ∈ groups.flatten,
      (∃ name, row = .label name ∧ OneLine name) ∨ ∃ f, row = .code f ∧ Showable o f :=
    fun row hrow => mem_flatten_cases h hlabels hrow
  have hmargins := length_margins o groups.flatten.length branches
  rw [paddedTexts_eq]
  constructor
  · rw [List.length_zipWith, hmargins, Nat.min_self]
  · intro r f hr
    have hrow := List.mem_of_getElem? hr
    rcases hcases _ hrow with ⟨name, hlabel, _⟩ | ⟨f', hcode, hshow⟩
    · cases hlabel
    · cases hcode
      have hlt : r < (margins o groups.flatten.length branches).length := by
        rw [hmargins]
        exact (List.getElem?_eq_some_iff.1 hr).1
      refine ⟨_, ?_, aligned_of_mem hterse (List.getElem_mem hlt) hrow hshow⟩
      exact List.getElem?_zipWith_eq_some.2 ⟨_, _, List.getElem?_eq_getElem hlt, hr, rfl⟩
  · intro k hk
    exact exists_code_row h hk
  · intro ho line hline
    rcases List.getElem?_of_mem hline with ⟨r, hr⟩
    rcases List.getElem?_zipWith_eq_some.1 hr with ⟨margin, row, hmargin, hrow, rfl⟩
    have hmargin' := List.mem_of_getElem? hmargin
    have hrow' := List.mem_of_getElem? hrow
    rcases hcases row hrow' with ⟨name, rfl, hname⟩ | ⟨f, rfl, hshow⟩
    · have hprint := Text.oneLine_of_isPrintable (margin_spec hmargin').1
      exact oneLine_append.2 ⟨hprint, oneLine_append.2 ⟨hname, by decide⟩⟩
    · exact oneLine_of_aligned (aligned_of_mem hterse hmargin' hrow' hshow) (hshow.oneLine ho)

theorem rendered_of_hasFields (hterse : o.terse = false)
    (h : ∀ l ∈ lines, HasFields o (fault? l) (text l) (fieldsOf l))
    (hlabels : ∀ l ∈ lines, ∀ row ∈ labels l, ∃ name, row = .label name ∧ OneLine name)
    (branches : List Branch) :
    Rendered o fault? fieldsOf text (instructionRow labels lines) lines (do
      let groups <- lines.mapM (rowsWith labels fieldsOf)
      return renderGroups o groups branches) := by
  rcases mapM_rowsWith h with ⟨l, hl, f, hf, herror⟩ | ⟨groups, hgroups, hrows⟩
  · rw [herror]
    exact .fault hl hf
  · rw [hgroups]
    have hlines := linesUp_paddedTexts hterse hlabels hrows
      (branches.map (branchInRows (firstRows groups)))
    refine .rows hlines ?_
    intro row hrow
    rcases List.mem_map.1 hrow with ⟨line, hline, rfl⟩
    exact ⟨_, rfl, getLast?_trimBlanks line,
      fun ho => HasOnly.trimBlanks (hlines.oneLine ho line hline)⟩

end

/-! ## Listings -/

/-- Whatever is decoded by the block, on both processors, is listed in columns,
unless the annotator has a fault. -/
theorem columns_lineUp (o : ListingOptions) (hterse : o.terse = false) :
    (∀ table regs (lines : List Line68),
      (∀ t ∈ table, ∃ log edits, t = (SymbolTable.run log edits).1) ->
      (∀ l ∈ lines, ∃ cpu, (Machine.m68k cpu).Lists l) ->
        Rendered o (fault68? o) (fields68 o table regs) (fun l => l.inst.text l.address o.style)
          (codeRow table lines) lines (render68 o table regs lines)) ∧
    ∀ regs (lines : List Line56), (∀ l ∈ lines, Machine.dsp56k.Lists l) ->
      Rendered o (fault56? o) (fields56 o regs) (fun l => l.inst.text o.style) id lines
        (render56 o regs lines) := by
  constructor
  · intro table regs lines htable hlines
    have hvalid : ∀ t ∈ table, t.IsValid := by
      intro t ht
      rcases htable t ht with ⟨log, edits, rfl⟩
      exact SymbolTable.isValid_run log edits
    have hrow : instructionRow (fun l => labelOf table l.address) lines = codeRow table lines :=
      funext (instructionRow_labelOf table lines)
    rw [← hrow, render68, rows68_eq_rowsWith]
    refine rendered_of_hasFields hterse ?_ ?_ (branches68 lines)
    · intro l hl
      exact hasFields68 hterse hvalid regs (hlines l hl)
    · intro l _ row hrow
      exact oneLine_labelOf hvalid hrow
  · intro regs lines hlines
    have hrow : instructionRow (fun _ => []) lines = id := funext (instructionRow_nil lines)
    rw [← hrow, render56, rows56_eq_rowsWith]
    refine rendered_of_hasFields hterse ?_ ?_ (branches56 lines)
    · intro l hl
      exact hasFields56 hterse regs (hlines l hl)
    · intro l _ row hrow
      cases hrow

/-- A loop back to a line with a label, with arrows and bytecode, and a jump of the
signal processor. -/
theorem columns_lineUp_loop :
    let o : ListingOptions := { bytecode := true, arrows := true }
    let table := (SymbolTable.run { limit := 1 } [.add { name := "loop", address := 0x1000 }]).1
    let loop := (Machine.m68k .m68000).block 0x1000 0 [0x4e, 0x71, 0x60, 0xfc]
    let jump := Machine.dsp56k.block 0x40 0 (Word24.unpack [0x0c, 0x00, 0x40])
    o.terse = false ∧ loop.map Line.address = [0x1000, 0x1002] ∧
      (∀ t ∈ some table, ∃ log edits, t = (SymbolTable.run log edits).1) ∧
      (∀ l ∈ loop, ∃ cpu, (Machine.m68k cpu).Lists l) ∧
      (∀ l ∈ jump, Machine.dsp56k.Lists l) ∧
      Rendered o (fault68? o) (fields68 o (some table) none)
        (fun l => l.inst.text l.address o.style) (codeRow (some table) loop) loop
        (render68 o (some table) none loop) ∧
      Rendered o (fault56? o) (fields56 o none) (fun l => l.inst.text o.style) id jump
        (render56 o none jump) := by
  intro o table loop jump
  have htable : ∀ t ∈ some table, ∃ log edits, t = (SymbolTable.run log edits).1 := by
    rintro t ⟨⟩
    exact ⟨{ limit := 1 }, [.add { name := "loop", address := 0x1000 }], rfl⟩
  have hloop : ∀ l ∈ loop, ∃ cpu, (Machine.m68k cpu).Lists l := by
    intro l hl
    exact ⟨.m68000, 0x1000, 0, [0x4e, 0x71, 0x60, 0xfc], hl⟩
  have hjump : ∀ l ∈ jump, Machine.dsp56k.Lists l := by
    intro l hl
    exact ⟨0x40, 0, Word24.unpack [0x0c, 0x00, 0x40], hl⟩
  refine ⟨rfl, by decide, htable, hloop, hjump, ?_, ?_⟩
  · exact (columns_lineUp o rfl).1 (some table) none loop htable hloop
  · exact (columns_lineUp o rfl).2 none jump hjump

end Listing
end Disassembler
