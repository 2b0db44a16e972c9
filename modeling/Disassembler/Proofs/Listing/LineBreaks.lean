import Disassembler.Proofs.Display.Columns
import Disassembler.Proofs.Listing.Comments
import Disassembler.Proofs.Text.SingleLine

/-!
# Line breaks

A row of a listing is a single line.  Numbers, instructions and arrows are made of
characters that show, and names of symbols have no white space, so that only the
annotator could break a row.
-/

namespace Disassembler

open Text (HasOnly IsPrintable OneLine oneLine_append)

/-! ## Comments -/

theorem SymbolTable.IsValid.oneLine_describe {t : SymbolTable} (h : t.IsValid)
    (address : UInt32) : OneLine (t.describe address) := by
  cases hs : t.enclosing? address with
  | none =>
      simp only [describe, hs]
      decide
  | some s =>
      have hmem := (findLower?_eq_some_iff.1 (enclosing?_eq_some_iff.1 hs).1).mem
      have hname := (h.named s hmem).2.oneLine
      simp only [describe, hs]
      split
      · exact hname
      · exact oneLine_append.2 ⟨oneLine_append.2 ⟨hname, by decide⟩, Text.oneLine_hex _⟩

theorem oneLine_getD {mark : Bool -> String} (hmark : ∀ taken, OneLine (mark taken))
    (taken : Option Bool) : OneLine ((taken.map mark).getD "") := by
  cases taken with
  | none => exact List.forall_mem_nil _
  | some taken => exact hmark taken

theorem M68k.Instruction.oneLine_branchComment (i : Instruction) (address : UInt32)
    (regs : Option Registers) : OneLine (i.branchComment address regs) :=
  oneLine_getD (by decide) _

theorem Dsp56k.Instruction.oneLine_branchComment (i : Instruction) (address : UInt32)
    (regs : Option Registers) : OneLine (i.branchComment address regs) :=
  oneLine_getD (by decide) _

theorem Dsp56k.Instruction.oneLine_memoryText {regs : Option Registers} {op : Operand}
    {s : String} (hs : memoryText? regs op = some s) : OneLine s := by
  have hspace : ∀ space : Space, OneLine space.text := by
    intro space
    cases space with
    | unlisted n =>
        rw [Space.text]
        decide
    | _ => decide
  cases op with
  | indirect mode space r | ioShort space r =>
      simp only [memoryText?, Option.map_eq_some_iff] at hs
      rcases hs with ⟨a, _, rfl⟩
      exact oneLine_append.2
        ⟨oneLine_append.2 ⟨hspace space, by decide⟩, Text.oneLine_hexPadded 4 a.toNat⟩
  | _ => cases hs

theorem Dsp56k.Instruction.oneLine_addressComment (i : Instruction) (address : UInt32)
    (regs : Option Registers) : OneLine (i.addressComment address regs) := by
  refine HasOnly.join (by decide) ?_
  intro s hs
  rcases List.mem_filterMap.1 hs with ⟨op, _, hop⟩
  exact oneLine_memoryText hop

namespace Listing

theorem oneLine_addressComment68 {table : Option SymbolTable} (htable : ∀ t ∈ table, t.IsValid)
    (regs : Option M68k.Registers) (l : Line68) : OneLine (addressComment68 table regs l) := by
  cases table with
  | none =>
      refine HasOnly.join (by decide) ?_
      intro s hs
      rcases List.mem_map.1 hs with ⟨a, _, rfl⟩
      exact Text.oneLine_hex a
  | some t =>
      rw [addressComment68_some]
      refine HasOnly.join (by decide) ?_
      intro s hs
      rcases List.mem_map.1 hs with ⟨a, _, rfl⟩
      rw [addressText_eq]
      refine oneLine_append.2 ⟨Text.oneLine_hex a, ?_⟩
      split
      · decide
      · exact oneLine_append.2 ⟨by decide, (htable t rfl).oneLine_describe a⟩

/-- The annotator, if there is one, does not break lines. -/
def RemarksOneLine (o : ListingOptions) : Prop :=
  ∀ annotate, o.annotator = some annotate ->
    ∀ address terse remark, annotate address terse = .ok remark -> OneLine remark

theorem oneLine_comment {o : ListingOptions} (ho : RemarksOneLine o) {address : UInt32}
    {terse c : String} {parts : List String} (hparts : ∀ s ∈ parts, OneLine s)
    (hc : comment o address terse parts = .ok c) : OneLine c := by
  have hjoin : ∀ ss : List String, (∀ s ∈ ss, OneLine s) ->
      OneLine (Text.join "  " (ss.filter fun s => !s.isEmpty)) := by
    intro ss hss
    exact HasOnly.join (by decide) fun s hs => hss s (List.mem_of_mem_filter hs)
  cases hannotator : o.annotator with
  | none =>
      simp only [comment, hannotator] at hc
      cases hc
      exact hjoin parts hparts
  | some annotate =>
      cases hremark : annotate address terse with
      | error f =>
          simp only [comment, hannotator, hremark] at hc
          cases hc
      | ok remark =>
          simp only [comment, hannotator, hremark] at hc
          cases hc
          refine hjoin _ (List.forall_mem_append.2 ⟨hparts, ?_⟩)
          exact List.forall_mem_singleton.2 (ho annotate hannotator address terse remark hremark)

theorem oneLine_labelOf {table : Option SymbolTable} (htable : ∀ t ∈ table, t.IsValid)
    {address : UInt32} {row : Row} (hrow : row ∈ labelOf table address) :
    ∃ name, row = .label name ∧ OneLine name := by
  rw [labelOf] at hrow
  split at hrow
  · rename_i s hs
    rcases Option.bind_eq_some_iff.1 hs with ⟨t, ht, hfind⟩
    have hmem := (SymbolTable.find?_eq_some_iff.1 hfind).1
    exact ⟨s.name, List.mem_singleton.1 hrow, ((htable t ht).named s hmem).2.oneLine⟩
  · cases hrow

end Listing

/-! ## Margins -/

namespace Gutter

variable {w row column own : Nat} {head c : Char}

theorem isPrintable_inkMark (hhead : IsPrintable head) (hc : IsPrintable c) :
    IsPrintable (inkMark own head column c) := by
  unfold inkMark
  split <;> assumption

theorem isPrintable_inkEnd (hhead : IsPrintable head) (hc : IsPrintable c) :
    IsPrintable (inkEnd w own head column c) := by
  have hcorner : IsPrintable '+' := Or.inr (by decide)
  have hline : IsPrintable '-' := Or.inr (by decide)
  unfold inkEnd
  split_ifs <;> assumption

theorem isPrintable_inkLane (b : Branch) (hc : IsPrintable c) :
    IsPrintable (inkLane w row column c b) := by
  unfold inkLane
  split
  · exact isPrintable_inkMark (Or.inr (by decide)) hc
  · exact hc

theorem isPrintable_inkEnds (b : Branch) (hc : IsPrintable c) :
    IsPrintable (inkEnds w row column c b) := by
  have hstart : IsPrintable (if b.start = row then inkEnd w (lane w b) '-' column c else c) := by
    split
    · exact isPrintable_inkEnd (Or.inr (by decide)) hc
    · exact hc
  simp only [inkEnds]
  split
  · cases b.clip with
    | none => exact isPrintable_inkEnd (Or.inr (by decide)) hstart
    | top => exact isPrintable_inkMark (Or.inr (by decide)) hstart
    | bottom => exact isPrintable_inkMark (Or.inr (by decide)) hstart
  · exact hstart

theorem isPrintable_inked (branches : List Branch) :
    IsPrintable (inked branches w row column) := by
  have hfold : ∀ ink : Char -> Branch -> Char,
      (∀ b d, IsPrintable d -> IsPrintable (ink d b)) ->
        ∀ d, IsPrintable d -> IsPrintable (branches.foldl ink d) := by
    intro ink hink
    induction branches with
    | nil => exact fun d hd => hd
    | cons b branches ih => exact fun d hd => ih _ (hink b d hd)
  exact hfold _ (fun b _ => isPrintable_inkEnds b) _
    (hfold _ (fun b _ => isPrintable_inkLane b) ' ' (Or.inl rfl))

theorem isPrintable_of_mem_draw {branches : List Branch} {rows : Int}
    (h : ∀ b ∈ branches, fits rows b = true) {line : String} (hline : line ∈ draw branches rows) :
    HasOnly IsPrintable line := by
  rw [draw_eq h, paint, List.map_map] at hline
  rcases List.mem_map.1 hline with ⟨row, _, rfl⟩
  intro c hc
  rcases Array.mem_ofFn.1 (by simpa [strip] using hc) with ⟨column, rfl⟩
  exact isPrintable_inked branches

end Gutter

namespace Listing

/-- The room in front of the rows, with a blank behind the arrows. -/
def marginWidth (o : ListingOptions) (rows : Nat) (branches : List Branch) : Nat :=
  if o.arrows then Gutter.width (Branch.layout branches rows) + 1 else 0

/-- All margins show, and they are equally wide. -/
theorem margin_spec {o : ListingOptions} {rows : Nat} {branches : List Branch} {margin : String}
    (hmargin : margin ∈ margins o rows branches) :
    HasOnly IsPrintable margin ∧ margin.length = marginWidth o rows branches := by
  rw [margins] at hmargin
  rw [marginWidth]
  split at hmargin
  · rename_i harrows
    have hfits : ∀ b ∈ Branch.layout branches rows, Gutter.fits rows b = true :=
      fun b => Branch.fits_layout
    rcases List.mem_map.1 hmargin with ⟨line, hline, rfl⟩
    rw [if_pos harrows, String.length_append, Gutter.length_of_mem_draw hfits hline]
    constructor
    · exact Text.hasOnly_append.2
        ⟨Gutter.isPrintable_of_mem_draw hfits hline, Text.isPrintable_blanks 1⟩
    · rfl
  · rename_i harrows
    rw [if_neg harrows, List.eq_of_mem_replicate hmargin]
    exact ⟨List.forall_mem_nil _, rfl⟩

/-! ## Rows -/

theorem oneLine_of_aligned {o : ListingOptions} {p : Positions} {f : Fields} {line : String}
    (h : Aligned o p f line) (hcomment : OneLine f.comment) : OneLine line := by
  have hfront : OneLine (String.ofList (line.toList.take p.comment)) := by
    apply Text.oneLine_of_isPrintable
    rw [HasOnly, String.toList_ofList]
    exact h.printable
  have hrest : OneLine (if f.comment = "" then "" else "  ; " ++ f.comment) := by
    split
    · decide
    · exact oneLine_append.2 ⟨by decide, hcomment⟩
  have hline : line = String.ofList (line.toList.take p.comment) ++
      (if f.comment = "" then "" else "  ; " ++ f.comment) := by
    rw [← String.toList_inj, String.toList_append, String.toList_ofList, ← h.comment,
      List.take_append_drop]
  rw [hline]
  exact oneLine_append.2 ⟨hfront, hrest⟩

/-- Nothing is left of the blanks at the end of a row, and no line break comes in. -/
theorem getLast?_trimBlanks (line : String) :
    (Text.trimBlanks line).toList.getLast? ≠ some ' ' := by
  rw [Text.trimBlanks, Text.trimRightWhile, String.toList_ofList, List.getLast?_reverse]
  intro hlast
  have hnot := List.head?_dropWhile_not (· == ' ') line.toList.reverse
  rw [hlast] at hnot
  cases hnot

end Listing

end Disassembler
