import Mathlib
import Disassembler.Listing.Block
import Disassembler.Listing.Render
import Disassembler.Proofs.Display.Gutter
import Disassembler.Proofs.Listing.Branches

/-!
# Rows

A line of 68k code has a row for its label, if there is one, and a row for its
instruction.  Branches lead from lines to lines; labels shift the rows of the
lines behind them, so every branch has to be moved along.
-/

namespace Disassembler
namespace Listing

/-! ## The rows of a line -/

/-- The symbols of a table that may be missing. -/
def symbolsOf (table : Option SymbolTable) : List Symbol :=
  (table.map SymbolTable.symbols).getD []

/-- The rows of a line: a label exactly if there is a symbol at its address, and
the instruction. -/
inductive RowsOf (o : ListingOptions) (table : Option SymbolTable)
    (regs : Option M68k.Registers) (l : Line68) : List Row -> Prop where
  | labelled {s : Symbol} {fields : Fields} : s ∈ symbolsOf table -> s.address = l.address ->
      fields68 o table regs l = .ok fields ->
      RowsOf o table regs l [.label s.name, .code fields]
  | plain {fields : Fields} : (∀ s ∈ symbolsOf table, s.address ≠ l.address) ->
      fields68 o table regs l = .ok fields -> RowsOf o table regs l [.code fields]

/-- The annotator, if there is one, has a remark on every instruction. -/
def NeverFails (o : ListingOptions) : Prop :=
  ∀ annotate, o.annotator = some annotate ->
    ∀ address terse, ∃ remark, annotate address terse = .ok remark

/-- The fault of the annotator, if it has no remark on an instruction. -/
def annotatorFault? (o : ListingOptions) (address : UInt32) (terse : String) : Option Fault :=
  match o.annotator with
  | none => none
  | some annotate =>
      match annotate address terse with
      | .ok _ => none
      | .error f => some f

theorem NeverFails.annotatorFault?_eq_none {o : ListingOptions} (ho : NeverFails o)
    (address : UInt32) (terse : String) : annotatorFault? o address terse = none := by
  unfold annotatorFault?
  split
  · rfl
  · rename_i annotate hannotate
    rcases ho annotate hannotate address terse with ⟨remark, hremark⟩
    rw [hremark]

/-- There is a comment unless the annotator has a fault. -/
theorem comment_cases (o : ListingOptions) (address : UInt32) (terse : String)
    (parts : List String) :
    (annotatorFault? o address terse = none ∧ ∃ c, comment o address terse parts = .ok c) ∨
      ∃ f, annotatorFault? o address terse = some f ∧
        comment o address terse parts = .error (.report writeError [.fault f]) := by
  unfold annotatorFault? comment
  cases o.annotator with
  | none => exact Or.inl ⟨rfl, _, rfl⟩
  | some annotate =>
      cases hremark : annotate address terse with
      | ok remark => exact Or.inl ⟨by simp only [hremark], _, by simp only [hremark]; rfl⟩
      | error f => exact Or.inr ⟨f, by simp only [hremark], by simp only [hremark]⟩

theorem exists_comment {o : ListingOptions} {address : UInt32} {terse : String}
    (h : annotatorFault? o address terse = none) (parts : List String) :
    ∃ c, comment o address terse parts = .ok c := by
  rcases comment_cases o address terse parts with ⟨_, hc⟩ | ⟨f, hf, _⟩
  · exact hc
  · rw [h] at hf
    cases hf

theorem exists_fields68 {o : ListingOptions} {l : Line68}
    (h : annotatorFault? o l.address (l.inst.terse l.address o.style) = none)
    (table : Option SymbolTable) (regs : Option M68k.Registers) :
    ∃ fields, fields68 o table regs l = .ok fields := by
  rw [fields68]
  rcases exists_comment h
    [addressComment68 table regs l, l.inst.branchComment l.address regs] with ⟨c, hc⟩
  rw [hc]
  exact ⟨_, rfl⟩

theorem rowsOf_labelOf {o : ListingOptions} {table : Option SymbolTable}
    {regs : Option M68k.Registers} {l : Line68} {fields : Fields}
    (hfields : fields68 o table regs l = .ok fields) :
    RowsOf o table regs l (labelOf table l.address ++ [.code fields]) := by
  have hfind : (table.bind fun t => t.find? l.address) =
      (symbolsOf table).find? fun s => s.address == l.address := by
    cases table with
    | none => rfl
    | some t => exact t.find?_eq_scan l.address
  rw [labelOf, hfind]
  split
  · rename_i s hs
    exact .labelled (List.mem_of_find?_eq_some hs)
      (by simpa using List.find?_some hs) hfields
  · rename_i hnone
    exact .plain (by simpa using hnone) hfields

theorem exists_rows68 {o : ListingOptions} {l : Line68}
    (h : annotatorFault? o l.address (l.inst.terse l.address o.style) = none)
    (table : Option SymbolTable) (regs : Option M68k.Registers) :
    ∃ rows, rows68 o table regs l = .ok rows ∧ RowsOf o table regs l rows := by
  rcases exists_fields68 h table regs with ⟨fields, hfields⟩
  refine ⟨_, ?_, rowsOf_labelOf hfields⟩
  rw [rows68, hfields]
  rfl

theorem exists_mapM {α β ε : Type} {f : α -> Except ε β} {R : α -> β -> Prop} {xs : List α}
    (h : ∀ a ∈ xs, ∃ b, f a = .ok b ∧ R a b) :
    ∃ ys, xs.mapM f = .ok ys ∧ List.Forall₂ R xs ys := by
  induction xs with
  | nil => exact ⟨[], rfl, .nil⟩
  | cons x xs ih =>
      rcases h x List.mem_cons_self with ⟨y, hy, hxy⟩
      rcases ih fun a ha => h a (List.mem_cons_of_mem x ha) with ⟨ys, hys, hrest⟩
      refine ⟨y :: ys, ?_, .cons hxy hrest⟩
      rw [List.mapM_cons, hy, hys]
      rfl

theorem mapM_congr_of_mem {α β ε : Type} {f g : α -> Except ε β} {xs : List α}
    (h : ∀ a ∈ xs, f a = g a) : xs.mapM f = xs.mapM g := by
  induction xs with
  | nil => rfl
  | cons x xs ih =>
      rw [List.mapM_cons, List.mapM_cons, h x List.mem_cons_self,
        ih fun a ha => h a (List.mem_cons_of_mem x ha)]

/-! ## Row numbers -/

/-- Whether a line has a label. -/
def hasLabel (table : Option SymbolTable) (l : Line68) : Bool :=
  (symbolsOf table).any fun s => s.address == l.address

/-- The row of the label of a line, and of its instruction if it has none.
There is one row for each line before it, and one for each label. -/
def firstRow (table : Option SymbolTable) (lines : List Line68) (k : Nat) : Nat :=
  k + (lines.take k).countP (hasLabel table)

/-- The row of the instruction of a line. -/
def codeRow (table : Option SymbolTable) (lines : List Line68) (k : Nat) : Nat :=
  k + (lines.take (k + 1)).countP (hasLabel table)

theorem RowsOf.length_eq {o : ListingOptions} {table : Option SymbolTable}
    {regs : Option M68k.Registers} {l : Line68} {rows : List Row}
    (h : RowsOf o table regs l rows) :
    rows.length = 1 + if hasLabel table l then 1 else 0 := by
  cases h with
  | labelled hs haddress hfields =>
      have hlabel : hasLabel table l = true :=
        List.any_eq_true.2 ⟨_, hs, beq_iff_eq.2 haddress⟩
      rw [if_pos hlabel]
      rfl
  | plain hnone hfields =>
      have hlabel : ¬(hasLabel table l = true) := by
        intro h
        rcases List.any_eq_true.1 h with ⟨s, hs, haddress⟩
        exact hnone s hs (beq_iff_eq.1 haddress)
      rw [if_neg hlabel]
      rfl

section Groups

variable {o : ListingOptions} {table : Option SymbolTable} {regs : Option M68k.Registers}
variable {lines : List Line68} {groups : List (List Row)}

theorem length_flatten_groups (h : List.Forall₂ (RowsOf o table regs) lines groups) :
    groups.flatten.length = lines.length + lines.countP (hasLabel table) := by
  induction h with
  | nil => rfl
  | cons hl _ ih =>
      rw [List.flatten_cons, List.length_append, hl.length_eq, ih, List.length_cons,
        List.countP_cons]
      omega

theorem length_flatten_take (h : List.Forall₂ (RowsOf o table regs) lines groups) {k : Nat}
    (hk : k ≤ lines.length) : (groups.take k).flatten.length = firstRow table lines k := by
  rw [length_flatten_groups (List.forall₂_take k h), List.length_take, Nat.min_eq_left hk,
    firstRow]

/-- The first rows are the sums of the lengths of the groups. -/
theorem firstRows_eq (groups : List (List Row)) :
    firstRows groups =
      ((List.range (groups.length + 1)).map fun k => (groups.take k).flatten.length).toArray := by
  induction groups using List.reverseRecOn with
  | nil => rfl
  | append_singleton groups g ih =>
      have hpush : firstRows (groups ++ [g]) =
          (firstRows groups).push ((firstRows groups).back?.getD 0 + g.length) := by
        rw [firstRows, List.foldl_concat]
        rfl
      have hback : (firstRows groups).back?.getD 0 = groups.flatten.length := by
        rw [ih, List.back?_toArray, List.range_succ, List.map_append, List.map_singleton,
          List.getLast?_concat, Option.getD_some, List.take_length]
      have hfront : ((List.range (groups.length + 1)).map fun k =>
          ((groups ++ [g]).take k).flatten.length) =
          (List.range (groups.length + 1)).map fun k => (groups.take k).flatten.length := by
        refine List.map_congr_left ?_
        intro k hk
        rw [List.take_append_of_le_length (Nat.lt_succ_iff.1 (List.mem_range.1 hk))]
      have hlast : ((groups ++ [g]).take (groups.length + 1)).flatten.length =
          groups.flatten.length + g.length := by
        rw [List.take_of_length_le (by simp), List.flatten_append, List.length_append,
          List.flatten_singleton]
      rw [hpush, hback, ih, List.push_toArray, List.length_append, List.length_singleton,
        List.range_succ (n := groups.length + 1), List.map_append, hfront, List.map_singleton,
        hlast]

theorem getD_firstRows (h : List.Forall₂ (RowsOf o table regs) lines groups) {k : Nat}
    (hk : k ≤ lines.length) : (firstRows groups).getD k 0 = firstRow table lines k := by
  have hlt : k < groups.length + 1 := by
    rw [← h.length_eq]
    omega
  rw [firstRows_eq, ← length_flatten_take h hk]
  simp [hlt]

/-- The rows of a line are where its row numbers say. -/
theorem exists_rows_of_line (h : List.Forall₂ (RowsOf o table regs) lines groups) {k : Nat}
    (hk : k < lines.length) :
    ∃ rows, RowsOf o table regs lines[k] rows ∧
      rows <+: groups.flatten.drop (firstRow table lines k) ∧
      codeRow table lines k + 1 = firstRow table lines k + rows.length := by
  have hk' : k < groups.length := h.length_eq ▸ hk
  have hrows : RowsOf o table regs lines[k] groups[k] := (List.forall₂_iff_get.1 h).2 k hk hk'
  refine ⟨groups[k], hrows, ?_, ?_⟩
  · have hsplit : groups.flatten =
        (groups.take k).flatten ++ (groups[k] ++ (groups.drop (k + 1)).flatten) := by
      rw [← List.flatten_cons, ← List.drop_eq_getElem_cons hk', ← List.flatten_append,
        List.take_append_drop]
    rw [hsplit, ← length_flatten_take h (Nat.le_of_lt hk), List.drop_left]
    exact List.prefix_append _ _
  · rw [hrows.length_eq, codeRow, firstRow, List.take_succ_eq_append_getElem hk,
      List.countP_append, List.countP_singleton]
    omega

end Groups

/-! ## Branches between rows -/

/-- The row at which a branch to an address stops: the first row of the first
line at or after the address.  Below the first line it is in front of all rows,
and above the last line it is behind them. -/
def stopRow (table : Option SymbolTable) (lines : List Line68) (target : UInt32) : Int :=
  if ∃ l ∈ lines.head?, target < l.address then -1
  else firstRow table lines (lines.findIdx fun l => target ≤ l.address)

/-- A branch for each line that has a target, from the row of its
instruction. -/
def arrows (table : Option SymbolTable) (lines : List Line68) : List Branch :=
  lines.zipIdx.filterMap fun (l, k) =>
    (l.inst.target? l.address).map fun target =>
      { start := codeRow table lines k, stop := stopRow table lines target }

section Moved

variable {o : ListingOptions} {table : Option SymbolTable} {regs : Option M68k.Registers}
variable {lines : List Line68} {groups : List (List Row)}

theorem branchInRows_eq (h : List.Forall₂ (RowsOf o table regs) lines groups)
    (hlines : Increasing lines) {k : Nat} (hk : k < lines.length) (target : UInt32) :
    branchInRows (firstRows groups)
        { start := k, stop := lineAt (lines.map Line.address).toArray target } =
      { start := codeRow table lines k, stop := stopRow table lines target } := by
  have hne : lines ≠ [] := List.ne_nil_of_length_pos (Nat.zero_lt_of_lt hk)
  have hstart : ((firstRows groups).getD (k + 1) 0 : Int) - 1 = codeRow table lines k := by
    have hsucc : k + 1 ≤ lines.length := hk
    rw [getD_firstRows h hsucc, firstRow, codeRow]
    omega
  simp only [branchInRows, Int.toNat_natCast, hstart, lineAt_eq hlines hne, stopRow]
  by_cases hbelow : ∃ l ∈ lines.head?, target < l.address
  · simp only [if_pos hbelow, Int.reduceNeg, Int.neg_lt_zero_iff, Int.zero_lt_one, if_true]
  · have hstop := getD_firstRows h
      (List.findIdx_le_length (p := fun l => decide (target ≤ l.address)))
    simp only [if_neg hbelow, Int.toNat_natCast, hstop]
    rw [if_neg (by omega)]

theorem map_branchInRows (h : List.Forall₂ (RowsOf o table regs) lines groups)
    (hlines : Increasing lines) :
    (branches68 lines).map (branchInRows (firstRows groups)) = arrows table lines := by
  rw [branches68, branchesTo, List.map_filterMap, arrows]
  refine List.filterMap_congr ?_
  rintro ⟨l, k⟩ hmem
  have hk : k < lines.length := (List.mem_zipIdx' hmem).1
  simp only [Option.map_map]
  refine Option.map_congr ?_
  intro target _
  exact branchInRows_eq h hlines hk target

end Moved

/-! ## Written rows -/

/-- What stands in front of each row. -/
def margins (o : ListingOptions) (rows : Nat) (branches : List Branch) : List String :=
  if o.arrows then (Gutter.draw (Branch.layout branches rows) rows).map (· ++ " ")
  else List.replicate rows ""

/-- A row as it is written.  A label has no blanks at its end. -/
def writtenRow (o : ListingOptions) (columns : Columns) (margin : String) : Row -> String
  | .label name => margin ++ name ++ ":\n"
  | .code fields => Text.trimBlanks (margin ++ rowText o columns (.code fields)) ++ "\n"

theorem length_margins (o : ListingOptions) (rows : Nat) (branches : List Branch) :
    (margins o rows branches).length = rows := by
  rw [margins]
  split
  · rw [List.length_map, Gutter.length_draw fun b => Branch.fits_layout, Int.toNat_natCast]
  · rw [List.length_replicate]

theorem trimBlanks_colon (s : String) : Text.trimBlanks (s ++ ":") = s ++ ":" := by
  rw [Text.trimBlanks, Text.trimRightWhile, ← String.toList_inj]
  simp

theorem writtenRow_eq (o : ListingOptions) (columns : Columns) (margin : String) (row : Row) :
    Text.trimBlanks (margin ++ rowText o columns row) ++ "\n" =
      writtenRow o columns margin row := by
  cases row with
  | label name =>
      rw [rowText, ← String.append_assoc, trimBlanks_colon, String.append_assoc]
      rfl
  | code fields => rfl

theorem paddedTexts_eq (o : ListingOptions) (rows : List Row) (branches : List Branch) :
    paddedTexts o rows branches =
      List.zipWith (fun margin row => margin ++ rowText o (Columns.ofRows (codeFields rows)) row)
        (margins o rows.length branches) rows := by
  rw [paddedTexts, margins]
  split
  · rw [List.zipWith_map_left, List.zipWith_map_right]
  · refine List.ext_getElem (by simp) ?_
    intro k h1 h2
    simp

theorem rowTexts_eq (o : ListingOptions) (rows : List Row) (branches : List Branch) :
    rowTexts o rows branches =
      List.zipWith (writtenRow o (Columns.ofRows (codeFields rows)))
        (margins o rows.length branches) rows := by
  rw [rowTexts, paddedTexts_eq, List.map_zipWith]
  simp only [writtenRow_eq]

/-! ## Listings -/

/-- The rows of lines, one group for each line, and the text that is written for
them. -/
structure IsListing (o : ListingOptions) (table : Option SymbolTable)
    (regs : Option M68k.Registers) (lines : List Line68) (groups : List (List Row))
    (text : String) : Prop where
  rowsOf : List.Forall₂ (RowsOf o table regs) lines groups
  text_eq : text = String.join
    (List.zipWith (writtenRow o (Columns.ofRows (codeFields groups.flatten)))
      (margins o groups.flatten.length (arrows table lines)) groups.flatten)
  length_rows : groups.flatten.length = firstRow table lines lines.length
  /-- There is one margin for each row. -/
  length_margins :
    (margins o groups.flatten.length (arrows table lines)).length = groups.flatten.length
  /-- The branches that get lanes are those between the rows. -/
  branches_eq : (branches68 lines).map (branchInRows (firstRows groups)) = arrows table lines
  /-- The row numbers are those of the label and of the instruction. -/
  row_of_line : ∀ k (hk : k < lines.length), ∃ rows, RowsOf o table regs lines[k] rows ∧
    rows <+: groups.flatten.drop (firstRow table lines k) ∧
    codeRow table lines k + 1 = firstRow table lines k + rows.length

/-- A listing of lines in the order of their addresses is written without a
fault, with the rows of every line in turn and the branches between them. -/
theorem write_isListing (o : ListingOptions) (ho : NeverFails o) (table : Option SymbolTable)
    (regs : Option M68k.Registers) {lines : List Line68} (hlines : Increasing lines)
    (failure : Fault) :
    ∃ groups text, write none failure (render68 o table regs lines) = (text, none) ∧
      IsListing o table regs lines groups text := by
  have hannotator : ∀ l ∈ lines,
      annotatorFault? o l.address (l.inst.terse l.address o.style) = none :=
    fun l _ => ho.annotatorFault?_eq_none l.address _
  rcases exists_mapM fun l hl => exists_rows68 (hannotator l hl) table regs with
    ⟨groups, hgroups, hrows⟩
  have hbranches := map_branchInRows hrows hlines
  have hrender : render68 o table regs lines =
      .ok (rowTexts o groups.flatten (arrows table lines)) := by
    rw [render68, hgroups, ← hbranches]
    rfl
  refine ⟨groups, _, ?_, hrows, rfl, ?_, length_margins _ _ _, hbranches, ?_⟩
  · rw [hrender, rowTexts_eq, write_ok_unlimited]
  · rw [length_flatten_groups hrows, firstRow, List.take_length]
  · intro k
    exact exists_rows_of_line hrows

/-- A loop back to a line with a label.  The branch starts at the third row and
stops at the label. -/
theorem write_isListing_loop :
    let table := ({} : SymbolTable).add { name := "loop", address := 0x1000 }
    let lines := (Machine.m68k .m68000).block 0x1000 0 [0x4e, 0x71, 0x60, 0xfc]
    NeverFails { arrows := true } ∧ Increasing lines ∧
      arrows (some table) lines = [⟨2, 0, 0, .none⟩] ∧
      ∃ groups, IsListing { arrows := true } (some table) none lines groups
        "+> loop:\n|  $00001000 nop\n+- $00001002 bra.s $1000  ; $1000 loop\n" := by
  intro table lines
  have hfails : NeverFails { arrows := true } := by
    intro annotate hannotate
    cases hannotate
  have hlines : Increasing lines := by decide
  refine ⟨hfails, hlines, by decide +kernel, ?_⟩
  have htext : (write none (.plain "disk full")
      (render68 { arrows := true } (some table) none lines)).1 =
      "+> loop:\n|  $00001000 nop\n+- $00001002 bra.s $1000  ; $1000 loop\n" := by
    decide +kernel
  rcases write_isListing { arrows := true } hfails (some table) none hlines (.plain "disk full")
    with ⟨groups, text, hwrite, hlisting⟩
  rw [hwrite] at htext
  cases htext
  exact ⟨groups, hlisting⟩

end Listing
end Disassembler
