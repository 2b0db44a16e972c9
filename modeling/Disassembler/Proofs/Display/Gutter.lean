import Mathlib
import Disassembler.Display.Gutter
import Disassembler.Proofs.Display.Layout

/-!
# Gutter

All branches are drawn on the same canvas, one over the other.  Every step
changes each character by itself, so the character in a row and a column is what
the branches make of a blank, one after the other.  Since branches in the same
row have different lanes, the later ones leave the earlier ones as they are.
-/

namespace Disassembler
namespace Gutter

/-! ## Canvases by characters -/

/-- A row with a character for each column. -/
def strip (w : Nat) (f : Nat -> Char) : Array Char :=
  Array.ofFn fun column : Fin w => f column

/-- A canvas with a character for each row and column. -/
def paint (rows w : Nat) (f : Nat -> Nat -> Char) : Canvas :=
  (List.range rows).map fun row => strip w (f row)

/-- What a mark in a lane makes of a character in its row. -/
def inkMark (own : Nat) (mark : Char) (column : Nat) (c : Char) : Char :=
  if own = column then mark else c

/-- What the lane of a branch makes of a character. -/
def inkLane (w row column : Nat) (c : Char) (b : Branch) : Char :=
  if b.covers row = true then inkMark (lane w b) '|' column c else c

/-- What the end of a branch makes of a character in its row. -/
def inkEnd (w own : Nat) (head : Char) (column : Nat) (c : Char) : Char :=
  if column + 1 = w then if c = '>' ∧ column ≠ own then c else head
  else if column = own then '+'
  else if own < column ∧ c = ' ' then '-'
  else c

/-- What both ends of a branch make of a character. -/
def inkEnds (w row column : Nat) (c : Char) (b : Branch) : Char :=
  let started := if b.start = row then inkEnd w (lane w b) '-' column c else c
  if b.stop = row then
    match b.clip with
    | .top => inkMark (lane w b) '^' column started
    | .bottom => inkMark (lane w b) 'v' column started
    | .none => inkEnd w (lane w b) '>' column started
  else started

theorem setIfInBounds_strip (w own : Nat) (mark : Char) (f : Nat -> Char) :
    (strip w f).setIfInBounds own mark =
      strip w fun column => inkMark own mark column (f column) := by
  refine Array.ext (by simp [strip]) ?_
  intro column h1 h2
  have hcolumn : column < (strip w f).size := by
    rwa [Array.size_setIfInBounds] at h1
  rw [Array.getElem_setIfInBounds hcolumn]
  simp only [strip, inkMark, Array.getElem_ofFn]

theorem endInRow_strip (w own : Nat) (head : Char) (f : Nat -> Char) :
    endInRow own head (strip w f) =
      strip w fun column => inkEnd w own head column (f column) := by
  refine Array.ext (by simp [endInRow, strip]) ?_
  intro column h1 h2
  simp only [endInRow, strip, inkEnd, Array.getElem_mapIdx, Array.getElem_ofFn, Array.size_ofFn]

theorem onRow_paint {rows w : Nat} {row : Int} (hrow : 0 ≤ row) {change : Array Char -> Array Char}
    {ink : Nat -> Char -> Char}
    (hchange : ∀ f, change (strip w f) = strip w fun column => ink column (f column))
    (f : Nat -> Nat -> Char) :
    onRow (paint rows w f) row change =
      paint rows w fun r column => if row = r then ink column (f r column) else f r column := by
  refine List.ext_getElem (by simp [onRow, paint]) ?_
  intro r h1 h2
  simp only [onRow, paint, List.getElem_modify, List.getElem_map, List.getElem_range, hchange]
  by_cases hr : row = r
  · rw [if_pos (by omega)]
    simp only [hr, if_true]
  · rw [if_neg (by omega)]
    simp only [hr, if_false]

theorem drawLane_paint (rows w : Nat) (f : Nat -> Nat -> Char) (b : Branch) :
    drawLane w (paint rows w f) b =
      paint rows w fun row column => inkLane w row column (f row column) b := by
  refine List.ext_getElem (by simp [drawLane, paint]) ?_
  intro row h1 h2
  simp only [drawLane, paint, inkLane, List.getElem_mapIdx, List.getElem_map, List.getElem_range,
    setIfInBounds_strip]
  split <;> rfl

theorem drawEnds_paint (rows w : Nat) (f : Nat -> Nat -> Char) {b : Branch} {height : Int}
    (hb : fits height b = true) :
    drawEnds w (paint rows w f) b =
      paint rows w fun row column => inkEnds w row column (f row column) b := by
  rcases Branch.fits_iff.1 hb with ⟨hstart, hstop⟩
  rw [drawEnds, onRow_paint hstart.1 (endInRow_strip w (lane w b) '-')]
  simp only [inkEnds]
  cases b.clip with
  | none => exact onRow_paint hstop.1 (endInRow_strip w (lane w b) '>') _
  | top => exact onRow_paint hstop.1 (setIfInBounds_strip w (lane w b) '^') _
  | bottom => exact onRow_paint hstop.1 (setIfInBounds_strip w (lane w b) 'v') _

/-- Steps that change each character by itself do so one after the other. -/
theorem foldl_paint {rows w : Nat} {draw : Canvas -> Branch -> Canvas}
    {ink : Nat -> Nat -> Char -> Branch -> Char} {branches : List Branch}
    (h : ∀ b ∈ branches, ∀ f, draw (paint rows w f) b =
      paint rows w fun row column => ink row column (f row column) b) (f : Nat -> Nat -> Char) :
    branches.foldl draw (paint rows w f) =
      paint rows w fun row column => branches.foldl (ink row column) (f row column) := by
  induction branches generalizing f with
  | nil => rfl
  | cons b branches ih =>
      rw [List.foldl_cons, h b List.mem_cons_self,
        ih fun c hc => h c (List.mem_cons_of_mem b hc)]
      rfl

/-- The character in a row and a column once all branches are drawn. -/
def inked (branches : List Branch) (w row column : Nat) : Char :=
  branches.foldl (inkEnds w row column) (branches.foldl (inkLane w row column) ' ')

theorem draw_eq {branches : List Branch} {rows : Int}
    (h : ∀ b ∈ branches, fits rows b = true) :
    draw branches rows = (paint rows.toNat (width branches) (inked branches (width branches))).map
      fun cs => String.ofList cs.toList := by
  have hblank : List.replicate rows.toNat (Array.replicate (width branches) ' ') =
      paint rows.toNat (width branches) fun _ _ => ' ' := by
    refine List.ext_getElem (by simp [paint]) ?_
    intro row h1 h2
    refine Array.ext (by simp [paint, strip]) ?_
    intro column h3 h4
    simp [paint, strip]
  rw [draw, List.filter_eq_self.2 h]
  simp only [hblank]
  rw [foldl_paint fun b _ f => drawLane_paint _ _ f b,
    foldl_paint fun b hb f => drawEnds_paint _ _ f (h b hb)]
  rfl

/-! ## Lanes -/

/-- What stands in the lane of a branch in one of its rows. -/
def mark (b : Branch) (row : Int) : Char :=
  if b.stop = row then
    match b.clip with
    | .top => '^'
    | .bottom => 'v'
    | .none => '+'
  else if b.start = row then '+'
  else '|'

theorem mark_ne_blank (b : Branch) (row : Int) : mark b row ≠ ' ' := by
  unfold mark
  split
  · cases b.clip <;> decide
  · split <;> decide

section Cells

variable {w row column : Nat} {branches : List Branch}

theorem foldl_inkLane_bar : branches.foldl (inkLane w row column) '|' = '|' := by
  induction branches with
  | nil => rfl
  | cons b branches ih =>
      have hstep : inkLane w row column '|' b = '|' := by
        simp only [inkLane, inkMark, ite_self]
      rw [List.foldl_cons, hstep, ih]

theorem foldl_inkLane_eq_bar {b : Branch} (hb : b ∈ branches) (hcovers : b.covers row = true)
    (hlane : lane w b = column) (c : Char) :
    branches.foldl (inkLane w row column) c = '|' := by
  rcases List.append_of_mem hb with ⟨before, after, rfl⟩
  rw [List.foldl_append, List.foldl_cons, inkLane, if_pos hcovers, inkMark, if_pos hlane,
    foldl_inkLane_bar]

theorem foldl_inkLane_eq_self (h : ∀ b ∈ branches, b.covers row = true -> lane w b ≠ column)
    (c : Char) : branches.foldl (inkLane w row column) c = c := by
  induction branches with
  | nil => rfl
  | cons b branches ih =>
      have hstep : inkLane w row column c b = c := by
        rw [inkLane]
        split
        · rename_i hcovers
          rw [inkMark, if_neg (h b List.mem_cons_self hcovers)]
        · rfl
      rw [List.foldl_cons, hstep, ih fun d hd => h d (List.mem_cons_of_mem b hd)]

/-- Left of the heads, the ends of a branch change a character beside its lane
only where it is a blank. -/
theorem inkEnds_beside {b : Branch} (hcolumn : column + 1 < w)
    (h : b.covers row = true -> lane w b ≠ column) (c : Char) :
    inkEnds w row column c b =
      if (b.start = row ∨ b.clip = .none ∧ b.stop = row) ∧ lane w b < column ∧ c = ' ' then '-'
      else c := by
  by_cases hcovers : b.covers row = true
  · have hend : ∀ head d, inkEnd w (lane w b) head column d =
        if lane w b < column ∧ d = ' ' then '-' else d := by
      intro head d
      rw [inkEnd, if_neg (by omega), if_neg (h hcovers).symm]
    have hmark : ∀ m d, inkMark (lane w b) m column d = d := by
      intro m d
      rw [inkMark, if_neg (h hcovers)]
    simp only [inkEnds, hend, hmark]
    by_cases hline : lane w b < column ∧ c = ' '
    · by_cases hstart : b.start = row
      · cases b.clip <;> simp [hline, hstart]
      · cases b.clip <;> simp [hline, hstart]
    · cases b.clip <;> simp [hline]
  · have hstart : b.start ≠ row := fun hrow => hcovers (hrow ▸ b.covers_start)
    have hstop : b.stop ≠ row := fun hrow => hcovers (hrow ▸ b.covers_stop)
    simp only [inkEnds, hstart, hstop, if_false, and_false, or_self, false_and]

theorem foldl_inkEnds_eq_self (hcolumn : column + 1 < w)
    (h : ∀ b ∈ branches, b.covers row = true -> lane w b ≠ column) {c : Char} (hc : c ≠ ' ') :
    branches.foldl (inkEnds w row column) c = c := by
  induction branches with
  | nil => rfl
  | cons b branches ih =>
      have hstep : inkEnds w row column c b = c := by
        rw [inkEnds_beside hcolumn (h b List.mem_cons_self), if_neg]
        rintro ⟨_, _, hblank⟩
        exact hc hblank
      rw [List.foldl_cons, hstep, ih fun d hd => h d (List.mem_cons_of_mem b hd)]

theorem inkEnds_bar {b : Branch} (hlane : lane w b + 1 < w) :
    inkEnds w row (lane w b) '|' b = mark b row := by
  have hend : ∀ head d, inkEnd w (lane w b) head (lane w b) d = '+' := by
    intro head d
    rw [inkEnd, if_neg (by omega), if_pos rfl]
  have hmark : ∀ m d, inkMark (lane w b) m (lane w b) d = m := by
    intro m d
    rw [inkMark, if_pos rfl]
  simp only [inkEnds, mark, hend, hmark]

/-- A branch keeps its marks, since no other one has the same lane in the same
row. -/
theorem inked_lane {b : Branch} (hb : b ∈ branches) (hlane : lane w b + 1 < w)
    (hbranches : branches.Pairwise fun c d =>
      c.covers row = true -> d.covers row = true -> lane w c ≠ lane w d)
    (hcovers : b.covers row = true) : inked branches w row (lane w b) = mark b row := by
  rw [inked, foldl_inkLane_eq_bar hb hcovers rfl]
  rcases List.append_of_mem hb with ⟨before, after, rfl⟩
  rcases List.pairwise_append.1 hbranches with ⟨_, hafter, hbefore⟩
  have hbefore' : ∀ c ∈ before, c.covers row = true -> lane w c ≠ lane w b := by
    intro c hc hcrow
    exact hbefore c hc b List.mem_cons_self hcrow hcovers
  have hafter' : ∀ c ∈ after, c.covers row = true -> lane w c ≠ lane w b := by
    intro c hc hcrow
    exact ((List.pairwise_cons.1 hafter).1 c hc hcovers hcrow).symm
  rw [List.foldl_append, List.foldl_cons, foldl_inkEnds_eq_self hlane hbefore' (by decide),
    inkEnds_bar hlane, foldl_inkEnds_eq_self hlane hafter' (mark_ne_blank b row)]

/-! ## Heads and lines -/

/-- What stands in the last column of a row. -/
def headMark (branches : List Branch) (row : Int) : Char :=
  if ∃ b ∈ branches, b.clip = .none ∧ b.stop = row then '>'
  else if ∃ b ∈ branches, b.start = row then '-'
  else ' '

/-- What stands in a column where no branch has its lane: a line from an end to
the last column, if there is an end in a lane further to the left. -/
def lineMark (branches : List Branch) (w : Nat) (row : Int) (column : Nat) : Char :=
  if ∃ b ∈ branches, (b.start = row ∨ b.clip = .none ∧ b.stop = row) ∧ lane w b < column then '-'
  else ' '

theorem exists_mem_concat {p : Branch -> Prop} {b : Branch} :
    (∃ c ∈ branches ++ [b], p c) ↔ (∃ c ∈ branches, p c) ∨ p b := by
  simp only [List.mem_append, List.mem_singleton, or_and_right, exists_or, exists_eq_left]

theorem headMark_concat (row : Int) (b : Branch) :
    headMark (branches ++ [b]) row =
      if b.clip = .none ∧ b.stop = row then '>'
      else if b.start = row ∧ headMark branches row ≠ '>' then '-'
      else headMark branches row := by
  simp only [headMark, exists_mem_concat]
  by_cases hhead : ∃ c ∈ branches, c.clip = .none ∧ c.stop = row
  · simp [hhead]
  · by_cases hstart : ∃ c ∈ branches, c.start = row
    · simp [hhead, hstart]
    · simp [hhead, hstart]

theorem inkEnds_head {b : Branch} (hcolumn : column + 1 = w) (hlane : lane w b ≠ column)
    (c : Char) :
    inkEnds w row column c b =
      if b.clip = .none ∧ b.stop = row then '>'
      else if b.start = row ∧ c ≠ '>' then '-'
      else c := by
  have hend : ∀ head d, inkEnd w (lane w b) head column d = if d = '>' then d else head := by
    intro head d
    rw [inkEnd, if_pos hcolumn]
    simp only [hlane.symm, ne_eq, not_false_eq_true, and_true]
  have hmark : ∀ m d, inkMark (lane w b) m column d = d := by
    intro m d
    rw [inkMark, if_neg hlane]
  simp only [inkEnds, hend, hmark]
  by_cases hhead : c = '>'
  · cases b.clip <;> simp [hhead]
  · by_cases hstart : b.start = row
    · cases b.clip <;> simp [hhead, hstart]
    · cases b.clip <;> simp [hhead, hstart]

theorem inked_head (hcolumn : column + 1 = w) (hlanes : ∀ b ∈ branches, lane w b ≠ column) :
    inked branches w row column = headMark branches row := by
  rw [inked, foldl_inkLane_eq_self fun b hb _ => hlanes b hb]
  induction branches using List.reverseRecOn with
  | nil => simp [headMark]
  | append_singleton branches b ih =>
      rw [List.foldl_concat, ih fun c hc => hlanes c (List.mem_append_left _ hc),
        inkEnds_head hcolumn (hlanes b List.mem_concat_self), headMark_concat]

theorem lineMark_concat (row : Int) (b : Branch) :
    lineMark (branches ++ [b]) w row column =
      if (b.start = row ∨ b.clip = .none ∧ b.stop = row) ∧ lane w b < column ∧
          lineMark branches w row column = ' ' then '-'
      else lineMark branches w row column := by
  simp only [lineMark, exists_mem_concat]
  by_cases hline : ∃ c ∈ branches,
      (c.start = row ∨ c.clip = .none ∧ c.stop = row) ∧ lane w c < column
  · simp [hline]
  · simp [hline]

theorem inked_line (hcolumn : column + 1 < w)
    (hlanes : ∀ b ∈ branches, b.covers row = true -> lane w b ≠ column) :
    inked branches w row column = lineMark branches w row column := by
  rw [inked, foldl_inkLane_eq_self hlanes]
  induction branches using List.reverseRecOn with
  | nil => simp [lineMark]
  | append_singleton branches b ih =>
      rw [List.foldl_concat, ih fun c hc => hlanes c (List.mem_append_left _ hc),
        inkEnds_beside hcolumn (hlanes b List.mem_concat_self), lineMark_concat]

end Cells

/-! ## The picture -/

theorem isGreatest_width (branches : List Branch) :
    IsGreatest (insert 1 {n : Int | ∃ b ∈ branches, b.depth + 2 = n}) (width branches) := by
  have hset : insert 1 {n : Int | ∃ b ∈ branches, b.depth + 2 = n} =
      {n | n ∈ 1 :: branches.map fun b : Branch => b.depth + 2} := by
    ext n
    simp
  have hgreatest := Branch.isGreatest_foldl_max (1 : Int)
    (branches.map fun b : Branch => b.depth + 2)
  have hpos : 1 ≤ (branches.map fun b : Branch => b.depth + 2).foldl max (1 : Int) :=
    hgreatest.2 List.mem_cons_self
  rwa [hset, width, Int.toNat_of_nonneg (by omega)]

theorem width_pos (branches : List Branch) : 1 ≤ width branches := by
  have h := (isGreatest_width branches).2 (Set.mem_insert 1 _)
  omega

theorem lane_eq {branches : List Branch} {b : Branch} (hb : b ∈ branches) :
    (lane (width branches) b : Int) = width branches - 2 - b.depth := by
  have h := (isGreatest_width branches).2 (Set.mem_insert_of_mem 1 ⟨b, hb, rfl⟩)
  rw [lane, Int.toNat_of_nonneg (by omega)]

/-- The character in a row and a column of a picture. -/
def cellAt (picture : List String) (row column : Nat) : Option Char :=
  picture[row]?.bind fun line => line.toList[column]?

/-- A picture of branches in their lanes, with as many columns as the deepest
lane needs. -/
structure IsPicture (rows : Int) (laid : List Branch) (w : Nat) (picture : List String) :
    Prop where
  length_eq : (picture.length : Int) = rows
  width_eq : ∀ line ∈ picture, line.length = w
  isGreatest_width : IsGreatest (insert 1 {n : Int | ∃ b ∈ laid, b.depth + 2 = n}) w
  lane_eq : ∀ b ∈ laid, (lane w b : Int) = w - 2 - b.depth
  lane_ne : ∀ i j : Fin laid.length, i ≠ j -> ∀ row : Int, laid[i].covers row = true ->
    laid[j].covers row = true -> lane w laid[i] ≠ lane w laid[j]
  lane_cell : ∀ b ∈ laid, ∀ row : Nat, b.covers row = true ->
    cellAt picture row (lane w b) = some (mark b row)
  head_cell : ∀ row : Nat, row < rows -> cellAt picture row (w - 1) = some (headMark laid row)
  line_cell : ∀ row column : Nat, row < rows -> column + 1 < w ->
    (∀ b ∈ laid, b.covers row = true -> lane w b ≠ column) ->
    cellAt picture row column = some (lineMark laid w row column)

theorem length_draw {branches : List Branch} {rows : Int}
    (h : ∀ b ∈ branches, fits rows b = true) : (draw branches rows).length = rows.toNat := by
  rw [draw_eq h, List.length_map, paint, List.length_map, List.length_range]

theorem length_of_mem_draw {branches : List Branch} {rows : Int}
    (h : ∀ b ∈ branches, fits rows b = true) {line : String} (hline : line ∈ draw branches rows) :
    line.length = width branches := by
  rw [draw_eq h, paint, List.map_map] at hline
  rcases List.mem_map.1 hline with ⟨row, _, rfl⟩
  simp [strip]

theorem cellAt_draw {branches : List Branch} {rows : Int}
    (h : ∀ b ∈ branches, fits rows b = true) {row column : Nat} (hrow : row < rows)
    (hcolumn : column < width branches) :
    cellAt (draw branches rows) row column = some (inked branches (width branches) row column) := by
  have hrow' : row < rows.toNat := by omega
  simp [cellAt, draw_eq h, paint, strip, hrow', hcolumn]

/-- Branches that have been laid out are drawn without disturbing each other. -/
theorem isPicture_draw_layout (branches : List Branch) {rows : Int} (hrows : 0 < rows) :
    IsPicture rows (Branch.layout branches rows) (width (Branch.layout branches rows))
      (draw (Branch.layout branches rows) rows) := by
  have hplacing := Branch.placing_layout branches rows
  have hfits : ∀ b ∈ Branch.layout branches rows, fits rows b = true := by
    intro b hb
    exact Branch.fits_layout hb
  generalize Branch.layout branches rows = laid at hplacing hfits ⊢
  have hlane : ∀ b ∈ laid, lane (width laid) b + 1 < width laid := by
    intro b hb
    rcases List.mem_iff_get.1 hb with ⟨i, rfl⟩
    have hcolumn := lane_eq hb
    have hdepth : 0 ≤ (laid.get i).depth := (hplacing.depth_mem i).1
    omega
  have hne : ∀ i j : Fin laid.length, i ≠ j -> ∀ row : Int, laid[i].covers row = true ->
      laid[j].covers row = true -> lane (width laid) laid[i] ≠ lane (width laid) laid[j] := by
    intro i j hij row hi hj heq
    have hdepth := hplacing.depth_ne hij ⟨row, hi, hj⟩
    have hi' := lane_eq (List.getElem_mem i.isLt)
    have hj' := lane_eq (List.getElem_mem j.isLt)
    simp only [Fin.getElem_fin] at hdepth heq
    omega
  constructor
  · rw [length_draw hfits]
    omega
  · exact fun line => length_of_mem_draw hfits
  · exact isGreatest_width laid
  · exact fun b => lane_eq
  · exact hne
  · intro b hb row hcovers
    have hrow := (Branch.mem_rows_of_covers (hfits b hb) hcovers).2
    have hcolumn := hlane b hb
    rw [cellAt_draw hfits hrow (by omega), inked_lane hb hcolumn ?_ hcovers]
    rw [List.pairwise_iff_getElem]
    intro i j hi hj hij hci hcj
    exact hne ⟨i, hi⟩ ⟨j, hj⟩ (by simpa using Nat.ne_of_lt hij) row hci hcj
  · intro row hrow
    have hpos := width_pos laid
    rw [cellAt_draw hfits hrow (by omega), inked_head (by omega)]
    intro b hb
    have hcolumn := hlane b hb
    omega
  · intro row column hrow hcolumn hlanes
    rw [cellAt_draw hfits hrow (by omega), inked_line hcolumn hlanes]

/-- A branch that leads out of the rows passes two others, which have a row in
common. -/
theorem isPicture_draw_layout_three :
    let laid := Branch.layout [⟨0, 3, 0, .none⟩, ⟨2, 1, 0, .none⟩, ⟨3, -1, 0, .none⟩] 4
    (0 : Int) < 4 ∧ draw laid 4 = ["^+--", "||+>", "||+-", "++->"] ∧
      IsPicture 4 laid (width laid) (draw laid 4) := by
  refine ⟨by decide, by cbv, ?_⟩
  exact isPicture_draw_layout _ (by decide)

end Gutter
end Disassembler
