import Mathlib
import Disassembler.Display.Gutter

/-!
# Layout

Branches get their lanes one after the other.  Of those that have a lane, only
one number is kept for each row.  The lanes come out as if every branch had been
compared with all those before it, because the number of a row belongs to the
deepest lane in it.
-/

namespace Disassembler
namespace Branch

/-! ## The rows of a branch -/

theorem covers_iff {b : Branch} {row : Int} :
    b.covers row = true ↔ b.low ≤ row ∧ row ≤ b.high := by
  rw [covers, Bool.and_eq_true, decide_eq_true_iff, decide_eq_true_iff]

theorem covers_start (b : Branch) : b.covers b.start = true :=
  covers_iff.2 ⟨min_le_left _ _, le_max_left _ _⟩

theorem covers_stop (b : Branch) : b.covers b.stop = true :=
  covers_iff.2 ⟨min_le_right _ _, le_max_right _ _⟩

theorem fits_iff {rows : Int} {b : Branch} :
    Gutter.fits rows b = true ↔
      (0 ≤ b.start ∧ b.start < rows) ∧ 0 ≤ b.stop ∧ b.stop < rows := by
  simp only [Gutter.fits, Bool.and_eq_true, decide_eq_true_iff, and_assoc]

theorem mem_rows_of_covers {rows row : Int} {b : Branch} (hb : Gutter.fits rows b = true)
    (h : b.covers row = true) : 0 ≤ row ∧ row < rows := by
  rcases fits_iff.1 hb with ⟨hstart, hstop⟩
  rcases covers_iff.1 h with ⟨hlow, hhigh⟩
  exact ⟨le_trans (le_min hstart.1 hstop.1) hlow, lt_of_le_of_lt hhigh (max_lt hstart.2 hstop.2)⟩

/-- Two branches have a row in common. -/
def SharesRow (a b : Branch) : Prop :=
  ∃ row : Int, a.covers row = true ∧ b.covers row = true

theorem SharesRow.symm {a b : Branch} (h : SharesRow a b) : SharesRow b a := by
  rcases h with ⟨row, ha, hb⟩
  exact ⟨row, hb, ha⟩

/-! ## Visible branches -/

/-- What is shown of a branch that starts in one of the rows. -/
inductive Shows (rows : Int) (b : Branch) : Branch -> Prop where
  | whole {depth : Int} : 0 ≤ b.stop -> b.stop < rows ->
      Shows rows b { start := b.start, stop := b.stop, depth, clip := .none }
  | above {depth : Int} : b.stop < 0 ->
      Shows rows b { start := b.start, stop := 0, depth, clip := .top }
  | below {depth : Int} : rows ≤ b.stop ->
      Shows rows b { start := b.start, stop := rows - 1, depth, clip := .bottom }

/-- The branch in the lane next to the rows. -/
def flat (b : Branch) : Branch :=
  { b with depth := 0 }

theorem Shows.withDepth {rows : Int} {b c : Branch} (h : Shows rows b c) (depth : Int) :
    Shows rows b { c with depth } := by
  cases h with
  | whole hlow hhigh => exact .whole hlow hhigh
  | above hlow => exact .above hlow
  | below hhigh => exact .below hhigh

/-- A branch that is shown by itself, in the lane next to the rows. -/
structure ShownFlat (rows : Int) (b c : Branch) : Prop where
  shows : Shows rows b c
  fits : Gutter.fits rows c = true
  flat_eq : c.flat = c

theorem clipTo_eq_none {rows : Int} {b : Branch} (h : ¬(0 ≤ b.start ∧ b.start < rows)) :
    clipTo? rows b = none := by
  rw [clipTo?, if_pos]
  rw [Bool.or_eq_true, decide_eq_true_iff, decide_eq_true_iff]
  omega

theorem exists_clipTo {rows : Int} {b : Branch} (h : 0 ≤ b.start ∧ b.start < rows) :
    ∃ c, clipTo? rows b = some c ∧ ShownFlat rows b c := by
  have hstart : ¬((b.start < 0 || rows ≤ b.start) = true) := by
    rw [Bool.or_eq_true, decide_eq_true_iff, decide_eq_true_iff]
    omega
  rw [clipTo?, if_neg hstart]
  split
  · rename_i hstop
    exact ⟨_, rfl, .above hstop, fits_iff.2 ⟨h, by simp only; omega⟩, rfl⟩
  · split
    · rename_i hstop
      exact ⟨_, rfl, .below hstop, fits_iff.2 ⟨h, by simp only; omega⟩, rfl⟩
    · exact ⟨_, rfl, .whole (by omega) (by omega), fits_iff.2 ⟨h, by simp only; omega⟩, rfl⟩

theorem shownFlat_of_clipTo {rows : Int} {b c : Branch} (h : clipTo? rows b = some c) :
    ShownFlat rows b c := by
  by_cases hstart : 0 ≤ b.start ∧ b.start < rows
  · rcases exists_clipTo hstart with ⟨c', hc', hshown⟩
    rw [h] at hc'
    cases hc'
    exact hshown
  · rw [clipTo_eq_none hstart] at h
    cases h

theorem forall_shownFlat (branches : List Branch) (rows : Int) :
    List.Forall₂ (ShownFlat rows)
      (branches.filter fun b => 0 ≤ b.start ∧ b.start < rows)
      (branches.filterMap (clipTo? rows)) := by
  induction branches with
  | nil => exact .nil
  | cons b branches ih =>
      by_cases h : 0 ≤ b.start ∧ b.start < rows
      · rcases exists_clipTo h with ⟨c, hc, hshown⟩
        rw [List.filter_cons_of_pos (by simpa using h), List.filterMap_cons_some hc]
        exact .cons hshown ih
      · rw [List.filter_cons_of_neg (by simpa using h), List.filterMap_cons_none (clipTo_eq_none h)]
        exact ih

/-! ## Ends -/

/-- How many ends of branches lie in the rows of a branch. -/
def endsPassed (all : List Branch) (b : Branch) : Nat :=
  (all.flatMap fun c => [c.start, c.stop]).countP b.covers

theorem endsPassed_cons (c : Branch) (all : List Branch) (b : Branch) :
    endsPassed (c :: all) b =
      (if b.covers c.start then 1 else 0) + (if b.covers c.stop then 1 else 0)
        + endsPassed all b := by
  simp only [endsPassed, List.flatMap_cons, List.countP_append, List.countP_cons,
    List.countP_nil, Nat.zero_add]
  omega

theorem endsPassed_map_flat (all : List Branch) (b : Branch) :
    endsPassed (all.map flat) b.flat = endsPassed all b := by
  rw [endsPassed, endsPassed, List.flatMap_map]
  rfl

theorem sum_mapIdx_modify (p : Nat -> Bool) (numbers : List Nat) {k : Nat}
    (hk : k < numbers.length) :
    ((numbers.modify k (· + 1)).mapIdx fun i n => if p i then n else 0).sum =
      (numbers.mapIdx fun i n => if p i then n else 0).sum + if p k then 1 else 0 := by
  induction numbers generalizing k p with
  | nil => exact absurd hk (Nat.not_lt_zero k)
  | cons n numbers ih =>
      cases k with
      | zero =>
          simp only [List.modify_zero_cons, List.mapIdx_cons, List.sum_cons]
          split <;> omega
      | succ k =>
          have h := ih (fun i => p (i + 1)) (Nat.lt_of_succ_lt_succ hk)
          simp only [List.modify_succ_cons, List.mapIdx_cons, List.sum_cons, h]
          omega

theorem score_eq_sum (ends : List Nat) (b : Branch) : score ends b = (b.within ends).sum :=
  List.sum_eq_foldl.symm

theorem score_modify (b : Branch) (ends : List Nat) {row : Int} (hrow : 0 ≤ row)
    (hlt : row < ends.length) :
    score (ends.modify row.toNat (· + 1)) b = score ends b + if b.covers row then 1 else 0 := by
  have h := sum_mapIdx_modify (fun i => b.covers i) ends (k := row.toNat) (by omega)
  rw [Int.toNat_of_nonneg hrow] at h
  rw [score_eq_sum, score_eq_sum]
  exact h

theorem score_replicate (b : Branch) (rows : Nat) : score (List.replicate rows 0) b = 0 := by
  rw [score_eq_sum]
  refine List.sum_eq_zero ?_
  intro n hn
  rw [within, List.mem_mapIdx] at hn
  rcases hn with ⟨k, hk, rfl⟩
  simp

/-- Adding up the ends of each row counts every end in these rows once. -/
theorem score_endCounts {rows : Int} {all : List Branch}
    (hall : ∀ c ∈ all, Gutter.fits rows c = true) (b : Branch) :
    score (endCounts rows.toNat all) b = endsPassed all b := by
  suffices hfold : ∀ counts : List Nat, (counts.length : Int) = rows.toNat ->
      score (all.foldl (fun counts b =>
        (counts.modify b.start.toNat (· + 1)).modify b.stop.toNat (· + 1)) counts) b =
      score counts b + endsPassed all b by
    rw [endCounts, hfold _ (by rw [List.length_replicate]), score_replicate, Nat.zero_add]
  induction all with
  | nil =>
      intro counts _
      rfl
  | cons c all ih =>
      intro counts hlength
      rcases fits_iff.1 (hall c List.mem_cons_self) with ⟨hstart, hstop⟩
      have hrest : ∀ d ∈ all, Gutter.fits rows d = true := fun d hd =>
        hall d (List.mem_cons_of_mem c hd)
      rw [List.foldl_cons, ih hrest _ (by rwa [List.length_modify, List.length_modify]),
        score_modify b _ hstop.1 (by rw [List.length_modify]; omega),
        score_modify b _ hstart.1 (by omega), endsPassed_cons]
      omega

/-! ## Lanes -/

theorem isGreatest_foldl_max {α : Type} [LinearOrder α] (first : α) (rest : List α) :
    IsGreatest {x | x ∈ first :: rest} (rest.foldl max first) :=
  List.max?_eq_some_iff.1 List.max?_cons'

theorem le_freeDepth {taken : List Nat} {b : Branch} {row : Nat} (hrow : row < taken.length)
    (h : b.covers row = true) : taken[row] ≤ freeDepth taken b := by
  refine (isGreatest_foldl_max 0 (b.within taken)).2 (List.mem_cons_of_mem 0 ?_)
  rw [within, List.mem_mapIdx]
  exact ⟨row, hrow, by rw [if_pos h]⟩

theorem freeDepth_eq (taken : List Nat) (b : Branch) :
    freeDepth taken b = 0 ∨
      ∃ (row : Nat) (hrow : row < taken.length), b.covers row = true ∧
        freeDepth taken b = taken[row] := by
  have hmem : freeDepth taken b ∈ 0 :: b.within taken :=
    (isGreatest_foldl_max 0 (b.within taken)).1
  rcases List.mem_cons.1 hmem with hzero | hmem
  · exact Or.inl hzero
  · rw [within, List.mem_mapIdx] at hmem
    rcases hmem with ⟨row, hrow, heq⟩
    by_cases hcovers : b.covers row = true
    · rw [if_pos hcovers] at heq
      exact Or.inr ⟨row, hrow, hcovers, heq.symm⟩
    · rw [if_neg hcovers] at heq
      exact Or.inl heq.symm

@[simp] theorem length_occupy (taken : List Nat) (b : Branch) (depth : Nat) :
    (occupy taken b depth).length = taken.length :=
  List.length_mapIdx

theorem getElem_occupy {taken : List Nat} {b : Branch} {depth row : Nat}
    (hrow : row < (occupy taken b depth).length) (htaken : row < taken.length) :
    (occupy taken b depth)[row] = if b.covers row then depth + 1 else taken[row] :=
  List.getElem_mapIdx

/-- A branch is one lane deeper than the deepest of the others in its rows. -/
structure Stacked (placed : List Branch) (b : Branch) : Prop where
  lt : ∀ c ∈ placed, SharesRow c b -> c.depth < b.depth
  eq : b.depth = 0 ∨ ∃ c ∈ placed, SharesRow c b ∧ b.depth = c.depth + 1

/-- The number of each row is that of the lanes up to the deepest branch that
has been placed there. -/
structure Skyline (placed : List Branch) (taken : List Nat) : Prop where
  inside : ∀ c ∈ placed, ∀ row : Int, c.covers row = true -> 0 ≤ row ∧ row < taken.length
  lt : ∀ c ∈ placed, ∀ (row : Nat) (hrow : row < taken.length),
    c.covers row = true -> c.depth < taken[row]
  eq : ∀ (row : Nat) (hrow : row < taken.length), taken[row] = 0 ∨
    ∃ c ∈ placed, c.covers row = true ∧ (taken[row] : Int) = c.depth + 1

theorem skyline_nil (rows : Nat) : Skyline [] (List.replicate rows 0) where
  inside _ hc := absurd hc List.not_mem_nil
  lt _ hc := absurd hc List.not_mem_nil
  eq _ hrow := Or.inl (List.getElem_replicate hrow)

/-- One number for each row is enough to place a branch below all others. -/
theorem Skyline.stacked {placed : List Branch} {taken : List Nat} (h : Skyline placed taken)
    (b : Branch) : Stacked placed { b with depth := freeDepth taken b } where
  lt c hc hshares := by
    rcases hshares with ⟨row, hcrow, hbrow⟩
    rcases h.inside c hc row hcrow with ⟨hrow, hlt⟩
    lift row to Nat using hrow
    have hlt' : row < taken.length := Int.ofNat_lt.1 hlt
    calc c.depth < taken[row] := h.lt c hc row hlt' hcrow
      _ ≤ freeDepth taken b := Int.ofNat_le.2 (le_freeDepth hlt' hbrow)
  eq := by
    rcases freeDepth_eq taken b with hzero | ⟨row, hrow, hbrow, heq⟩
    · exact Or.inl (by simp only [hzero, Nat.cast_zero])
    · rcases h.eq row hrow with hzero | ⟨c, hc, hcrow, hdepth⟩
      · exact Or.inl (by simp only [heq, hzero, Nat.cast_zero])
      · exact Or.inr ⟨c, hc, ⟨row, hcrow, hbrow⟩, by simp only [heq, hdepth]⟩

theorem Skyline.occupy {placed : List Branch} {taken : List Nat} (h : Skyline placed taken)
    {b : Branch} (hb : ∀ row : Int, b.covers row = true -> 0 ≤ row ∧ row < taken.length) :
    Skyline (placed ++ [{ b with depth := freeDepth taken b }])
      (occupy taken b (freeDepth taken b)) := by
  constructor
  · rw [length_occupy]
    intro c hc
    rcases List.mem_append.1 hc with hc | hc
    · exact h.inside c hc
    · cases List.mem_singleton.1 hc
      exact hb
  · intro c hc row hrow hcrow
    have htaken : row < taken.length := length_occupy taken b _ ▸ hrow
    rw [getElem_occupy hrow htaken]
    rcases List.mem_append.1 hc with hc | hc
    · have hlt := h.lt c hc row htaken hcrow
      split
      · rename_i hbrow
        have hle := le_freeDepth htaken hbrow
        omega
      · exact hlt
    · cases List.mem_singleton.1 hc
      have hbrow : b.covers row = true := hcrow
      rw [if_pos hbrow]
      exact Int.lt_succ _
  · intro row hrow
    have htaken : row < taken.length := length_occupy taken b _ ▸ hrow
    rw [getElem_occupy hrow htaken]
    split
    · rename_i hbrow
      exact Or.inr ⟨_, List.mem_concat_self, hbrow, Int.natCast_succ _⟩
    · rcases h.eq row htaken with hzero | ⟨c, hc, hcrow, hdepth⟩
      · exact Or.inl hzero
      · exact Or.inr ⟨c, List.mem_append_left _ hc, hcrow, hdepth⟩

/-- Every branch is stacked on those before it, whatever the order is. -/
theorem Skyline.stacked_place {order : List (Branch × Nat)} {placed : List Branch}
    {taken : List Nat} (h : Skyline placed taken)
    (horder : ∀ p ∈ order, ∀ row : Int, p.1.covers row = true -> 0 ≤ row ∧ row < taken.length)
    {before after : List (Branch × Nat)} {p : Branch × Nat}
    (hplace : place taken order = before ++ p :: after) :
    Stacked (placed ++ before.map Prod.fst) p.1 := by
  induction order generalizing placed taken before with
  | nil =>
      rw [place] at hplace
      exact absurd hplace.symm (List.append_ne_nil_of_right_ne_nil _ (List.cons_ne_nil _ _))
  | cons q order ih =>
      rcases q with ⟨b, k⟩
      rw [place] at hplace
      cases before with
      | nil =>
          rcases List.cons.inj hplace with ⟨rfl, _⟩
          rw [List.map_nil, List.append_nil]
          exact h.stacked b
      | cons q before =>
          rcases List.cons.inj hplace with ⟨rfl, hrest⟩
          have hb := horder (b, k) List.mem_cons_self
          have hstacked := ih (h.occupy hb) (by
            intro p hp
            rw [length_occupy]
            exact horder p (List.mem_cons_of_mem _ hp)) hrest
          rwa [List.append_assoc, List.singleton_append] at hstacked

theorem map_flat_place (taken : List Nat) (order : List (Branch × Nat)) :
    (place taken order).map (Prod.map flat id) = order.map (Prod.map flat id) := by
  induction order generalizing taken with
  | nil => rfl
  | cons p order ih =>
      rw [place, List.map_cons, List.map_cons, ih]
      rfl

/-! ## The order -/

/-- Of two branches with their positions, the first one gets its lane before
the second: it passes fewer ends, or as many and stands in front. -/
def Before (all : List Branch) (p q : Branch × Nat) : Prop :=
  endsPassed all p.1 < endsPassed all q.1 ∨
    endsPassed all p.1 = endsPassed all q.1 ∧ p.2 < q.2

theorem Before.asymm {all : List Branch} {p q : Branch × Nat} (h : Before all p q) :
    ¬ Before all q p := by
  unfold Before at *
  omega

theorem before_or_before (all : List Branch) {p q : Branch × Nat} (h : p.2 ≠ q.2) :
    Before all p q ∨ Before all q p := by
  unfold Before
  omega

theorem decide_le_trans {α : Type} (f : α -> Nat) (a b c : α)
    (hab : decide (f a ≤ f b) = true) (hbc : decide (f b ≤ f c) = true) :
    decide (f a ≤ f c) = true := by
  rw [decide_eq_true_iff] at hab hbc ⊢
  exact Nat.le_trans hab hbc

theorem decide_le_total {α : Type} (f : α -> Nat) (a b : α) :
    (decide (f a ≤ f b) || decide (f b ≤ f a)) = true := by
  rw [Bool.or_eq_true, decide_eq_true_iff, decide_eq_true_iff]
  exact Nat.le_total _ _

/-- Sorting is stable: where the numbers are equal, the positions decide. -/
theorem pairwise_mergeSort_zipIdx {α : Type} (f : α -> Nat) (xs : List α) :
    (xs.zipIdx.mergeSort fun p q => f p.1 ≤ f q.1).Pairwise fun p q =>
      f p.1 < f q.1 ∨ f p.1 = f q.1 ∧ p.2 < q.2 := by
  have hperm := List.mergeSort_perm xs.zipIdx fun p q => decide (f p.1 ≤ f q.1)
  have hne : (xs.zipIdx.mergeSort fun p q => f p.1 ≤ f q.1).Pairwise fun p q => p.2 ≠ q.2 := by
    have hnodup : (xs.zipIdx.map Prod.snd).Nodup := by
      rw [List.zipIdx_map_snd]
      exact List.nodup_range'
    exact List.pairwise_map.1 ((hperm.map Prod.snd).nodup_iff.2 hnodup)
  -- The positions that make sorting stable are those that the elements carry.
  have hpositions : ∀ x ∈ xs.zipIdx.zipIdx, x.2 = x.1.2 := by
    rintro ⟨⟨a, i⟩, j⟩ hx
    have h := List.mem_zipIdx_iff_getElem?.1 hx
    rw [List.getElem?_zipIdx] at h
    rcases Option.map_eq_some_iff.1 h with ⟨_, _, heq⟩
    simpa using congrArg Prod.snd heq
  have hstable : (xs.zipIdx.mergeSort fun p q => f p.1 ≤ f q.1).Pairwise fun p q =>
      f p.1 < f q.1 ∨ f p.1 = f q.1 ∧ p.2 ≤ q.2 := by
    rw [← List.mergeSort_zipIdx, List.pairwise_map]
    have htrans := decide_le_trans fun p : α × Nat => f p.1
    have htotal := decide_le_total fun p : α × Nat => f p.1
    refine (List.pairwise_mergeSort (List.zipIdxLE_trans htrans) (List.zipIdxLE_total htotal)
      xs.zipIdx.zipIdx).imp_of_mem ?_
    intro x y hx hy hle
    have hx' := hpositions x (List.mem_mergeSort.1 hx)
    have hy' := hpositions y (List.mem_mergeSort.1 hy)
    rw [List.zipIdxLE] at hle
    split at hle
    · rename_i hxy
      rw [decide_eq_true_iff] at hxy
      split at hle
      · rw [decide_eq_true_iff] at hle
        omega
      · rename_i hyx
        rw [decide_eq_true_iff] at hyx
        omega
    · cases hle
  refine (hstable.and hne).imp ?_
  omega

/-! ## Placing -/

/-- Branches with their positions, in the order in which they got their
lanes. -/
structure Placing (laid : List Branch) (placed : List (Branch × Nat)) : Prop where
  perm : placed.Perm laid.zipIdx
  ordered : placed.Pairwise (Before laid)
  stacked : ∀ before p after, placed = before ++ p :: after ->
    Stacked (before.map Prod.fst) p.1

/-- Sorting by positions that are all there brings every element to its
position. -/
theorem zipIdx_map_fst_mergeSort {α : Type} {n : Nat} {xs : List (α × Nat)}
    (h : (xs.map Prod.snd).Perm (List.range n)) :
    ((xs.mergeSort fun p q => p.2 ≤ q.2).map Prod.fst).zipIdx =
      xs.mergeSort fun p q => p.2 ≤ q.2 := by
  have hsorted : ((xs.mergeSort fun p q => p.2 ≤ q.2).map Prod.snd).Pairwise (· ≤ ·) := by
    rw [List.pairwise_map]
    exact (List.pairwise_mergeSort (decide_le_trans Prod.snd) (decide_le_total Prod.snd) xs).imp
      of_decide_eq_true
  have hpositions : (xs.mergeSort fun p q => p.2 ≤ q.2).map Prod.snd = List.range n :=
    List.Perm.eq_of_pairwise (fun a b _ _ => Nat.le_antisymm) hsorted List.pairwise_le_range
      (((List.mergeSort_perm xs _).map Prod.snd).trans h)
  have hlength := congrArg List.length hpositions
  rw [List.length_map, List.length_range] at hlength
  rw [List.zipIdx_eq_zip_range', List.length_map]
  refine (List.zip_of_prod rfl ?_).symm
  rw [hpositions, hlength, List.range_eq_range']

theorem eq_of_zipIdx_perm {α : Type} {xs ys : List α} (h : xs.zipIdx.Perm ys.zipIdx) :
    xs = ys := by
  refine List.ext_getElem? ?_
  intro k
  refine Option.ext ?_
  intro a
  have hmem := h.mem_iff (a := (a, k))
  rwa [List.mem_zipIdx_iff_getElem?, List.mem_zipIdx_iff_getElem?] at hmem

section Stages

variable (branches : List Branch) (rows : Int)

/-- The branches that get lanes. -/
def visible : List Branch :=
  branches.filterMap (clipTo? rows)

/-- The visible branches with their positions, in the order in which they get
their lanes. -/
def ordered : List (Branch × Nat) :=
  (visible branches rows).zipIdx.mergeSort fun a b =>
    score (endCounts rows.toNat (visible branches rows)) a.1 ≤
      score (endCounts rows.toNat (visible branches rows)) b.1

/-- The visible branches in that order, with their lanes. -/
def placed : List (Branch × Nat) :=
  place (List.replicate rows.toNat 0) (ordered branches rows)

theorem layout_eq : layout branches rows =
    ((placed branches rows).mergeSort fun a b => a.2 ≤ b.2).map Prod.fst :=
  rfl

theorem ordered_perm : (ordered branches rows).Perm (visible branches rows).zipIdx :=
  List.mergeSort_perm _ _

variable {branches rows}

theorem exists_shownFlat {c : Branch} (hc : c ∈ visible branches rows) :
    ∃ b, ShownFlat rows b c := by
  rcases List.mem_filterMap.1 hc with ⟨b, _, hb⟩
  exact ⟨b, shownFlat_of_clipTo hb⟩

theorem fits_of_mem_visible {c : Branch} (hc : c ∈ visible branches rows) :
    Gutter.fits rows c = true := by
  rcases exists_shownFlat hc with ⟨b, hb⟩
  exact hb.fits

theorem mem_visible_of_mem_ordered {p : Branch × Nat} (hp : p ∈ ordered branches rows) :
    p.1 ∈ visible branches rows :=
  List.mem_of_getElem?
    (List.mem_zipIdx_iff_getElem?.1 ((ordered_perm branches rows).mem_iff.1 hp))

variable (branches rows)

/-- Lanes are all that placing changes. -/
theorem map_flat_placed :
    (placed branches rows).map (Prod.map flat id) = ordered branches rows := by
  rw [placed, map_flat_place]
  refine (List.map_congr_left ?_).trans (List.map_id _)
  intro p hp
  rcases exists_shownFlat (mem_visible_of_mem_ordered hp) with ⟨b, hb⟩
  exact Prod.ext hb.flat_eq rfl

theorem placed_perm : (placed branches rows).Perm (layout branches rows).zipIdx := by
  have hpositions : ((placed branches rows).map Prod.snd).Perm
      (List.range (visible branches rows).length) := by
    have hsnd : (placed branches rows).map Prod.snd = (ordered branches rows).map Prod.snd := by
      rw [← map_flat_placed, List.map_map]
      rfl
    rw [hsnd, List.range_eq_range', ← List.zipIdx_map_snd]
    exact (ordered_perm branches rows).map Prod.snd
  rw [layout_eq, zipIdx_map_fst_mergeSort hpositions]
  exact (List.mergeSort_perm _ _).symm

/-- Apart from their lanes, the branches are the visible ones in their order. -/
theorem map_flat_layout : (layout branches rows).map flat = visible branches rows := by
  refine eq_of_zipIdx_perm ?_
  rw [List.zipIdx_map]
  refine ((placed_perm branches rows).symm.map _).trans ?_
  rw [map_flat_placed]
  exact ordered_perm branches rows

theorem pairwise_placed : (placed branches rows).Pairwise (Before (layout branches rows)) := by
  have hends : ∀ b : Branch, score (endCounts rows.toNat (visible branches rows)) b.flat =
      endsPassed (layout branches rows) b := by
    intro b
    rw [score_endCounts fun c => fits_of_mem_visible, ← map_flat_layout, endsPassed_map_flat]
  have hsorted := pairwise_mergeSort_zipIdx
    (score (endCounts rows.toNat (visible branches rows))) (visible branches rows)
  rw [← ordered, ← map_flat_placed, List.pairwise_map] at hsorted
  refine hsorted.imp ?_
  intro p q hpq
  simp only [Prod.map_fst, Prod.map_snd, hends] at hpq
  exact hpq

theorem placing_layout : Placing (layout branches rows) (placed branches rows) where
  perm := placed_perm branches rows
  ordered := pairwise_placed branches rows
  stacked before p after hsplit := by
    refine (skyline_nil rows.toNat).stacked_place ?_ hsplit
    intro q hq row hrow
    have hfits := fits_of_mem_visible (mem_visible_of_mem_ordered hq)
    have hrows := mem_rows_of_covers hfits hrow
    rw [List.length_replicate]
    omega

variable {branches rows}

theorem fits_layout {b : Branch} (hb : b ∈ layout branches rows) : Gutter.fits rows b = true := by
  have hflat : b.flat ∈ visible branches rows := by
    rw [← map_flat_layout]
    exact List.mem_map_of_mem hb
  have hfits : Gutter.fits rows b.flat = true := fits_of_mem_visible hflat
  exact hfits

end Stages

namespace Placing

variable {laid : List Branch} {placed : List (Branch × Nat)}

theorem mem (h : Placing laid placed) (i : Fin laid.length) : (laid[i], i.val) ∈ placed := by
  rw [h.perm.mem_iff, List.mem_zipIdx_iff_getElem?]
  exact List.getElem?_eq_getElem i.isLt

theorem exists_index (h : Placing laid placed) {p : Branch × Nat} (hp : p ∈ placed) :
    ∃ i : Fin laid.length, p = (laid[i], i.val) := by
  rw [h.perm.mem_iff, List.mem_zipIdx_iff_getElem?] at hp
  rcases List.getElem?_eq_some_iff.1 hp with ⟨hlt, heq⟩
  exact ⟨⟨p.2, hlt⟩, Prod.ext heq.symm rfl⟩

/-- What has been placed in front of a branch is what comes before it in the
order. -/
theorem mem_before_iff (h : Placing laid placed) {before after : List (Branch × Nat)}
    {p q : Branch × Nat} (hsplit : placed = before ++ p :: after) (hq : q ∈ placed) :
    q ∈ before ↔ Before laid q p := by
  have hordered := h.ordered
  rw [hsplit, List.pairwise_append] at hordered
  rcases hordered with ⟨_, hafter, hbefore⟩
  constructor
  · intro hmem
    exact hbefore q hmem p List.mem_cons_self
  · intro hlt
    rw [hsplit, List.mem_append] at hq
    rcases hq with hq | hq
    · exact hq
    · rcases List.mem_cons.1 hq with rfl | hq
      · exact absurd hlt hlt.asymm
      · exact absurd ((List.pairwise_cons.1 hafter).1 q hq) hlt.asymm

theorem depth_lt (h : Placing laid placed) {i j : Fin laid.length}
    (hbefore : Before laid (laid[j], j.val) (laid[i], i.val))
    (hshares : SharesRow laid[j] laid[i]) : laid[j].depth < laid[i].depth := by
  rcases List.append_of_mem (h.mem i) with ⟨before, after, hsplit⟩
  have hmem := (h.mem_before_iff hsplit (h.mem j)).2 hbefore
  exact (h.stacked before _ after hsplit).lt _ (List.mem_map_of_mem hmem) hshares

theorem depth_eq (h : Placing laid placed) (i : Fin laid.length) :
    laid[i].depth = 0 ∨ ∃ j : Fin laid.length, Before laid (laid[j], j.val) (laid[i], i.val) ∧
      SharesRow laid[j] laid[i] ∧ laid[i].depth = laid[j].depth + 1 := by
  rcases List.append_of_mem (h.mem i) with ⟨before, after, hsplit⟩
  rcases (h.stacked before _ after hsplit).eq with hzero | ⟨c, hc, hshares, hdepth⟩
  · exact Or.inl hzero
  · rcases List.mem_map.1 hc with ⟨q, hq, rfl⟩
    have hplaced : q ∈ placed := hsplit ▸ List.mem_append_left _ hq
    have hbefore := (h.mem_before_iff hsplit hplaced).1 hq
    rcases h.exists_index hplaced with ⟨j, rfl⟩
    exact Or.inr ⟨j, hbefore, hshares, hdepth⟩

theorem depth_ne (h : Placing laid placed) {i j : Fin laid.length} (hne : i ≠ j)
    (hshares : SharesRow laid[i] laid[j]) : laid[i].depth ≠ laid[j].depth := by
  have hpositions : (laid[i], i.val).2 ≠ (laid[j], j.val).2 := Fin.val_ne_iff.2 hne
  rcases before_or_before laid hpositions with hbefore | hbefore
  · exact ne_of_lt (h.depth_lt hbefore hshares)
  · exact ne_of_gt (h.depth_lt hbefore hshares.symm)

/-- A lane is not deeper than the number of branches in front. -/
theorem depth_mem_of_split (h : Placing laid placed) {before after : List (Branch × Nat)}
    {p : Branch × Nat} (hsplit : placed = before ++ p :: after) :
    0 ≤ p.1.depth ∧ p.1.depth ≤ before.length := by
  induction hlength : before.length using Nat.strong_induction_on generalizing before p after with
  | h n ih =>
      rcases (h.stacked before p after hsplit).eq with hzero | ⟨c, hc, _, hdepth⟩
      · omega
      · rcases List.mem_map.1 hc with ⟨q, hq, rfl⟩
        rcases List.append_of_mem hq with ⟨front, back, rfl⟩
        rw [List.append_assoc, List.cons_append] at hsplit
        rw [List.length_append, List.length_cons] at hlength
        have hq' := ih front.length (by omega) hsplit rfl
        omega

theorem depth_mem (h : Placing laid placed) (i : Fin laid.length) :
    0 ≤ laid[i].depth ∧ laid[i].depth < laid.length := by
  rcases List.append_of_mem (h.mem i) with ⟨before, after, hsplit⟩
  have hlength := h.perm.length_eq
  rw [List.length_zipIdx, hsplit, List.length_append, List.length_cons] at hlength
  have hdepth : 0 ≤ laid[i].depth ∧ laid[i].depth ≤ before.length := h.depth_mem_of_split hsplit
  omega

end Placing

/-! ## The layout -/

/-- The depths of the branches that have a row in common with a branch and get
their lane before it. -/
def depthsBefore (laid : List Branch) (i : Fin laid.length) : Set Int :=
  {depth | ∃ j : Fin laid.length, Before laid (laid[j], j.val) (laid[i], i.val) ∧
    SharesRow laid[j] laid[i] ∧ laid[j].depth = depth}

/-- The branches that start in one of the rows, each in the lane that the
branches before it leave. -/
structure IsLayout (rows : Int) (branches laid : List Branch) : Prop where
  shows : List.Forall₂ (Shows rows)
    (branches.filter fun b => 0 ≤ b.start ∧ b.start < rows) laid
  depth_eq_zero : ∀ i : Fin laid.length, depthsBefore laid i = ∅ -> laid[i].depth = 0
  isGreatest_depth : ∀ i : Fin laid.length, (depthsBefore laid i).Nonempty ->
    IsGreatest (depthsBefore laid i) (laid[i].depth - 1)
  depth_ne : ∀ i j : Fin laid.length, i ≠ j -> SharesRow laid[i] laid[j] ->
    laid[i].depth ≠ laid[j].depth
  depth_mem : ∀ i : Fin laid.length, 0 ≤ laid[i].depth ∧ laid[i].depth < laid.length

theorem isLayout_layout (branches : List Branch) (rows : Int) :
    IsLayout rows branches (layout branches rows) := by
  have hplacing := placing_layout branches rows
  have hshown := forall_shownFlat branches rows
  rw [← visible, ← map_flat_layout, List.forall₂_map_right_iff] at hshown
  constructor
  · refine hshown.imp ?_
    intro b c hc
    exact hc.shows.withDepth c.depth
  · intro i hempty
    rcases hplacing.depth_eq i with hzero | ⟨j, hbefore, hshares, _⟩
    · exact hzero
    · have hj : (layout branches rows)[j].depth ∈ depthsBefore (layout branches rows) i :=
        ⟨j, hbefore, hshares, rfl⟩
      rw [hempty] at hj
      exact absurd hj (Set.notMem_empty _)
  · intro i hnonempty
    have hupper : ∀ depth ∈ depthsBefore (layout branches rows) i,
        depth < (layout branches rows)[i].depth := by
      rintro depth ⟨j, hbefore, hshares, rfl⟩
      exact hplacing.depth_lt hbefore hshares
    refine ⟨?_, fun depth hdepth => Int.le_sub_one_of_lt (hupper depth hdepth)⟩
    rcases hplacing.depth_eq i with hzero | ⟨j, hbefore, hshares, hdepth⟩
    · -- A lane in front of the first one would be above a branch in that lane.
      rcases hnonempty with ⟨depth, j, hbefore, hshares, rfl⟩
      have hlt := hplacing.depth_lt hbefore hshares
      have hnonneg := (hplacing.depth_mem j).1
      omega
    · exact ⟨j, hbefore, hshares, by omega⟩
  · intro i j
    exact hplacing.depth_ne
  · exact hplacing.depth_mem

/-- The second branch is the shortest one.  The third one leads out of the rows
at their top, and the last one starts below them. -/
example : layout [⟨0, 3, 0, .none⟩, ⟨2, 1, 0, .none⟩, ⟨3, -1, 0, .none⟩, ⟨7, 0, 0, .none⟩] 4 =
    [⟨0, 3, 1, .none⟩, ⟨2, 1, 0, .none⟩, ⟨3, 0, 2, .top⟩] := by
  cbv

end Branch
end Disassembler
