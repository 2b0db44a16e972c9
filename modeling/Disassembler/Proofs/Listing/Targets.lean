import Disassembler.Proofs.Listing.Branches
import Disassembler.Proofs.Listing.Tiling

/-!
# Branches and their targets

Every line with a target has one branch, and the branches are in the order of
the lines.  A branch stops at the first line at or after its target; the target
can also lie below the first line or above the last one.
-/

namespace Disassembler

/-! ## Addresses of a block -/

namespace Machine

variable {u i : Type} {m : Machine u i} {address : UInt32} {units : List u}

/-- A line after which another one follows ends without a wrap around. -/
theorem toNat_endAddress (hsize : address.toNat + units.length ≤ 2 ^ 32)
    (hmore : m.least ≤ (units.drop (m.length (m.decode units))).length) :
    m.length (m.decode units) < units.length ∧
      ((m.line address units).endAddress m).toNat =
        address.toNat + m.length (m.decode units) := by
  have hleast := m.least_pos
  rw [List.length_drop] at hmore
  have hend : (m.line address units).endAddress m =
      address + UInt32.ofNat (m.length (m.decode units)) := rfl
  constructor
  · omega
  · rw [hend, UInt32.toNat_add, UInt32.toNat_ofNat', Nat.add_mod_mod]
    exact Nat.mod_eq_of_lt (by omega)

theorem le_address_of_mem_lines (hsize : address.toNat + units.length ≤ 2 ^ 32)
    {l : Line u i} (hl : l ∈ m.lines address units) : address ≤ l.address := by
  induction address, units using lines.induct m with
  | case1 address units hshort =>
      rw [lines_eq_nil m address hshort] at hl
      cases hl
  | case2 address units henough first ih =>
      rw [lines_eq_cons m address (Nat.not_lt.1 henough)] at hl
      rcases List.mem_cons.1 hl with rfl | hl
      · exact UInt32.le_refl _
      · by_cases hmore : m.least ≤ (units.drop (m.length (m.decode units))).length
        · rcases toNat_endAddress hsize hmore with ⟨hlt, hend⟩
          have hle := ih (by rw [hend, List.length_drop]; omega) hl
          rw [UInt32.le_iff_toNat_le, hend] at hle
          rw [UInt32.le_iff_toNat_le]
          omega
        · rw [lines_eq_nil m _ (Nat.not_le.1 hmore)] at hl
          cases hl

/-- The addresses of a block that does not wrap around increase. -/
theorem increasing_lines (m : Machine u i) (hsize : address.toNat + units.length ≤ 2 ^ 32) :
    Listing.Increasing (m.lines address units) := by
  induction address, units using lines.induct m with
  | case1 address units hshort =>
      rw [lines_eq_nil m address hshort]
      exact List.Pairwise.nil
  | case2 address units henough first ih =>
      rw [lines_eq_cons m address (Nat.not_lt.1 henough)]
      by_cases hmore : m.least ≤ (units.drop (m.length (m.decode units))).length
      · rcases toNat_endAddress hsize hmore with ⟨hlt, hend⟩
        have hpos := m.length_pos units
        have hsize' : ((m.line address units).endAddress m).toNat +
            (units.drop (m.length (m.decode units))).length ≤ 2 ^ 32 := by
          rw [hend, List.length_drop]
          omega
        refine List.pairwise_cons.2 ⟨?_, ih hsize'⟩
        intro l hl
        have hle := le_address_of_mem_lines hsize' hl
        rw [UInt32.le_iff_toNat_le, hend] at hle
        show address < l.address
        rw [UInt32.lt_iff_toNat_lt]
        omega
      · rw [lines_eq_nil m _ (Nat.not_le.1 hmore)]
        exact List.pairwise_singleton _ _

theorem increasing_block (m : Machine u i) (hsize : address.toNat + units.length ≤ 2 ^ 32)
    (limit : Int) : Listing.Increasing (m.block address limit units) := by
  have hlines := increasing_lines m hsize
  by_cases hlimit : 0 < limit
  · rw [block_eq_take m address limit units hlimit]
    exact hlines.sublist (List.take_sublist _ _)
  · rw [block_eq_lines m address limit units (Int.not_lt.1 hlimit)]
    exact hlines

end Machine

namespace Listing

variable {u i : Type} {lines : List (Line u i)} {target : UInt32}

/-! ## The line of a target -/

/-- The line is at or after an address, and the line before it, if there is one,
is below the address. -/
def IsFirstFrom (lines : List (Line u i)) (target : UInt32) (k : Nat) : Prop :=
  ∃ hk : k < lines.length, target ≤ lines[k].address ∧
    ∀ j (hj : j + 1 = k), lines[j].address < target

/-- Where a branch to an address stops. -/
structure StopsAt (lines : List (Line u i)) (target : UInt32) (stop : Int) : Prop where
  below : ∀ first ∈ lines.head?, target < first.address -> stop = -1
  above : ∀ last ∈ lines.getLast?, last.address < target -> stop = lines.length
  within : ∀ first ∈ lines.head?, ∀ last ∈ lines.getLast?,
    first.address ≤ target -> target ≤ last.address ->
      ∃ k : Nat, stop = k ∧ ∀ j, IsFirstFrom lines target j ↔ j = k
  at_line : ∀ k (hk : k < lines.length), lines[k].address = target -> stop = k

theorem Increasing.address_lt (hlines : Increasing lines) {j k : Nat} (hjk : j < k)
    (hk : k < lines.length) : lines[j].address < lines[k].address :=
  List.pairwise_iff_getElem.1 hlines j k (Nat.lt_trans hjk hk) hk hjk

theorem Increasing.first_le (hlines : Increasing lines) {first l : Line u i}
    (hfirst : first ∈ lines.head?) (hl : l ∈ lines) : first.address ≤ l.address := by
  rcases List.head?_eq_some_iff.1 hfirst with ⟨rest, rfl⟩
  rcases List.mem_cons.1 hl with rfl | hl
  · exact UInt32.le_refl _
  · exact UInt32.le_of_lt ((List.pairwise_cons.1 hlines).1 l hl)

theorem Increasing.le_last (hlines : Increasing lines) {last l : Line u i}
    (hlast : last ∈ lines.getLast?) (hl : l ∈ lines) : l.address ≤ last.address := by
  rcases List.getLast?_eq_some_iff.1 hlast with ⟨before, rfl⟩
  rcases List.mem_append.1 hl with hl | hl
  · exact UInt32.le_of_lt
      ((List.pairwise_append.1 hlines).2.2 l hl last (List.mem_singleton_self last))
  · rw [List.mem_singleton.1 hl]
    exact UInt32.le_refl _

/-- In lines in order, the line before stands for all lines before. -/
theorem isFirstFrom_iff (hlines : Increasing lines) {k : Nat} :
    IsFirstFrom lines target k ↔
      k < lines.length ∧ lines.findIdx (fun l => target ≤ l.address) = k := by
  constructor
  · rintro ⟨hk, hfrom, hbefore⟩
    refine ⟨hk, (List.findIdx_eq hk).2 ⟨decide_eq_true hfrom, ?_⟩⟩
    intro j hj
    rw [decide_eq_false_iff_not, UInt32.not_le]
    rcases Nat.lt_or_eq_of_le (Nat.succ_le_of_lt hj) with hlt | heq
    · have hprevious := hbefore (k - 1) (by omega)
      have hlt' : lines[j].address < lines[k - 1].address :=
        hlines.address_lt (by omega) (by omega)
      exact UInt32.lt_trans hlt' hprevious
    · exact hbefore j heq
  · rintro ⟨hk, hfind⟩
    rcases (List.findIdx_eq hk).1 hfind with ⟨hfrom, hbefore⟩
    refine ⟨hk, of_decide_eq_true hfrom, ?_⟩
    intro j hj
    have hj' := hbefore j (by omega)
    rwa [decide_eq_false_iff_not, UInt32.not_le] at hj'

/-- Halving finds where a branch stops. -/
theorem stopsAt_lineAt (hlines : Increasing lines) (hne : lines ≠ []) (target : UInt32) :
    StopsAt lines target (lineAt (lines.map Line.address).toArray target) := by
  have hinside : ∀ l ∈ lines, l.address ≤ target ->
      lineAt (lines.map Line.address).toArray target =
        (lines.findIdx fun l => target ≤ l.address : Nat) := by
    intro l hl hle
    rw [lineAt_eq hlines hne, if_neg]
    rintro ⟨first, hfirst, hlt⟩
    exact UInt32.not_lt.2 (UInt32.le_trans (hlines.first_le hfirst hl) hle) hlt
  constructor
  · intro first hfirst hlt
    rw [lineAt_eq hlines hne, if_pos ⟨first, hfirst, hlt⟩]
  · intro last hlast hlt
    rw [hinside last (List.mem_of_mem_getLast? hlast) (UInt32.le_of_lt hlt),
      List.findIdx_eq_length.2]
    intro l hl
    rw [decide_eq_false_iff_not, UInt32.not_le]
    exact UInt32.lt_of_le_of_lt (hlines.le_last hlast hl) hlt
  · intro first hfirst last hlast hle hle'
    refine ⟨_, hinside first (List.mem_of_mem_head? hfirst) hle, ?_⟩
    intro j
    rw [isFirstFrom_iff hlines]
    constructor
    · rintro ⟨_, rfl⟩
      rfl
    · rintro rfl
      refine ⟨List.findIdx_lt_length_of_exists ?_, rfl⟩
      exact ⟨last, List.mem_of_mem_getLast? hlast, decide_eq_true hle'⟩
  · rintro k hk rfl
    have hfirst : IsFirstFrom lines lines[k].address k :=
      ⟨hk, UInt32.le_refl _, fun j hj => hlines.address_lt (by omega) hk⟩
    rw [hinside lines[k] (List.getElem_mem hk) (UInt32.le_refl _),
      ((isFirstFrom_iff hlines).1 hfirst).2]

/-! ## The branches of all lines -/

/-- There is one branch for each line with a target, in the order of the lines.
It starts at its line, and stops where its target is. -/
structure IndexesTargets (target? : Line u i -> Option UInt32) (lines : List (Line u i))
    (branches : List Branch) : Prop where
  ordered : branches.Pairwise fun b c => b.start < c.start
  complete : ∀ k (hk : k < lines.length), (target? lines[k]).isSome = true ->
    ∃ b ∈ branches, b.start = k
  sound : ∀ b ∈ branches, ∃ k target, ∃ hk : k < lines.length,
    target? lines[k] = some target ∧ b = { start := k, stop := b.stop } ∧
      StopsAt lines target b.stop

theorem mem_branchesTo {target? : Line u i -> Option UInt32} {b : Branch} :
    b ∈ branchesTo target? lines ↔ ∃ k target, ∃ hk : k < lines.length,
      target? lines[k] = some target ∧
        b = { start := k, stop := lineAt (lines.map Line.address).toArray target } := by
  simp only [branchesTo, List.mem_filterMap, Option.map_eq_some_iff, Prod.exists,
    List.mem_zipIdx_iff_getElem?, List.getElem?_eq_some_iff]
  constructor
  · rintro ⟨l, k, ⟨hk, hl⟩, target, htarget, rfl⟩
    rw [← hl] at htarget
    exact ⟨k, target, hk, htarget, rfl⟩
  · rintro ⟨k, target, hk, htarget, rfl⟩
    exact ⟨lines[k], k, ⟨hk, rfl⟩, target, htarget, rfl⟩

theorem indexesTargets_branchesTo (target? : Line u i -> Option UInt32)
    (hlines : Increasing lines) :
    IndexesTargets target? lines (branchesTo target? lines) where
  ordered := by
    rw [branchesTo, List.pairwise_filterMap]
    have hindex : (lines.zipIdx.map Prod.snd).Pairwise (· < ·) := by
      rw [List.zipIdx_map_snd]
      exact List.pairwise_lt_range'
    refine (List.pairwise_map.1 hindex).imp ?_
    rintro ⟨l, j⟩ ⟨l', k⟩ hjk b hb c hc
    rcases Option.map_eq_some_iff.1 hb with ⟨target, _, rfl⟩
    rcases Option.map_eq_some_iff.1 hc with ⟨target', _, rfl⟩
    exact Int.ofNat_lt.2 hjk
  complete := by
    intro k hk hsome
    rcases Option.isSome_iff_exists.1 hsome with ⟨target, htarget⟩
    exact ⟨_, mem_branchesTo.2 ⟨k, target, hk, htarget, rfl⟩, rfl⟩
  sound := by
    intro b hb
    rcases mem_branchesTo.1 hb with ⟨k, target, hk, htarget, rfl⟩
    have hne : lines ≠ [] := List.ne_nil_of_length_pos (Nat.zero_lt_of_lt hk)
    exact ⟨k, target, hk, htarget, rfl, stopsAt_lineAt hlines hne target⟩

/-- The branches of lines in the order of their addresses stop at their targets.
The lines of a block that does not wrap around are in this order. -/
theorem branches_indexTargets :
    (∀ lines : List Line68, Increasing lines ->
      IndexesTargets (fun l => l.inst.target? l.address) lines (branches68 lines)) ∧
    (∀ lines : List Line56, Increasing lines ->
      IndexesTargets (fun l => (l.inst.target? l.address).map Dsp56k.Instruction.Target.address)
        lines (branches56 lines)) ∧
    (∀ cpu (address : UInt32) (data : Bytes), address.toNat + data.length ≤ 2 ^ 32 ->
      ∀ limit, Increasing ((Machine.m68k cpu).block address limit data)) ∧
    ∀ (address : UInt32) (data : List Word24), address.toNat + data.length ≤ 2 ^ 32 ->
      ∀ limit, Increasing (Machine.dsp56k.block address limit data) := by
  refine ⟨?_, ?_, ?_, ?_⟩
  · intro lines hlines
    exact indexesTargets_branchesTo _ hlines
  · intro lines hlines
    exact indexesTargets_branchesTo _ hlines
  · intro cpu address data hsize limit
    exact (Machine.m68k cpu).increasing_block hsize limit
  · intro address data hsize limit
    exact Machine.dsp56k.increasing_block hsize limit

/-- A branch back to the line in front of it, and the same branch without that
line. -/
theorem branches_indexTargets_back :
    let data : Bytes := [0x4e, 0x71, 0x60, 0xfc]
    let lines := (Machine.m68k .m68000).block 0x1000 0 data
    let target? := fun l : Line68 => l.inst.target? l.address
    (0x1000 : UInt32).toNat + data.length ≤ 2 ^ 32 ∧ Increasing lines ∧
      IndexesTargets target? lines [{ start := 1, stop := 0 }] ∧
      Increasing (lines.drop 1) ∧
      IndexesTargets target? (lines.drop 1) [{ start := 0, stop := -1 }] := by
  intro data lines target?
  have hsize : (0x1000 : UInt32).toNat + data.length ≤ 2 ^ 32 := by decide
  have hlines : Increasing lines := branches_indexTargets.2.2.1 .m68000 0x1000 data hsize 0
  have hdrop : Increasing (lines.drop 1) := hlines.sublist (List.drop_sublist 1 lines)
  have hbranches : branches68 lines = [{ start := 1, stop := 0 }] := by cbv
  have hbranches' : branches68 (lines.drop 1) = [{ start := 0, stop := -1 }] := by cbv
  refine ⟨hsize, hlines, ?_, hdrop, ?_⟩
  · rw [← hbranches]
    exact branches_indexTargets.1 lines hlines
  · rw [← hbranches']
    exact branches_indexTargets.1 (lines.drop 1) hdrop

end Listing
end Disassembler
