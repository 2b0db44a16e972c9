import Disassembler.Proofs.Binary.Packing

/-!
# Packed cursors are cursors

Whatever is asked of several cursors, and in whatever order, each of them stays inside of its
own units, no index is ever outside of the data, and a request moves no cursor but its own.
A target that does not fit into 64 bits does not move a cursor at all.
-/

namespace Disassembler
namespace PackedCursor

variable {u w : Type} {p : Packing u w}

/-! ## Runs -/

/-- Requests to several cursors, each by the number of a cursor, one after the other. -/
def run? (cursors : List (PackedCursor p)) : List (Nat × CursorRequest w) ->
    Option (List (PackedCursor p))
  | [] => some cursors
  | (i, q) :: steps => (step? cursors i q).bind fun r => run? r.2 steps

/-- Cursors at the starts of data. -/
def starts (p : Packing u w) (datas : List Bytes) : List (PackedCursor p) :=
  datas.map fun data => { data }

/-- The answer to a request at a position of a sequence of units, and the position after it. -/
inductive Serves (units : List u) (valueOf : List u -> Nat) (spanOf : w -> Nat) (pos : Nat) :
    CursorRequest w -> CursorAnswer u -> Nat -> Prop where
  | read {n : Int64} (hn : 0 ≤ n.toInt) (hle : pos + n.toInt ≤ units.length) :
      Serves units valueOf spanOf pos (.read n)
        (.units ((units.drop pos).take n.toInt.toNat)) (pos + n.toInt.toNat)
  | readRefused {n : Int64} (h : n.toInt < 0 ∨ units.length < pos + n.toInt) :
      Serves units valueOf spanOf pos (.read n) .refused pos
  | value {k : w} (hle : pos + spanOf k ≤ units.length) :
      Serves units valueOf spanOf pos (.readValue k)
        (.value (valueOf ((units.drop pos).take (spanOf k)))) (pos + spanOf k)
  | valueRefused {k : w} (h : units.length < pos + spanOf k) :
      Serves units valueOf spanOf pos (.readValue k) .refused pos
  | peek {n : Int64} :
      Serves units valueOf spanOf pos (.peek n)
        (.units ((units.drop pos).take n.toInt.toNat)) pos
  | advance {n : Int64} {target : Nat} (hforward : pos ≤ target)
      (hinside : target ≤ units.length) :
      Serves units valueOf spanOf pos (.advance n) .nothing target
  | copy : Serves units valueOf spanOf pos .copy .nothing pos

/-! ## One cursor -/

/-- A cursor stands at a position inside of its units. -/
structure StandsAt (unitsOf : Bytes -> List u) (c : PackedCursor p) (pos : Nat) : Prop where
  length_lt : c.data.length < 2 ^ 63
  position_eq : c.position.toInt = pos
  position_le : pos ≤ (unitsOf c.data).length

theorem standsAt_start {unitsOf : Bytes -> List u} {data : Bytes} (h : data.length < 2 ^ 63) :
    StandsAt unitsOf ({ data } : PackedCursor p) 0 where
  length_lt := h
  position_eq := rfl
  position_le := Nat.zero_le _

section Standing

variable {unitsOf : Bytes -> List u} {valueOf : List u -> Nat} {spanOf : w -> Nat}
  {c : PackedCursor p} {pos : Nat}

/-- The number of units is a number of 64 bits, since the one that is computed is. -/
theorem StandsAt.count_lt (h : StandsAt unitsOf c pos)
    (hp : p.Fetches unitsOf valueOf spanOf) : (unitsOf c.data).length < 2 ^ 63 := by
  have hcount := hp.count_eq h.length_lt
  have hlt := (p.count c.data).toInt_lt
  omega

theorem StandsAt.remaining_eq (h : StandsAt unitsOf c pos)
    (hp : p.Fetches unitsOf valueOf spanOf) :
    c.remaining.toInt = (unitsOf c.data).length - pos := by
  have hcount := hp.count_eq h.length_lt
  have hlt := h.count_lt hp
  have hposition := h.position_eq
  have hle := h.position_le
  rw [remaining, toInt_sub_of_fits (by omega) (by omega), hcount, hposition]

/-- Moving by units that remain does not overflow. -/
theorem StandsAt.move (h : StandsAt unitsOf c pos) (hp : p.Fetches unitsOf valueOf spanOf)
    {n : Int64} {num : Nat} (hn : n.toInt = num) (hle : pos + num ≤ (unitsOf c.data).length) :
    StandsAt unitsOf ({ c with position := c.position + n } : PackedCursor p) (pos + num) where
  length_lt := h.length_lt
  position_eq := by
    have hlt := h.count_lt hp
    have hposition := h.position_eq
    rw [toInt_add_of_fits (by omega) (by omega), hposition, hn]
    rfl
  position_le := hle

theorem StandsAt.peek?_eq (h : StandsAt unitsOf c pos) (hp : p.Fetches unitsOf valueOf spanOf)
    (n : Int64) : c.peek? n = some (((unitsOf c.data).drop pos).take n.toInt.toNat) := by
  have hremaining := h.remaining_eq hp
  have hle := h.position_le
  have hclamped : (max 0 (min n c.remaining)).toInt =
      (min n.toInt.toNat ((unitsOf c.data).length - pos) : Nat) := by
    rw [toInt_max, toInt_min, hremaining, Int64.toInt_zero]
    omega
  rw [peek?, hp.slice?_eq h.length_lt h.position_eq hclamped (by omega)]
  rw [← List.length_drop, ← List.take_take, List.take_length]

theorem StandsAt.read?_eq (h : StandsAt unitsOf c pos) (hp : p.Fetches unitsOf valueOf spanOf)
    {n : Int64} (hn : 0 ≤ n.toInt) (hle : pos + n.toInt ≤ (unitsOf c.data).length) :
    c.read? n = some (.units (((unitsOf c.data).drop pos).take n.toInt.toNat),
      { c with position := c.position + n }) := by
  have hremaining := h.remaining_eq hp
  have henough : ¬ (n < 0 ∨ c.remaining < n) := by
    rw [Int64.lt_iff_toInt_lt, Int64.lt_iff_toInt_lt, Int64.toInt_zero]
    omega
  rw [read?, if_neg henough, h.peek?_eq hp]
  rfl

theorem StandsAt.readValue?_eq (h : StandsAt unitsOf c pos)
    (hp : p.Fetches unitsOf valueOf spanOf) {k : w}
    (hle : pos + spanOf k ≤ (unitsOf c.data).length) :
    c.readValue? k = some (.value (valueOf (((unitsOf c.data).drop pos).take (spanOf k))),
      { c with position := c.position + p.span k }) := by
  have hremaining := h.remaining_eq hp
  have hspan := hp.span_eq k
  have henough : ¬ c.remaining < p.span k := by
    rw [Int64.lt_iff_toInt_lt]
    omega
  rw [readValue?, if_neg henough, hp.value?_eq h.length_lt h.position_eq hle]
  rfl

/-- A target that does not fit into 64 bits counts as one behind the cursor. -/
theorem StandsAt.position_advance (h : StandsAt unitsOf c pos)
    (hp : p.Fetches unitsOf valueOf spanOf) (n : Int64) :
    (c.advance n).position.toInt =
      if 0 ≤ n.toInt ∧ pos + n.toInt < 2 ^ 63 then
        min (pos + n.toInt) (unitsOf c.data).length
      else pos := by
  have hposition := h.position_eq
  have hle := h.position_le
  have hlow := n.le_toInt
  show (max c.position (min (c.position + n) (p.count c.data))).toInt = _
  rw [toInt_max, toInt_min, hp.count_eq h.length_lt, hposition]
  by_cases hfits : c.position.toInt + n.toInt < 2 ^ 63
  · rw [toInt_add_of_fits (by omega) hfits, hposition]
    split <;> omega
  · rw [toInt_add_of_overflow (by omega), hposition]
    have hhigh := n.toInt_lt
    have hlt := h.count_lt hp
    rw [if_neg (by omega)]
    omega

theorem StandsAt.exists_advance (h : StandsAt unitsOf c pos)
    (hp : p.Fetches unitsOf valueOf spanOf) (n : Int64) :
    ∃ target, pos ≤ target ∧ StandsAt unitsOf (c.advance n) target := by
  have hle := h.position_le
  have hadvance := h.position_advance hp n
  refine ⟨(c.advance n).position.toInt.toNat, ?_, h.length_lt, ?_, ?_⟩
  · split at hadvance <;> omega
  · split at hadvance <;> omega
  · show _ ≤ (unitsOf c.data).length
    split at hadvance <;> omega

theorem Serves.le {units : List u} {q : CursorRequest w} {a : CursorAnswer u} {target : Nat}
    (h : Serves units valueOf spanOf pos q a target) : pos ≤ target := by
  cases h with
  | read => exact Nat.le_add_right _ _
  | value => exact Nat.le_add_right _ _
  | advance hforward => exact hforward
  | _ => exact Nat.le_refl _

/-- A request is served, at every position and with every number in it. -/
theorem StandsAt.answer?_serves (h : StandsAt unitsOf c pos)
    (hp : p.Fetches unitsOf valueOf spanOf) (q : CursorRequest w) :
    ∃ a c' target, c.answer? q = some (a, c') ∧ c'.data = c.data ∧ StandsAt unitsOf c' target ∧
      Serves (unitsOf c.data) valueOf spanOf pos q a target := by
  have hremaining := h.remaining_eq hp
  cases q with
  | read n =>
      by_cases hn : 0 ≤ n.toInt ∧ pos + n.toInt ≤ (unitsOf c.data).length
      · refine ⟨_, _, pos + n.toInt.toNat, h.read?_eq hp hn.1 hn.2, rfl, ?_, .read hn.1 hn.2⟩
        exact h.move hp (by omega) (by omega)
      · have hrefused : n < 0 ∨ c.remaining < n := by
          rw [Int64.lt_iff_toInt_lt, Int64.lt_iff_toInt_lt, Int64.toInt_zero]
          omega
        refine ⟨.refused, c, pos, ?_, rfl, h, .readRefused (by omega)⟩
        rw [answer?, read?, if_pos hrefused]
  | readValue k =>
      have hspan := hp.span_eq k
      by_cases hle : pos + spanOf k ≤ (unitsOf c.data).length
      · exact ⟨_, _, pos + spanOf k, h.readValue?_eq hp hle, rfl, h.move hp hspan hle, .value hle⟩
      · have hrefused : c.remaining < p.span k := by
          rw [Int64.lt_iff_toInt_lt]
          omega
        refine ⟨.refused, c, pos, ?_, rfl, h, .valueRefused (by omega)⟩
        rw [answer?, readValue?, if_pos hrefused]
  | peek n =>
      refine ⟨_, c, pos, ?_, rfl, h, .peek⟩
      rw [answer?, h.peek?_eq hp]
      rfl
  | advance n =>
      rcases h.exists_advance hp n with ⟨target, hforward, htarget⟩
      exact ⟨.nothing, c.advance n, target, rfl, rfl, htarget,
        .advance hforward htarget.position_le⟩
  | copy => exact ⟨.nothing, c, pos, rfl, rfl, h, .copy⟩

end Standing

/-! ## Several cursors -/

/-- Each of the cursors stands inside of its own units. -/
def AllStand (unitsOf : Bytes -> List u) (cursors : List (PackedCursor p)) : Prop :=
  ∀ c ∈ cursors, ∃ pos, StandsAt unitsOf c pos

theorem allStand_starts {unitsOf : Bytes -> List u} {datas : List Bytes}
    (h : ∀ data ∈ datas, data.length < 2 ^ 63) : AllStand unitsOf (starts p datas) := by
  intro c hc
  rcases List.mem_map.1 hc with ⟨data, hdata, rfl⟩
  exact ⟨0, standsAt_start (h data hdata)⟩

/-- A request to one of several cursors is answered, and leads to these cursors. -/
structure Obeys (unitsOf : Bytes -> List u) (valueOf : List u -> Nat) (spanOf : w -> Nat)
    (cursors : List (PackedCursor p)) (i : Nat) (c : PackedCursor p) (q : CursorRequest w)
    (a : CursorAnswer u) (after : List (PackedCursor p)) : Prop where
  serves : ∃ c', after[i]? = some c' ∧ c'.data = c.data ∧
    c.position.toInt ≤ c'.position.toInt ∧
    Serves (unitsOf c.data) valueOf spanOf c.position.toInt.toNat q a c'.position.toInt.toNat
  /-- No other cursor moves. -/
  others : ∀ j, j < cursors.length -> j ≠ i -> after[j]? = cursors[j]?
  /-- A copy stands where its original does, and comes last. -/
  copied : q = .copy -> after.drop cursors.length = [c]
  length_eq : q ≠ .copy -> after.length = cursors.length

section Standing

variable {unitsOf : Bytes -> List u} {valueOf : List u -> Nat} {spanOf : w -> Nat}
  {cursors : List (PackedCursor p)}

theorem AllStand.step? (h : AllStand unitsOf cursors) (hp : p.Fetches unitsOf valueOf spanOf)
    {i : Nat} {c : PackedCursor p} (hi : cursors[i]? = some c) (q : CursorRequest w) :
    ∃ a after, step? cursors i q = some (a, after) ∧ AllStand unitsOf after ∧
      Obeys unitsOf valueOf spanOf cursors i c q a after := by
  have hlt : i < cursors.length := (List.getElem?_eq_some_iff.1 hi).1
  rcases h c (List.mem_of_getElem? hi) with ⟨pos, hpos⟩
  rcases hpos.answer?_serves hp q with ⟨a, c', target, hanswer, hdata, htarget, hserves⟩
  have hpos_eq : c.position.toInt.toNat = pos := by
    rw [hpos.position_eq, Int.toNat_natCast]
  have htarget_eq : c'.position.toInt.toNat = target := by
    rw [htarget.position_eq, Int.toNat_natCast]
  have hlength : (cursors.set i c').length = cursors.length := List.length_set
  have hforward : c.position.toInt ≤ c'.position.toInt := by
    rw [hpos.position_eq, htarget.position_eq]
    exact Int.ofNat_le.2 hserves.le
  refine ⟨a, cursors.set i c' ++ c.copies q, ?_, ?_, ⟨c', ?_, hdata, hforward, ?_⟩, ?_, ?_, ?_⟩
  · simp only [PackedCursor.step?, hi, hanswer]
    rfl
  · intro d hd
    rcases List.mem_append.1 hd with hd | hd
    · rcases List.mem_or_eq_of_mem_set hd with hd | rfl
      · exact h d hd
      · exact ⟨target, htarget⟩
    · cases q with
      | copy =>
          rw [copies, List.mem_singleton] at hd
          exact hd ▸ ⟨pos, hpos⟩
      | _ => cases hd
  · rw [List.getElem?_append_left (by rwa [hlength]), List.getElem?_set_self hlt]
  · rwa [hpos_eq, htarget_eq]
  · intro j hj hne
    rw [List.getElem?_append_left (by rwa [hlength]), List.getElem?_set_ne (Ne.symm hne)]
  · rintro rfl
    rw [← hlength, List.drop_left, copies]
  · intro hcopy
    have hnone : c.copies q = [] := by
      cases q with
      | copy => exact absurd rfl hcopy
      | _ => rfl
    rw [hnone, List.append_nil, hlength]

/-- Whatever is asked, there is an answer, and the cursors stand inside of their units. -/
theorem AllStand.run? (h : AllStand unitsOf cursors) (hp : p.Fetches unitsOf valueOf spanOf)
    (steps : List (Nat × CursorRequest w)) :
    ∃ after, run? cursors steps = some after ∧ AllStand unitsOf after := by
  induction steps generalizing cursors with
  | nil => exact ⟨cursors, rfl, h⟩
  | cons step steps ih =>
      rcases step with ⟨i, q⟩
      rw [PackedCursor.run?]
      cases hi : cursors[i]? with
      | none =>
          have hstep : PackedCursor.step? cursors i q = some (.nothing, cursors) := by
            simp only [PackedCursor.step?, hi]
          rw [hstep]
          exact ih h
      | some c =>
          rcases h.step? hp hi q with ⟨a, next, hstep, hnext, _⟩
          rw [hstep]
          exact ih hnext

end Standing

/-! ## Independence -/

/-- Cursors over sequences of units: where they may stand, and what each of them answers. -/
structure AreCursors (unitsOf : Bytes -> List u) (valueOf : List u -> Nat) (spanOf : w -> Nat)
    (cursors : List (PackedCursor p)) : Prop where
  bounds : ∀ c ∈ cursors, 0 ≤ c.position.toInt ∧ 0 ≤ c.remaining.toInt ∧
    c.position.toInt + c.remaining.toInt = (unitsOf c.data).length
  answers : ∀ i c, cursors[i]? = some c -> ∀ q, ∃ a after,
    step? cursors i q = some (a, after) ∧
      Obeys unitsOf valueOf spanOf cursors i c q a after
  /-- A number is made of the units that reading as many of them gives. -/
  readValue?_eq : ∀ c ∈ cursors, ∀ k us c', c.read? (p.span k) = some (.units us, c') ->
    c.readValue? k = some (.value (valueOf us), c')

theorem AllStand.areCursors {unitsOf : Bytes -> List u} {valueOf : List u -> Nat}
    {spanOf : w -> Nat} {cursors : List (PackedCursor p)} (h : AllStand unitsOf cursors)
    (hp : p.Fetches unitsOf valueOf spanOf) : AreCursors unitsOf valueOf spanOf cursors := by
  constructor
  · intro c hc
    rcases h c hc with ⟨pos, hpos⟩
    have hremaining := hpos.remaining_eq hp
    have hposition := hpos.position_eq
    have hle := hpos.position_le
    omega
  · intro i c hi q
    rcases h.step? hp hi q with ⟨a, after, hstep, _, hobeys⟩
    exact ⟨a, after, hstep, hobeys⟩
  · intro c hc k us c' hread
    rcases h c hc with ⟨pos, hpos⟩
    have hspan := hp.span_eq k
    by_cases hle : pos + spanOf k ≤ (unitsOf c.data).length
    · rw [hpos.read?_eq hp (by omega) (by omega), Option.some.injEq, Prod.mk.injEq,
        CursorAnswer.units.injEq, hspan, Int.toNat_natCast] at hread
      rw [hpos.readValue?_eq hp hle, ← hread.1, ← hread.2]
    · have hremaining := hpos.remaining_eq hp
      have hrefused : p.span k < 0 ∨ c.remaining < p.span k := by
        rw [Int64.lt_iff_toInt_lt, Int64.lt_iff_toInt_lt, Int64.toInt_zero]
        omega
      rw [read?, if_pos hrefused] at hread
      simp at hread

/-- However cursors over bytes, or over words of three bytes, are used and copied, they are
independent cursors over the bytes or the whole words of their data. -/
theorem areCursors_run? (datas : List Bytes) (h : ∀ data ∈ datas, data.length < 2 ^ 63) :
    (∀ steps, ∃ cursors, run? (starts Packing.bytes datas) steps = some cursors ∧
      AreCursors id Packing.byteValue Packing.ByteWidth.span cursors) ∧
    (∀ steps, ∃ cursors, run? (starts Packing.words datas) steps = some cursors ∧
      AreCursors Packing.wordUnits Packing.wordValue (fun _ => 1) cursors) ∧
    ∀ data, (Packing.wordUnits data).length = data.length / 3 := by
  refine ⟨fun steps => ?_, fun steps => ?_, Packing.length_wordUnits⟩
  · rcases (allStand_starts h).run? Packing.fetches_bytes steps with ⟨cursors, hrun, hstand⟩
    exact ⟨cursors, hrun, hstand.areCursors Packing.fetches_bytes⟩
  · rcases (allStand_starts h).run? Packing.fetches_words steps with ⟨cursors, hrun, hstand⟩
    exact ⟨cursors, hrun, hstand.areCursors Packing.fetches_words⟩

/-- A word and a byte, and no data at all. -/
def threeBytes : List Bytes :=
  [[0x4e, 0x71, 0x12], []]

/-- A word that is read, a copy of the cursor, and a target past every end. -/
def wordThenEnd : List (Nat × CursorRequest Packing.ByteWidth) :=
  [(0, .readValue .word), (0, .copy), (2, .advance Int64.maxValue), (0, .read (-1)),
    (1, .advance 5)]

theorem areCursors_run?_wordThenEnd :
    (∀ data ∈ threeBytes, data.length < 2 ^ 63) ∧
      (run? (starts Packing.bytes threeBytes) wordThenEnd).map (·.map position) =
        some [2, 0, 2] ∧
      ∃ cursors, run? (starts Packing.bytes threeBytes) wordThenEnd = some cursors ∧
        AreCursors id Packing.byteValue Packing.ByteWidth.span cursors := by
  have hshort : ∀ data ∈ threeBytes, data.length < 2 ^ 63 := by decide
  exact ⟨hshort, by decide, (areCursors_run? threeBytes hshort).1 wordThenEnd⟩

/-! ## Moving forward -/

theorem position_advance_of_run? {unitsOf : Bytes -> List u} {valueOf : List u -> Nat}
    {spanOf : w -> Nat} (hp : p.Fetches unitsOf valueOf spanOf) {datas : List Bytes}
    (h : ∀ data ∈ datas, data.length < 2 ^ 63) {steps : List (Nat × CursorRequest w)}
    {cursors : List (PackedCursor p)} (hrun : run? (starts p datas) steps = some cursors)
    {c : PackedCursor p} (hc : c ∈ cursors) {n : Int64} (hn : 0 ≤ n) :
    (c.advance n).position.toInt =
      if c.position.toInt + n.toInt < 2 ^ 63 then
        min (c.position.toInt + n.toInt) (unitsOf c.data).length
      else c.position.toInt := by
  rcases (allStand_starts h).run? hp steps with ⟨after, hafter, hstand⟩
  rw [hrun, Option.some.injEq] at hafter
  subst hafter
  rcases hstand c hc with ⟨pos, hpos⟩
  rw [Int64.le_iff_toInt_le, Int64.toInt_zero] at hn
  rw [hpos.position_advance hp, hpos.position_eq]
  simp only [hn, true_and]

/-- A reachable cursor that moves forward stops at the end, as long as the sum of its position
and the count is a number of 64 bits.  If the sum is not, the cursor stays where it is. -/
theorem position_advance_run? (datas : List Bytes) (h : ∀ data ∈ datas, data.length < 2 ^ 63) :
    (∀ steps cursors, run? (starts Packing.bytes datas) steps = some cursors ->
      ∀ c ∈ cursors, ∀ n : Int64, 0 ≤ n ->
        (c.advance n).position.toInt =
          if c.position.toInt + n.toInt < 2 ^ 63 then
            min (c.position.toInt + n.toInt) (c.data.length : Nat)
          else c.position.toInt) ∧
    ∀ steps cursors, run? (starts Packing.words datas) steps = some cursors ->
      ∀ c ∈ cursors, ∀ n : Int64, 0 ≤ n ->
        (c.advance n).position.toInt =
          if c.position.toInt + n.toInt < 2 ^ 63 then
            min (c.position.toInt + n.toInt) (c.data.length / 3 : Nat)
          else c.position.toInt := by
  constructor
  · intro steps cursors hrun c hc n hn
    exact position_advance_of_run? Packing.fetches_bytes h hrun hc hn
  · intro steps cursors hrun c hc n hn
    rw [position_advance_of_run? Packing.fetches_words h hrun hc hn, Packing.length_wordUnits]

theorem position_advance_run?_afterWord :
    (∀ data ∈ threeBytes, data.length < 2 ^ 63) ∧
      run? (starts Packing.bytes threeBytes) [(0, .readValue .word)] =
        some [{ data := [0x4e, 0x71, 0x12], position := 2 }, { data := [] }] ∧
      (({ data := [0x4e, 0x71, 0x12], position := 2 } : PackedCursor Packing.bytes).advance
        5).position.toInt = 3 := by
  have hshort : ∀ data ∈ threeBytes, data.length < 2 ^ 63 := by decide
  have hrun : run? (starts Packing.bytes threeBytes) [(0, .readValue .word)] =
      some [{ data := [0x4e, 0x71, 0x12], position := 2 }, { data := [] }] := by rfl
  refine ⟨hshort, hrun, ?_⟩
  rw [(position_advance_run? threeBytes hshort).1 _ _ hrun _ List.mem_cons_self 5 (by decide)]
  rfl

/-- From the second of three bytes the largest count does not lead to the end. -/
theorem advance_maxValue_stays :
    ∃ c, run? (starts Packing.bytes threeBytes) [(0, .advance 1)] = some [c, { data := [] }] ∧
      (c.advance Int64.maxValue).position.toInt = 1 ∧
      min (c.position.toInt + Int64.maxValue.toInt) (c.data.length : Nat) = 3 :=
  ⟨{ data := [0x4e, 0x71, 0x12], position := 1 }, rfl, by decide, by decide⟩

end PackedCursor
end Disassembler
