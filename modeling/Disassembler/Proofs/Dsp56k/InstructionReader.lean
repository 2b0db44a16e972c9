import Disassembler.Proofs.Dsp56k.OperandReader

/-!
# Reading instructions

The groups of operands of an instruction have no names in its text.  What they are
follows from the opcode, from their order and from the number of their operands, so
that a reader can put them back into their places.
-/

namespace Disassembler
namespace Dsp56k

/-! ## Moves -/

namespace Move

/-- A move with other operands in the same places. -/
def map (f : Operand -> Operand) (m : Move) : Move where
  source := m.source.map f
  destination := m.destination.map f

/-- The move with the given operands, the source first. -/
def ofOperands (xs : List Operand) : Move where
  source := xs[0]?
  destination := xs[1]?

@[simp] theorem ofOperands_nil : ofOperands [] = {} :=
  rfl

theorem ofOperands_map (f : Operand -> Operand) (xs : List Operand) :
    ofOperands (xs.map f) = (ofOperands xs).map f := by
  simp [ofOperands, map]

theorem ofOperands_present {m : Move} (h : m.HasSource) : ofOperands m.present = m := by
  rcases m with ⟨_ | x, _ | y⟩
  · rfl
  · exact absurd (h rfl) nofun
  · rfl
  · rfl

theorem eq_empty {m : Move} (h : m.HasSource) (hsource : m.source = none) : m = {} := by
  rcases m with ⟨_ | x, _ | y⟩
  · rfl
  · exact absurd (h rfl) nofun
  · cases hsource
  · cases hsource

end Move

/-! ## Layout -/

def Opcode.isTransfer : Opcode -> Bool
  | transferOn _ => true
  | _ => false

/-- The groups that have operands. -/
def occupied (gs : List (List Operand)) : List (List Operand) :=
  gs.filter fun xs => !xs.isEmpty

/-- The operands of the group at a place, none if there is no such group. -/
def groupAt (gs : List (List Operand)) (k : Nat) : List Operand :=
  gs.getD k []

theorem groupAt_map (f : Operand -> Operand) (gs : List (List Operand)) (k : Nat) :
    groupAt (gs.map (List.map f)) k = (groupAt gs k).map f := by
  rw [groupAt, groupAt, List.getD_eq_getElem?_getD, List.getD_eq_getElem?_getD,
    List.getElem?_map]
  cases gs[k]? <;> rfl

/-- Without gaps between them, groups stand at their places. -/
theorem groupAt_occupied {xs ys zs : List Operand} (hy : xs = [] -> ys = [])
    (hz : ys = [] -> zs = []) :
    groupAt (occupied [xs, ys, zs]) 0 = xs ∧ groupAt (occupied [xs, ys, zs]) 1 = ys ∧
      groupAt (occupied [xs, ys, zs]) 2 = zs := by
  cases xs with
  | nil =>
      rw [hz (hy rfl), hy rfl]
      exact ⟨rfl, rfl, rfl⟩
  | cons x xs =>
      cases ys with
      | nil =>
          rw [hz rfl]
          exact ⟨rfl, rfl, rfl⟩
      | cons y ys => cases zs <;> exact ⟨rfl, rfl, rfl⟩

namespace Operation

/-- An operation with other operands in the same places. -/
def map (f : Operand -> Operand) (o : Operation) : Operation :=
  { o with
    first := o.first.map f, second := o.second.map f, third := o.third.map f
    transfer := o.transfer.map f, moveX := o.moveX.map f, moveY := o.moveY.map f }

/-- An operation whose immediate data have words of their own. -/
def widen : Operation -> Operation :=
  map Operand.widen

/-- The operands of the operation itself. -/
def own (o : Operation) : List Operand :=
  [o.first, o.second, o.third].filterMap id

/-- The operands in their groups, as they are printed. -/
def layout (o : Operation) : List (List Operand) :=
  occupied [o.own, o.transfer.present, o.moveX.present, o.moveY.present]

/-- Put groups of operands into the places that they have beside an opcode.  Only a
move has no operands of its own in front of the others. -/
def arrange (op : Opcode) (negated : Bool) (gs : List (List Operand)) : Operation :=
  let own := if op = .move then [] else groupAt gs 0
  let next := Move.ofOperands (groupAt gs (if op = .move then 0 else 1))
  let last := Move.ofOperands (groupAt gs (if op = .move then 1 else 2))
  { opcode := op, negated
    first := own[0]?, second := own[1]?, third := own[2]?
    transfer := if op.isTransfer then next else {}
    moveX := if op.isTransfer then {} else next
    moveY := if op.isTransfer then {} else last }

/-- What the places of its groups follow from. -/
structure Arranged (o : Operation) : Prop where
  wellFormed : o.WellFormed
  move : o.opcode = .move -> o.first = none
  first : o.opcode ≠ .move -> o.first = none -> o.transfer = {} ∧ o.moveX = {}
  negated : o.negated = true -> ∃ r, o.first = some (.reg r)

theorem arrange_map (op : Opcode) (negated : Bool) (f : Operand -> Operand)
    (gs : List (List Operand)) :
    arrange op negated (gs.map (List.map f)) = (arrange op negated gs).map f := by
  have hempty : ({} : Move).map f = {} := rfl
  have hown : (if op = .move then [] else (groupAt gs 0).map f) =
      (if op = .move then [] else groupAt gs 0).map f := by
    split <;> rfl
  cases htransfer : op.isTransfer <;>
    simp [arrange, map, groupAt_map, Move.ofOperands_map, htransfer, hempty, hown]

namespace WellFormed

variable {o : Operation} (h : o.WellFormed)

include h

theorem own_eq : o.own[0]? = o.first ∧ o.own[1]? = o.second ∧ o.own[2]? = o.third := by
  have hsecond := h.second
  have hthird := h.third
  cases hx : o.first with
  | none =>
      have hy : o.second = none := by simpa [hx] using hsecond
      have hz : o.third = none := by simpa [hy] using hthird
      simp [own, hx, hy, hz]
  | some x =>
      cases hy : o.second with
      | none =>
          have hz : o.third = none := by simpa [hy] using hthird
          simp [own, hx, hy, hz]
      | some y => cases hz : o.third <;> simp [own, hx, hy, hz]

theorem own_eq_nil_iff : o.own = [] ↔ o.first = none := by
  constructor
  · intro hown
    rw [← h.own_eq.1, hown]
    rfl
  · intro hx
    have hy : o.second = none := by simpa [hx] using h.second
    have hz : o.third = none := by simpa [hy] using h.third
    simp [own, hx, hy, hz]

/-- There is no second move without a first one. -/
theorem moveY_eq_empty (hx : o.moveX = {}) : o.moveY = {} := by
  refine Move.eq_empty h.moveY ?_
  cases hy : o.moveY.source with
  | none => rfl
  | some y =>
      have hmoves := h.moves (by rw [hy]; rfl)
      rw [hx] at hmoves
      cases hmoves

theorem present_moveY_eq_nil (hx : o.moveX.present = []) : o.moveY.present = [] := by
  have hempty : o.moveX = {} := by
    rw [← Move.ofOperands_present h.moveX, hx]
    rfl
  rw [h.moveY_eq_empty hempty]
  rfl

/-- A conditional transfer has no moves, and other operations no transfer. -/
theorem transfer_eq_empty (hop : o.opcode.isTransfer = false) : o.transfer = {} := by
  by_contra hne
  rcases h.conditional hne with ⟨c, hc⟩
  rw [hc] at hop
  cases hop

theorem moves_eq_empty (hop : o.opcode.isTransfer = true) : o.moveX = {} ∧ o.moveY = {} := by
  have harith : o.opcode ∉ arithmeticOpcodes := by
    intro hmem
    have hall : ∀ op ∈ arithmeticOpcodes, op.isTransfer = false := by decide
    rw [hall _ hmem] at hop
    cases hop
  constructor
  · by_contra hne
    exact harith (h.parallel (Or.inl hne))
  · by_contra hne
    exact harith (h.parallel (Or.inr hne))

theorem hasSource_transfer : o.transfer.HasSource := by
  intro hdst
  rw [h.transfer]
  exact hdst

end WellFormed

namespace Arranged

variable {o : Operation} (h : o.Arranged)

include h

theorem arrange_move (hmove : o.opcode = .move) :
    arrange o.opcode o.negated o.layout = o := by
  have hwf := h.wellFormed
  have hop : ¬o.opcode.isTransfer = true := by
    rw [hmove]
    exact Bool.false_ne_true
  have htransfer := hwf.transfer_eq_empty (Bool.not_eq_true _ ▸ hop)
  have hnil : o.own = [] := hwf.own_eq_nil_iff.2 (h.move hmove)
  have hown := hwf.own_eq
  have hlayout : o.layout = occupied [o.moveX.present, o.moveY.present, []] := by
    simp [layout, occupied, List.filter_cons, hnil, htransfer]
  have hgroups := groupAt_occupied hwf.present_moveY_eq_nil fun _ => rfl
  rw [← hlayout] at hgroups
  rw [hnil] at hown
  simp only [arrange, if_pos hmove, if_neg hop, hgroups.1, hgroups.2.1, hown.1, hown.2.1,
    hown.2.2, Move.ofOperands_present hwf.moveX, Move.ofOperands_present hwf.moveY, ← htransfer]

theorem arrange_transfer (hmove : o.opcode ≠ .move) (hop : o.opcode.isTransfer = true) :
    arrange o.opcode o.negated o.layout = o := by
  have hwf := h.wellFormed
  have hown := hwf.own_eq
  rcases hwf.moves_eq_empty hop with ⟨hx, hy⟩
  have hlayout : o.layout = occupied [o.own, o.transfer.present, []] := by
    simp [layout, occupied, List.filter_cons, hx, hy]
  have hpresent : o.own = [] -> o.transfer.present = [] := by
    intro hnil
    rw [(h.first hmove (hwf.own_eq_nil_iff.1 hnil)).1]
    rfl
  have hgroups := groupAt_occupied hpresent fun _ => rfl
  rw [← hlayout] at hgroups
  simp only [arrange, if_neg hmove, if_pos hop, hgroups.1, hgroups.2.1, hown.1, hown.2.1,
    hown.2.2, Move.ofOperands_present hwf.hasSource_transfer]
  rcases o with ⟨op, x, y, z, transfer, moveX, moveY, negated⟩
  cases hx
  cases hy
  rfl

/-- The operation is found again from its groups. -/
theorem arrange_layout : arrange o.opcode o.negated o.layout = o := by
  have hwf := h.wellFormed
  have hown := hwf.own_eq
  by_cases hmove : o.opcode = .move
  · exact h.arrange_move hmove
  · by_cases hop : o.opcode.isTransfer = true
    · exact h.arrange_transfer hmove hop
    · have htransfer := hwf.transfer_eq_empty (Bool.not_eq_true _ ▸ hop)
      have hlayout : o.layout = occupied [o.own, o.moveX.present, o.moveY.present] := by
        simp [layout, occupied, List.filter_cons, htransfer]
      have hpresent : o.own = [] -> o.moveX.present = [] := by
        intro hnil
        rw [(h.first hmove (hwf.own_eq_nil_iff.1 hnil)).2]
        rfl
      have hgroups := groupAt_occupied hpresent hwf.present_moveY_eq_nil
      rw [← hlayout] at hgroups
      simp only [arrange, if_neg hmove, if_neg hop, hgroups.1, hgroups.2.1, hgroups.2.2, hown.1,
        hown.2.1, hown.2.2, Move.ofOperands_present hwf.moveX,
        Move.ofOperands_present hwf.moveY, ← htransfer]

end Arranged

theorem layout_of_own_ne_nil {o : Operation} (hown : o.own ≠ []) :
    o.layout =
      o.own :: occupied [o.transfer.present, o.moveX.present, o.moveY.present] := by
  rw [layout, occupied, List.filter_cons_of_pos (by simpa using hown)]
  rfl

theorem WellFormed.of_mem_layout {o : Operation} (h : o.WellFormed) {xs : List Operand}
    (hxs : xs ∈ o.layout) : xs ≠ [] ∧ ∀ x ∈ xs, x.WellFormed := by
  have hpresent := h.operands
  simp only [present, moved, List.forall_mem_append] at hpresent
  rcases hpresent with ⟨⟨hown, htransfer⟩, hmoveX, hmoveY⟩
  rcases List.mem_filter.1 hxs with ⟨hmem, hne⟩
  refine ⟨by simpa using hne, ?_⟩
  simp only [List.mem_cons, List.not_mem_nil, or_false] at hmem
  rcases hmem with rfl | rfl | rfl | rfl
  · exact hown
  · exact htransfer
  · exact hmoveX
  · exact hmoveY

end Operation

/-! ## Texts of groups -/

namespace Reader

theorem transferText_eq {m : Move} (h : m.source.isSome = m.destination.isSome) (style : Style) :
    transferText m style = (occupied [m.present]).map (groupText style) := by
  rcases m with ⟨_ | x, _ | y⟩
  · rfl
  · cases h
  · cases h
  · rfl

theorem moveText_eq {m : Move} (h : m.HasSource) (style : Style) :
    moveText m style = (occupied [m.present]).map (groupText style) := by
  rcases m with ⟨_ | x, _ | y⟩
  · rfl
  · exact absurd (h rfl) nofun
  · rfl
  · rfl

/-- The groups after the operands of the operation itself. -/
theorem besideTexts_eq {o : Operation} (h : o.WellFormed) (style : Style) :
    transferText o.transfer style ++ moveText o.moveX style ++ moveText o.moveY style =
      (occupied [o.transfer.present, o.moveX.present, o.moveY.present]).map
        (groupText style) := by
  rw [transferText_eq h.transfer, moveText_eq h.moveX, moveText_eq h.moveY, ← List.map_append,
    ← List.map_append, occupied, occupied, occupied, ← List.filter_append, ← List.filter_append]
  rfl

theorem join_primaryTexts {i : Instruction} {x : Operand} (hx : i.first = some x)
    (style : Style) :
    Text.join "," (primaryTexts i style) =
      (if i.negated then "-" else "") ++ groupText style i.own := by
  have hown : i.own.map (Operand.text style) = x.text style ::
      ((i.second.map (Operand.text style)).toList ++ (i.third.map (Operand.text style)).toList) := by
    cases hy : i.second <;> cases hz : i.third <;> simp [Operation.own, hx, hy, hz]
  rw [groupText, hown, ← Text.join_append_cons, primaryTexts, hx]
  rfl

/-- The text of the operands is that of their layout, after the sign. -/
theorem join_groups {i : Instruction} (h : i.toOperation.Arranged) (style : Style) :
    Text.join " " (groups i style) =
      (if i.negated then "-" else "") ++ Text.join " " (i.layout.map (groupText style)) := by
  have hbeside := besideTexts_eq h.wellFormed style
  simp only [List.append_assoc] at hbeside
  rw [groups]
  simp only [List.append_assoc, hbeside]
  cases hx : i.first with
  | none =>
      have hown : i.own = [] := h.wellFormed.own_eq_nil_iff.2 hx
      have hprimary : primaryTexts i style = [] := by
        have hy : i.second = none := by simpa [hx] using h.wellFormed.second
        have hz : i.third = none := by simpa [hy] using h.wellFormed.third
        simp [primaryTexts, hx, hy, hz]
      have hnegated : i.negated = false := by
        rw [← Bool.not_eq_true]
        intro hneg
        rcases h.negated hneg with ⟨r, hr⟩
        rw [hr] at hx
        cases hx
      rw [hprimary, hnegated, Operation.layout, hown]
      exact String.empty_append.symm
  | some x =>
      have hown : i.own ≠ [] := by
        rw [ne_eq, h.wellFormed.own_eq_nil_iff, hx]
        exact Option.some_ne_none x
      have hprimary : (primaryTexts i style).isEmpty = false := by
        simp [primaryTexts, hx]
      rw [hprimary, join_primaryTexts hx, Operation.layout_of_own_ne_nil hown, List.map_cons,
        ← Text.join_append_cons]
      rfl

/-- The text of the operands begins with that of the first one. -/
theorem exists_toList_join {x : Operand} (xs : List Operand) (gs : List (List Operand))
    (style : Style) : ∃ tail, (Text.join " " (((x :: xs) :: gs).map (groupText style))).toList =
      (x.text style).toList ++ tail := by
  rcases Text.exists_toList_join_cons "," (x.text style) (xs.map (Operand.text style)) with
    ⟨tail, htail⟩
  rcases Text.exists_toList_join_cons " " (groupText style (x :: xs))
    (gs.map (groupText style)) with ⟨tail', htail'⟩
  refine ⟨tail ++ tail', ?_⟩
  rw [List.map_cons, htail', groupText, List.map_cons, htail, List.append_assoc]

/-! ## Instructions -/

/-- Read the aligned form of an instruction.  What is shown as data does not matter. -/
def readOperation (s : List Char) : Operation :=
  let op := Opcode.ofName (String.ofList (s.takeWhile (· != ' ')))
  let operands := (s.dropWhile (· != ' ')).dropWhile (· == ' ')
  if op = .data then .nullary .data
  else
    .arrange op (isNegated operands)
      (readGroups (if isNegated operands then operands.tail else operands))

theorem isNegated_groups {i : Instruction} (h : i.toOperation.Arranged) (style : Style) :
    isNegated (Text.join " " (groups i style)).toList = i.negated := by
  rw [join_groups h style, String.toList_append]
  cases hneg : i.negated with
  | false =>
      cases hlayout : i.layout with
      | nil => rfl
      | cons xs gs =>
          have hne := (h.wellFormed.of_mem_layout (by rw [hlayout]; exact List.mem_cons_self)).1
          cases xs with
          | nil => exact absurd rfl hne
          | cons x xs =>
              rcases exists_toList_join (x := x) xs gs style with ⟨tail, htail⟩
              rw [htail]
              exact isNegated_operand x style tail
  | true =>
      rcases h.negated hneg with ⟨r, hr⟩
      obtain ⟨xs, hown⟩ : ∃ xs, i.own = .reg r :: xs := by
        refine ⟨[i.second, i.third].filterMap id, ?_⟩
        rw [Operation.own, hr]
        rfl
      have hlayout := Operation.layout_of_own_ne_nil (o := i.toOperation) (by simp [hown])
      rw [hown] at hlayout
      rcases exists_toList_join (x := .reg r) xs
        (occupied [i.transfer.present, i.moveX.present, i.moveY.present]) style with ⟨tail, htail⟩
      rw [hlayout, htail]
      exact isNegated_register r tail

/-- The groups are read back after the sign. -/
theorem readGroups_groups {i : Instruction} (h : i.toOperation.Arranged) (style : Style) :
    readGroups (if i.negated then (Text.join " " (groups i style)).toList.tail
      else (Text.join " " (groups i style)).toList) = i.layout.map (List.map Operand.widen) := by
  rw [← readGroups_join (fun xs hxs => h.wellFormed.of_mem_layout hxs) style,
    join_groups h style]
  cases i.negated with
  | false => rw [if_neg Bool.false_ne_true, if_neg Bool.false_ne_true, String.empty_append]
  | true => simp

theorem mem_all_of_ne_unlisted {op : Opcode} (hop : op ≠ .unlisted) : op ∈ Opcode.all := by
  cases op with
  | jumpOn c | callOn c | transferOn c => cases c <;> decide
  | unlisted => exact absurd rfl hop
  | _ => decide

theorem ofName_name {op : Opcode} (hop : op ≠ .unlisted) : Opcode.ofName op.name = op := by
  -- The catalogue is closed, so that its names are compared by evaluation.
  have hall : ∀ op ∈ Opcode.all, Opcode.ofName op.name = op := by decide +kernel
  exact hall op (mem_all_of_ne_unlisted hop)

/-- An instruction is read back from its text, but for the width of immediate data. -/
theorem readOperation_text {i : Instruction} (h : i.toOperation.Arranged) (style : Style)
    (hdata : i.opcode ≠ .data) :
    readOperation (i.text style).toList = i.toOperation.widen := by
  rcases Opcode.name_spec h.wellFormed.opcode with ⟨hname, _, _⟩
  have hblank := Text.noBlank_of_isGraphic (hname.mono fun _ hc => hc.1)
  have hcut := Text.cut_trimBlanks_padRight (n := Instruction.opcodeWidth) hblank
    (trimmed_join (h.wellFormed.isGroup_groups style))
    fun _ => Opcode.width_name_lt h.wellFormed.opcode
  rw [readOperation, Instruction.text, if_neg hdata]
  simp only [hcut.1, hcut.2, String.ofList_toList, ofName_name h.wellFormed.opcode,
    if_neg hdata, isNegated_groups h style, readGroups_groups h style, Operation.arrange_map,
    h.arrange_layout]
  rfl

/-- What is shown as data is read as data. -/
theorem readOperation_data {i : Instruction} (hop : i.opcode = .data) (style : Style) :
    readOperation (i.text style).toList = .nullary .data := by
  have hcolumn : (Text.padRight Instruction.opcodeWidth Opcode.data.name).toList =
      Opcode.data.name.toList ++ List.replicate 7 ' ' := by decide
  have hword : ∀ c ∈ Opcode.data.name.toList, (c != ' ') = true := by simp [Opcode.name]
  have hread : Opcode.ofName Opcode.data.name = .data := by decide +kernel
  rw [Instruction.text, if_pos hop, String.toList_append, hcolumn, List.append_assoc,
    readOperation, List.takeWhile_append_of_pos hword]
  simp [List.replicate_succ, hread]

end Reader
end Dsp56k
end Disassembler
