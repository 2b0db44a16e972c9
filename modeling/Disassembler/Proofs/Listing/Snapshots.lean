import Disassembler.Proofs.Listing.Comments

/-!
# Snapshots of registers

With other registers a listing is the same but for the comment on the line at the
program counter.  A comment takes no part in the widths of columns and in the
branches, so that it cannot change the other rows.
-/

namespace Disassembler
namespace Listing

variable {u i : Type}

/-! ## Two runs -/

/-- The rows of a line with two snapshots.  Only the comment of a current line can
differ. -/
inductive LineAgrees (current : Prop) (labels : List Row) :
    Except Fault (List Row) -> Except Fault (List Row) -> Prop where
  | fault (f : Fault) : LineAgrees current labels (.error f) (.error f)
  | rows (fields : Fields) {c d : String} : (¬ current -> c = d) ->
      LineAgrees current labels (.ok (labels ++ [.code { fields with comment := c }]))
        (.ok (labels ++ [.code { fields with comment := d }]))

/-- The rows of lines, one group for each line. -/
inductive GroupsAgree (current : Line u i -> Prop) (labels : Line u i -> List Row) :
    List (Line u i) -> List (List Row) -> List (List Row) -> Prop where
  | nil : GroupsAgree current labels [] [] []
  | cons {l : Line u i} {lines : List (Line u i)} {gs hs : List (List Row)} (fields : Fields)
      {c d : String} : (¬ current l -> c = d) -> GroupsAgree current labels lines gs hs ->
      GroupsAgree current labels (l :: lines)
        ((labels l ++ [.code { fields with comment := c }]) :: gs)
        ((labels l ++ [.code { fields with comment := d }]) :: hs)

/-- The row of the instruction of a line: the lines before it and their labels stand
in front of it, and so does its own label. -/
def instructionRow (labels : Line u i -> List Row) (lines : List (Line u i)) (k : Nat) : Nat :=
  k + ((lines.take (k + 1)).flatMap labels).length

section

variable {current : Line u i -> Prop} {labels : Line u i -> List Row}

/-- Lines that agree one by one agree together, or have the same fault. -/
theorem mapM_agrees {rowsOf rowsOf' : Line u i -> Except Fault (List Row)}
    (h : ∀ l, LineAgrees (current l) (labels l) (rowsOf l) (rowsOf' l))
    (lines : List (Line u i)) :
    (∃ f, lines.mapM rowsOf = .error f ∧ lines.mapM rowsOf' = .error f) ∨
      ∃ gs hs, lines.mapM rowsOf = .ok gs ∧ lines.mapM rowsOf' = .ok hs ∧
        GroupsAgree current labels lines gs hs := by
  induction lines with
  | nil => exact Or.inr ⟨[], [], rfl, rfl, .nil⟩
  | cons l lines ih =>
      have hl := h l
      rw [List.mapM_cons, List.mapM_cons]
      generalize rowsOf l = first at hl ⊢
      generalize rowsOf' l = first' at hl ⊢
      cases hl with
      | fault f => exact Or.inl ⟨f, rfl, rfl⟩
      | rows fields hcomment =>
          rcases ih with ⟨f, hf, hf'⟩ | ⟨gs, hs, hgs, hhs, hagree⟩
          · left
            rw [hf, hf']
            exact ⟨f, rfl, rfl⟩
          · right
            rw [hgs, hhs]
            exact ⟨_, _, rfl, rfl, .cons fields hcomment hagree⟩

variable {lines : List (Line u i)} {gs hs : List (List Row)}

theorem GroupsAgree.map_length (h : GroupsAgree current labels lines gs hs) :
    gs.map List.length = hs.map List.length := by
  induction h with
  | nil => rfl
  | cons fields _ _ ih =>
      rw [List.map_cons, List.map_cons, ih, List.length_append, List.length_append]
      rfl

theorem codeFields_append (rows rows' : List Row) :
    codeFields (rows ++ rows') = codeFields rows ++ codeFields rows' :=
  List.filterMap_append

theorem GroupsAgree.columns_eq (h : GroupsAgree current labels lines gs hs) :
    Columns.ofRows (codeFields gs.flatten) = Columns.ofRows (codeFields hs.flatten) := by
  suffices hfold : ∀ c : Columns,
      (codeFields gs.flatten).foldl Columns.update c =
        (codeFields hs.flatten).foldl Columns.update c from hfold {}
  induction h with
  | nil => exact fun c => rfl
  | cons fields _ _ ih =>
      intro c
      rw [List.flatten_cons, List.flatten_cons, codeFields_append, codeFields_append,
        codeFields_append, codeFields_append, List.foldl_append, List.foldl_append,
        List.foldl_append, List.foldl_append]
      exact ih _

theorem instructionRow_cons_succ (l : Line u i) (lines : List (Line u i)) (k : Nat) :
    instructionRow labels (l :: lines) (k + 1) =
      (labels l).length + (instructionRow labels lines k + 1) := by
  rw [instructionRow, instructionRow, List.take_succ_cons, List.flatMap_cons, List.length_append]
  omega

/-- Rows agree unless they are the instructions of current lines. -/
theorem GroupsAgree.getElem?_eq (h : GroupsAgree current labels lines gs hs) {r : Nat}
    (hr : ∀ k (hk : k < lines.length), current lines[k] -> r ≠ instructionRow labels lines k) :
    gs.flatten[r]? = hs.flatten[r]? := by
  induction h generalizing r with
  | nil => rfl
  | @cons l lines gs hs fields c d hcomment _ ih =>
      rw [List.flatten_cons, List.flatten_cons, List.append_assoc, List.append_assoc]
      rcases Nat.lt_or_ge r (labels l).length with hlt | hge
      · rw [List.getElem?_append_left hlt, List.getElem?_append_left hlt]
      · obtain ⟨r, rfl⟩ := Nat.exists_eq_add_of_le hge
        rw [List.getElem?_append_right hge, List.getElem?_append_right hge,
          Nat.add_sub_cancel_left]
        cases r with
        | zero =>
            have hcurrent : ¬ current l := by
              intro hl
              refine hr 0 (Nat.zero_lt_succ _) hl ?_
              simp [instructionRow]
            rw [hcomment hcurrent]
            rfl
        | succ r =>
            refine ih ?_
            intro k hk hcurrent heq
            refine hr (k + 1) (Nat.succ_lt_succ hk) hcurrent ?_
            rw [instructionRow_cons_succ, ← heq]

/-! ## The text -/

theorem firstRows_congr (h : gs.map List.length = hs.map List.length) :
    firstRows gs = firstRows hs := by
  have hlengths : ∀ groups : List (List Row), firstRows groups =
      (groups.map List.length).foldl (fun first n => first.push (first.back?.getD 0 + n)) #[0] := by
    intro groups
    rw [firstRows, List.foldl_map]
  rw [hlengths, hlengths, h]

theorem GroupsAgree.renderGroups_eq (h : GroupsAgree current labels lines gs hs)
    (o : ListingOptions) (branches : List Branch) :
    ∃ (margins : List String) (text : String -> Row -> String),
      renderGroups o gs branches = List.zipWith text margins gs.flatten ∧
        renderGroups o hs branches = List.zipWith text margins hs.flatten := by
  have hlength : gs.flatten.length = hs.flatten.length := by
    rw [List.length_flatten, List.length_flatten, h.map_length]
  rw [renderGroups, renderGroups, rowTexts_eq, rowTexts_eq, h.columns_eq, hlength,
    firstRows_congr h.map_length]
  exact ⟨_, _, rfl, rfl⟩

end

/-! ## Writing -/

/-- What is written in two runs is the same but for some rows. -/
structure SameBut (changes : Nat -> Prop) (w w' : RowSink × Option Fault) : Prop where
  fault_eq : w.2 = w'.2
  size_eq : w.1.rows.size = w'.1.rows.size
  row_eq : ∀ r, ¬ changes r -> w.1.rows[r]? = w'.1.rows[r]?

/-- Rows are written alike up to the last one that the writer takes. -/
theorem sameBut_writeTo {changes : Nat -> Prop} {rows rows' : List String}
    (hlength : rows.length = rows'.length) (hrows : ∀ r, ¬ changes r -> rows[r]? = rows'[r]?)
    (capacity : Option Nat) (failure : Fault) :
    SameBut changes (writeTo { capacity } failure (.ok rows))
      (writeTo { capacity } failure (.ok rows')) := by
  cases capacity with
  | none =>
      simp only [writeTo, deliver_unlimited]
      constructor
      · rfl
      · simp [hlength]
      · simpa using hrows
  | some n =>
      simp only [writeTo, deliver_limited, hlength]
      constructor
      · rfl
      · simp [hlength]
      · intro r hr
        simp [List.getElem?_take, hrows r hr]

/-- What is written depends on the registers only in the rows of the lines at the
program counter. -/
structure ShowsAtCounter {ρ : Type} (counter : ρ -> UInt32) (row : Nat -> Nat)
    (lines : List (Line u i)) (render : Option ρ -> Except Fault (List String)) : Prop where
  beside : ∀ s s', counter s = counter s' -> ∀ capacity failure,
    SameBut (fun r => ∃ k, ∃ hk : k < lines.length, lines[k].address = counter s ∧ r = row k)
      (writeTo { capacity } failure (render (some s)))
      (writeTo { capacity } failure (render (some s')))
  nowhere : ∀ s, (∀ l ∈ lines, l.address ≠ counter s) -> ∀ sink failure,
    writeTo sink failure (render (some s)) = writeTo sink failure (render none)

/-- It is enough that the rows of every line depend on the registers in this way. -/
theorem showsAtCounter_of_mapM {ρ : Type} {counter : ρ -> UInt32} {row : Nat -> Nat}
    {lines : List (Line u i)} (labels : Line u i -> List Row)
    {rowsOf : Option ρ -> Line u i -> Except Fault (List Row)}
    (hrow : ∀ k, k < lines.length -> instructionRow labels lines k = row k)
    (hagree : ∀ s s', counter s = counter s' -> ∀ l,
      LineAgrees (l.address = counter s) (labels l) (rowsOf (some s) l) (rowsOf (some s') l))
    (hnone : ∀ s l, l.address ≠ counter s -> rowsOf (some s) l = rowsOf none l)
    (o : ListingOptions) (branches : List Branch) :
    ShowsAtCounter counter row lines fun regs => do
      let groups <- lines.mapM (rowsOf regs)
      return renderGroups o groups branches where
  beside := by
    intro s s' hs capacity failure
    rcases mapM_agrees (hagree s s' hs) lines with
      ⟨f, hf, hf'⟩ | ⟨gs, hs, hgs, hhs, hgroups⟩
    · rw [hf, hf']
      exact ⟨rfl, rfl, fun _ _ => rfl⟩
    · rw [hgs, hhs]
      rcases hgroups.renderGroups_eq o branches with ⟨margins, text, htext, htext'⟩
      have hlength := congrArg List.sum hgroups.map_length
      rw [← List.length_flatten, ← List.length_flatten] at hlength
      refine sameBut_writeTo ?_ ?_ capacity failure
      · rw [htext, htext', List.length_zipWith, List.length_zipWith, hlength]
      · intro r hr
        have hr' := hgroups.getElem?_eq (r := r) fun k hk haddress heq =>
          hr ⟨k, hk, haddress, heq.trans (hrow k hk)⟩
        rw [htext, htext', List.getElem?_zipWith, List.getElem?_zipWith, hr']
  nowhere := by
    intro s hs sink failure
    have hlines : lines.mapM (rowsOf (some s)) = lines.mapM (rowsOf none) :=
      mapM_congr_of_mem fun l hl => hnone s l (hs l hl)
    rw [hlines]

/-- Two comments on a line are both there or have the same fault. -/
theorem comments_agree (o : ListingOptions) (address : UInt32) (terse : String)
    (parts parts' : List String) :
    (∃ f, comment o address terse parts = .error f ∧ comment o address terse parts' = .error f) ∨
      ∃ c d, comment o address terse parts = .ok c ∧ comment o address terse parts' = .ok d := by
  rcases comment_cases o address terse parts with ⟨hfault, c, hc⟩ | ⟨f, hfault, hf⟩
  · rcases exists_comment hfault parts' with ⟨d, hd⟩
    exact Or.inr ⟨c, d, hc, hd⟩
  · exact Or.inl ⟨_, hf, comment_eq_error hfault parts'⟩

/-- Rows of a line agree if its comments do, unless the line is current. -/
theorem rows_agree (o : ListingOptions) (address : UInt32)
    (terse addressText bytecode text : String) (labels : List Row) {current : Prop}
    {parts parts' : List String} (h : ¬ current -> parts = parts') :
    LineAgrees current labels
      ((comment o address terse parts >>= fun c =>
        pure (fieldsOf o addressText bytecode terse text c)) >>= fun fields =>
          pure (labels ++ [.code fields]))
      ((comment o address terse parts' >>= fun c =>
        pure (fieldsOf o addressText bytecode terse text c)) >>= fun fields =>
          pure (labels ++ [.code fields])) := by
  rcases comments_agree o address terse parts parts' with ⟨f, hf, hf'⟩ | ⟨c, d, hc, hd⟩
  · rw [hf, hf']
    exact .fault f
  · rw [hc, hd]
    refine .rows (fieldsOf o addressText bytecode terse text "") ?_
    intro hcurrent
    rw [h hcurrent, hd] at hc
    exact (Except.ok.inj hc).symm

/-! ## The 68000 family -/

section

variable {s : M68k.Registers} {l : Line68}

theorem m68k_registersAt_of_ne (h : l.address ≠ s.get .pc) :
    M68k.Instruction.registersAt (some s) l.address = none := by
  rw [M68k.Instruction.registersAt, Option.filter_some, if_neg (by simpa using h.symm)]

theorem branchComment68_of_ne (h : l.address ≠ s.get .pc) :
    l.inst.branchComment l.address (some s) = l.inst.branchComment l.address none := by
  rw [M68k.Instruction.branchComment, m68k_registersAt_of_ne h]
  rfl

theorem addressComment68_of_ne (h : l.address ≠ s.get .pc) (table : Option SymbolTable) :
    addressComment68 table (some s) l = addressComment68 table none l := by
  have haddresses : l.inst.addresses l.address (some s) = l.inst.addresses l.address none := by
    rw [M68k.Instruction.addresses, m68k_registersAt_of_ne h]
    rfl
  cases table with
  | none => exact congrArg (fun a => Text.join "  " (a.map Number.hex)) haddresses
  | some table => rw [addressComment68_some, addressComment68_some, haddresses]

theorem rows68_of_ne (h : l.address ≠ s.get .pc) (o : ListingOptions)
    (table : Option SymbolTable) : rows68 o table (some s) l = rows68 o table none l := by
  rw [rows68, rows68, fields68, fields68, addressComment68_of_ne h, branchComment68_of_ne h]

theorem rows68_agree (o : ListingOptions) (table : Option SymbolTable) {s' : M68k.Registers}
    (hs : s.get .pc = s'.get .pc) (l : Line68) :
    LineAgrees (l.address = s.get .pc) (labelOf table l.address) (rows68 o table (some s) l)
      (rows68 o table (some s') l) := by
  rw [rows68, rows68, fields68, fields68]
  refine rows_agree o l.address _ _ _ _ _ ?_
  intro hne
  have hne' : l.address ≠ s'.get .pc := hs ▸ hne
  rw [addressComment68_of_ne hne, branchComment68_of_ne hne, addressComment68_of_ne hne',
    branchComment68_of_ne hne']

end

theorem length_labelOf (table : Option SymbolTable) (l : Line68) :
    (labelOf table l.address).length = if hasLabel table l then 1 else 0 := by
  rcases exists_fields68 (o := {}) (l := l) rfl table none with ⟨fields, hfields⟩
  have hlength := (rowsOf_labelOf hfields).length_eq
  rw [List.length_append, List.length_singleton, Nat.add_comm 1] at hlength
  exact Nat.add_right_cancel hlength

theorem instructionRow_labelOf (table : Option SymbolTable) (lines : List Line68) (k : Nat) :
    instructionRow (fun l => labelOf table l.address) lines k = codeRow table lines k := by
  have hlabels : ∀ ls : List Line68,
      (ls.flatMap fun l => labelOf table l.address).length = ls.countP (hasLabel table) := by
    intro ls
    induction ls with
    | nil => rfl
    | cons l ls ih =>
        rw [List.flatMap_cons, List.length_append, length_labelOf, ih, List.countP_cons,
          Nat.add_comm]
  rw [instructionRow, codeRow, hlabels]

/-! ## The signal processor -/

section

variable {s : Dsp56k.Registers} {l : Line56}

theorem dsp56k_registersAt_of_ne (h : l.address ≠ (s.get .pc).toUInt32) :
    Dsp56k.Instruction.registersAt (some s) l.address = none := by
  rw [Dsp56k.Instruction.registersAt, Option.filter_some, if_neg (by simpa using h.symm)]

theorem comments56_of_ne (h : l.address ≠ (s.get .pc).toUInt32) :
    l.inst.addressComment l.address (some s) = l.inst.addressComment l.address none ∧
      l.inst.branchComment l.address (some s) = l.inst.branchComment l.address none := by
  rw [Dsp56k.Instruction.addressComment, Dsp56k.Instruction.branchComment,
    dsp56k_registersAt_of_ne h]
  exact ⟨rfl, rfl⟩

theorem rows56_of_ne (h : l.address ≠ (s.get .pc).toUInt32) (o : ListingOptions) :
    rows56 o (some s) l = rows56 o none l := by
  rw [rows56, rows56, fields56, fields56, (comments56_of_ne h).1, (comments56_of_ne h).2]

theorem rows56_agree (o : ListingOptions) {s' : Dsp56k.Registers}
    (hs : (s.get .pc).toUInt32 = (s'.get .pc).toUInt32) (l : Line56) :
    LineAgrees (l.address = (s.get .pc).toUInt32) [] (rows56 o (some s) l)
      (rows56 o (some s') l) := by
  rw [rows56, rows56, fields56, fields56]
  refine rows_agree o l.address _ _ _ _ [] ?_
  intro hne
  have hne' : l.address ≠ (s'.get .pc).toUInt32 := hs ▸ hne
  rw [(comments56_of_ne hne).1, (comments56_of_ne hne).2, (comments56_of_ne hne').1,
    (comments56_of_ne hne').2]

end

theorem instructionRow_nil (lines : List (Line u i)) (k : Nat) :
    instructionRow (fun _ => []) lines k = k := by
  rw [instructionRow, List.flatMap_eq_nil_iff.2 fun _ _ => rfl]
  rfl

/-! ## Listings -/

/-- On both processors the registers matter only to the line at the program
counter, and not at all if there is none. -/
theorem listings_showAtCounter :
    (∀ o table (lines : List Line68),
      ShowsAtCounter (fun s : M68k.Registers => s.get .pc) (codeRow table lines) lines
        fun regs => render68 o table regs lines) ∧
    ∀ o (lines : List Line56),
      ShowsAtCounter (fun s : Dsp56k.Registers => (s.get .pc).toUInt32) id lines
        fun regs => render56 o regs lines := by
  constructor
  · intro o table lines
    refine showsAtCounter_of_mapM (fun l => labelOf table l.address) ?_ ?_ ?_ o _
    · intro k _
      exact instructionRow_labelOf table lines k
    · intro s s' hs l
      exact rows68_agree o table hs l
    · intro s l hne
      exact rows68_of_ne hne o table
  · intro o lines
    refine showsAtCounter_of_mapM (fun _ => []) ?_ ?_ ?_ o _
    · intro k _
      exact instructionRow_nil lines k
    · intro s s' hs l
      exact rows56_agree o hs l
    · intro s l hne
      exact rows56_of_ne hne o

/-- A branch at the program counter is taken or not; the other row stays as it
is.  Away from the program counter nothing is said about the branch. -/
theorem listings_showAtCounter_beq :
    let lines := (Machine.m68k .m68000).block 0x1000 0 [0x67, 0x02, 0x4e, 0x71]
    let clear := M68k.Registers.zero.set .pc 0x1000
    let equal := clear.set .sr 4
    clear.get .pc = equal.get .pc ∧
      (lines.map fun l => l.inst.branchComment l.address (some clear)) = ["[NOT TAKEN]", ""] ∧
      (lines.map fun l => l.inst.branchComment l.address (some equal)) = ["[TAKEN]", ""] ∧
      SameBut (fun r => ∃ k, ∃ hk : k < lines.length,
          lines[k].address = clear.get .pc ∧ r = codeRow none lines k)
        (writeTo { capacity := none } (.plain "disk full") (render68 {} none (some clear) lines))
        (writeTo { capacity := none } (.plain "disk full") (render68 {} none (some equal) lines)) ∧
      (∀ l ∈ lines.drop 1, l.address ≠ clear.get .pc) ∧
      writeTo { capacity := none } (.plain "disk full")
          (render68 {} none (some clear) (lines.drop 1)) =
        writeTo { capacity := none } (.plain "disk full") (render68 {} none none (lines.drop 1)) := by
  intro lines clear equal
  have hcounter : clear.get .pc = equal.get .pc := by decide
  have hbeside := (listings_showAtCounter.1 {} none lines).beside clear equal hcounter
  have haddress : (lines.drop 1).map Line.address = [0x1002] := by decide
  have hother : ∀ l ∈ lines.drop 1, l.address ≠ clear.get .pc := by
    intro l hl
    have hmem := List.mem_map_of_mem (f := Line.address) hl
    rw [haddress] at hmem
    rw [List.mem_singleton.1 hmem]
    decide
  have hnowhere := (listings_showAtCounter.1 {} none (lines.drop 1)).nowhere clear hother
  refine ⟨hcounter, by decide, by decide, ?_, hother, ?_⟩
  · exact hbeside none (.plain "disk full")
  · exact hnowhere { capacity := none } (.plain "disk full")

end Listing
end Disassembler
