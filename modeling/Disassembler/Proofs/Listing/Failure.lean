import Disassembler.Proofs.Listing.Rows

/-!
# Failing while writing

The annotator is asked about every line before a row is written, so its fault
leaves nothing behind.  A fault of the writer leaves the rows in front of it, as
they are in the whole listing.
-/

namespace Disassembler
namespace Listing

variable {u i : Type}

/-! ## Faults of the annotator -/

def fault68? (o : ListingOptions) (l : Line68) : Option Fault :=
  annotatorFault? o l.address (l.inst.terse l.address o.style)

def fault56? (o : ListingOptions) (l : Line56) : Option Fault :=
  annotatorFault? o l.address (l.inst.terse o.style)

theorem comment_eq_error {o : ListingOptions} {address : UInt32} {terse : String} {f : Fault}
    (h : annotatorFault? o address terse = some f) (parts : List String) :
    comment o address terse parts = .error (.report writeError [.fault f]) := by
  rcases comment_cases o address terse parts with ⟨hnone, _⟩ | ⟨f', hf', herror⟩
  · rw [h] at hnone
    cases hnone
  · rw [h] at hf'
    cases hf'
    exact herror

theorem rows68_eq_error {o : ListingOptions} {l : Line68} {f : Fault}
    (h : fault68? o l = some f) (table : Option SymbolTable) (regs : Option M68k.Registers) :
    rows68 o table regs l = .error (.report writeError [.fault f]) := by
  rw [rows68, fields68, comment_eq_error h]
  rfl

theorem rows56_eq_error {o : ListingOptions} {l : Line56} {f : Fault}
    (h : fault56? o l = some f) (regs : Option Dsp56k.Registers) :
    rows56 o regs l = .error (.report writeError [.fault f]) := by
  rw [rows56, fields56, comment_eq_error h]
  rfl

theorem exists_rows56 {o : ListingOptions} {l : Line56} (h : fault56? o l = none)
    (regs : Option Dsp56k.Registers) : ∃ rows, rows56 o regs l = .ok rows := by
  rcases exists_comment h
    [l.inst.addressComment l.address regs, l.inst.branchComment l.address regs] with ⟨c, hc⟩
  rw [rows56, fields56, hc]
  exact ⟨_, rfl⟩

/-- The first element without a result decides about all of them. -/
theorem mapM_eq_error {α β ε : Type} {f : α -> Except ε β} {before : List α} {a : α} {e : ε}
    (hbefore : ∀ b ∈ before, ∃ c, f b = .ok c) (ha : f a = .error e) (after : List α) :
    (before ++ a :: after).mapM f = .error e := by
  induction before with
  | nil =>
      rw [List.nil_append, List.mapM_cons, ha]
      rfl
  | cons b before ih =>
      rcases hbefore b List.mem_cons_self with ⟨c, hc⟩
      have hrest := ih fun b' hb' => hbefore b' (List.mem_cons_of_mem b hb')
      rw [List.cons_append, List.mapM_cons, hc, hrest]
      rfl

/-! ## Clean failure -/

/-- How writing a listing can fail, given the faults of the annotator on its
lines.  The rows are those that a writer without a limit is given, one with each
write. -/
structure FailsCleanly (fault? : Line u i -> Option Fault) (lines : List (Line u i))
    (rendered : Except Fault (List String)) : Prop where
  annotator : ∀ before l after f, lines = before ++ l :: after ->
    (∀ b ∈ before, fault? b = none) -> fault? l = some f ->
      ∀ capacity failure,
        write capacity failure rendered = ("", some (.report writeError [.fault f]))
  writer : (∀ l ∈ lines, fault? l = none) -> ∃ rows : List String, ∀ failure,
    writeTo { capacity := none } failure rendered =
        ({ capacity := none, rows := rows.toArray }, none) ∧
      write none failure rendered = (String.join rows, none) ∧
      ∀ k, write (some k) failure rendered =
        (String.join (rows.take k),
          if k < rows.length then some (.report writeError [.fault failure]) else none)

theorem write_ok_limited (k : Nat) (failure : Fault) (rows : List String) :
    write (some k) failure (.ok rows) =
      (String.join (rows.take k),
        if k < rows.length then some (.report writeError [.fault failure]) else none) := by
  simp [write, writeTo, deliver_limited, RowSink.text]

/-- A listing whose rows are all there before the first one is written fails
cleanly. -/
theorem failsCleanly_of_mapM {fault? : Line u i -> Option Fault}
    {rowsOf : Line u i -> Except Fault (List Row)}
    (hok : ∀ l, fault? l = none -> ∃ rows, rowsOf l = .ok rows)
    (herror : ∀ l f, fault? l = some f -> rowsOf l = .error (.report writeError [.fault f]))
    (finish : List (List Row) -> List String) (lines : List (Line u i)) :
    FailsCleanly fault? lines (do
      let groups <- lines.mapM rowsOf
      return finish groups) where
  annotator := by
    rintro before l after f rfl hbefore hl capacity failure
    rw [mapM_eq_error (fun b hb => hok b (hbefore b hb)) (herror l f hl) after]
    rfl
  writer := by
    intro hlines
    have hgroups : ∀ l ∈ lines, ∃ rows, rowsOf l = .ok rows ∧ rowsOf l = .ok rows := by
      intro l hl
      rcases hok l (hlines l hl) with ⟨rows, hrows⟩
      exact ⟨rows, hrows, hrows⟩
    rcases exists_mapM hgroups with ⟨groups, hmapM, _⟩
    rw [hmapM]
    refine ⟨finish groups, ?_⟩
    intro failure
    refine ⟨?_, write_ok_unlimited failure _, ?_⟩
    · show deliver failure { capacity := none } (finish groups) = _
      rw [deliver_unlimited]
      simp
    · intro k
      exact write_ok_limited k failure _

/-- Writing a listing fails cleanly, on both processors. -/
theorem write_failsCleanly :
    (∀ o table regs (lines : List Line68),
      FailsCleanly (fault68? o) lines (render68 o table regs lines)) ∧
    ∀ o regs (lines : List Line56),
      FailsCleanly (fault56? o) lines (render56 o regs lines) := by
  constructor
  · intro o table regs lines
    refine failsCleanly_of_mapM ?_ ?_ _ lines
    · intro l hl
      rcases exists_rows68 hl table regs with ⟨rows, hrows, _⟩
      exact ⟨rows, hrows⟩
    · intro l f hl
      exact rows68_eq_error hl table regs
  · intro o regs lines
    refine failsCleanly_of_mapM ?_ ?_ _ lines
    · intro l hl
      exact exists_rows56 hl regs
    · intro l f hl
      exact rows56_eq_error hl regs

/-- An annotator that is busy at the second line, and a writer that is full after
one row. -/
theorem write_failsCleanly_second :
    let nop := (Machine.m68k .m68000).line 0x1000 [0x4e, 0x71]
    let loop := (Machine.m68k .m68000).line 0x1002 [0x60, 0xfc]
    let busy : Annotator := fun address _ =>
      if address = 0x1002 then .error (.plain "busy") else .ok "ready"
    write none (.plain "disk full") (render68 { annotator := some busy } none none [nop, loop]) =
        ("", some (.report writeError [.fault (.plain "busy")])) ∧
      ∃ rows, write none (.plain "disk full") (render68 {} none none [nop, loop]) =
          (String.join rows, none) ∧
        write (some 1) (.plain "disk full") (render68 {} none none [nop, loop]) =
          (String.join (rows.take 1),
            if 1 < rows.length then some (.report writeError [.fault (.plain "disk full")])
            else none) ∧
        String.join (rows.take 1) = "$00001000 nop\n" := by
  intro nop loop busy
  constructor
  · refine (write_failsCleanly.1 { annotator := some busy } none none [nop, loop]).annotator
      [nop] loop [] (.plain "busy") rfl ?_ ?_ none (.plain "disk full")
    · intro b hb
      cases List.mem_singleton.1 hb
      rfl
    · rfl
  · rcases (write_failsCleanly.1 {} none none [nop, loop]).writer (fun _ _ => rfl)
      with ⟨rows, hrows⟩
    rcases hrows (.plain "disk full") with ⟨_, hall, hfirst⟩
    have htext : (write (some 1) (.plain "disk full")
        (render68 {} none none [nop, loop])).1 = "$00001000 nop\n" := by cbv
    rw [hfirst 1] at htext
    exact ⟨rows, hall, hfirst 1, htext⟩

end Listing
end Disassembler
