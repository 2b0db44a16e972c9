import Mathlib
import Disassembler.Command.Launch
import Disassembler.Proofs.Command.Script
import Disassembler.Proofs.Listing.PreferenceOpening

/-!
# What a disassembly leaves behind

A disassembly can end early in many places.  Wherever it does, its overrides are taken
back and the echo of the log is turned off again.  Apart from a graph, files are written
only if the preferences have been loaded and the flags for them have been accepted.
-/

namespace Disassembler

open Session (Settles StaysAt Stays)

theorem SymbolTable.echoing_read (table : SymbolTable) (log : Log) (text : String) :
    (table.read log text).2.echoing = log.echoing := by
  rw [read]
  generalize Text.split "\n" text = lines
  induction lines generalizing table log with
  | nil => rfl
  | cons line lines ih =>
      have hline : (readLine (table, log) line).2.echoing = log.echoing := by
        simp only [readLine]
        split
        · rfl
        · split
          · rfl
          · rfl
      rw [List.foldl_cons]
      exact (ih _ _).trans hline

namespace Command

open Disassembler.Task

/-! ## Parts of a disassembly -/

theorem keeps_input (c : CommandLine) (o : Options) : Keeps Stays (input c o) := by
  unfold input
  extract_lets file
  have hfile : ∀ r, Keeps Stays (file r) := by
    intro r
    unfold file
    split
    · exact keeps_fail _
    · apply (keeps_readFile loadError _).bind
      intro data
      extract_lets rest
      have hrest : ∀ r, Keeps Stays (rest r) := fun _ => (keeps_note _ _).bind fun _ => keeps_pure _
      split
      · exact (keeps_fail _).bind hrest
      · exact hrest ()
    · exact keeps_fail _
  split
  · split
    · exact keeps_ofOption _
    · exact (keeps_fail _).bind hfile
  · exact hfile ()

theorem keeps_symbols (path : String) (hardware : Bool) : Keeps Stays (symbols path hardware) := by
  unfold symbols
  extract_lets none? result rest
  have hrest : ∀ r table?, Keeps Stays (rest r table?) := by
    intro r table?
    unfold rest
    split
    · exact keeps_pure _
    · exact keeps_pure _
  split
  · apply (keeps_readFile symbolsError path).bind
    intro content
    apply keeps_get_bind
    intro s
    apply after_set_bind
    · exact Session.stays_log (SymbolTable.echoing_read _ _ _)
    · exact (keeps_note _ _).bind fun _ => hrest () _
  · exact hrest () _

theorem keeps_lines {u i : Type} (m : Machine u i) (name : String) (o : Options) (limit : Int)
    (units : List u) : Keeps Stays (lines m name o limit units) := by
  unfold lines
  split
  · exact keeps_pure _
  · apply keeps_get_bind
    intro s
    apply after_set_bind
    · exact Session.stays_log rfl
    · exact keeps_pure _

/-! ## Preferences -/

/-- The preferences come to be saved: that is wanted, they can be loaded, and the flags
for the CPU and for the number of lines are accepted. -/
structure Saves (o : Options) (files : FileTree) (overrides : Overrides) : Prop where
  save : o.save = true
  loads : ∃ p, (Preferences.open? files overrides).1 = .ok p
  cpu : ∀ name ∈ o.cpu, Preferences.checkCpu name = none
  maxLines : ∀ n ∈ o.maxLines, Preferences.checkMaxLines n = none

theorem loadPreferences_eq (s : Session) :
    loadPreferences s =
      (match (Preferences.open? s.files s.overrides).1 with
        | .ok p => pure p
        | .error f => fail (.report loadError [.fault f]) : Task Preferences)
        { s with
          files := (Preferences.open? s.files s.overrides).2.1
          overrides := (Preferences.open? s.files s.overrides).2.2 } :=
  rfl

theorem keeps_loadPreferences : Keeps Stays loadPreferences where
  after s := by
    have hstays : s.Stays { s with
        files := (Preferences.open? s.files s.overrides).2.1
        overrides := (Preferences.open? s.files s.overrides).2.2 } :=
      ⟨⟨Preferences.size_open? _ _, rfl⟩, Preferences.sameFiles_open? _ _⟩
    rw [Task.after, loadPreferences_eq]
    cases (Preferences.open? s.files s.overrides).1 with
    | ok p => exact hstays
    | error f => exact hstays

theorem open?_of_loadPreferences {s s' : Session} {p : Preferences}
    (h : loadPreferences s = .ok p s') : (Preferences.open? s.files s.overrides).1 = .ok p := by
  rw [loadPreferences_eq] at h
  cases hopen : (Preferences.open? s.files s.overrides).1 with
  | ok q =>
      rw [hopen] at h
      cases h
      rfl
  | error f =>
      rw [hopen] at h
      cases h

section Options

variable {R : Session -> Session -> Prop} [IsPreorder Session R] {name : PreferenceName}
  {p q : Preferences} {s s' : Session}

theorem keeps_applyOption (name : PreferenceName) (v? : Option Value) (p : Preferences) :
    Keeps R (applyOption name v? p) := by
  cases v? with
  | none => exact keeps_pure p
  | some v => exact (keeps_ofFault? _).bind fun _ => keeps_pure _

/-- A flag that was given and that did not fail has been accepted. -/
theorem applyOption_eq_ok {v? : Option Value} (h : applyOption name v? p s = .ok q s') :
    p.Evolves q ∧ ∀ v ∈ v?, (p.set name v).1 = none := by
  cases v? with
  | none =>
      cases h
      exact ⟨.refl p, nofun⟩
  | some v =>
      change EStateM.bind (ofFault? (p.set name v).1) (fun _ => pure (p.set name v).2) s = _ at h
      cases hset : (p.set name v).1 with
      | none =>
          rw [hset] at h
          cases h
          exact ⟨p.evolves_set name v, fun w hw => Option.some.inj hw ▸ hset⟩
      | some f =>
          rw [hset] at h
          cases h

/-- Only saving writes files, and nothing is saved unless everything before it went
well. -/
theorem after_preferences (hR : ∀ s s', Stays s s' -> R s s') {o : Options} {s : Session}
    (hsave : ¬ Saves o s.files s.overrides ∨ ∀ s files, R s { s with files }) :
    R s ((preferences o).after s) := by
  unfold preferences
  apply after_bind_of_ok (hR _ _ (keeps_loadPreferences.after s))
  intro p s₁ hload
  have hopen := open?_of_loadPreferences hload
  rcases Preferences.evolves_open? hopen with ⟨path, hp⟩
  apply after_bind_of_ok ((keeps_applyOption _ _ p).after s₁)
  intro q s₂ hcpu
  rcases applyOption_eq_ok hcpu with ⟨hq, hcpu⟩
  apply after_bind_of_ok ((keeps_applyOption _ _ q).after s₂)
  intro r s₃ hhex
  have hr := (applyOption_eq_ok hhex).1
  apply after_bind_of_ok ((keeps_applyOption _ _ r).after s₃)
  intro u s₄ hbytecode
  have hu := (applyOption_eq_ok hbytecode).1
  apply after_bind_of_ok ((keeps_applyOption _ _ u).after s₄)
  intro v s₅ hmax
  have hmax := (applyOption_eq_ok hmax).2
  extract_lets rest
  have hrest : ∀ r, Keeps R (rest r) := fun _ => keeps_pure v
  split
  · rename_i hwanted
    rcases hsave with hnot | hfiles
    · exfalso
      apply hnot
      constructor
      · exact hwanted
      · exact ⟨p, hopen⟩
      · intro name hname
        rw [← hp.fault_set_cpu]
        exact hcpu _ (Option.mem_map_of_mem _ hname)
      · intro n hn
        rw [← (((hp.trans hq).trans hr).trans hu).fault_set_maxLines]
        exact hmax _ (Option.mem_map_of_mem _ hn)
    · apply Keeps.after
      apply keeps_get_bind
      intro s
      apply after_ofExcept_bind
      intro files
      exact after_set_bind (hfiles s files) (hrest ())
  · exact (hrest ()).after s₅

end Options

/-! ## Output -/

theorem keeps_putRows (pager? : Option Pager) (rows : List String) :
    Keeps Stays (putRows pager? rows) := by
  cases pager? with
  | none => exact keeps_print _
  | some p => exact (keeps_print _).bind fun _ => keeps_ofFault? _

theorem keeps_putDump (pager? : Option Pager) (pieces : List String) :
    Keeps Stays (putDump pager? pieces) := by
  cases pager? with
  | none => exact keeps_print _
  | some p => exact keeps_print _

section Frame

variable {R : Session -> Session -> Prop} [IsPreorder Session R] {o : Options}

theorem keeps_putGraph {path : String} (hpath : path = "" ∨ ∀ s files, R s { s with files })
    (graph : Bytes) : Keeps R (putGraph path graph) := by
  rcases hpath with hempty | hfiles
  · rw [hempty]
    exact keeps_pure ()
  · unfold putGraph
    split
    · exact keeps_pure ()
    · apply keeps_get_bind
      intro s
      apply after_ofExcept_bind
      intro files
      exact hfiles s files

/-- A graph is the only file that is written with the lines, but for what a script writes. -/
theorem keeps_output {u i : Type} (hR : ∀ s s', Stays s s' -> R s s')
    (hgraph : o.graph = "" ∨ ∀ s files, R s { s with files }) (tools : Tools)
    {script? : Option tools.scripts.State} (hscript : ∀ state ∈ script?, IsLoaded R tools.scripts state)
    (pr : Presentation u i) (lo : ListingOptions) (limit : Int) (units : List u) :
    Keeps R (output tools script? pr o lo limit units) := by
  apply keeps_get_bind
  intro s
  apply Keeps.after
  apply ((keeps_lines pr.machine _ o _ units).mono hR).bind
  intro lines
  apply (keeps_putGraph hgraph _).bind
  intro _
  split
  · exact (keeps_putDump _ _).mono hR
  · apply (keeps_listing pr lo lines hscript).bind
    intro rows
    exact (keeps_putRows _ rows).mono hR

theorem keeps_tellStats (o : Options) (text : String) : Keeps Stays (tellStats o text) := by
  unfold tellStats
  split
  · exact keeps_print _
  · exact keeps_pure ()

/-- After the preferences nothing but a graph is written, but for what a script writes.  Up
to the script more can be kept than from there on. -/
theorem after_disassembleWith {Q : Session -> Session -> Prop} [IsPreorder Session Q]
    (hQ : ∀ s s', Stays s s' -> Q s s') (hR : ∀ s s', Q s s' -> R s s')
    (hgraph : o.graph = "" ∨ ∀ s files, R s { s with files }) (tools : Tools)
    (processor : Processor) (c : CommandLine) {s : Session}
    (hsource : ∀ s', Q s s' -> ∀ source, s'.files.read o.script = .ok source ->
      tools.scripts.Follows R source)
    (hpreferences : Q s ((preferences o).after s)) :
    R s ((disassembleWith tools processor c o).after s) := by
  have hstays : ∀ s s', Stays s s' -> R s s' := fun s s' h => hR s s' (hQ s s' h)
  have htell : ∀ text, Keeps R (tellStats o text) := fun text =>
    (keeps_tellStats o text).mono hstays
  unfold disassembleWith
  apply after_bind_from hR (refl_of Q s) hpreferences
  intro p s₁ h₁
  apply after_bind_from hR h₁ (((keeps_input c o).mono hQ).after s₁)
  intro data s₂ h₂
  apply after_bind_from hR h₂ (((keeps_symbols _ _).mono hQ).after s₂)
  intro table? s₃ h₃
  apply trans_of R (hR _ _ h₃)
  apply after_bind_of_ok (after_script hstays (hsource s₃ h₃))
  intro script? s₄ hscript
  have hloaded := isLoaded_of_script (hsource s₃ h₃) hscript
  apply Keeps.after
  apply (htell _).bind
  intro _
  cases processor with
  | m68k => exact (keeps_output hstays hgraph tools hloaded _ _ _ _).bind fun _ => htell _
  | dsp56k => exact (keeps_output hstays hgraph tools hloaded _ _ _ _).bind fun _ => htell _

end Frame

/-! ## A disassembly after its flags -/

/-- The groups of overrides while code is disassembled. -/
def overriding (group : String) (overrides : Overrides) : Overrides :=
  if group.isEmpty then overrides else overrides.push group

section Around

variable {task : Task Unit} (s : Session)

theorem settles_withOverrides (h : Keeps Settles task) (group : String) :
    Keeps Settles (withOverrides group task) where
  after s := by
    rw [after_withOverrides]
    split
    · exact h.after s
    · have hinner := h.after { s with overrides := s.overrides.push group }
      exact ⟨Overrides.size_pop_of_push hinner.size, hinner.echoing⟩

theorem size_withEcho (h : Keeps Settles task) (on : Bool) :
    ((withEcho on task).after s).overrides.size = s.overrides.size := by
  rw [after_withEcho]
  split
  · exact (h.after { s with log := s.log.setEcho true }).size
  · exact (h.after s).size

/-- The echo is turned off in the end where it was turned on. -/
theorem echoing_withEcho (h : Keeps Settles task) (on : Bool) :
    ((withEcho on task).after s).log.echoing = (s.log.echoing && !on) := by
  rw [after_withEcho]
  cases on with
  | true => exact (Bool.and_false _).symm
  | false => exact (h.after s).echoing.trans (Bool.and_true _).symm

theorem after_withOverrides_of {P : FileTree -> Prop} {group : String}
    (h : ∀ s', s'.files = s.files -> s'.overrides = overriding group s.overrides ->
      P (task.after s').files) :
    P ((withOverrides group task).after s).files := by
  rw [after_withOverrides]
  unfold overriding at h
  split
  · rename_i hgroup
    rw [if_pos hgroup] at h
    exact h s rfl rfl
  · rename_i hgroup
    rw [if_neg hgroup] at h
    exact h { s with overrides := s.overrides.push group } rfl rfl

theorem after_withEcho_of {P : FileTree -> Prop} {on : Bool}
    (h : ∀ s', s'.files = s.files -> s'.overrides = s.overrides -> P (task.after s').files) :
    P ((withEcho on task).after s).files := by
  rw [after_withEcho]
  split
  · exact h { s with log := s.log.setEcho true } rfl rfl
  · exact h s rfl rfl

end Around

variable (tools : Tools) (processor : Processor) (c : CommandLine)

theorem keeps_disassembleWith (o : Options) :
    Keeps Settles (disassembleWith tools processor c o) where
  after _ := by
    have hstays : ∀ s s', Stays s s' -> Settles s s' := fun _ _ h => h.toSettles
    have hfiles : ∀ (s : Session) (files : FileTree), Settles s { s with files } :=
      fun _ _ => ⟨rfl, rfl⟩
    apply after_disassembleWith hstays (fun _ _ h => h) (Or.inr hfiles)
    · intro _ _ source _
      exact tools.scripts.follows_settles source
    · exact after_preferences hstays (Or.inr hfiles)

/-- A disassembly after its flags. -/
def disassembleAs : Task Unit := do
  let s <- get
  let o := Options.ofFlags c.flags
  let o := if o.graph == "auto" then { o with graph := graphName s c } else o
  withEcho o.echo (withOverrides o.overrides (disassembleWith tools processor c o))

/-- A name for the graph is all that can be made up. -/
theorem after_disassembleAs (s : Session) :
    ∃ graph, ((Options.ofFlags c.flags).graph = "" -> graph = "") ∧
      (disassembleAs tools processor c).after s =
        (withEcho (Options.ofFlags c.flags).echo
          (withOverrides (Options.ofFlags c.flags).overrides
            (disassembleWith tools processor c { Options.ofFlags c.flags with graph }))).after s := by
  unfold disassembleAs
  rw [after_get_bind]
  extract_lets o chosen
  by_cases hauto : (o.graph == "auto") = true
  · refine ⟨graphName s c, ?_, ?_⟩
    · intro hempty
      have hne : ¬ o.graph = "" := by
        rw [beq_iff_eq.mp hauto]
        decide
      exact absurd hempty hne
    · have hchosen : chosen = { o with graph := graphName s c } := if_pos hauto
      rw [hchosen]
  · refine ⟨o.graph, id, ?_⟩
    have hchosen : chosen = o := if_neg hauto
    rw [hchosen]

/-- The script that is found at a path leaves the file at a place alone. -/
def ScriptSpares (x : Interpreter) (place : Place) (path : String) (files : FileTree) : Prop :=
  ∀ files' source, files.SameFiles files' -> files'.read path = .ok source -> x.Spares place source

/-- Where no script is asked for, none is found. -/
theorem scriptSpares_empty (x : Interpreter) (place : Place) (files : FileTree) :
    ScriptSpares x place "" files := by
  intro files' source _ hread
  have hmissing : files'.read "" = .error ⟨"open", "", .notFound⟩ := rfl
  rw [hmissing] at hread
  cases hread

theorem sameFileAt_disassembleAs {place : Place} (s : Session)
    (hgraph : (Options.ofFlags c.flags).graph = "")
    (hsave : ¬ Saves (Options.ofFlags c.flags) s.files
      (overriding (Options.ofFlags c.flags).overrides s.overrides))
    (hscript : ScriptSpares tools.scripts place (Options.ofFlags c.flags).script s.files) :
    s.files.SameFileAt place ((disassembleAs tools processor c).after s).files := by
  rcases after_disassembleAs tools processor c s with ⟨graph, hempty, hafter⟩
  rw [hafter]
  apply after_withEcho_of (P := s.files.SameFileAt place)
  intro s₁ hfiles₁ hoverrides₁
  apply after_withOverrides_of (P := s.files.SameFileAt place)
  intro s₂ hfiles₂ hoverrides₂
  have hfiles : s₂.files = s.files := hfiles₂.trans hfiles₁
  rw [hempty hgraph, ← hfiles]
  apply StaysAt.file
  apply after_disassembleWith (Q := Stays) (fun _ _ h => h) (fun _ _ h => h.staysAt place)
    (Or.inl rfl)
  · intro s₃ hstays source hread
    exact (hscript s₃.files source (hfiles ▸ hstays.files) hread).follows
  · apply after_preferences (fun _ _ h => h)
    left
    intro hsaves
    apply hsave
    rw [hfiles, hoverrides₂, hoverrides₁] at hsaves
    exact ⟨hsaves.save, hsaves.loads, hsaves.cpu, hsaves.maxLines⟩

end Command

end Disassembler
