import Mathlib
import Disassembler.Command.Output
import Disassembler.Proofs.Command.Session
import Disassembler.Proofs.Listing.Rows

/-!
# What scripts do to a session

A script can change files, and nothing else that matters after a run.  A file stays as it
is if the script leaves it alone, both as it is run and whenever it is asked for a comment.
To a listing it is an annotator, although what it says can depend on what it was asked
before.
-/

namespace Disassembler

open Session (Settles StaysAt Stays)

/-! ## Scripts from a source -/

namespace Interpreter

variable {x : Interpreter}

/-- The states of a script: where it was run, and where it was asked from there on. -/
inductive Reaches (x : Interpreter) (source : Bytes) : x.State -> Prop where
  | load (path : String) (files : FileTree) : Reaches x source (x.load path source files).state
  | ask {state : x.State} (address : UInt32) (text : String) (files : FileTree) :
      Reaches x source state -> Reaches x source (x.ask state address text files).state

/-- A script leaves the file at a place alone. -/
structure Spares (x : Interpreter) (place : Place) (source : Bytes) : Prop where
  load (path : String) (files : FileTree) :
    files.SameFileAt place (x.load path source files).files
  ask (state : x.State) (address : UInt32) (text : String) (files : FileTree) :
    x.Reaches source state -> files.SameFileAt place (x.ask state address text files).files

/-- What holds of the sessions before and after each piece of a script. -/
structure Follows (R : Session -> Session -> Prop) (x : Interpreter) (source : Bytes) : Prop where
  load (path : String) (s : Session) : R s (s.follow (x.load path source s.files))
  ask (state : x.State) (address : UInt32) (text : String) (s : Session) :
    x.Reaches source state -> R s (s.follow (x.ask state address text s.files))

theorem follows_settles (x : Interpreter) (source : Bytes) : x.Follows Settles source where
  load _ _ := ⟨rfl, rfl⟩
  ask _ _ _ _ _ := ⟨rfl, rfl⟩

theorem Spares.follows {place : Place} {source : Bytes} (h : x.Spares place source) :
    x.Follows (StaysAt place) source where
  load path s := ⟨⟨rfl, rfl⟩, h.load path s.files⟩
  ask state address text s hstate := ⟨⟨rfl, rfl⟩, h.ask state address text s.files hstate⟩

end Interpreter

namespace Command

open Disassembler.Task

variable {u i : Type} {x : Interpreter}

section Frame

variable {R : Session -> Session -> Prop} [IsPreorder Session R]

/-! ## Loading -/

/-- A script that is loaded. -/
def IsLoaded (R : Session -> Session -> Prop) (x : Interpreter) (state : x.State) : Prop :=
  ∃ source, x.Follows R source ∧ x.Reaches source state

theorem after_loadScript (hR : ∀ s s', Stays s s' -> R s s') {path : String} {s : Session}
    (hsource : ∀ source, s.files.read path = .ok source -> x.Follows R source) :
    R s ((loadScript x path).after s) := by
  unfold loadScript
  rw [after_get_bind]
  cases hread : s.files.read path with
  | error f => exact (keeps_fail _).after s
  | ok source =>
      apply after_set_bind ((hsource source hread).load path s)
      split
      · exact keeps_fail _
      · apply ((keeps_note _ _).mono hR).bind
        intro _
        split
        · exact keeps_pure _
        · exact keeps_fail _

theorem exists_of_loadScript {path : String} {s s' : Session} {state : x.State}
    (h : loadScript x path s = .ok state s') :
    ∃ source, s.files.read path = .ok source ∧ state = (x.load path source s.files).state := by
  unfold loadScript at h
  rcases exists_of_bind_eq_ok h with ⟨_, _, hget, h⟩
  cases hget
  cases hread : s.files.read path with
  | error f =>
      rw [hread] at h
      cases h
  | ok source =>
      rw [hread] at h
      rcases exists_of_bind_eq_ok h with ⟨_, _, _, h⟩
      cases hresult : (x.load path source s.files).result with
      | error f =>
          rw [hresult] at h
          cases h
      | ok =>
          rw [hresult] at h
          rcases exists_of_bind_eq_ok h with ⟨_, _, _, h⟩
          split at h
          · cases h
            exact ⟨source, rfl, rfl⟩
          · cases h

theorem after_script (hR : ∀ s s', Stays s s' -> R s s') {path : String} {s : Session}
    (hsource : ∀ source, s.files.read path = .ok source -> x.Follows R source) :
    R s ((script x path).after s) := by
  rw [script]
  split
  · exact (keeps_pure _).after s
  · apply after_bind_of_ok (after_loadScript hR hsource)
    intro state s' _
    exact (keeps_pure _).after s'

omit [IsPreorder Session R] in
theorem isLoaded_of_script {path : String} {s s' : Session} {script? : Option x.State}
    (hsource : ∀ source, s.files.read path = .ok source -> x.Follows R source)
    (h : script x path s = .ok script? s') : ∀ state ∈ script?, IsLoaded R x state := by
  intro state hstate
  rw [script] at h
  split at h
  · cases h
    cases hstate
  · rcases exists_of_bind_eq_ok h with ⟨loaded, _, hload, hpure⟩
    cases hpure
    cases hstate
    rcases exists_of_loadScript hload with ⟨source, hread, rfl⟩
    exact ⟨source, hsource source hread, .load path s.files⟩

/-! ## Asking -/

theorem keeps_scriptedRows (pr : Presentation u i) (o : ListingOptions) (lines : List (Line u i))
    {state : x.State} (hstate : IsLoaded R x state) : Keeps R (scriptedRows x pr o state lines) := by
  rcases hstate with ⟨source, hfollows, hreaches⟩
  induction lines generalizing state with
  | nil => exact keeps_pure []
  | cons l lines ih =>
      apply keeps_get_bind
      intro s
      apply after_set_bind
      · exact hfollows.ask state l.address (pr.terse o l) s hreaches
      · apply (keeps_ofExcept _).bind
        intro group
        apply (ih (.ask _ _ _ hreaches)).bind
        intro groups
        exact keeps_pure _

theorem keeps_listing {script? : Option x.State} (pr : Presentation u i) (o : ListingOptions)
    (lines : List (Line u i)) (hscript : ∀ state ∈ script?, IsLoaded R x state) :
    Keeps R (listing x script? pr o lines) := by
  cases script? with
  | none => exact (keeps_ofExcept _).bind fun _ => keeps_pure _
  | some state => exact (keeps_scriptedRows pr o lines (hscript state rfl)).bind fun _ => keeps_pure _

end Frame

/-! ## What is listed -/

/-- The rows of a line depend on a single remark. -/
structure RemarksOnce (pr : Presentation u i) : Prop where
  rows_congr {o : ListingOptions} {a a' : Annotator} {l : Line u i} :
    a l.address (pr.terse o l) = a' l.address (pr.terse o l) ->
      pr.rows { o with annotator := some a } l = pr.rows { o with annotator := some a' } l

theorem remarksOnce_m68k (tools : Tools) (cpu : M68k.Cpu) (table? : Option SymbolTable) :
    RemarksOnce (.m68k tools cpu table?) where
  rows_congr {o a a' l} h := by
    dsimp only [Presentation.m68k] at h ⊢
    simp only [Listing.rows68, Listing.fields68, Listing.comment, h, Listing.fieldsOf]

theorem remarksOnce_dsp56k (tools : Tools) : RemarksOnce (.dsp56k tools) where
  rows_congr {o a a' l} h := by
    dsimp only [Presentation.dsp56k] at h ⊢
    simp only [Listing.rows56, Listing.fields56, Listing.comment, h, Listing.fieldsOf]

/-- A task that ends as a computation does, whatever it does to the session. -/
def EndsAs {α : Type} (result : EStateM.Result Halt Session α) (e : Except Fault α) : Prop :=
  match result with
  | .ok a _ => e = .ok a
  | .error halt _ => ∃ f, halt = .fault f ∧ e = .error f

theorem EndsAs.map {α β : Type} {task : Task α} {s : Session} {e : Except Fault α}
    (h : EndsAs (task s) e) (f : α -> β) :
    EndsAs ((task >>= fun a => pure (f a)) s) (e >>= fun a => pure (f a)) := by
  change EndsAs (EStateM.bind task (fun a => pure (f a)) s) _
  rw [EStateM.bind]
  cases hresult : task s with
  | ok a s' =>
      rw [hresult] at h
      cases h
      exact rfl
  | error halt s' =>
      rw [hresult] at h
      rcases h with ⟨g, rfl, rfl⟩
      exact ⟨g, rfl, rfl⟩

/-- If addresses do not come again, then all that a script says could be said by an
annotator, which does not change. -/
theorem endsAs_scriptedRows {pr : Presentation u i} (hpr : RemarksOnce pr) (o : ListingOptions)
    {lines : List (Line u i)} (hlines : Listing.Increasing lines) (state : x.State) (s : Session) :
    ∃ annotate, EndsAs (scriptedRows x pr o state lines s)
      (lines.mapM (pr.rows { o with annotator := some annotate })) := by
  induction lines generalizing state s with
  | nil => exact ⟨x.annotator state s.files, rfl⟩
  | cons l lines ih =>
      rcases List.pairwise_cons.mp hlines with ⟨hlt, hlines⟩
      let asked := x.ask state l.address (pr.terse o l) s.files
      rcases ih hlines asked.state (s.follow asked) with ⟨later, hlater⟩
      let annotate : Annotator := fun address text =>
        if address = l.address then x.annotator state s.files address text
        else later address text
      refine ⟨annotate, ?_⟩
      have hhead : pr.rows { o with annotator := some annotate } l =
          pr.rows { o with annotator := some (x.annotator state s.files) } l :=
        hpr.rows_congr (if_pos rfl)
      have htail : lines.mapM (pr.rows { o with annotator := some annotate }) =
          lines.mapM (pr.rows { o with annotator := some later }) := by
        apply Listing.mapM_congr_of_mem
        intro l' hl'
        exact hpr.rows_congr (if_neg (UInt32.ne_of_lt (hlt l' hl')).symm)
      have hstep : scriptedRows x pr o state (l :: lines) s =
          (Task.ofExcept (pr.rows { o with annotator := some (x.annotator state s.files) } l) >>=
            fun group => scriptedRows x pr o asked.state lines >>= fun groups =>
              pure (group :: groups)) (s.follow asked) := rfl
      rw [List.mapM_cons, hhead, htail, hstep]
      cases pr.rows { o with annotator := some (x.annotator state s.files) } l with
      | error f => exact ⟨f, rfl, rfl⟩
      | ok group => exact hlater.map fun groups => group :: groups

/-- The listing of a script is that of an annotator. -/
theorem endsAs_listing68 (tools : Tools) (cpu : M68k.Cpu) (table? : Option SymbolTable)
    (o : ListingOptions) {lines : List Line68} (hlines : Listing.Increasing lines)
    (state : x.State) (s : Session) :
    ∃ annotate, EndsAs (listing x (some state) (.m68k tools cpu table?) o lines s)
      (Listing.render68 { o with annotator := some annotate } table? none lines) := by
  rcases endsAs_scriptedRows (remarksOnce_m68k tools cpu table?) o hlines state s with
    ⟨annotate, hrows⟩
  exact ⟨annotate, hrows.map fun groups => Listing.renderGroups o groups (Listing.branches68 lines)⟩

theorem endsAs_listing56 (tools : Tools) (o : ListingOptions) {lines : List Line56}
    (hlines : Listing.Increasing lines) (state : x.State) (s : Session) :
    ∃ annotate, EndsAs (listing x (some state) (.dsp56k tools) o lines s)
      (Listing.render56 { o with annotator := some annotate } none lines) := by
  rcases endsAs_scriptedRows (remarksOnce_dsp56k tools) o hlines state s with ⟨annotate, hrows⟩
  exact ⟨annotate, hrows.map fun groups => Listing.renderGroups o groups (Listing.branches56 lines)⟩

end Command
end Disassembler
