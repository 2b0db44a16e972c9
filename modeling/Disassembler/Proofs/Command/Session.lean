import Mathlib
import Disassembler.Command.Session
import Disassembler.Proofs.File.Folder

/-!
# What tasks do to a session

A task leaves a session behind whether it fails or not.  What every task of a sequence
keeps is kept by the whole, wherever it breaks off.
-/

namespace Disassembler

/-! ## Sessions -/

namespace Session

/-- The groups of overrides are as many as before, and the log is echoed or not as
before. -/
structure Settles (s s' : Session) : Prop where
  size : s'.overrides.size = s.overrides.size
  echoing : s'.log.echoing = s.log.echoing

/-- The file at a place is as before as well. -/
structure StaysAt (place : Place) (s s' : Session) : Prop extends Settles s s' where
  file : s.files.SameFileAt place s'.files

/-- All files are as before. -/
structure Stays (s s' : Session) : Prop extends Settles s s' where
  files : s.files.SameFiles s'.files

theorem Stays.staysAt {s s' : Session} (h : s.Stays s') (place : Place) : StaysAt place s s' :=
  ⟨h.toSettles, h.files place⟩

instance : IsPreorder Session Settles where
  refl _ := ⟨rfl, rfl⟩
  trans _ _ _ h h' := ⟨h'.size.trans h.size, h'.echoing.trans h.echoing⟩

instance (place : Place) : IsPreorder Session (StaysAt place) where
  refl s := ⟨⟨rfl, rfl⟩, FileTree.SameFileAt.refl place s.files⟩
  trans _ _ _ h h' := ⟨trans_of Settles h.toSettles h'.toSettles, h.file.trans h'.file⟩

instance : IsPreorder Session Stays where
  refl s := ⟨⟨rfl, rfl⟩, FileTree.SameFiles.refl s.files⟩
  trans _ _ _ h h' := ⟨trans_of Settles h.toSettles h'.toSettles, h.files.trans h'.files⟩

theorem stays_log {s : Session} {log : Log} (h : log.echoing = s.log.echoing) :
    s.Stays { s with log } :=
  ⟨⟨rfl, h⟩, FileTree.SameFiles.refl s.files⟩

theorem stays_print (s : Session) (text : String) : s.Stays (s.print text) :=
  ⟨⟨rfl, rfl⟩, FileTree.SameFiles.refl s.files⟩

end Session

/-! ## Tasks -/

namespace Task

variable {α β : Type}

/-- The session after a task, which may have failed. -/
def after (task : Task α) (s : Session) : Session :=
  match task s with
  | .ok _ s' => s'
  | .error _ s' => s'

/-- A relation between the sessions before and after a task, whether it fails or not. -/
structure Keeps (R : Session -> Session -> Prop) (task : Task α) : Prop where
  after (s : Session) : R s (task.after s)

theorem after_bind (task : Task α) (f : α -> Task β) (s : Session) :
    after (task >>= f) s =
      match task s with
      | .ok a s' => (f a).after s'
      | .error _ s' => s' := by
  change after (EStateM.bind task f) s = _
  rw [after, EStateM.bind]
  cases task s with
  | ok a s' => rfl
  | error h s' => rfl

theorem exists_of_bind_eq_ok {task : Task α} {f : α -> Task β} {b : β} {s s' : Session}
    (h : (task >>= f) s = .ok b s') : ∃ a t, task s = .ok a t ∧ f a t = .ok b s' := by
  change EStateM.bind task f s = _ at h
  rw [EStateM.bind] at h
  cases htask : task s with
  | ok a t =>
      rw [htask] at h
      exact ⟨a, t, rfl, h⟩
  | error e t =>
      rw [htask] at h
      cases h

theorem after_get_bind (f : Session -> Task α) (s : Session) :
    after (get >>= f) s = (f s).after s :=
  rfl

theorem after_of_ok {task : Task α} {s s' : Session} {a : α} (h : task s = .ok a s') :
    task.after s = s' := by
  rw [after, h]

theorem after_of_error {task : Task α} {s s' : Session} {h : Halt} (htask : task s = .error h s') :
    task.after s = s' := by
  rw [after, htask]

section Keeps

variable {R R' : Session -> Session -> Prop}

theorem Keeps.mono {task : Task α} (h : Keeps R task) (hR : ∀ s s', R s s' → R' s s') :
    Keeps R' task where
  after s := hR _ _ (h.after s)

/-- A task that begins by looking at the session. -/
theorem keeps_get_bind {f : Session -> Task α} (h : ∀ s, R s ((f s).after s)) :
    Keeps R (get >>= f) where
  after := h

variable [IsPreorder Session R]

theorem keeps_pure (a : α) : Keeps R (pure a : Task α) where
  after s := refl_of R s

theorem keeps_throw (h : Halt) : Keeps R (throw h : Task α) where
  after s := refl_of R s

/-- A sequence keeps what its first task keeps and, where that succeeds, what the others
keep from there on. -/
theorem after_bind_of_ok {task : Task α} {f : α -> Task β} {s : Session}
    (h : R s (task.after s)) (hf : ∀ a s', task s = .ok a s' -> R s' ((f a).after s')) :
    R s (after (task >>= f) s) := by
  rw [after_bind]
  cases htask : task s with
  | ok a s' =>
      rw [after_of_ok htask] at h
      exact trans_of R h (hf a s' htask)
  | error e s' =>
      rw [after_of_error htask] at h
      exact h

omit [IsPreorder Session R] in
/-- What a sequence keeps from a session on, where its first task keeps more. -/
theorem after_bind_from {Q : Session -> Session -> Prop} [IsPreorder Session Q]
    (hR : ∀ s s', Q s s' -> R s s') {task : Task α} {f : α -> Task β} {s s' : Session}
    (hs : Q s s') (h : Q s' (task.after s')) (hf : ∀ a t, Q s t -> R s ((f a).after t)) :
    R s (after (task >>= f) s') := by
  rw [after_bind]
  cases htask : task s' with
  | ok a t =>
      rw [after_of_ok htask] at h
      exact hf a t (trans_of Q hs h)
  | error e t =>
      rw [after_of_error htask] at h
      exact hR s t (trans_of Q hs h)

theorem Keeps.bind {task : Task α} {f : α -> Task β} (h : Keeps R task)
    (hf : ∀ a, Keeps R (f a)) : Keeps R (task >>= f) where
  after s := after_bind_of_ok (h.after s) fun a s' _ => (hf a).after s'

theorem keeps_fail (f : Fault) : Keeps R (fail f : Task α) :=
  keeps_throw (.fault f)

theorem keeps_ofExcept (result : Except Fault α) : Keeps R (ofExcept result) := by
  cases result with
  | ok a => exact keeps_pure a
  | error f => exact keeps_fail f

theorem keeps_ofOption (a? : Option α) : Keeps R (ofOption a?) := by
  cases a? with
  | some a => exact keeps_pure a
  | none => exact keeps_throw .abort

theorem keeps_ofFault? (f? : Option Fault) : Keeps R (ofFault? f?) := by
  cases f? with
  | none => exact keeps_pure ()
  | some f => exact keeps_fail f

theorem after_ofExcept_bind {result : Except Fault α} {f : α -> Task β} {s : Session}
    (hf : ∀ a, R s ((f a).after s)) : R s (after (ofExcept result >>= f) s) := by
  cases result with
  | ok a => exact hf a
  | error e => exact refl_of R s

/-- A task that begins by replacing the session. -/
theorem after_set_bind {s s' : Session} {f : PUnit -> Task α} (h : R s s')
    (hf : Keeps R (f ())) : R s (after (set s' >>= f) s) :=
  trans_of R h (hf.after s')

theorem keeps_readFile (pattern path : String) : Keeps R (readFile pattern path) := by
  apply keeps_get_bind
  intro s
  cases s.files.read path with
  | ok content => exact (keeps_pure content).after s
  | error f => exact (keeps_fail _).after s

end Keeps

theorem keeps_print (text : String) : Keeps Session.Stays (print text) where
  after s := s.stays_print text

theorem keeps_note (tag detail : String) : Keeps Session.Stays (note tag detail) where
  after _ := Session.stays_log rfl

/-! ## Tasks with something around them -/

theorem after_andThen (task : Task α) (change : Session -> Session) (s : Session) :
    (task.andThen change).after s = change (task.after s) := by
  rw [after, after, andThen]
  cases task s with
  | ok a s' => rfl
  | error h s' => rfl

theorem after_withEcho (on : Bool) (task : Task α) (s : Session) :
    (withEcho on task).after s =
      if on then
        let s' := task.after { s with log := s.log.setEcho true }
        { s' with log := s'.log.setEcho false }
      else task.after s := by
  cases on with
  | false => rfl
  | true => exact after_andThen task _ _

theorem after_withOverrides (group : String) (task : Task α) (s : Session) :
    (withOverrides group task).after s =
      if group.isEmpty then task.after s
      else
        let s' := task.after { s with overrides := s.overrides.push group }
        { s' with overrides := s'.overrides.pop.2 } := by
  by_cases hgroup : group.isEmpty = true
  · have hsame : withOverrides group task = task := if_pos hgroup
    rw [hsame, if_pos hgroup]
  · have haround : withOverrides group task = fun s =>
        task.andThen (fun s => { s with overrides := s.overrides.pop.2 })
          { s with overrides := s.overrides.push group } := if_neg hgroup
    rw [haround, if_neg hgroup]
    exact after_andThen task _ _

end Task
end Disassembler
