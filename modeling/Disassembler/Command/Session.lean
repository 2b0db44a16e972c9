import Disassembler.File.Tree
import Disassembler.Log
import Disassembler.Preference.Override
import Disassembler.Script
import Disassembler.Terminal.Pager

/-!
# Sessions

What a run of the program works on, and tasks, which change it and can fail.
-/

namespace Disassembler

/-- What a run of the program works on. -/
structure Session where
  files : FileTree := {}
  log : Log := .central
  overrides : Overrides := {}
  /-- What has been printed. -/
  output : String := ""
  /-- The time of the run, for names of new files. -/
  timestamp : String := ""
  /-- The terminal that is printed on, if it is one. -/
  terminal : Option Terminal := none

namespace Session

def print (s : Session) (text : String) : Session :=
  { s with output := s.output ++ text }

/-- The session after a piece of a script. -/
def follow {σ α : Type} (s : Session) (r : ScriptOutcome σ α) : Session :=
  { s.print r.printed with files := r.files }

def echoed (s : Session) : String :=
  s.log.echo

end Session

/-- Why a run ends early. -/
inductive Halt where
  | fault (f : Fault)
  /-- The run breaks off without a message. -/
  | abort

/-- A part of a run, which can fail. -/
abbrev Task := EStateM Halt Session

namespace Task

variable {α : Type}

/-- Run a task and then, whether it fails or not, a change of the session. -/
def andThen (task : Task α) (change : Session -> Session) : Task α := fun s =>
  match task s with
  | .ok a s' => .ok a (change s')
  | .error h s' => .error h (change s')

/-- Run a task while the log is echoed, if that is wanted. -/
def withEcho (on : Bool) (task : Task α) : Task α :=
  if on then fun s =>
    task.andThen (fun s => { s with log := s.log.setEcho false })
      { s with log := s.log.setEcho true }
  else task

/-- Run a task with a group of overrides, if there is one. -/
def withOverrides (group : String) (task : Task α) : Task α :=
  if group.isEmpty then task
  else fun s =>
    task.andThen (fun s => { s with overrides := s.overrides.pop.2 })
      { s with overrides := s.overrides.push group }

def print (text : String) : Task Unit :=
  modify fun s => s.print text

def note (tag detail : String) : Task Unit :=
  modify fun s => { s with log := s.log.add tag detail }

def fail (f : Fault) : Task α :=
  throw (.fault f)

def ofExcept : Except Fault α -> Task α
  | .ok a => pure a
  | .error f => fail f

def ofOption : Option α -> Task α
  | some a => pure a
  | none => throw .abort

def ofFault? : Option Fault -> Task Unit
  | none => pure ()
  | some f => fail f

def readFile (pattern path : String) : Task Bytes := do
  match (<- get).files.read path with
  | .ok content => return content
  | .error f => fail (.report pattern [.fault f.toFault])

end Task

end Disassembler
