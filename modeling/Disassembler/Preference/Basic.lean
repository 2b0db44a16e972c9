import Disassembler.Preference.Kind

/-!
# Preferences

A preference has content, which is set from values.  One function may look at
new content and refuse it, another one is told of it afterwards.
-/

namespace Disassembler

/-- A preference with content of type `α`. -/
structure Preference (α : Type) where
  kind : PreferenceKind α
  content : α
  /-- Called before new content is kept; a fault keeps the old content. -/
  before : Option (α -> Option Fault) := none
  /-- Called after new content is kept. -/
  after : Option (α -> Option Fault) := none

inductive HookCall (α : Type) where
  | before (content : α)
  | after (content : α)
  deriving Repr

/-- What became of a preference, the fault if there was one, and the calls that
were made. -/
structure PreferenceUpdate (α : Type) where
  preference : Preference α
  fault : Option Fault := none
  calls : List (HookCall α) := []

namespace Preference

variable {α : Type}

def ofKind (kind : PreferenceKind α) : Preference α :=
  { kind, content := kind.initial }

def text (p : Preference α) : String :=
  p.kind.text p.content

/-- The fault of a function, if there is one and it finds a fault. -/
def check (hook : Option (α -> Option Fault)) (content : α) : Option Fault :=
  hook.bind fun f => f content

/-- Keep new content, if nothing speaks against it. -/
def store (p : Preference α) (content : α) : PreferenceUpdate α :=
  let calls := if p.before.isSome then [HookCall.before content] else []
  match check p.before content with
  | some f => { preference := p, fault := some f, calls }
  | none =>
      { preference := { p with content }
        fault := check p.after content
        calls := calls ++ if p.after.isSome then [.after content] else [] }

def set (p : Preference α) (v : Value) : PreferenceUpdate α :=
  match p.kind.read v with
  | .error f => { preference := p, fault := some f }
  | .ok content => p.store content

def reset (p : Preference α) : PreferenceUpdate α :=
  p.set p.kind.blank

/-- Limit the length of a text from now on. -/
def limit (p : Preference String) (n : Int) : Preference String :=
  { p with kind := .clipped n, content := PreferenceKind.clip n p.content }

end Preference

/-- A preference of any of the kinds that can be kept in a file. -/
inductive PreferenceEntry where
  | switch (p : Preference Bool)
  | number (p : Preference Int)
  | real (p : Preference Binary)
  | phrase (p : Preference String)
  | generic (p : Preference Value)

namespace PreferenceEntry

def text : PreferenceEntry -> String
  | switch p => p.text
  | number p => p.text
  | real p => p.text
  | phrase p => p.text
  | generic p => p.text

def set (v : Value) : PreferenceEntry -> Option Fault × PreferenceEntry
  | switch p => ((p.set v).fault, switch (p.set v).preference)
  | number p => ((p.set v).fault, number (p.set v).preference)
  | real p => ((p.set v).fault, real (p.set v).preference)
  | phrase p => ((p.set v).fault, phrase (p.set v).preference)
  | generic p => ((p.set v).fault, generic (p.set v).preference)

/-- The value that a reset sets. -/
def blank : PreferenceEntry -> Value
  | switch p => p.kind.blank
  | number p => p.kind.blank
  | real p => p.kind.blank
  | phrase p => p.kind.blank
  | generic p => p.kind.blank

def reset (e : PreferenceEntry) : Option Fault × PreferenceEntry :=
  e.set e.blank

end PreferenceEntry

end Disassembler
