import Disassembler.Dictionary
import Disassembler.Text.Column
import Disassembler.Text.Space
import Disassembler.Text.Split

/-!
# Overrides

Values for preferences that are given on the command line.  They come in groups,
and only the most recent group counts.  A value is used once.
-/

namespace Disassembler

/-- A group of values, by the keys of the preferences. -/
structure OverrideGroup where
  values : Dictionary String := []
  sorted : values.Sorted := by exact Dictionary.sorted_nil
  deriving DecidableEq, Repr

namespace OverrideGroup

/-- The key and the value in a part of a text. -/
def pairOf? (part : String) : Option (String × String) :=
  match Text.split "::" part with
  | [key, value] => some (Text.trim key, Text.trim value)
  | _ => none

/-- The group in a text.  Parts that are not a key and a value are ignored. -/
def ofText (s : String) : OverrideGroup where
  values := Dictionary.ofList ((Text.split ";" s).filterMap pairOf?)
  sorted := Dictionary.sorted_ofList _

def textOf (values : Dictionary String) : String :=
  Text.join "; " (values.map fun (key, value) => key ++ "::" ++ value)

def text (g : OverrideGroup) : String :=
  textOf g.values

def find? (g : OverrideGroup) (key : String) : Option String :=
  g.values.find? key

def erase (g : OverrideGroup) (key : String) : OverrideGroup where
  values := g.values.erase key
  sorted := g.sorted.filter _

end OverrideGroup

/-- The groups of values, the most recent one first. -/
structure Overrides where
  groups : List OverrideGroup := []
  deriving DecidableEq, Repr

namespace Overrides

def size (o : Overrides) : Nat :=
  o.groups.length

def push (o : Overrides) (s : String) : Overrides :=
  { groups := .ofText s :: o.groups }

/-- Remove the most recent group.  The result is the text of what has not been
used of it. -/
def pop (o : Overrides) : String × Overrides :=
  match o.groups with
  | [] => ("", o)
  | g :: rest => (g.text, { groups := rest })

/-- The value of a key in the most recent group, which is used up. -/
def take (o : Overrides) (key : String) : Option String × Overrides :=
  match o.groups with
  | [] => (none, o)
  | g :: rest =>
      match g.find? key with
      | none => (none, o)
      | some value => (some value, { groups := g.erase key :: rest })

end Overrides

end Disassembler
