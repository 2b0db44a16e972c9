import Disassembler.Dictionary
import Disassembler.Text.Lines
import Disassembler.Text.Space

/-!
# Preference files

A preference file begins with a heading.  Each of the lines after it has a key
and a value; other lines are ignored.
-/

namespace Disassembler
namespace PreferenceFile

/-- Why a text is not taken for a preference file. -/
inductive Error where
  /-- It does not begin with the heading. -/
  | foreign
  /-- One of its lines cannot be read. -/
  | overlong
  deriving DecidableEq, Repr

def heading : String := "*** do not edit this file by hand ***"

/-- What stands between a key and its value. -/
def separator : String := " :: "

def pairOf? (line : String) : Option (String × String) :=
  (Text.breakOn? separator (Text.dropReturn line)).map fun (key, value) => (Text.trim key, value)

/-- The values in a text, by their keys.  A text without a first line has no
values, and that the first line cannot be read does not matter either. -/
def parse (text : String) : Except Error (Dictionary String) :=
  match Text.rawLines text with
  | [] => .ok []
  | first :: rest =>
      if Text.isOverlong first then .ok []
      else if Text.dropReturn first ≠ heading then .error .foreign
      else if rest.any Text.isOverlong then .error .overlong
      else .ok (.ofList (rest.filterMap pairOf?))

def lineOf (pair : String × String) : String :=
  pair.1 ++ separator ++ pair.2 ++ "\n"

def linesOf (values : Dictionary String) : String :=
  String.join (values.map lineOf)

def print (values : Dictionary String) : String :=
  heading ++ "\n" ++ linesOf values

end PreferenceFile
end Disassembler
