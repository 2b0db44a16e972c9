import Disassembler.Text.Case
import Disassembler.Text.Column
import Disassembler.Text.Number

/-!
# Colours

The control sequences for colours and styles on a terminal.
-/

namespace Disassembler
namespace Terminal

/-- What begins a control sequence. -/
def escape : String := String.ofList [Char.ofNat 0x1b, '[']

def normalPen : String := escape ++ "m"

def clearLine : String := escape ++ "2K"

def colors : List (String × Nat) :=
  [("BLACK", 0), ("RED", 1), ("GREEN", 2), ("YELLOW", 3), ("BLUE", 4), ("MAGENTA", 5),
    ("CYAN", 6), ("WHITE", 7), ("NORMAL", 9)]

/-- The codes of the attributes.  Nothing needs to be sent for zero. -/
def attributes : List (String × Nat) :=
  [("BOLD", 1), ("UNDERLINE", 4), ("INVERSE", 7), ("STRIKE", 9), ("NORMAL", 0)]

inductive Target where
  | pen (bright : Bool)
  | paper (bright : Bool)
  deriving DecidableEq, Repr

namespace Target

/-- What stands before the number of a colour. -/
def code : Target -> Nat
  | pen bright => if bright then 9 else 3
  | paper bright => if bright then 10 else 4

def name : Target -> String
  | pen _ => "pen"
  | paper _ => "paper"

end Target

/-- A name is not known. -/
structure UnknownName where
  what : String
  name : String
  deriving DecidableEq, Repr

namespace UnknownName

def message (u : UnknownName) : String :=
  "ansi: unknown " ++ u.what ++ " (" ++ u.name ++ ")"

end UnknownName

/-- The codes for a colour, none without a name. -/
def colorCodes (target : Target) (name : String) : Except UnknownName (List String) :=
  if name.isEmpty then .ok []
  else
    match colors.lookup (Text.toUpper name) with
    | some n => .ok [Number.decDigits target.code ++ Number.decDigits n]
    | none => .error ⟨target.name, name⟩

def attributeCodes (name : String) : Except UnknownName (List String) :=
  if name.isEmpty then .ok []
  else
    match attributes.lookup (Text.toUpper name) with
    | some 0 => .ok []
    | some n => .ok [Number.decDigits n]
    | none => .error ⟨"attribute", name⟩

/-- The sequence for colours and a style, each of which may be left out. -/
def sequence (pen paper style : String) (brightPen brightPaper : Bool) :
    Except UnknownName String := do
  let penCodes <- colorCodes (.pen brightPen) pen
  let paperCodes <- colorCodes (.paper brightPaper) paper
  let styleCodes <- attributeCodes style
  return escape ++ Text.join ";" (penCodes ++ paperCodes ++ styleCodes) ++ "m"

/-! ## Tables -/

def penNames : List String := ["red", "green", "yellow", "blue", "magenta", "cyan", "white"]

def styleNames : List String := ["bold", "underline", "inverse"]

def table (names : List String) (sequenceOf : String -> Except UnknownName String) :
    List (String × String) :=
  names.map fun name => (name, (sequenceOf name).toOption.getD "")

/-- The bright colours. -/
def pens : List (String × String) :=
  table penNames fun name => sequence name "" "" true false

/-- The pastel colours. -/
def dimPens : List (String × String) :=
  table penNames fun name => sequence name "" "" false false

def penStyles : List (String × String) :=
  table styleNames fun name => sequence "" "" name false false

end Terminal
end Disassembler
