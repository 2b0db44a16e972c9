import Disassembler.Text.Column
import Disassembler.Text.Number
import Disassembler.Text.Space
import Disassembler.Text.Split

/-!
# Columns

The fields of a row of a listing, and the widths that make them line up.
-/

namespace Disassembler

structure Fields where
  address : String := ""
  bytecode : String := ""
  mnemonic : String := ""
  operand : String := ""
  comment : String := ""
  deriving DecidableEq, Repr

namespace Fields

/-- Cut the text of an instruction at its first blank into the mnemonic and the
operands. -/
def split (text : String) : String × String :=
  let text := Text.trim text
  match Text.breakOn? " " text with
  | none => (text, "")
  | some (mnemonic, operand) => (mnemonic, Text.trim operand)

end Fields

/-- The widths of the columns in bytes.  The comment is the last column and has
no width. -/
structure Columns where
  address : Nat := 0
  bytecode : Nat := 0
  mnemonic : Nat := 0
  operand : Nat := 0
  deriving DecidableEq, Repr

namespace Columns

def update (c : Columns) (f : Fields) : Columns where
  address := max c.address f.address.length
  bytecode := max c.bytecode f.bytecode.length
  mnemonic := max c.mnemonic f.mnemonic.length
  operand := max c.operand f.operand.length

def toList (c : Columns) : List Nat :=
  [c.address, c.bytecode, c.mnemonic, c.operand]

/-- The directive that pads a text to a width. -/
def directive (width : Nat) : String :=
  "%-" ++ Number.decDigits width ++ "s"

def ofRows (rows : List Fields) : Columns :=
  rows.foldl update {}

end Columns

end Disassembler
