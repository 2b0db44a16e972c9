import Disassembler.Dsp56k.Decode
import Disassembler.Text.Column
import Disassembler.Text.Number

/-!
# Assembler text

The text of an operand, and the aligned and terse forms of an instruction.
-/

namespace Disassembler
namespace Dsp56k

open Number (decDigits hexPadded)

/-! ## Operands -/

def immediateText (style : Style) (v : UInt32) : String :=
  match style with
  | .hex => Number.hex v
  | .decimal => decDigits v.toNat

/-- The use of an address register. -/
def IndirectMode.text (mode : IndirectMode) (r : Nat) : String :=
  let rn := "r" ++ decDigits r
  let nn := "n" ++ decDigits r
  match mode with
  | postDecN => "(" ++ rn ++ ")-" ++ nn
  | postIncN => "(" ++ rn ++ ")+" ++ nn
  | postDec => "(" ++ rn ++ ")-"
  | postInc => "(" ++ rn ++ ")+"
  | noUpdate => "(" ++ rn ++ ")"
  | indexedN => "(" ++ rn ++ "+" ++ nn ++ ")"
  | preDec => "-(" ++ rn ++ ")"
  | unlisted _ => "?"

def Operand.text (style : Style) : Operand -> String
  | immShort v | immLong v => "#" ++ immediateText style v
  | reg r => r.name
  | indirect mode space r => space.text ++ mode.text r
  | absShort space a => space.text ++ "<" ++ Number.hex a
  | absLong space a => space.text ++ "$" ++ hexPadded 4 a.toNat
  | ioShort space a => space.text ++ "<<$" ++ hexPadded 4 (ioBase + a).toNat

def operandText (style : Style) : Option Operand -> String
  | some op => op.text style
  | none => "?"

/-! ## Groups of operands -/

/-- The operands of the operation itself.  The first is marked if the product
is negated. -/
def primaryTexts (i : Instruction) (style : Style) : List String :=
  let sign := if i.negated then "-" else ""
  (i.first.map fun op => sign ++ op.text style).toList
    ++ (i.second.map (Operand.text style)).toList
    ++ (i.third.map (Operand.text style)).toList

/-- The address register transfer, if there is one. -/
def transferText (m : Move) (style : Style) : List String :=
  match m.source with
  | none => []
  | some src => [src.text style ++ "," ++ operandText style m.destination]

def moveText (m : Move) (style : Style) : List String :=
  match m.source, m.destination with
  | none, _ => []
  | some src, none => [src.text style]
  | some src, some dst => [src.text style ++ "," ++ dst.text style]

/-- The groups of operands after the opcode. -/
def groups (i : Instruction) (style : Style) : List String :=
  let primary := primaryTexts i style
  (if primary.isEmpty then [] else [Text.join "," primary])
    ++ transferText i.transfer style
    ++ moveText i.moveX style
    ++ moveText i.moveY style

/-! ## Instructions -/

namespace Instruction

def opcodeWidth : Nat := 9

/-- The raw word of an unknown encoding. -/
def rawText (i : Instruction) : String :=
  "$" ++ hexPadded 6 i.header

def text (i : Instruction) (style : Style) : String :=
  if i.opcode = .data then
    Text.padRight opcodeWidth Opcode.data.name ++ i.rawText
  else
    Text.trimBlanks
      (Text.padRight opcodeWidth i.opcode.name ++ Text.join " " (groups i style))

/-- The terse form. -/
def terse (i : Instruction) (style : Style) : String :=
  if i.opcode = .data then
    Opcode.data.name ++ " " ++ i.rawText
  else
    Text.join " " (i.opcode.name :: groups i style)

end Instruction

end Dsp56k
end Disassembler
