import Disassembler.M68k.Decode
import Disassembler.Text.Column
import Disassembler.Text.Number

/-!
# Assembler text

The text of an operand, and the two forms of an instruction: aligned, with the
opcode in a column of its own, and terse.
-/

namespace Disassembler
namespace M68k

open Number (decDigits)

/-! ## Parts of operands -/

/-- The address of a displacement from the start of an instruction. -/
def relative (addr : UInt32) (disp : Int32) : UInt32 :=
  addr + disp.toUInt32

/-- The factor of a scale, of which only the low two bits count. -/
def scaleText (scale : Nat) : String :=
  match scale % 4 with
  | 0 => ""
  | 1 => "*2"
  | 2 => "*4"
  | _ => "*8"

def Index.text (i : Index) : String :=
  if i.reg = .absent then ""
  else i.reg.name ++ (if i.long then ".l" else ".w") ++ scaleText i.scale

namespace RegList

/-- The runs of consecutive numbers in an increasing list, each as its first
and last number. -/
def ranges : List Nat -> List (Nat × Nat)
  | [] => []
  | n :: rest =>
      match ranges rest with
      | (low, high) :: more =>
          if low = n + 1 then (n, high) :: more else (n, n) :: (low, high) :: more
      | [] => [(n, n)]

/-- The numbers of the registers of a bank in a mask.  The bank begins at bit
`low`. -/
def members (mask : UInt16) (low : Nat) : List Nat :=
  (List.range 8).filter fun i => Word16.bit mask (low + i)

def rangeText (bank : String) (r : Nat × Nat) : String :=
  if r.1 = r.2 then bank ++ decDigits r.1
  else bank ++ decDigits r.1 ++ "-" ++ bank ++ decDigits r.2

def parts (mask : UInt16) : List String :=
  (ranges (members mask 0)).map (rangeText "d") ++ (ranges (members mask 8)).map (rangeText "a")

def text (mask : UInt16) : String :=
  Text.join "/" (parts mask)

end RegList

namespace FullExt

/-- The base displacement, shown as an address if it counts from the program
counter. -/
def baseDispText (e : FullExt) (addr : UInt32) : String :=
  if e.base = .pc ∧ e.hasBase then Number.hex (relative addr e.baseDisp)
  else Number.hex e.baseDisp.toUInt32

/-- The four components, those that are not used left out. -/
def components (e : FullExt) (addr : UInt32) : List (Option String) :=
  [if e.hasBaseDisp then some (e.baseDispText addr) else none,
    if e.hasBase then some e.base.name else none,
    if e.hasIndex then some e.index.text else none,
    if e.hasOuterDisp then some (Number.hex e.outerDisp.toUInt32) else none]

/-- The components, of which the first `inner` make up the address of a
pointer in memory and stand in brackets. -/
def text (e : FullExt) (inner : Nat) (addr : UInt32) : String :=
  let pointer := ((e.components addr).take inner).filterMap id
  let outside := ((e.components addr).drop inner).filterMap id
  let pointer := if pointer.isEmpty then [] else ["[" ++ Text.join "," pointer ++ "]"]
  "(" ++ Text.join "," (pointer ++ outside) ++ ")"

end FullExt

/-! ## Operands -/

def controlRegText (code : UInt16) : String :=
  (Decoder.controlRegNames.lookup code).getD "?"

def Operand.text (addr : UInt32) (style : Style) : Operand -> String
  | dataReg r => "d" ++ decDigits r
  | addrReg r => "a" ++ decDigits r
  | indirect r => "(a" ++ decDigits r ++ ")"
  | postInc r => "(a" ++ decDigits r ++ ")+"
  | preDec r => "-(a" ++ decDigits r ++ ")"
  | disp16 r d => Number.signed style d.toInt32 ++ "(a" ++ decDigits r ++ ")"
  | indexed r d i => Number.signed style d.toInt32 ++ "(a" ++ decDigits r ++ "," ++ i.text ++ ")"
  | absWord a => Number.absWord a ++ ".w"
  | absLong a => Number.hex a
  | pcDisp d => Number.hex (relative addr d) ++ "(pc)"
  | pcIndexed d i => Number.hex (relative addr d) ++ "(pc," ++ i.text ++ ")"
  | branch d => Number.hex (relative addr d)
  | regList m => RegList.text m
  | immediate v => "#" ++ Number.hex v
  | sr => "sr"
  | ccr => "ccr"
  | usp => "usp"
  | controlReg c => controlRegText c
  | regPair r s => "d" ++ decDigits r ++ ":d" ++ decDigits s
  | indirectPair r s => "(" ++ r.name ++ "):(" ++ s.name ++ ")"
  | postIndexed e => e.text 2 addr
  | preIndexed e => e.text 3 addr
  | memoryIndirect e => e.text 2 addr
  | noMemoryIndirect e => e.text 0 addr

def operandText (addr : UInt32) (style : Style) : Option Operand -> String
  | some op => op.text addr style
  | none => "?"

/-- An operand after a separator, nothing if it is absent. -/
def separated (separator : String) (addr : UInt32) (style : Style) : Option Operand -> String
  | some op => separator ++ op.text addr style
  | none => ""

def Bitfield.partText (isReg : Bool) (v : Nat) : String :=
  if isReg then "d" ++ decDigits (v % 8) else decDigits v

/-- A bit field as its offset and width in braces. -/
def Bitfield.text (b : Bitfield) : String :=
  "\x7b" ++ partText b.offsetIsReg b.offset ++ ":" ++ partText b.widthIsReg b.width ++ "\x7d"

/-! ## Instructions -/

namespace Instruction

def mnemonic (i : Instruction) : String :=
  i.opcode.name ++ i.suffix.name

def opcodeWidth : Nat := 9

def text (i : Instruction) (addr : UInt32) (style : Style) : String :=
  if i.opcode = .data then
    Text.padRight opcodeWidth Opcode.data.name ++ Number.hex i.header.toUInt32
  else
    Text.trimBlanks
      (Text.padRight opcodeWidth i.mnemonic
        ++ separated "" addr style i.first
        ++ (i.firstField.map Bitfield.text).getD ""
        ++ separated "," addr style i.second
        ++ (i.secondField.map Bitfield.text).getD ""
        ++ separated "," addr style i.third)

/-- The terse form, which shows two operands at most and no bit fields. -/
def terse (i : Instruction) (addr : UInt32) (style : Style) : String :=
  if i.opcode = .data then
    Opcode.data.name ++ " " ++ Number.hex i.header.toUInt32
  else
    i.mnemonic ++ separated " " addr style i.first ++ separated "," addr style i.second

end Instruction

end M68k
end Disassembler
