import Disassembler.Decimal.Parser
import Disassembler.Message.Fault
import Disassembler.Text.Case
import Disassembler.Text.Space

/-!
# Kinds of preferences

How a kind of preferences makes something of a value, and how its content is
written.
-/

namespace Disassembler

/-- A kind of preferences with content of type `α`. -/
structure PreferenceKind (α : Type) where
  initial : α
  /-- The value that a reset sets. -/
  blank : Value
  read : Value -> Except Fault α
  text : α -> String

namespace PreferenceKind

/-! ## Faults -/

def mismatch (kind : String) (v : Value) : Fault :=
  .plain ("prefs: cannot convert " ++ v.typeName ++ " to prefs." ++ kind)

/-- A text is not the number that it should be. -/
def unreadable (kind reader s : String) (e : Literal.Error) : Fault :=
  .plain ("prefs: cannot convert string to prefs." ++ kind ++ ": strconv." ++ reader
    ++ ": parsing " ++ Text.quoted s ++ ": " ++ e.message)

/-! ## Kinds -/

/-- Switches.  Of all texts only "true" turns one on, in letters of either
case. -/
def switch : PreferenceKind Bool where
  initial := false
  blank := .bool false
  read
    | .bool b => .ok b
    | .text s => .ok (Text.toLowerAscii (Text.trim s) == "true")
    | v => .error (mismatch "Bool" v)
  text b := if b then "true" else "false"

def number : PreferenceKind Int where
  initial := 0
  blank := .integer .int 0
  read
    | .integer .uint8 n => .error (mismatch "Int" (.integer .uint8 n))
    | .integer _ n => .ok n
    | .text s =>
        match Literal.signed (Text.trim s) with
        | .ok n => .ok n
        | .error e => .error (unreadable "Int" "ParseInt" (Text.trim s) e)
    | v => .error (mismatch "Int" v)
  text := Number.signedDigits

def real : PreferenceKind Binary where
  initial := .zero
  blank := .float .float64 .zero
  read
    | .float .float64 x => .ok x
    | .float .float32 x => .ok x.widen
    | .integer .int n => .ok (.ofInt .binary64 n)
    | .text s =>
        match Binary.parse .binary64 (Text.trim s) with
        | .ok x => .ok x
        | .error e => .error (unreadable "Float" "ParseFloat" (Text.trim s) e)
    | v => .error (mismatch "Float" v)
  text := Binary.text .binary64 (.fixed 3)

def phrase : PreferenceKind String where
  initial := ""
  blank := .text ""
  read v := .ok v.shown
  text s := s

/-- At most `limit` bytes, so that a text can end within a character; there is
no limit if it is not positive. -/
def clip (limit : Int) (s : String) : String :=
  if limit ≤ 0 then s else String.ofList (s.toList.take limit.toNat)

def clipped (limit : Int) : PreferenceKind String where
  initial := ""
  blank := .text ""
  read v := .ok (clip limit v.shown)
  text s := s

/-- Values that a function makes of values.  It is not told what was there before. -/
def generic (initial : Value) (read : Value -> Except Fault Value) : PreferenceKind Value where
  initial
  blank := .text ""
  read
  text v := v.shown

end PreferenceKind

end Disassembler
