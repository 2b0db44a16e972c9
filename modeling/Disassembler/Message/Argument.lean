import Disassembler.Decimal.Printer

/-!
# Arguments of messages

What a message can be filled in with.  An argument has a type, which is named
where a directive does not fit it.
-/

namespace Disassembler

inductive IntType where
  | int
  | int64
  | int32
  | uint32
  | uint8
  deriving DecidableEq, Repr

namespace IntType

def name : IntType -> String
  | int => "int"
  | int64 => "int64"
  | int32 => "int32"
  | uint32 => "uint32"
  | uint8 => "uint8"

def isSigned : IntType -> Bool
  | int | int64 | int32 => true
  | uint32 | uint8 => false

end IntType

inductive FloatType where
  | float64
  | float32
  deriving DecidableEq, Repr

namespace FloatType

def name : FloatType -> String
  | float64 => "float64"
  | float32 => "float32"

def format : FloatType -> FloatFormat
  | float64 => .binary64
  | float32 => .binary32

end FloatType

inductive Argument where
  /-- Nothing, in a place for values of some type. -/
  | absent (place : String)
  | bool (b : Bool)
  | integer (type : IntType) (n : Int)
  | float (type : FloatType) (x : Binary)
  | text (type s : String)
  | record (type : String) (names : List String) (values : List Argument)
  | sequence (type : String) (items : List Argument)
  /-- Something that is kept elsewhere. -/
  | reference (target : Argument)
  /-- Something that describes itself, and what it is made up of. -/
  | described (description : String) (isError : Bool) (content : Argument)
  deriving Repr

namespace Argument

/-- What is written for nothing. -/
def nothing : String := "<nil>"

def typeName : Argument -> String
  | absent _ => nothing
  | bool _ => "bool"
  | integer t _ => t.name
  | float t _ => t.name
  | text t _ => t
  | record t _ _ => t
  | sequence t _ => t
  | reference a => "*" ++ a.typeName
  | described _ _ a => a.typeName

def isError : Argument -> Bool
  | described _ e _ => e
  | _ => false

/-- A plain text. -/
def ofText (s : String) : Argument :=
  text "string" s

end Argument

end Disassembler
