import Disassembler.Message.Template
import Disassembler.Text.Split

/-!
# Faults

A fault is what went wrong.  A report is a fault with a pattern, by which it
can be recognised, and with values, which can be faults themselves.  The message
of a report is a chain of parts; parts that repeat the part before them are left
out, so that wrapping a fault twice in the same way does not show.
-/

namespace Disassembler

mutual

/-- What went wrong. -/
inductive Fault where
  | plain (message : String)
  /-- A message in front of another value. -/
  | wrapped (context : String) (cause : Value)
  | report (pattern : String) (values : List Value)

/-- A value in a report, in the log or for a preference. -/
inductive Value where
  | absent
  | bool (b : Bool)
  | integer (type : IntType) (n : Int)
  | float (type : FloatType) (x : Binary)
  | text (s : String)
  /-- A value with a text of its own. -/
  | named (s : String)
  | fault (f : Fault)

end

namespace Fault

/-! ## Messages -/

def separator : String := ": "

/-- The elements that differ from the element before them. -/
def collapse {α : Type} [DecidableEq α] : List α -> List α
  | [] => []
  | [a] => [a]
  | a :: b :: rest => if a = b then collapse (b :: rest) else a :: collapse (b :: rest)

/-- A message without the parts that repeat the part before them. -/
def normalize (message : String) : String :=
  Text.join separator (collapse (Text.split separator message))

/-- The template of a message in front of another value. -/
def wrapping : String := "%s: %w"

/-- What a fault that is only a message is made up of. -/
def plainContent (message : String) : Argument :=
  .reference (.record "errors.errorString" ["s"] [.ofText message])

/-- What a message in front of another value is made up of.  Only errors are
kept as the cause. -/
def wrappedContent (message : String) (cause : Argument) : Argument :=
  .reference (.record "fmt.wrapError" ["msg", "err"]
    [.ofText message, if cause.isError then cause else .absent "error"])

def reportContent (pattern : String) (values : List Argument) : Argument :=
  .record "curated.curated" ["pattern", "values"]
    [.ofText pattern, .sequence "[]interface \x7b\x7d" values]

mutual

def argumentOf : Value -> Argument
  | .absent => .absent "interface \x7b\x7d"
  | .bool b => .bool b
  | .integer t n => .integer t n
  | .float t x => .float t x
  | .text s => .ofText s
  | .named s => .described s false (.text "main.stringer" s)
  | .fault (plain m) => .described m true (plainContent m)
  | .fault (wrapped context cause) =>
      let a := argumentOf cause
      let m := Template.fill wrapping [.ofText context, a]
      .described m true (wrappedContent m a)
  | .fault (report pattern values) =>
      let args := argumentsOf values
      .described (normalize (Template.fill pattern args)) true (reportContent pattern args)

def argumentsOf : List Value -> List Argument
  | [] => []
  | v :: vs => argumentOf v :: argumentsOf vs

end

def message : Fault -> String
  | plain m => m
  | wrapped context cause => Template.fill wrapping [.ofText context, argumentOf cause]
  | report pattern values => normalize (Template.fill pattern (argumentsOf values))

/-! ## Recognising reports -/

def isReport : Fault -> Bool
  | report _ _ => true
  | _ => false

def hasPattern (pattern : String) : Fault -> Bool
  | report p _ => p == pattern
  | _ => false

mutual

/-- Whether a report, or some report among its values, has the given
pattern. -/
def mentions (pattern : String) : Fault -> Bool
  | report p values => p == pattern || anyMentions pattern values
  | _ => false

def anyMentions (pattern : String) : List Value -> Bool
  | [] => false
  | .fault f :: vs => mentions pattern f || anyMentions pattern vs
  | _ :: vs => anyMentions pattern vs

end

def firstFault? : List Value -> Option Fault
  | [] => none
  | .fault f :: _ => some f
  | _ :: vs => firstFault? vs

def cause? : Fault -> Option Fault
  | plain _ => none
  | wrapped _ (.fault f) => some f
  | wrapped _ _ => none
  | report _ values => firstFault? values

end Fault

namespace Value

/-- The usual form of a value. -/
def shown (v : Value) : String :=
  Directive.plainText (Fault.argumentOf v)

def typeName (v : Value) : String :=
  (Fault.argumentOf v).typeName

end Value

end Disassembler
