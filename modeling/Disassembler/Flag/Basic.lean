import Disassembler.Dictionary
import Disassembler.Text.Literal
import Disassembler.Text.Number
import Disassembler.Text.Quote
import Disassembler.Text.Space
import Disassembler.Text.Split

/-!
# Flags

Named values on a command line.  A flag is written with one or two dashes, and
its value follows after an equals sign or in the next argument; a switch can do
without a value.
-/

namespace Disassembler

/-! ## Addresses -/

namespace Address

/-- An address as it is read: hexadecimal digits can stand after a dollar sign
as well. -/
def literalOf (s : String) : String :=
  let s := Text.trim s
  if Text.startsWith "$" s then "0x" ++ Text.dropStart "$" s else s

def parse (s : String) : Except String UInt32 :=
  match Literal.unsigned 0xffffffff (literalOf s) with
  | .ok n => .ok (UInt32.ofNat n)
  | .error _ => .error ("invalid address (" ++ literalOf s ++ ")")

end Address

/-! ## Values -/

inductive FlagValue where
  | switch (b : Bool)
  | number (n : Int)
  | text (s : String)
  | address (a : UInt32)
  deriving DecidableEq, Repr

namespace FlagValue

def isSwitch : FlagValue -> Bool
  | switch _ => true
  | _ => false

def onWords : List String := ["1", "t", "T", "TRUE", "true", "True"]

def offWords : List String := ["0", "f", "F", "FALSE", "false", "False"]

def notLiteral : String := "parse error"

/-- The number nearest to a literal that is out of range. -/
def saturated (s : String) : Int :=
  if Text.startsWith "-" s then -0x8000000000000000 else 0x7fffffffffffffff

/-- Read a value of the same type.  Where a text is not accepted the result says
why, and what the value is nevertheless. -/
def read (v : FlagValue) (s : String) : Option String × FlagValue :=
  match v with
  | switch _ =>
      if onWords.contains s then (none, switch true)
      else if offWords.contains s then (none, switch false)
      else (some notLiteral, switch false)
  | number _ =>
      match Literal.signed s with
      | .ok n => (none, number n)
      | .error .malformed => (some notLiteral, number 0)
      | .error .outOfRange => (some Literal.Error.outOfRange.message, number (saturated s))
  | text _ => (none, text s)
  | address a =>
      match Address.parse s with
      | .ok b => (none, address b)
      | .error why => (some why, address a)

end FlagValue

/-! ## Sets of flags -/

structure Flag where
  usage : String
  initial : FlagValue
  value : FlagValue
  /-- Whether the flag stood on the command line. -/
  given : Bool := false
  deriving DecidableEq, Repr

/-- The flags by name, and the arguments after them. -/
structure FlagSet where
  flags : Dictionary Flag := []
  rest : List String := []
  deriving DecidableEq, Repr

inductive FlagFault where
  /-- Help is asked for. -/
  | help
  | badSyntax (argument : String)
  | undefined (name : String)
  | missingValue (name : String)
  | badSwitch (name value why : String)
  | badValue (name value why : String)
  deriving DecidableEq, Repr

namespace FlagFault

def message : FlagFault -> String
  | help => "flag: help requested"
  | badSyntax argument => "bad flag syntax: " ++ argument
  | undefined name => "flag provided but not defined: -" ++ name
  | missingValue name => "flag needs an argument: -" ++ name
  | badSwitch name value why =>
      "invalid boolean value " ++ Text.quoted value ++ " for -" ++ name ++ ": " ++ why
  | badValue name value why =>
      "invalid value " ++ Text.quoted value ++ " for flag -" ++ name ++ ": " ++ why

end FlagFault

/-- What an argument looks like. -/
inductive ArgumentShape where
  | plain
  /-- Two dashes, which end the flags. -/
  | terminator
  | malformed
  | flag (name : String) (value? : Option String)
  deriving DecidableEq, Repr

namespace ArgumentShape

/-- The name of a flag and the value after the equals sign. -/
def ofName (name : List Char) : ArgumentShape :=
  match name with
  | [] => malformed
  | c :: cs =>
      if c == '-' || c == '=' then malformed
      else
        match cs.dropWhile (· != '=') with
        | [] => flag (String.ofList name) none
        | _ :: value =>
            flag (String.ofList (c :: cs.takeWhile (· != '='))) (some (String.ofList value))

def ofText (argument : String) : ArgumentShape :=
  match argument.toList with
  | ['-', '-'] => terminator
  | '-' :: '-' :: name => ofName name
  | '-' :: c :: name => ofName (c :: name)
  | _ => plain

end ArgumentShape

namespace FlagSet

/-- Define a flag.  That is not possible for a name that is in use or that could
not be written on a command line. -/
def define? (fs : FlagSet) (name : String) (value : FlagValue) (usage : String) :
    Option FlagSet :=
  if Text.startsWith "-" name || name.toList.contains '=' || (fs.flags.find? name).isSome then none
  else some { fs with flags := fs.flags.insert name { usage, initial := value, value } }

def value? (fs : FlagSet) (name : String) : Option FlagValue :=
  (fs.flags.find? name).map Flag.value

/-- The names of the flags that stood on the command line. -/
def given (fs : FlagSet) : List String :=
  (List.filter (fun p => p.2.given) fs.flags).map Prod.fst

def assign (fs : FlagSet) (name : String) (flag : Flag) (s : String) :
    Option FlagFault × FlagSet :=
  match flag.value.read s with
  | (none, value) =>
      (none, { fs with flags := fs.flags.insert name { flag with value, given := true } })
  | (some why, value) =>
      (some (if value.isSwitch then .badSwitch name s why else .badValue name s why),
        { fs with flags := fs.flags.insert name { flag with value } })

/-- Read flags from the front of some arguments.  The arguments that are left
over are kept. -/
def parse (fs : FlagSet) : List String -> Option FlagFault × FlagSet
  | [] => (none, { fs with rest := [] })
  | argument :: args =>
      match ArgumentShape.ofText argument with
      | .plain => (none, { fs with rest := argument :: args })
      | .terminator => (none, { fs with rest := args })
      | .malformed => (some (.badSyntax argument), { fs with rest := argument :: args })
      | .flag name value? =>
          match fs.flags.find? name with
          | none =>
              (some (if name == "help" || name == "h" then .help else .undefined name),
                { fs with rest := args })
          | some flag =>
              match value?, flag.value.isSwitch, args with
              | some s, _, args =>
                  match fs.assign name flag s with
                  | (none, fs') => fs'.parse args
                  | (some f, fs') => (some f, { fs' with rest := args })
              | none, true, args =>
                  match fs.assign name flag "true" with
                  | (none, fs') => fs'.parse args
                  | (some f, fs') => (some f, { fs' with rest := args })
              | none, false, s :: args =>
                  match fs.assign name flag s with
                  | (none, fs') => fs'.parse args
                  | (some f, fs') => (some f, { fs' with rest := args })
              | none, false, [] => (some (.missingValue name), { fs with rest := [] })
  termination_by args => args.length

end FlagSet

end Disassembler
