import Disassembler.Flag.Usage
import Disassembler.Text.Case

/-!
# Command lines

A command line with modes.  The flags of a mode may be followed by the name of
one of its sub-modes, which has flags of its own.
-/

namespace Disassembler

/-- What is known about a command line. -/
structure CommandLine where
  args : List String := []
  /-- How many arguments belong to modes that have been dealt with. -/
  position : Nat := 0
  flags : FlagSet := {}
  /-- The sub-modes of the current mode, the default first. -/
  subModes : List String := []
  /-- The modes so far. -/
  path : List String := []
  additionalHelp : String := ""
  parsed : Bool := false
  deriving Repr

/-- What came of parsing a mode. -/
inductive ModeResult where
  | proceed
  | help (text : String)
  | failed (f : FlagFault)
  deriving DecidableEq, Repr

namespace CommandLine

/-! ## Building -/

def beginMode (c : CommandLine) : CommandLine :=
  { c with flags := {}, subModes := [], additionalHelp := "", parsed := false }

def withArgs (c : CommandLine) (args : List String) : CommandLine :=
  { c with args, position := 0 }.beginMode

def offer (c : CommandLine) (names : List String) : CommandLine :=
  { c with subModes := c.subModes ++ names.map Text.toUpper }

def offerFirst (c : CommandLine) (name : String) : CommandLine :=
  { c with subModes := Text.toUpper name :: c.subModes }

def declare? (c : CommandLine) (name : String) (value : FlagValue) (usage : String) :
    Option CommandLine :=
  let usage := match value with
    | .address a => usage ++ " (default " ++ Number.hex a ++ ")"
    | _ => usage
  (c.flags.define? name value usage).map fun flags => { c with flags }

/-- Add flags to the current mode, as far as that is possible. -/
def declareAll (c : CommandLine) (flags : List (String × FlagValue × String)) : CommandLine :=
  flags.foldl (fun c (name, value, usage) => (c.declare? name value usage).getD c) c

/-! ## Results -/

def mode (c : CommandLine) : String :=
  c.path.getLast?.getD ""

def pathText (c : CommandLine) : String :=
  Text.join "/" c.path

/-- The arguments after the flags of the current mode. -/
def remaining (c : CommandLine) : List String :=
  c.flags.rest

def argument (c : CommandLine) (i : Int) : String :=
  if i < 0 then "" else c.remaining.getD i.toNat ""

/-! ## Parsing -/

def helpText (c : CommandLine) : String :=
  let usage := c.flags.usage
  let place := c.pathText
  if usage.isEmpty && c.subModes.isEmpty then
    "No help available" ++ (if place.isEmpty then "" else " for " ++ place) ++ "\n"
  else
    "Usage:" ++ (if place.isEmpty then "" else " for " ++ place ++ " mode") ++ "\n" ++ usage
      ++ (match c.subModes with
        | [] => ""
        | first :: _ =>
            (if usage.isEmpty then "" else "\n")
              ++ "  available sub-modes: " ++ Text.join ", " c.subModes ++ "\n"
              ++ "    default: " ++ first ++ "\n")
      ++ (if c.additionalHelp.isEmpty then "" else "\n" ++ c.additionalHelp ++ "\n")

/-- Go to a sub-mode: the one that is named by the first argument after the
flags, or else the default. -/
def choose (c : CommandLine) : CommandLine :=
  match c.subModes with
  | [] => c
  | first :: _ =>
      let name := Text.toUpper (c.argument 0)
      if c.subModes.contains name then
        { c with path := c.path ++ [name], position := c.position + 1 }
      else
        { c with path := c.path ++ [first] }

/-- Parse the arguments of the current mode.  Flags that are not accepted are
left to the default sub-mode, if there is one.  There is no result if the
position is past the end of the arguments. -/
def parse (c : CommandLine) : Option ModeResult × CommandLine :=
  let c := { c with parsed := true }
  if c.args.length < c.position then (none, c)
  else
    match c.flags.parse (c.args.drop c.position) with
    | (none, flags) => (some .proceed, { c with flags }.choose)
    | (some .help, flags) => (some (.help { c with flags }.helpText), { c with flags })
    | (some f, flags) =>
        match c.subModes with
        | [] => (some (.failed f), { c with flags })
        | first :: _ => (some .proceed, { c with flags, path := c.path ++ [first] })

end CommandLine

end Disassembler
