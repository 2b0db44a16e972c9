import Disassembler.CommandLine

/-!
# Options

The flags of the modes of the program, and what they say.
-/

namespace Disassembler

namespace FlagSet

def switch (fs : FlagSet) (name : String) : Bool :=
  match fs.value? name with
  | some (.switch b) => b
  | _ => false

def number (fs : FlagSet) (name : String) : Int :=
  match fs.value? name with
  | some (.number n) => n
  | _ => 0

def text (fs : FlagSet) (name : String) : String :=
  match fs.value? name with
  | some (.text s) => s
  | _ => ""

def address (fs : FlagSet) (name : String) : UInt32 :=
  match fs.value? name with
  | some (.address a) => a
  | _ => 0

/-- The value of a flag, if it stood on the command line. -/
def ifGiven {α : Type} (fs : FlagSet) (name : String) (value : α) : Option α :=
  if fs.given.contains name then some value else none

end FlagSet

/-- The processors that code can be disassembled for. -/
inductive Processor where
  | m68k
  | dsp56k
  deriving DecidableEq, Repr

/-- What the flags of a disassembly say. -/
structure Options where
  base : UInt32
  start : Option UInt32
  offset : Int
  maxLines : Option Int
  hexNumerics : Option Bool
  bytecode : Option Bool
  terse : Bool
  arrows : Bool
  symbols : String
  hardware : Bool
  script : String
  dump : Bool
  graph : String
  echo : Bool
  overrides : String
  save : Bool
  stats : Bool
  page : Bool
  cpu : Option String
  fill : Int
  deriving Repr

namespace Options

def statsAddress : String := "localhost:12680"

/-- The flags for any processor. -/
def commonFlags : List (String × FlagValue × String) :=
  [("base", .address 0, "address of first byte (68k) or word (DSP) in the file"),
    ("start", .address 0, "begin output at this address"),
    ("offset", .number 0, "skip this many bytes of the file"),
    ("max", .number 0, "maximum number of lines. zero means no limit"),
    ("hex", .switch true, "print signed displacements in hexadecimal"),
    ("bytecode", .switch false, "include bytecode in disassembly"),
    ("terse", .switch false, "single column output"),
    ("arrows", .switch false, "draw branch arrows in the gutter"),
    ("symbols", .text "", "symbols file"),
    ("hw", .switch false, "add hardware register symbols"),
    ("lua", .text "", "lua script providing an annotate(address, text) function"),
    ("dump", .switch false, "dump decoded lines instead of disassembly"),
    ("dot", .text "",
      "write a graphviz map of decoded lines to file. auto picks a unique filename"),
    ("log", .switch false, "echo log to stderr"),
    ("prefs", .text "", "preference overrides (key::value; key::value)"),
    ("save", .switch false, "save preferences after applying flags"),
    ("statsview", .switch false, "run stats server (" ++ statsAddress ++ ")"),
    ("page", .switch false, "page output when writing to a terminal")]

def flags : Processor -> List (String × FlagValue × String)
  | .m68k =>
      commonFlags ++
        [("cpu", .text "", "68000, 68010, 68020 or 68030"),
          ("fill", .number 0, "disassemble this many nop instructions instead of a file")]
  | .dsp56k => commonFlags

/-- What flags say. -/
def ofFlags (fs : FlagSet) : Options where
  base := fs.address "base"
  start := fs.ifGiven "start" (fs.address "start")
  offset := fs.number "offset"
  maxLines := fs.ifGiven "max" (fs.number "max")
  hexNumerics := fs.ifGiven "hex" (fs.switch "hex")
  bytecode := fs.ifGiven "bytecode" (fs.switch "bytecode")
  terse := fs.switch "terse"
  arrows := fs.switch "arrows"
  symbols := fs.text "symbols"
  hardware := fs.switch "hw"
  script := fs.text "lua"
  dump := fs.switch "dump"
  graph := fs.text "dot"
  echo := fs.switch "log"
  overrides := fs.text "prefs"
  save := fs.switch "save"
  stats := fs.switch "statsview"
  page := fs.switch "page"
  cpu := fs.ifGiven "cpu" (fs.text "cpu")
  fill := fs.number "fill"

end Options

end Disassembler
