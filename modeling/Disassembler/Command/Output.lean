import Disassembler.Command.Options
import Disassembler.Command.Session
import Disassembler.Command.Tools
import Disassembler.Listing.Block
import Disassembler.Listing.Iterator

/-!
# Output

The lines of a disassembly are put out as a listing, to which a script can add comments, or
as a dump.  A map of them can be written to a file besides.  On a terminal the output is
paged or cut to a screenful.
-/

namespace Disassembler

def loadError : String := "load: %v"

/-- How the code for a processor is put out. -/
structure Presentation (u i : Type) where
  machine : Machine u i
  name : String
  dump : List (Line u i) -> List String
  graph : List (Line u i) -> Bytes
  branches : List (Line u i) -> List Branch
  terse : ListingOptions -> Line u i -> String
  rows : ListingOptions -> Line u i -> Except Fault (List Row)

namespace Presentation

def m68k (tools : Tools) (cpu : M68k.Cpu) (table? : Option SymbolTable) :
    Presentation UInt8 M68k.Instruction where
  machine := .m68k cpu
  name := cpu.name
  dump := tools.dump68
  graph := tools.graph68
  branches := Listing.branches68
  terse o l := l.inst.terse l.address o.style
  rows o := Listing.rows68 o table? none

def dsp56k (tools : Tools) : Presentation Word24 Dsp56k.Instruction where
  machine := .dsp56k
  name := Machine.dspName
  dump := tools.dump56
  graph := tools.graph56
  branches := Listing.branches56
  terse o l := l.inst.terse o.style
  rows o := Listing.rows56 o none

end Presentation

namespace Command

variable {u i : Type}

/-! ## Lines -/

/-- The largest number of lines.  A terminal without a pager has room for so many. -/
def lineLimit (o : Options) (terminal? : Option Terminal) (limit : Int) : Int :=
  match terminal? with
  | some t => if !o.page && limit = 0 then (t.rows.toNat : Int) - 1 else limit
  | none => limit

/-- The lines that are asked for.  Only a whole block is logged. -/
def lines (m : Machine u i) (name : String) (o : Options) (limit : Int) (units : List u) :
    Task (List (Line u i)) := do
  match o.start with
  | some address => return (LineIterator.ofList o.base units).linesFrom m address limit
  | none =>
      let s <- get
      let (block, log) := m.loggedBlock name o.base limit units s.log
      set { s with log }
      return block

/-! ## Scripts -/

/-- Run the script at a path.  One without the function that is called for lines is
refused. -/
def loadScript (x : Interpreter) (path : String) : Task x.State := do
  let fail (v : Value) : Task x.State :=
    Task.fail (.report loadError [.fault (Script.fault v)])
  let s <- get
  match s.files.read path with
  | .error f => fail (.fault f.toFault)
  | .ok source =>
      let loaded := x.load path source s.files
      set (s.follow loaded)
      match loaded.result with
      | .error f => fail (.fault f)
      | .ok () =>
          Task.note "annotate" ("loaded " ++ path)
          if x.isFunction loaded.state Script.entryPoint then return loaded.state
          else fail (.text ("no " ++ Script.entryPoint ++ "() function"))

def script (x : Interpreter) (path : String) : Task (Option x.State) :=
  if path.isEmpty then pure none else do return some (<- loadScript x path)

/-- The rows of lines in turn.  A script is asked about each line as the lines before it
have left it. -/
def scriptedRows (x : Interpreter) (pr : Presentation u i) (o : ListingOptions) :
    x.State -> List (Line u i) -> Task (List (List Row))
  | _, [] => return []
  | state, l :: lines => do
      let s <- get
      let asked := x.ask state l.address (pr.terse o l) s.files
      set (s.follow asked)
      let group <- Task.ofExcept (pr.rows { o with annotator := some (x.annotator state s.files) } l)
      let groups <- scriptedRows x pr o asked.state lines
      return group :: groups

def listing (x : Interpreter) (script? : Option x.State) (pr : Presentation u i)
    (o : ListingOptions) (lines : List (Line u i)) : Task (List String) := do
  let groups <- match script? with
    | none => Task.ofExcept (lines.mapM (pr.rows o))
    | some state => scriptedRows x pr o state lines
  return Listing.renderGroups o groups (pr.branches lines)

/-! ## Putting out -/

def putRows (pager? : Option Pager) (rows : List String) : Task Unit :=
  match pager? with
  | none => Task.print (String.join rows)
  | some p => do
      Task.print (p.writeAll rows).1
      Task.ofFault? ((p.writeAll rows).2.map fun f => .report writeError [.fault f])

/-- Put out a dump.  It goes on where a key cannot be read. -/
def putDump (pager? : Option Pager) (pieces : List String) : Task Unit :=
  match pager? with
  | none => Task.print (String.join pieces)
  | some p => Task.print (p.showAll pieces)

/-- Write a map of the lines, if there is a path for it. -/
def putGraph (path : String) (graph : Bytes) : Task Unit :=
  if path.isEmpty then pure ()
  else do
    let s <- get
    let files <- Task.ofExcept ((s.files.write path graph).mapError FileFault.toFault)
    set { s with files }

def emit (tools : Tools) (script? : Option tools.scripts.State) (pr : Presentation u i)
    (o : Options) (lo : ListingOptions) (pager? : Option Pager) (lines : List (Line u i)) :
    Task Unit := do
  putGraph o.graph (pr.graph lines)
  if o.dump then putDump pager? (pr.dump lines)
  else putRows pager? (<- listing tools.scripts script? pr lo lines)

def output (tools : Tools) (script? : Option tools.scripts.State) (pr : Presentation u i)
    (o : Options) (lo : ListingOptions) (limit : Int) (units : List u) : Task Unit := do
  let terminal? := (<- get).terminal
  let pager? := if o.page then terminal?.map fun terminal => { terminal } else none
  let lines <- lines pr.machine pr.name o (lineLimit o terminal? limit) units
  emit tools script? pr o lo pager? lines

end Command

end Disassembler
