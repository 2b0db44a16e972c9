import Disassembler.Command.Output
import Disassembler.Listing.Preferences
import Disassembler.Symbol.Hardware
import Disassembler.Symbol.Reader
import Disassembler.Version

/-!
# Launching

A run of the program for a command line.  The modes disassemble code for one of
the processors, or list symbols.
-/

namespace Disassembler

/-- The pattern of a fault in what is to be disassembled or listed. -/
def inputError : String := "input: %v"

namespace Command

def inputFault (detail : String) : Fault :=
  .report inputError [.text detail]

/-! ## Preferences -/

def applyOption (name : PreferenceName) (v? : Option Value) (p : Preferences) :
    Task Preferences := do
  match v? with
  | none => return p
  | some v =>
      let (fault, p') := p.set name v
      Task.ofFault? fault
      return p'

def loadPreferences : Task Preferences := do
  let s <- get
  let (result, files, overrides) := Preferences.open? s.files s.overrides
  set { s with files, overrides }
  match result with
  | .ok p => return p
  | .error f => Task.fail (.report loadError [.fault f])

/-- The preferences, with the flags applied and saved if that is wanted. -/
def preferences (o : Options) : Task Preferences := do
  let p <- loadPreferences
  let p <- applyOption .cpu (o.cpu.map Value.text) p
  let p <- applyOption .hexNumerics (o.hexNumerics.map Value.bool) p
  let p <- applyOption .bytecode (o.bytecode.map Value.bool) p
  let p <- applyOption .maxLines (o.maxLines.map (Value.integer .int)) p
  if o.save then
    let s <- get
    let files <- Task.ofExcept (p.save s.files)
    set { s with files }
  return p

/-! ## Input -/

/-- The bytes to disassemble: the content of the only file after the flags, or
instructions that do nothing. -/
def input (c : CommandLine) (o : Options) : Task Bytes := do
  if 0 < o.fill then
    if c.remaining.isEmpty then return <- Task.ofOption (Machine.nops? o.fill)
    else Task.fail (inputFault "fill does not take a file")
  match c.remaining with
  | [] => Task.fail (inputFault ("file required for " ++ c.pathText ++ " mode"))
  | [path] =>
      let data <- Task.readFile loadError path
      if o.offset < 0 || (data.length : Int) < o.offset then
        Task.fail (inputFault ("offset out of range (" ++ Number.signedDigits o.offset ++ ")"))
      Task.note applicationName
        ("loaded " ++ path ++ " (" ++ Number.decDigits data.length ++ " bytes)")
      return data.drop o.offset.toNat
  | _ => Task.fail (inputFault ("too many arguments for " ++ c.pathText ++ " mode"))

/-- The symbols in a file and those of the hardware, if any are wanted. -/
def symbols (path : String) (hardware : Bool) : Task (Option SymbolTable) := do
  let mut table? : Option SymbolTable := none
  if !path.isEmpty then
    let content <- Task.readFile symbolsError path
    let s <- get
    let (table, log) := ({} : SymbolTable).read s.log (Text.decode content)
    set { s with log }
    Task.note "symbols" (Number.decDigits table.size ++ " symbols from " ++ path)
    table? := some table
  if hardware then
    table? := some (table?.getD {}).addHardware
  return table?

/-! ## Modes -/

def statsUrl : String :=
  "http://" ++ Options.statsAddress ++ "/debug/statsview"

def tellStats (o : Options) (text : String) : Task Unit :=
  if o.stats then Task.print (text ++ "\n") else pure ()

def listingOptions (o : Options) (p : Preferences) : ListingOptions where
  bytecode := p.bytecode.content
  terse := o.terse
  arrows := o.arrows
  style := if p.hexNumerics.content then .hex else .decimal

def disassembleWith (tools : Tools) (processor : Processor) (c : CommandLine) (o : Options) :
    Task Unit := do
  let p <- preferences o
  let data <- input c o
  let table? <- symbols o.symbols o.hardware
  let script? <- script tools.scripts o.script
  tellStats o ("stats server available at " ++ statsUrl)
  let lo := listingOptions o p
  let limit := p.maxLines.content
  match processor with
  | .m68k => output tools script? (.m68k tools p.chosenCpu table?) o lo limit data
  | .dsp56k => output tools script? (.dsp56k tools) o lo limit (Word24.unpack data)
  tellStats o "ctrl-c to end stats server"

def graphName (s : Session) (c : CommandLine) : String :=
  Resource.uniqueName applicationName (Text.toLowerAscii c.mode) s.timestamp ++ ".dot"

/-- Go on with a mode after its flags, unless they are not accepted or help is
asked for. -/
def afterFlags (c : CommandLine) (go : CommandLine -> Task Unit) : Task Unit :=
  match c.parse with
  | (some .proceed, c') => go c'
  | (some (.help text), _) => Task.print text
  | (some (.failed f), _) => Task.fail (.plain f.message)
  | (none, _) => Task.ofOption none

def disassemble (tools : Tools) (processor : Processor) (c : CommandLine) : Task Unit :=
  afterFlags (c.beginMode.declareAll (Options.flags processor)) fun c => do
    let s <- get
    let o := Options.ofFlags c.flags
    let o := if o.graph == "auto" then { o with graph := graphName s c } else o
    Task.withEcho o.echo (Task.withOverrides o.overrides (disassembleWith tools processor c o))

/-- The mode that lists symbols.  It breaks off if there is no table: that is
so for an empty path. -/
def listSymbols (c : CommandLine) : Task Unit :=
  afterFlags
    (c.beginMode.declareAll [("hw", .switch false, "include hardware register symbols")])
    fun c => do
      let hardware := c.flags.switch "hw"
      let path <- match c.remaining with
        | [] =>
            if hardware then pure ""
            else Task.fail (inputFault ("symbols file required for " ++ c.pathText ++ " mode"))
        | [path] => pure path
        | _ => Task.fail (inputFault ("too many arguments for " ++ c.pathText ++ " mode"))
      let table <- Task.ofOption (<- symbols path hardware)
      Task.print table.text

def modeNames : List String := ["68K", "DSP", "SYMBOLS"]

def runMode (tools : Tools) (c : CommandLine) : Task Unit :=
  match c.mode with
  | "68K" => disassemble tools .m68k c
  | "DSP" => disassemble tools .dsp56k c
  | "SYMBOLS" => listSymbols c
  | _ => pure ()

def versionText : String :=
  (Version.ofBuild "" []).text ""

/-- A run of the program.  The result is the exit code; there is none if the run
breaks off. -/
def launch (tools : Tools) (args : List String) (s : Session) : Option Nat × Session :=
  let c := (CommandLine.withArgs {} args).offer modeNames
  let c := c.declareAll [("version", .switch false, "print version information")]
  match c.parse with
  | (none, _) => (none, s)
  | (some (.help text), _) => (some 0, s.print text)
  | (some (.failed f), _) => (some 10, s.print ("* error: " ++ f.message ++ "\n"))
  | (some .proceed, c) =>
      if c.flags.switch "version" then (some 0, s.print (versionText ++ "\n"))
      else
        match runMode tools c s with
        | .ok _ s' => (some 0, s')
        | .error (.fault f) s' =>
            (some 20, s'.print ("* error in " ++ c.pathText ++ " mode: " ++ f.message ++ "\n"))
        | .error .abort s' => (none, s')

end Command

end Disassembler
