import Disassembler.Display.Columns
import Disassembler.Display.Gutter
import Disassembler.Listing.Branches
import Disassembler.Message.Fault
import Disassembler.Symbol.Table

/-!
# Rendering

A listing is a sequence of rows.  A row is a label, or an instruction with its
fields in columns.  Arrows for branches can stand to the left of the rows.
-/

namespace Disassembler

def writeError : String := "disassembly: write: %v"

/-- Adds a comment to the instruction at an address, given its terse text. -/
abbrev Annotator := UInt32 -> String -> Except Fault String

/-- What a listing shows. -/
structure ListingOptions where
  bytecode : Bool := false
  terse : Bool := false
  arrows : Bool := false
  style : Style := .hex
  annotator : Option Annotator := none

inductive Row where
  | label (name : String)
  | code (fields : Fields)
  deriving DecidableEq, Repr

namespace Listing

/-! ## Comments -/

/-- The comments that are not empty, the annotator's remark last. -/
def comment (o : ListingOptions) (address : UInt32) (terse : String) (parts : List String) :
    Except Fault String :=
  let joined (parts : List String) : String :=
    Text.join "  " (parts.filter fun p => !p.isEmpty)
  match o.annotator with
  | none => .ok (joined parts)
  | some annotate =>
      match annotate address terse with
      | .ok remark => .ok (joined (parts ++ [remark]))
      | .error f => .error (.report writeError [.fault f])

def addressText (symbols : SymbolTable) (a : UInt32) : String :=
  let description := symbols.describe a
  if description.isEmpty then Number.hex a else Number.hex a ++ " " ++ description

/-- The comment on the addresses of the operands, with symbols if there are
any.  Registers count only at the program counter, with symbols as without. -/
def addressComment68 (symbols : Option SymbolTable) (regs : Option M68k.Registers) (l : Line68) :
    String :=
  match symbols with
  | none => l.inst.addressComment l.address regs
  | some table =>
      let atCounter := regs.any fun s => s.get .pc == l.address
      let known := if atCounter then regs else none
      let address? (op : M68k.Operand) : Option UInt32 := op.address? known l.address
      Text.join "  " ([l.inst.first, l.inst.second].filterMap fun op =>
        (op.bind address?).map fun a => addressText table (a % 0x1000000))

/-! ## Fields -/

/-- The mnemonic and the operands; terse text is not cut. -/
def fieldsOf (o : ListingOptions) (address bytecode terse text comment : String) : Fields :=
  let (mnemonic, operand) := if o.terse then (terse, "") else Fields.split text
  { address, bytecode := if o.bytecode then bytecode else "", mnemonic, operand, comment }

def fields68 (o : ListingOptions) (symbols : Option SymbolTable) (regs : Option M68k.Registers)
    (l : Line68) : Except Fault Fields := do
  let terse := l.inst.terse l.address o.style
  let c <- comment o l.address terse
    [addressComment68 symbols regs l, l.inst.branchComment l.address regs]
  return fieldsOf o ("$" ++ Number.hexPadded 8 l.address.toNat) (Number.bytecode l.mem) terse
    (l.inst.text l.address o.style) c

def fields56 (o : ListingOptions) (regs : Option Dsp56k.Registers) (l : Line56) :
    Except Fault Fields := do
  let terse := l.inst.terse o.style
  let c <- comment o l.address terse
    [l.inst.addressComment l.address regs, l.inst.branchComment l.address regs]
  return fieldsOf o ("p:$" ++ Number.hexPadded 4 l.address.toNat) (Number.bytecode24 l.mem) terse
    (l.inst.text o.style) c

/-! ## Rows -/

/-- The label of a line, if the table has a symbol at its address. -/
def labelOf (symbols : Option SymbolTable) (address : UInt32) : List Row :=
  match symbols.bind fun t => t.find? address with
  | some s => [.label s.name]
  | none => []

def rows68 (o : ListingOptions) (symbols : Option SymbolTable) (regs : Option M68k.Registers)
    (l : Line68) : Except Fault (List Row) := do
  let fields <- fields68 o symbols regs l
  return labelOf symbols l.address ++ [.code fields]

def rows56 (o : ListingOptions) (regs : Option Dsp56k.Registers) (l : Line56) :
    Except Fault (List Row) := do
  let fields <- fields56 o regs l
  return [.code fields]

/-- The number of rows before each group of rows, and before the end. -/
def firstRows (groups : List (List Row)) : Array Nat :=
  groups.foldl (fun first g => first.push (first.back?.getD 0 + g.length)) #[0]

/-- A branch between lines as a branch between rows, given the first row of each
line.  It starts at the instruction, which is the last row of its line, and
stops at the first row of its target. -/
def branchInRows (first : Array Nat) (b : Branch) : Branch :=
  let startRow (k : Nat) : Int := first.getD (k + 1) 0 - 1
  { start := startRow b.start.toNat
    stop := if b.stop < 0 then -1 else first.getD b.stop.toNat 0 }

/-! ## Text -/

def rowText (o : ListingOptions) (c : Columns) : Row -> String
  | .label name => name ++ ":"
  | .code f =>
      Text.padRight c.address f.address ++ " "
        ++ (if o.bytecode then Text.padRight c.bytecode f.bytecode ++ " " else "")
        ++ (if o.terse then f.mnemonic
          else Text.padRight c.mnemonic f.mnemonic ++ " " ++ Text.padRight c.operand f.operand)
        ++ (if f.comment.isEmpty then "" else "  ; " ++ f.comment)

def codeFields (rows : List Row) : List Fields :=
  rows.filterMap fun
    | .code f => some f
    | .label _ => none

/-- The rows with the blanks that fill their columns, behind the gutter. -/
def paddedTexts (o : ListingOptions) (rows : List Row) (branches : List Branch) : List String :=
  let columns := Columns.ofRows (codeFields rows)
  let texts := rows.map (rowText o columns)
  if o.arrows then
    let gutter := Gutter.draw (Branch.layout branches rows.length) rows.length
    List.zipWith (fun g t => g ++ " " ++ t) gutter texts
  else texts

def rowTexts (o : ListingOptions) (rows : List Row) (branches : List Branch) : List String :=
  (paddedTexts o rows branches).map fun t => Text.trimBlanks t ++ "\n"

/-- The written rows of groups of rows, one group for each line. -/
def renderGroups (o : ListingOptions) (groups : List (List Row)) (branches : List Branch) :
    List String :=
  rowTexts o groups.flatten (branches.map (branchInRows (firstRows groups)))

def render68 (o : ListingOptions) (symbols : Option SymbolTable) (regs : Option M68k.Registers)
    (lines : List Line68) : Except Fault (List String) := do
  let groups <- lines.mapM (rows68 o symbols regs)
  return renderGroups o groups (branches68 lines)

def render56 (o : ListingOptions) (regs : Option Dsp56k.Registers) (lines : List Line56) :
    Except Fault (List String) := do
  let groups <- lines.mapM (rows56 o regs)
  return renderGroups o groups (branches56 lines)

/-! ## Writing -/

/-- What rows are written to, one at a time.  It takes a limited number of
writes, or any number of them. -/
structure RowSink where
  /-- The number of writes that are left, if there is a limit. -/
  capacity : Option Nat
  rows : Array String := #[]

namespace RowSink

/-- Write a row.  Nothing of it is written if no write is left. -/
def put? (s : RowSink) (row : String) : Option RowSink :=
  match s.capacity with
  | none => some { s with rows := s.rows.push row }
  | some 0 => none
  | some (n + 1) => some { capacity := some n, rows := s.rows.push row }

def text (s : RowSink) : String :=
  String.join s.rows.toList

end RowSink

/-- Write rows in turn, up to one that cannot be written. -/
def deliver (failure : Fault) (s : RowSink) : List String -> RowSink × Option Fault
  | [] => (s, none)
  | row :: rows =>
      match s.put? row with
      | some s => deliver failure s rows
      | none => (s, some (.report writeError [.fault failure]))

theorem deliver_unlimited (failure : Fault) (written : Array String) (rows : List String) :
    deliver failure { capacity := none, rows := written } rows =
      ({ capacity := none, rows := written ++ rows }, none) := by
  induction rows generalizing written with
  | nil => simp [deliver]
  | cons row rows ih => simp [deliver, RowSink.put?, ih]

theorem deliver_limited (failure : Fault) (capacity : Nat) (written : Array String)
    (rows : List String) :
    deliver failure { capacity := some capacity, rows := written } rows =
      ({ capacity := some (capacity - rows.length), rows := written ++ rows.take capacity },
        if capacity < rows.length then some (.report writeError [.fault failure]) else none) := by
  induction rows generalizing capacity written with
  | nil => simp [deliver]
  | cons row rows ih =>
      cases capacity with
      | zero => simp [deliver, RowSink.put?]
      | succ capacity => simp [deliver, RowSink.put?, ih]

/-- Write what was rendered.  The result is the sink afterwards, and the fault
that stopped it. -/
def writeTo (s : RowSink) (failure : Fault) (rendered : Except Fault (List String)) :
    RowSink × Option Fault :=
  match rendered with
  | .error f => (s, some f)
  | .ok rows => deliver failure s rows

def write (capacity : Option Nat) (failure : Fault) (rendered : Except Fault (List String)) :
    String × Option Fault :=
  let (s, fault) := writeTo { capacity } failure rendered
  (s.text, fault)

theorem write_ok_unlimited (failure : Fault) (rows : List String) :
    write none failure (.ok rows) = (String.join rows, none) := by
  simp [write, writeTo, deliver_unlimited, RowSink.text]

end Listing

end Disassembler
