import Disassembler.Log
import Disassembler.Symbol.Table
import Disassembler.Text.Literal
import Disassembler.Text.Split

/-!
# Symbol files

One symbol on a line: a hexadecimal address, a type of a single letter that may
be left out, and the name.  Lines in another form are ignored.
-/

namespace Disassembler
/-- The pattern of a fault in reading symbols. -/
def symbolsError : String := "symbols: %v"

namespace SymbolTable

def addressOf? (s : String) : Option UInt32 :=
  let digits := Text.dropStart "0x" (Text.dropStart "$" s)
  match Literal.hexadecimal 0xffffffff digits with
  | .ok n => some (UInt32.ofNat n)
  | .error _ => none

def symbolOf? (line : String) : Option Symbol :=
  match Text.words line with
  | first :: second :: rest =>
      if Text.startsWith "#" first then none
      else
        let name := match rest with
          | third :: _ => if second.length = 1 then third else second
          | [] => second
        (addressOf? first).map fun address => { name, address }
  | _ => none

/-- Add the symbol on a line.  A symbol that cannot be added is logged. -/
def readLine (state : SymbolTable × Log) (line : String) : SymbolTable × Log :=
  let (table, log) := state
  match symbolOf? line with
  | none => state
  | some s =>
      match table.add? s with
      | some table' => (table', log)
      | none => (table, log.add "symbols" ("ignoring " ++ s.name ++ " at " ++ Number.hex s.address))

def read (table : SymbolTable) (log : Log) (text : String) : SymbolTable × Log :=
  (Text.split "\n" text).foldl readLine (table, log)

end SymbolTable
end Disassembler
