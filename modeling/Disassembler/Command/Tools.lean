import Disassembler.Listing.Line
import Disassembler.Script

/-!
# Tools

What the program needs of others: an interpreter for scripts, and the texts of dumps and
graphs.  It can be run with any of them.
-/

namespace Disassembler

structure Tools where
  scripts : Interpreter
  /-- A dump of lines, in the pieces that are written one after the other. -/
  dump68 : List Line68 -> List String
  dump56 : List Line56 -> List String
  /-- The content of a file with a map of lines. -/
  graph68 : List Line68 -> Bytes
  graph56 : List Line56 -> Bytes

/-- An interpreter that takes no script. -/
def Interpreter.absent : Interpreter where
  State := Unit
  start _ := ()
  run _ _ _ files := ⟨.error (.plain "no interpreter"), (), files, ""⟩
  isFunction _ _ := false
  call _ _ _ _ files := ⟨.error (.plain "no interpreter"), (), files, ""⟩

def Tools.absent : Tools where
  scripts := .absent
  dump68 _ := []
  dump56 _ := []
  graph68 _ := []
  graph56 _ := []

end Disassembler
