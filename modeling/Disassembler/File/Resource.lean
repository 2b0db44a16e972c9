import Disassembler.File.Tree
import Disassembler.Text.Space

/-!
# Resources

Where the program keeps its own files, and names for new files.
-/

namespace Disassembler
namespace Resource

def folder : String := ".hrdisasm"

/-- The path of a resource.  The folder that it is in is made if it is not
there. -/
def path (t : FileTree) (sub file : String) : Except FileFault (String × FileTree) :=
  let place := Path.join [folder, sub]
  let result := Path.join [place, file]
  match t.stat place with
  | .ok _ => .ok (result, t)
  | .error _ => (t.makeFolders place).map fun t' => (result, t')

def uniqueName (start name timestamp : String) : String :=
  let name := Text.trim name
  if name.isEmpty then start ++ "_" ++ timestamp
  else start ++ "_" ++ name ++ "_" ++ timestamp

end Resource
end Disassembler
