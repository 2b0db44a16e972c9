import Disassembler.Text.Column
import Disassembler.Text.Split

/-!
# Paths

Names of files and folders.  The parts of a path are separated by slashes.
-/

namespace Disassembler
namespace Path

def cleanParts (rooted : Bool) (done : List String) : List String -> List String
  | [] => done.reverse
  | part :: rest =>
      if part.isEmpty || part == "." then cleanParts rooted done rest
      else if part == ".." then
        match done with
        | [] => cleanParts rooted (if rooted then [] else [".."]) rest
        | last :: before =>
            if last == ".." then cleanParts rooted (".." :: done) rest
            else cleanParts rooted before rest
      else cleanParts rooted (part :: done) rest

/-- The shortest path to the same place, as far as the text of the path
tells. -/
def clean (path : String) : String :=
  let rooted := Text.startsWith "/" path
  let text := (if rooted then "/" else "")
    ++ Text.join "/" (cleanParts rooted [] (Text.split "/" path))
  if text.isEmpty then "." else text

def join (paths : List String) : String :=
  let paths := paths.filter fun p => !p.isEmpty
  if paths.isEmpty then "" else clean (Text.join "/" paths)

end Path
end Disassembler
