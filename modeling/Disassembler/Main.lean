import Disassembler.Command.Launch

/-!
# Main program

The files that a command line may be about are read, the program is run on them,
and what it changed is written back.
-/

namespace Disassembler
namespace Main

def placeOf (path : String) : Place :=
  let rooted := Text.startsWith "/" path
  (if rooted then FileTree.root else []) ++ Path.cleanParts rooted [] (Text.split "/" path)

def pathTo (p : Place) : String :=
  match p with
  | "/" :: rest => "/" ++ Text.join "/" rest
  | _ => Text.join "/" p

/-- The texts on a command line that may be paths. -/
def candidates (args : List String) : List String :=
  args ++ args.filterMap fun a => (Text.breakOn? "=" a).map Prod.snd

/-- A text as a Unicode string, without what cannot be shown. -/
def shown (s : String) : String :=
  (Text.toUnicode? s).getD (String.ofList ((Text.glyphs s).map Text.Glyph.char))

def entryAt (p : Place) : IO (Option FileEntry) := do
  try
    let path <- IO.FS.realPath (shown (pathTo p))
    if <- path.isDir then
      return some .folder
    let content <- IO.FS.readBinFile path
    return some (.file content.data.toList)
  catch _ =>
    return none

/-- Add what is on the way to a place. -/
def snapshot (t : FileTree) (p : Place) : IO FileTree := do
  let mut t := t
  for n in List.range p.length do
    if let some e <- entryAt (p.take (n + 1)) then
      t := t.setEntry (p.take (n + 1)) e
  return t

def writeBack (old new : FileTree) : IO Unit := do
  for (p, e) in new.entries do
    if old.entry? p ≠ some e then
      match e with
      | .folder => IO.FS.createDirAll (shown (pathTo p))
      | .file content => IO.FS.writeBinFile (shown (pathTo p)) ⟨content.toArray⟩

def putText (stream : IO.FS.Stream) (s : String) : IO Unit :=
  stream.write ⟨(Text.encode s).toArray⟩

/-- The exit code of a run that breaks off. -/
def abortCode : Nat := 2

end Main
end Disassembler

open Disassembler in
/-- The command line of the program. -/
def main (args : List String) : IO UInt32 := do
  let args := args.map Text.ofUnicode
  let own := Path.join [Resource.folder, Preferences.fileName]
  let paths := own :: Main.candidates args
  let files <- (paths.map Main.placeOf).foldlM Main.snapshot {}
  let stamp := Number.decDigits (<- IO.monoMsNow)
  let (code, session) := Command.launch .absent args { files, timestamp := stamp }
  Main.writeBack files session.files
  Main.putText (<- IO.getStdout) session.output
  Main.putText (<- IO.getStderr) session.echoed
  return UInt32.ofNat (code.getD Main.abortCode)
