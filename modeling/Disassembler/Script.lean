import Disassembler.File.Tree
import Disassembler.Listing.Render

/-!
# Scripts

A script adds comments to the lines of a listing.  It is written in a language of its own,
which an interpreter runs.  Nothing is known of an interpreter but what is asked of it: a
script keeps what it likes between calls, it can change files, and it can print.
-/

namespace Disassembler

def scriptError : String := "annotate: %v"

/-- What a function of a script gives back.  Only a text is a comment. -/
inductive ScriptValue where
  | text (s : String)
  | other
  deriving DecidableEq, Repr

/-- What came of a piece of a script, and what there is after it. -/
structure ScriptOutcome (σ α : Type) where
  result : Except Fault α
  state : σ
  files : FileTree
  printed : String

/-- An interpreter, with what it knows of a script. -/
structure Interpreter where
  State : Type
  /-- The state for a new script, which can call the given functions by their names. -/
  start : List (String × (UInt32 -> String)) -> State
  run : State -> String -> Bytes -> FileTree -> ScriptOutcome State Unit
  isFunction : State -> String -> Bool
  /-- Call a function with an address and a text. -/
  call : State -> String -> UInt32 -> String -> FileTree -> ScriptOutcome State ScriptValue

namespace Script

/-- The function that is called for every line. -/
def entryPoint : String := "annotate"

def functions : List (String × (UInt32 -> String)) := [("hex", Number.hex)]

def fault (v : Value) : Fault :=
  .report scriptError [v]

def commentOf (result : Except Fault ScriptValue) : Except Fault String :=
  match result with
  | .ok (.text s) => .ok s
  | .ok .other => .ok ""
  | .error f => .error (fault (.fault f))

end Script

namespace Interpreter

variable (x : Interpreter)

def load (path : String) (source : Bytes) (files : FileTree) : ScriptOutcome x.State Unit :=
  x.run (x.start Script.functions) path source files

def ask (state : x.State) (address : UInt32) (text : String) (files : FileTree) :
    ScriptOutcome x.State ScriptValue :=
  x.call state Script.entryPoint address text files

/-- What a script has to say as it stands. -/
def annotator (state : x.State) (files : FileTree) : Annotator := fun address text =>
  Script.commentOf (x.ask state address text files).result

end Interpreter

end Disassembler
