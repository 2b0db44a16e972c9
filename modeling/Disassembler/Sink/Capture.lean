import Disassembler.Text.Encoding

/-!
# Captures

A sink that keeps everything, to be compared with a text.
-/

namespace Disassembler

/-- Everything that was written. -/
structure Capture where
  contents : Bytes := []
  deriving DecidableEq, Repr

namespace Capture

def write (w : Capture) (bytes : Bytes) : Capture :=
  { contents := w.contents ++ bytes }

def clear (_ : Capture) : Capture :=
  {}

def matchesText (w : Capture) (s : String) : Bool :=
  Text.encode s == w.contents

end Capture

end Disassembler
