import Disassembler.Binary.Word
import Disassembler.Message.Fault

/-!
# Capped sinks

A sink that keeps the first bytes up to a limit and drops the others.
-/

namespace Disassembler

/-- The first bytes that were written. -/
structure CappedSink where
  limit : Nat
  contents : Bytes := []
  length_le : contents.length ≤ limit := by simp

namespace CappedSink

def create (n : Int) : Except Fault CappedSink :=
  if 0 < n then .ok { limit := n.toNat }
  else .error (.plain ("invalid size for CappedWriter (" ++ Number.signedDigits n ++ ")"))

def clear (w : CappedSink) : CappedSink :=
  { limit := w.limit }

/-- Write bytes.  The result is how many of them are kept. -/
def write (w : CappedSink) (bytes : Bytes) : Nat × CappedSink :=
  let kept := bytes.take (w.limit - w.contents.length)
  (kept.length,
    { limit := w.limit
      contents := w.contents ++ kept
      length_le := by
        have h := w.length_le
        simp only [kept, List.length_append, List.length_take]
        omega })

end CappedSink

end Disassembler
