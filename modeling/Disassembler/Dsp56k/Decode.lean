import Disassembler.Dsp56k.Decode.Control

/-!
# Decoding

The upper digit of the first word tells the instructions with a move field from
the others.  Whatever is no instruction is a word of data.
-/

namespace Disassembler
namespace Dsp56k

/-- The decisions after the first word. -/
def Decoder.start (w : Word24) : Decoder Operation :=
  if Word24.field w 20 4 = 0 then control w else parallel w

def decodeWords (header : Word24) (ext : List Word24) : Instruction :=
  match (Decoder.start header).run 1 ext with
  | some (operation, count) => { operation with header := header.toNat, length := count }
  | none => .data header.toNat

def decode (words : List Word24) : Instruction :=
  match words with
  | header :: rest => decodeWords header rest
  | [] => .data 0

theorem decodeWords_length_pos (header : Word24) (ext : List Word24) :
    0 < (decodeWords header ext).length := by
  unfold decodeWords
  split
  · rename_i h
    have := Fetch.le_of_run_eq_some h
    simp only
    omega
  · simp [Instruction.data]

/-- Every instruction takes at least one word. -/
theorem decode_length_pos (words : List Word24) : 0 < (decode words).length := by
  unfold decode
  split
  · exact decodeWords_length_pos _ _
  · simp [Instruction.data]

end Dsp56k
end Disassembler
