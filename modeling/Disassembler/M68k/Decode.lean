import Disassembler.M68k.Decode.Control

/-!
# Decoding

The first word of an instruction is its line: the first hexadecimal digit
selects a family, and the family reads whatever extension words it needs.
Whatever is no instruction is a word of data.
-/

namespace Disassembler
namespace M68k

/-- The decisions after the first word. -/
def Decoder.line (cpu : Cpu) (w : UInt16) : Decoder Operation :=
  match Word16.field w 12 4 with
  | 0x0 => line0 cpu w
  | 0x1 => moveSized cpu w .byte
  | 0x2 => moveSized cpu w .long
  | 0x3 => moveSized cpu w .word
  | 0x4 => line4 cpu w
  | 0x5 => line5 cpu w
  | 0x6 => line6 cpu w
  | 0x7 => moveQuick w
  | 0x8 => line8 cpu w
  | 0x9 => addSub cpu w .sub .suba .subx
  | 0xb => lineB cpu w
  | 0xc => lineC cpu w
  | 0xd => addSub cpu w .add .adda .addx
  | 0xe => lineE cpu w
  | _ => .fail

/-- The instruction with a first word for what came of the decisions. -/
def ofDecision (header : UInt16) : Option (Operation × Nat) -> Instruction
  | some (operation, count) => { operation with header, length := 2 * count }
  | none => .data header

def decodeWords (cpu : Cpu) (header : UInt16) (ext : List UInt16) : Instruction :=
  ofDecision header ((Decoder.line cpu header).run 1 ext)

def decode (cpu : Cpu) (bytes : Bytes) : Instruction :=
  match bytes with
  | high :: low :: rest =>
      let header := Word16.ofBytes high low
      ofDecision header ((Decoder.line cpu header).runBytes 1 rest)
  | [last] => .data (Word16.ofBytes last 0)
  | [] => .data 0

/-- Bytes are decoded as the words that they make up. -/
theorem decode_cons_cons (cpu : Cpu) (high low : UInt8) (rest : Bytes) :
    decode cpu (high :: low :: rest) =
      decodeWords cpu (Word16.ofBytes high low) (Word16.ofByteList rest) := by
  simp only [decode, decodeWords, Fetch.runBytes_eq_run]

theorem decodeWords_length_pos (cpu : Cpu) (header : UInt16) (ext : List UInt16) :
    0 < (decodeWords cpu header ext).length := by
  unfold decodeWords
  cases h : (Decoder.line cpu header).run 1 ext with
  | some result =>
      have := Fetch.le_of_run_eq_some h
      simp only [ofDecision]
      omega
  | none => simp [ofDecision, Instruction.data]

theorem decode_length_pos (cpu : Cpu) (bytes : Bytes) : 0 < (decode cpu bytes).length := by
  match bytes with
  | [] => simp [decode, Instruction.data]
  | [_] => simp [decode, Instruction.data]
  | high :: low :: rest =>
      rw [decode_cons_cons]
      exact decodeWords_length_pos cpu _ _

end M68k
end Disassembler
