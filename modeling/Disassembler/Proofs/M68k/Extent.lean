import Disassembler.Proofs.Binary.Cursor
import Disassembler.Proofs.M68k.Decode

/-!
# The extent of an instruction

The bytes that make up an instruction are exactly those it was decoded from:
nothing before or after them matters, and none of them can be missing.
-/

namespace Disassembler
namespace M68k

/-- The word at the front of a byte sequence.  Missing bytes count as zero. -/
def leadingWord : Bytes -> UInt16
  | high :: low :: _ => Word16.ofBytes high low
  | [last] => last.toUInt16 <<< 8
  | [] => 0

/-- The bytes are those of one instruction. -/
inductive Encodes (cpu : Cpu) : Bytes -> Instruction -> Prop
  | intro {high low : UInt8} {tail : Bytes} {o : Operation} (heven : tail.length % 2 = 0)
      (hreads : (Decoder.line cpu (Word16.ofBytes high low)).Reads 1 (Word16.ofByteList tail) o) :
      Encodes cpu (high :: low :: tail)
        { o with header := Word16.ofBytes high low, length := tail.length + 2 }

namespace Encodes

variable {cpu : Cpu} {code : Bytes} {inst : Instruction}

theorem length_eq (h : Encodes cpu code inst) : inst.length = code.length := by
  cases h with
  | intro heven hreads => rfl

theorem even_length (h : Encodes cpu code inst) : code.length % 2 = 0 := by
  cases h with
  | intro heven hreads =>
      simp only [List.length_cons]
      omega

theorem two_le_length (h : Encodes cpu code inst) : 2 ≤ code.length := by
  cases h with
  | intro heven hreads => simp

theorem repertoire (h : Encodes cpu code inst) : Repertoire cpu inst.toOperation := by
  cases h with
  | intro heven hreads => exact ((Decoder.line_sound cpu _).of_reads hreads).1

theorem length_le (h : Encodes cpu code inst) :
    code.length ≤ 2 + 4 * operandWords cpu := by
  cases h with
  | intro heven hreads =>
      have hwords := ((Decoder.line_sound cpu _).of_reads hreads).2
      simp only [Word16.length_ofByteList] at hwords
      simp only [List.length_cons]
      omega

/-- Bytes after those of an instruction do not change it. -/
theorem decode_append (h : Encodes cpu code inst) (rest : Bytes) :
    decode cpu (code ++ rest) = inst := by
  cases h with
  | @intro high low tail o heven hreads =>
      have hlength : 2 * (1 + tail.length / 2) = tail.length + 2 := by omega
      rw [List.cons_append, List.cons_append, decode_cons_cons, decodeWords,
        Word16.ofByteList_append heven, hreads.run_append]
      simp only [ofDecision, Word16.length_ofByteList, hlength]

/-- An instruction of which a byte is missing is data. -/
theorem decode_take (h : Encodes cpu code inst) {n : Nat} (hn : n < code.length) :
    decode cpu (code.take n) = .data (leadingWord (code.take n)) := by
  cases h with
  | @intro high low tail o heven hreads =>
      match n with
      | 0 => rfl
      | 1 => simp [decode, leadingWord, Word16.ofBytes]
      | n + 2 =>
          have hcut : n / 2 < (Word16.ofByteList tail).length := by
            simp only [List.length_cons] at hn
            simp only [Word16.length_ofByteList]
            omega
          rw [List.take_succ_cons, List.take_succ_cons, decode_cons_cons, decodeWords,
            Word16.ofByteList_take, hreads.run_take hcut]
          rfl

end Encodes

theorem Repertoire.opcode_ne_data {cpu : Cpu} {o : Operation} (h : Repertoire cpu o) :
    o.opcode ≠ .data := by
  intro hdata
  cases h <;> simp_all [Operation.nullary, Operation.unary, Operation.binary, Operation.ternary,
    Decoder.worksOnStatus]

theorem decode_cases (cpu : Cpu) (bytes : Bytes) :
    (∃ code rest, bytes = code ++ rest ∧ Encodes cpu code (decode cpu bytes)) ∨
      decode cpu bytes = .data (leadingWord bytes) := by
  match bytes with
  | [] => exact Or.inr rfl
  | [last] =>
      right
      simp [decode, leadingWord, Word16.ofBytes]
  | high :: low :: rest =>
      rw [decode_cons_cons, decodeWords]
      cases hrun : (Decoder.line cpu (Word16.ofBytes high low)).run 1
          (Word16.ofByteList rest) with
      | none => exact Or.inr rfl
      | some result =>
          rcases result with ⟨o, n⟩
          rcases Fetch.exists_reads_of_run hrun with ⟨ys, zs, hwords, rfl, hreads⟩
          -- The words that are read come from whole pairs of bytes at the front.
          have hlength : ys.length ≤ rest.length / 2 := by
            have := congrArg List.length hwords
            simp only [Word16.length_ofByteList, List.length_append] at this
            omega
          have htail : (rest.take (2 * ys.length)).length = 2 * ys.length := by
            rw [List.length_take]
            omega
          have hread : Word16.ofByteList (rest.take (2 * ys.length)) = ys := by
            rw [Word16.ofByteList_take, hwords, Nat.mul_div_cancel_left _ (by decide),
              List.take_left]
          left
          refine ⟨high :: low :: rest.take (2 * ys.length), rest.drop (2 * ys.length), ?_, ?_⟩
          · simp
          · have hencodes := @Encodes.intro cpu high low (rest.take (2 * ys.length)) o
              (by omega) (by rwa [hread])
            rw [htail] at hencodes
            have htotal : 2 * (1 + ys.length) = 2 * ys.length + 2 := by omega
            simp only [ofDecision, htotal]
            exact hencodes

theorem decode_eq_data {cpu : Cpu} {bytes : Bytes} (h : (decode cpu bytes).opcode = .data) :
    decode cpu bytes = .data (leadingWord bytes) := by
  rcases decode_cases cpu bytes with ⟨code, rest, _, hcode⟩ | hdata
  · exact absurd h hcode.repertoire.opcode_ne_data
  · exact hdata

/-- An instruction is made of the bytes at the front that its length says. -/
theorem encodes_take {cpu : Cpu} {bytes : Bytes} (h : (decode cpu bytes).opcode ≠ .data) :
    (decode cpu bytes).length ≤ bytes.length ∧
      Encodes cpu (bytes.take (decode cpu bytes).length) (decode cpu bytes) := by
  rcases decode_cases cpu bytes with ⟨code, rest, hbytes, hcode⟩ | hdata
  · have htake : bytes.take (decode cpu bytes).length = code := by
      rw [hcode.length_eq, hbytes, List.take_left]
    rw [htake]
    refine ⟨?_, hcode⟩
    rw [hcode.length_eq, hbytes, List.length_append]
    omega
  · rw [hdata] at h
    exact absurd rfl h

theorem operandWords_le (cpu : Cpu) :
    2 + 4 * operandWords cpu ≤ if cpu ∈ [.m68000, .m68010] then 10 else 22 := by
  cases cpu <;> decide

/-! ## Reading from a cursor -/

/-- An instruction consumes what it reports.  It is made of an even number of
bytes that do remain, at most ten before the 68020 and twenty-two from then on;
these bytes give the same instruction wherever they stand, and any part at
their front is data.  Data is a single word without operands, and keeps the
word that stands there. -/
theorem decode_consumes_length (cpu : Cpu) (c : Cursor UInt8) :
    let inst := decode cpu c.rest
    let code := c.rest.take inst.length
    (inst.opcode ≠ .data ->
      inst.length % 2 = 0 ∧ 2 ≤ inst.length ∧ inst.length ≤ c.remaining ∧
        inst.length ≤ (if cpu ∈ [.m68000, .m68010] then 10 else 22) ∧
        decode cpu (Cursor.ofList code).rest = inst ∧
        (∀ before after, decode cpu (Cursor.between before (code ++ after)).rest = inst) ∧
        ∀ part, part <+: code -> part ≠ code -> decode cpu part = .data (leadingWord part)) ∧
    (inst.opcode = .data ->
      inst.length = 2 ∧ inst.operands = [none, none, none] ∧ inst.firstField = none ∧
        inst.secondField = none ∧ inst.suffix = .none ∧ inst.header = leadingWord c.rest) := by
  intro inst code
  constructor
  · intro hop
    rcases encodes_take hop with ⟨hle, hcode⟩
    have hlength : inst.length = code.length := hcode.length_eq
    refine ⟨?_, ?_, ?_, ?_, ?_, ?_, ?_⟩
    · rw [hlength]
      exact hcode.even_length
    · rw [hlength]
      exact hcode.two_le_length
    · rw [← Cursor.length_rest]
      exact hle
    · rw [hlength]
      exact Nat.le_trans hcode.length_le (operandWords_le cpu)
    · rw [Cursor.rest_ofList]
      simpa using hcode.decode_append []
    · intro before after
      rw [Cursor.rest_between]
      exact hcode.decode_append after
    · intro part hpart hne
      rw [List.prefix_iff_eq_take.1 hpart]
      apply hcode.decode_take
      apply Nat.lt_of_le_of_ne hpart.length_le
      intro heq
      exact hne (hpart.eq_of_length heq)
  · intro hop
    have hdata : inst = .data (leadingWord c.rest) := decode_eq_data hop
    rw [hdata]
    exact ⟨rfl, rfl, rfl, rfl, rfl, rfl⟩

/-- A move of ten bytes after a word that has been read, and a byte that is no
whole word. -/
theorem decode_consumes_length_move :
    (let c := Cursor.between [0x4e, 0x71]
        [0x23, 0xfc, 0x12, 0x34, 0x56, 0x78, 0x9a, 0xbc, 0xde, 0xf0, 0xff];
      (decode .m68000 c.rest).opcode = .move ∧ (decode .m68000 c.rest).length = 10 ∧
        ∀ before after, decode .m68000 (Cursor.between before (c.rest.take 10 ++ after)).rest =
          decode .m68000 c.rest) ∧
    (let c := Cursor.between [0x4e, 0x71] [0xa1];
      (decode .m68000 c.rest).opcode = .data ∧ (decode .m68000 c.rest).header = 0xa100) := by
  refine ⟨⟨by decide, by decide, ?_⟩, by decide, ?_⟩
  · have h := (decode_consumes_length .m68000 (Cursor.between [0x4e, 0x71]
      [0x23, 0xfc, 0x12, 0x34, 0x56, 0x78, 0x9a, 0xbc, 0xde, 0xf0, 0xff])).1 (by decide)
    exact h.2.2.2.2.2.1
  · have h := (decode_consumes_length .m68000 (Cursor.between [0x4e, 0x71] [0xa1])).2 (by decide)
    exact h.2.2.2.2.2

end M68k
end Disassembler
