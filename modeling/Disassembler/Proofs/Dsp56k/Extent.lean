import Disassembler.Proofs.Binary.Cursor
import Disassembler.Proofs.Dsp56k.Decode

/-!
# The extent of a signal processor instruction

The words that make up an instruction are exactly those it was decoded from:
nothing before or after them matters, and none of them can be missing.  There is
a word after the first one for every operand that does not fit into it.  This is
one word at most, unless a loop or a jump on a bit, which has a word for its
target, also refers to memory by an absolute address.
-/

namespace Disassembler
namespace Dsp56k

/-- The word at the front of a list, zero if there is none. -/
def leadingWord : List Word24 -> Nat
  | header :: _ => header.toNat
  | [] => 0

/-- The words are those of one instruction. -/
inductive Encodes : List Word24 -> Instruction -> Prop
  | intro {header : Word24} {tail : List Word24} {o : Operation}
      (hreads : (Decoder.start header).Reads 1 tail o) :
      Encodes (header :: tail) { o with header := header.toNat, length := tail.length + 1 }

namespace Encodes

variable {code : List Word24} {inst : Instruction}

theorem length_eq (h : Encodes code inst) : inst.length = code.length := by
  cases h with
  | intro hreads => rfl

theorem one_le_length (h : Encodes code inst) : 1 ≤ code.length := by
  cases h with
  | intro hreads => simp

theorem repertoire (h : Encodes code inst) : Repertoire code.tail inst.toOperation := by
  cases h with
  | intro hreads => exact Decoder.start_conforms _ _ _ _ hreads

/-- Words after those of an instruction do not change it. -/
theorem decode_append (h : Encodes code inst) (rest : List Word24) :
    decode (code ++ rest) = inst := by
  cases h with
  | @intro header tail o hreads =>
      rw [List.cons_append, decode, decodeWords, hreads.run_append]
      simp only [Nat.add_comm 1]

/-- An instruction of which a word is missing is data. -/
theorem decode_take (h : Encodes code inst) {n : Nat} (hn : n < code.length) :
    decode (code.take n) = .data (leadingWord (code.take n)) := by
  cases h with
  | @intro header tail o hreads =>
      cases n with
      | zero => rfl
      | succ n =>
          have hcut : n < tail.length := by simpa using hn
          rw [List.take_succ_cons, decode, decodeWords, hreads.run_take hcut]
          rfl

end Encodes

theorem decode_cases (words : List Word24) :
    (∃ code rest, words = code ++ rest ∧ Encodes code (decode words)) ∨
      decode words = .data (leadingWord words) := by
  cases words with
  | nil => exact Or.inr rfl
  | cons header rest =>
      have hdecode : decode (header :: rest) = decodeWords header rest := rfl
      rw [hdecode, decodeWords]
      cases hrun : (Decoder.start header).run 1 rest with
      | none => exact Or.inr rfl
      | some result =>
          rcases result with ⟨o, n⟩
          rcases Fetch.exists_reads_of_run hrun with ⟨ys, zs, rfl, rfl, hreads⟩
          left
          refine ⟨header :: ys, zs, rfl, ?_⟩
          have hcode := Encodes.intro hreads
          rwa [Nat.add_comm] at hcode

theorem decode_eq_data {words : List Word24} (h : (decode words).opcode = .data) :
    decode words = .data (leadingWord words) := by
  rcases decode_cases words with ⟨code, rest, _, hcode⟩ | hdata
  · exact absurd h hcode.repertoire.opcode_ne_data
  · exact hdata

/-- An instruction is made of the words at the front that its length says. -/
theorem encodes_take {words : List Word24} (h : (decode words).opcode ≠ .data) :
    (decode words).length ≤ words.length ∧
      Encodes (words.take (decode words).length) (decode words) := by
  rcases decode_cases words with ⟨code, rest, hwords, hcode⟩ | hdata
  · have htake : words.take (decode words).length = code := by
      rw [hcode.length_eq, hwords, List.take_left]
    rw [htake]
    refine ⟨?_, hcode⟩
    rw [hcode.length_eq, hwords, List.length_append]
    omega
  · rw [hdata] at h
    exact absurd rfl h

/-! ## Counting words -/

theorem decode_length_eq (words : List Word24) :
    (decode words).length = 1 + (decode words).words := by
  rcases decode_cases words with ⟨code, rest, _, hcode⟩ | hdata
  · have hone := hcode.one_le_length
    rw [← hcode.repertoire.length_eq, hcode.length_eq, List.length_tail]
    omega
  · rw [hdata]
    rfl

/-- The operand of a loop or a jump on a bit that stands beside its target. -/
def Operation.beside? (o : Operation) : Option Operand :=
  match o.opcode with
  | .doLoop => o.first
  | .jclr | .jset | .jsclr | .jsset => o.second
  | _ => none

theorem Operation.beside_eq_none {o : Operation} (h : o.opcode.hasTarget = false) :
    o.beside? = none := by
  unfold beside?
  split
  case h_6 => rfl
  all_goals
    rename_i hop
    rw [hop] at h
    cases h

/-- Where immediate data is not allowed, an operand with a word of its own is an
absolute address. -/
theorem Memory.absolute_or {space : Space} {ext : List Word24} {x : Operand}
    (h : Memory space false ext x) : (∃ space a, x = .absLong space a) ∨ x.words = 0 := by
  cases h with
  | short ha => exact Or.inr rfl
  | effective hx =>
      cases hx with
      | indirect hmode hr => exact Or.inr rfl
      | absolute ext => exact Or.inl ⟨_, _, rfl⟩
      | immediate ext hallow => cases hallow

theorem LoopCount.absolute_or {ext : List Word24} {x : Operand} (h : LoopCount ext x) :
    (∃ space a, x = .absLong space a) ∨ x.words = 0 := by
  cases h with
  | immediate hv => exact Or.inr rfl
  | memory hspace hx => exact hx.absolute_or
  | register hx => exact Or.inr hx.words_eq

theorem BitPlace.absolute_or {ext : List Word24} {x : Operand} (h : BitPlace ext x) :
    (∃ space a, x = .absLong space a) ∨ x.words = 0 := by
  cases h with
  | memory hspace hx => exact hx.absolute_or
  | peripheral hspace ha => exact Or.inr rfl
  | register hx => exact Or.inr hx.words_eq

/-- The target of a loop or a jump on a bit has a word, and so has the operand
beside it if that is an absolute address. -/
theorem Targeted.beside_cases {ext : List Word24} {o : Operation} (h : Targeted ext o) :
    o.beside? = none ∧ ext.length ≤ 1 ∨
      ∃ x, o.beside? = some x ∧ ext.length = x.words + 1 ∧
        ((∃ space a, x = .absLong space a) ∨ x.words = 0) := by
  cases h with
  | jump hop hx =>
      left
      rcases hop with rfl | rfl | ⟨c, rfl | rfl⟩ <;> exact ⟨rfl, hx.length_le⟩
  | jumpShort hop ha =>
      left
      rcases hop with rfl | rfl | ⟨c, rfl | rfl⟩ <;> exact ⟨rfl, Nat.zero_le 1⟩
  | doLoop hx last =>
      refine Or.inr ⟨_, rfl, ?_, hx.absolute_or⟩
      rw [List.length_append, hx.length_eq]
      rfl
  | bitJump call value hn hx target =>
      refine Or.inr ⟨_, ?_, ?_, hx.absolute_or⟩
      · cases call <;> cases value <;> rfl
      · rw [List.length_append, hx.length_eq]
        rfl

theorem Repertoire.length_cases {ext : List Word24} {o : Operation} (h : Repertoire ext o) :
    ext.length ≤ 1 ∧ (¬ ∃ space a, o.beside? = some (.absLong space a)) ∨
      ext.length = 2 ∧ ∃ space a, o.beside? = some (.absLong space a) := by
  have hbeside : o.beside? = none ∧ ext.length ≤ 1 ∨
      ∃ x, o.beside? = some x ∧ ext.length = x.words + 1 ∧
        ((∃ space a, x = .absLong space a) ∨ x.words = 0) := by
    rcases h.targeted_or with htarget | ⟨hop, hlength⟩
    · exact htarget.beside_cases
    · exact Or.inl ⟨Operation.beside_eq_none hop, hlength⟩
  rcases hbeside with ⟨hnone, hlength⟩ | ⟨x, hx, hlength, ⟨space, a, rfl⟩ | hzero⟩
  · left
    rw [hnone]
    exact ⟨hlength, nofun⟩
  · exact Or.inr ⟨hlength, space, a, hx⟩
  · left
    rw [hx]
    constructor
    · omega
    · rintro ⟨space, a, heq⟩
      cases heq
      cases hzero

/-- An instruction has a word after the first one for each operand that does not
fit into it.  It is one or two words long, unless it is a loop or a jump on a bit
with an absolute address beside its target: these are three words long. -/
theorem decode_length_cases (c : Cursor Word24) :
    let inst := decode c.rest
    inst.length = 1 + inst.words ∧ inst.length ≤ 3 ∧
      (inst.length = 1 ∨ inst.length = 2 ↔
        ¬ ∃ space a, inst.beside? = some (.absLong space a)) := by
  intro inst
  have hlength : inst.length = 1 + inst.words := decode_length_eq c.rest
  refine ⟨hlength, ?_⟩
  rcases decode_cases c.rest with ⟨code, rest, _, hcode⟩ | hdata
  · have hwords : code.tail.length = inst.words := hcode.repertoire.length_eq
    rcases hcode.repertoire.length_cases with ⟨hle, hnot⟩ | ⟨htwo, haddress⟩
    · refine ⟨by omega, ?_⟩
      constructor
      · intro _
        exact hnot
      · intro _
        omega
    · refine ⟨by omega, ?_⟩
      constructor
      · intro hshort
        omega
      · intro hnot
        exact absurd haddress hnot
  · have hinst : inst = .data (leadingWord c.rest) := hdata
    rw [hinst]
    exact ⟨Nat.le_add_left 1 2, fun _ => nofun, fun _ => Or.inl rfl⟩

/-- A loop that counts in memory at an absolute address is three words long. -/
theorem decode_length_three :
    let c : Cursor Word24 := .ofList [0x067000, 0x001234, 0x000010]
    (decode c.rest).length = 3 ∧ ¬ ((decode c.rest).length = 1 ∨ (decode c.rest).length = 2) := by
  decide

/-- An instruction takes words that are there, and three of them at most. -/
theorem decode_length_le {words : List Word24} (h : words ≠ []) :
    (decode words).length ≤ words.length ∧ (decode words).length ≤ 3 := by
  rcases decode_cases words with ⟨code, rest, hwords, hcode⟩ | hdata
  · have hle : code.length ≤ words.length := by
      rw [hwords, List.length_append]
      exact Nat.le_add_right _ _
    have htail := hcode.repertoire.length_cases
    rw [hcode.length_eq]
    rw [List.length_tail] at htail
    omega
  · rw [hdata]
    exact ⟨List.length_pos_iff.2 h, Nat.le_add_left 1 2⟩

/-! ## Reading words from bytes -/

/-- An instruction consumes what it reports.  It is made of words that do
remain; these give the same instruction wherever they stand, and any part at
their front is data, also if it ends within a word.  Data is a single word
without operands and moves, and keeps the word that stands there. -/
theorem decode_consumes_words (data : Bytes) (p : Nat) :
    let words := (Word24.unpack data).drop p
    let inst := decode words
    let code := words.take inst.length
    (inst.opcode ≠ .data ->
      1 ≤ inst.length ∧ inst.length ≤ data.length / 3 - p ∧
        decode code = inst ∧
        (∀ (before : List Word24) (after : Bytes),
          decode ((Word24.unpack (Word24.pack (before ++ code) ++ after)).drop before.length) =
            inst) ∧
        ∀ part, part <+: Word24.pack code -> part ≠ Word24.pack code ->
          decode (Word24.unpack part) = .data (leadingWord (Word24.unpack part))) ∧
    (inst.opcode = .data ->
      inst.length = 1 ∧ inst.operands = [none, none, none] ∧ inst.transfer = {} ∧
        inst.moveX = {} ∧ inst.moveY = {} ∧ inst.negated = false ∧
        inst.header = leadingWord words) := by
  intro words inst code
  constructor
  · intro hop
    rcases encodes_take hop with ⟨hle, hcode⟩
    have hlength : inst.length = code.length := hcode.length_eq
    refine ⟨?_, ?_, ?_, ?_, ?_⟩
    · rw [hlength]
      exact hcode.one_le_length
    · rwa [List.length_drop, Word24.length_unpack] at hle
    · simpa using hcode.decode_append []
    · intro before after
      rw [Word24.unpack_pack_append, List.append_assoc, List.drop_left]
      exact hcode.decode_append _
    · intro part hpart hne
      have hlt : part.length < (Word24.pack code).length := by
        apply Nat.lt_of_le_of_ne hpart.length_le
        intro heq
        exact hne (hpart.eq_of_length heq)
      -- The words in the part are those in front of the last one that it cuts.
      have hunpack : Word24.unpack part = code.take (part.length / 3) := by
        have hall := Word24.unpack_pack_append code []
        rw [List.append_nil] at hall
        rw [List.prefix_iff_eq_take.1 hpart, Word24.unpack_take, hall, List.length_take]
        simp [Word24.unpack, Nat.min_eq_left (Nat.le_of_lt hlt)]
      have hcut : part.length / 3 < code.length := by
        rw [Word24.length_pack] at hlt
        omega
      rw [hunpack]
      exact hcode.decode_take hcut
  · intro hop
    have hdata : inst = .data (leadingWord words) := decode_eq_data hop
    rw [hdata]
    exact ⟨rfl, rfl, rfl, rfl, rfl, rfl, rfl⟩

/-- A jump of two words after a word that has been read, with a word and a byte
after it, and a byte that is no word. -/
theorem decode_consumes_words_jump :
    (let data : Bytes := [0, 0, 0, 0x0a, 0xf0, 0x80, 0x00, 0x12, 0x34, 0x56, 0x78, 0x9a, 0xbc];
      let words := (Word24.unpack data).drop 1;
      (decode words).opcode = .jmp ∧ (decode words).length = 2 ∧
        ∀ (before : List Word24) (after : Bytes),
          decode ((Word24.unpack (Word24.pack (before ++ words.take 2) ++ after)).drop
            before.length) = decode words) ∧
    (let words := (Word24.unpack [0xa1]).drop 0;
      (decode words).opcode = .data ∧ (decode words).header = 0) := by
  refine ⟨⟨by decide, by decide, ?_⟩, by decide, ?_⟩
  · have h := (decode_consumes_words
      [0, 0, 0, 0x0a, 0xf0, 0x80, 0x00, 0x12, 0x34, 0x56, 0x78, 0x9a, 0xbc] 1).1 (by decide)
    exact h.2.2.2.1
  · have h := (decode_consumes_words [0xa1] 0).2 (by decide)
    exact h.2.2.2.2.2.2

end Dsp56k
end Disassembler
