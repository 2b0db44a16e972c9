import Disassembler.Proofs.Dsp56k.InstructionReader

/-!
# Unambiguous text

The text of an instruction tells everything about its operation but whether immediate
data have a word of their own: the reader gets the operation back from the text, so
two instructions with the same text do the same.
-/

namespace Disassembler
namespace Dsp56k

open Decoder (withMoves Moves)

/-! ## Operations -/

/-- Only a move has no operands of its own. -/
theorem Arithmetic.first_eq_none_iff {o : Operation} (h : Arithmetic o) :
    o.first = none ↔ o.opcode = .move := by
  have hnone {op : Opcode} {ops : List Opcode} (hops : ∀ op ∈ ops, op ≠ .move) (hop : op ∈ ops)
      {x : Operand} : some x = none ↔ op = .move :=
    ⟨nofun, fun heq => absurd heq (hops op hop)⟩
  cases h with
  | move => exact ⟨fun _ => rfl, fun _ => rfl⟩
  | single hop acc => exact hnone (by decide) hop
  | both hop acc => exact hnone (by decide) hop
  | pair hop hr acc => exact hnone (by decide) hop
  | input hop n acc => exact hnone (by decide) hop
  | product hop n acc negated => exact hnone (by decide) hop

theorem Arithmetic.exists_first_of_negated {o : Operation} (h : Arithmetic o)
    (hnegated : o.negated = true) : ∃ r, o.first = some (.reg r) := by
  cases h with
  | product hop n acc negated => exact ⟨_, rfl⟩
  | _ => cases hnegated

theorem Arithmetic.arranged_withMoves {o : Operation} (h : Arithmetic o) {m : Moves}
    (hwf : (withMoves o m).WellFormed) : (withMoves o m).Arranged where
  wellFormed := hwf
  move := h.first_eq_none_iff.2
  first hmove hnone := absurd (h.first_eq_none_iff.1 hnone) hmove
  negated := h.exists_first_of_negated

theorem arranged_of_ne_move {o : Operation} (hwf : o.WellFormed) (hop : o.opcode ≠ .move)
    (hfirst : o.first = none -> o.transfer = {} ∧ o.moveX = {}) (hnegated : o.negated = false) :
    o.Arranged where
  wellFormed := hwf
  move heq := absurd heq hop
  first _ := hfirst
  negated h := by
    rw [hnegated] at h
    cases h

theorem Repertoire.arranged {ext : List Word24} {o : Operation} (h : Repertoire ext o) :
    o.Arranged := by
  have hwf := h.wellFormed
  cases h with
  | parallel ho hm => exact ho.arranged_withMoves hwf
  | plain hop =>
      have hop' := (by decide : ∀ op ∈ _, op ≠ Opcode.move) _ hop
      exact arranged_of_ne_move hwf hop' (fun _ => ⟨rfl, rfl⟩) rfl
  | statusLogic hop hv hr =>
      have hop' := (by decide : ∀ op ∈ _, op ≠ Opcode.move) _ hop
      exact arranged_of_ne_move hwf hop' nofun rfl
  | moveControlRegister load hx hy | movePeripheralRegister load hx hspace ha =>
      cases load <;> exact arranged_of_ne_move hwf nofun nofun rfl
  | @moveControlMemory load | @moveProgram load | @movePeripheral load =>
      cases load <;> exact arranged_of_ne_move hwf nofun nofun rfl
  | bit upper value hn hx =>
      cases upper <;> cases value <;> exact arranged_of_ne_move hwf nofun nofun rfl
  | targeted h =>
      cases h with
      | jump hop hx | jumpShort hop ha =>
          rcases hop with rfl | rfl | ⟨c, rfl | rfl⟩ <;>
            exact arranged_of_ne_move hwf nofun nofun rfl
      | doLoop hx last => exact arranged_of_ne_move hwf nofun nofun rfl
      | bitJump call value hn hx target =>
          cases call <;> cases value <;> exact arranged_of_ne_move hwf nofun nofun rfl
  | _ => exact arranged_of_ne_move hwf nofun nofun rfl

/-! ## Decoded instructions -/

/-- The operation of a decoded instruction is read back from its text. -/
theorem readOperation_decode (words : List Word24) (style : Style) :
    Reader.readOperation ((decode words).text style).toList =
      (decode words).toOperation.widen := by
  rcases decode_cases words with ⟨code, rest, _, hcode⟩ | hdata
  · exact Reader.readOperation_text hcode.repertoire.arranged style hcode.repertoire.opcode_ne_data
  · rw [hdata]
    exact Reader.readOperation_data rfl style

/-- Two instructions with the same text have the same opcode, sign, operands, address
register transfer and moves, but for the width of immediate data. -/
theorem text_determines (words words' : List Word24) (style : Style)
    (htext : (decode words).text style = (decode words').text style) :
    (decode words).toOperation.widen = (decode words').toOperation.widen := by
  have hread := readOperation_decode words style
  rw [htext, readOperation_decode words' style] at hread
  exact hread.symm

/-- Beside a product, the same immediate data within the first word and after it. -/
theorem text_determines_immediate :
    (decode [0x2412d6]).text .hex = "mac      -y0,x0,a #$12,x0" ∧
      (decode [0x2412d6]).text .hex = (decode [0x44f4d6, 0x000012]).text .hex ∧
      (decode [0x2412d6]).toOperation ≠ (decode [0x44f4d6, 0x000012]).toOperation ∧
      (decode [0x2412d6]).toOperation.widen = (decode [0x44f4d6, 0x000012]).toOperation.widen := by
  have htext : (decode [0x2412d6]).text .hex = (decode [0x44f4d6, 0x000012]).text .hex := by
    decide
  exact ⟨by decide, htext, by decide,
    text_determines [0x2412d6] [0x44f4d6, 0x000012] .hex htext⟩

end Dsp56k
end Disassembler
