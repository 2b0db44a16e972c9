import Disassembler.Proofs.Binary.Packed

/-!
# Packing and unpacking words

Numbers that are packed are read back without what is above their 24 bits, and words that are
read from bytes are packed to the same bytes again, without those of a word that is not whole.
-/

namespace Disassembler

namespace Packing

/-! ## Words and their bytes -/

/-- A number without what is above its low 24 bits. -/
def low24 (x : UInt32) : UInt32 :=
  .ofNat (x.toNat % 2 ^ 24)

theorem toNat_low24 (x : UInt32) : (low24 x).toNat = x.toNat % 2 ^ 24 := by
  rw [low24, UInt32.toNat_ofNat', Nat.mod_eq_of_lt (by omega)]

theorem byteValue_bytesOfWord (x : UInt32) : byteValue (bytesOfWord x) = x.toNat % 2 ^ 24 := by
  have hlt := x.toNat_lt
  simp only [byteValue, bytesOfWord, List.map_cons, List.map_nil, bigEndian, List.reverse_cons,
    List.reverse_nil, List.nil_append, List.cons_append, Nat.ofDigits_cons, Nat.ofDigits_nil,
    UInt32.toNat_toUInt8, UInt32.toNat_shiftRight]
  show x.toNat % 256 + 256 * (x.toNat >>> 8 % 256 + 256 * (x.toNat >>> 16 % 256 + _)) = _
  rw [Nat.shiftRight_eq_div_pow, Nat.shiftRight_eq_div_pow]
  omega

theorem bytesOfWord_byteValue (high middle low : UInt8) :
    bytesOfWord (.ofNat (byteValue [high, middle, low])) = [high, middle, low] := by
  have hhigh := high.toNat_lt
  have hmiddle := middle.toNat_lt
  have hlow := low.toNat_lt
  have hvalue : byteValue [high, middle, low] =
      low.toNat + 256 * (middle.toNat + 256 * high.toNat) := by
    simp [byteValue, bigEndian, Nat.ofDigits_cons]
  have hnat := toNat_wordUnit high middle low
  rw [hvalue] at hnat ⊢
  simp only [bytesOfWord, List.cons.injEq, and_true, ← UInt8.toNat_inj, UInt32.toNat_toUInt8,
    UInt32.toNat_shiftRight, hnat]
  refine ⟨?_, ?_, ?_⟩
  · show (_ >>> 16) % 256 = _
    rw [Nat.shiftRight_eq_div_pow]
    omega
  · show (_ >>> 8) % 256 = _
    rw [Nat.shiftRight_eq_div_pow]
    omega
  · omega

theorem wordUnits_flatMap_bytesOfWord (ws : List UInt32) :
    wordUnits (ws.flatMap bytesOfWord) = ws.map low24 := by
  induction ws with
  | nil => rfl
  | cons x ws ih =>
      rw [List.flatMap_cons, List.map_cons, ← ih, low24, ← byteValue_bytesOfWord]
      rfl

theorem flatMap_bytesOfWord_wordUnits (data : Bytes) :
    (wordUnits data).flatMap bytesOfWord = data.take (data.length - data.length % 3) := by
  match data with
  | [] => rfl
  | [_] => rfl
  | [_, _] => rfl
  | high :: middle :: low :: rest =>
      have hlength : (high :: middle :: low :: rest).length -
          (high :: middle :: low :: rest).length % 3 = rest.length - rest.length % 3 + 3 := by
        simp only [List.length_cons]
        omega
      rw [wordUnits, List.flatMap_cons, bytesOfWord_byteValue,
        flatMap_bytesOfWord_wordUnits rest, hlength, List.take_succ_cons, List.take_succ_cons,
        List.take_succ_cons]
      rfl

theorem length_flatMap_bytesOfWord (ws : List UInt32) :
    (ws.flatMap bytesOfWord).length = 3 * ws.length := by
  induction ws with
  | nil => rfl
  | cons x ws ih =>
      rw [List.flatMap_cons, List.length_append, ih, List.length_cons]
      show 3 + 3 * ws.length = _
      omega

end Packing

namespace PackedCursor

open Packing (fetches_words wordUnits low24)

/-! ## One number after the other -/

/-- Read a number as often as asked. -/
def readEach? {u w : Type} {p : Packing u w} (c : PackedCursor p) (k : w) :
    Nat -> Option (List Nat × PackedCursor p)
  | 0 => some ([], c)
  | n + 1 =>
      match c.readValue? k with
      | some (.value v, c') => (readEach? c' k n).map fun r => (v :: r.1, r.2)
      | _ => none

/-- Words are read one after the other up to the end. -/
theorem StandsAt.readEach?_eq {c : PackedCursor Packing.words} {pos : Nat}
    (h : StandsAt wordUnits c pos) {n : Nat} (hn : pos + n = (wordUnits c.data).length) :
    ∃ c', c.readEach? () n = some (((wordUnits c.data).drop pos).map UInt32.toNat, c') ∧
      c'.remaining = 0 := by
  induction n generalizing c pos with
  | zero =>
      have hdrop : (wordUnits c.data).drop pos = [] := List.drop_eq_nil_iff.2 (by omega)
      have hremaining := h.remaining_eq fetches_words
      refine ⟨c, by rw [readEach?, hdrop, List.map_nil], Int64.toInt_inj.1 ?_⟩
      rw [hremaining, Int64.toInt_zero]
      omega
  | succ n ih =>
      have hpos : pos < (wordUnits c.data).length := by omega
      have hone : (1 : Int64).toInt = (1 : Nat) := rfl
      have hnext := h.move fetches_words hone hpos
      have hrest : pos + 1 + n = (wordUnits c.data).length := by omega
      rcases ih hnext hrest with ⟨c', hread, hremaining⟩
      refine ⟨c', ?_, hremaining⟩
      have hvalue : c.readValue? () = some (.value (wordUnits c.data)[pos].toNat,
          { c with position := c.position + 1 }) := by
        rw [h.readValue?_eq fetches_words hpos, List.drop_eq_getElem_cons hpos,
          List.take_succ_cons, List.take_zero, Packing.wordValue, List.map_cons, List.map_nil,
          bigEndian_single]
        rfl
      rw [readEach?, hvalue]
      simp only [hread, Option.map_some]
      rw [List.drop_eq_getElem_cons hpos, List.map_cons]

/-- All words are read at once. -/
theorem StandsAt.exists_read?_remaining {c : PackedCursor Packing.words}
    (h : StandsAt wordUnits c 0) :
    ∃ c', c.read? c.remaining = some (.units (wordUnits c.data), c') ∧ c'.remaining = 0 := by
  have hremaining : c.remaining.toInt = (wordUnits c.data).length := by
    rw [h.remaining_eq fetches_words, Int.natCast_zero, Int.sub_zero]
  have hmove := h.move fetches_words hremaining (by omega)
  have hread := h.read?_eq fetches_words (n := c.remaining) (by omega) (by omega)
  rw [hremaining, Int.toNat_natCast, List.drop_zero, List.take_length] at hread
  refine ⟨_, hread, Int64.toInt_inj.1 ?_⟩
  rw [hmove.remaining_eq fetches_words, Int64.toInt_zero]
  show ((wordUnits c.data).length : Int) - (0 + (wordUnits c.data).length : Nat) = 0
  omega

/-! ## There and back -/

theorem data_ofWords_wordUnits (data : Bytes) :
    (ofWords (wordUnits data)).data = data.take (data.length - data.length % 3) :=
  Packing.flatMap_bytesOfWord_wordUnits data

/-- Reading undoes packing but for the bits above the low 24, and packing undoes reading but for
the bytes after the last whole word.  It does not matter whether words are read at once or one
after the other. -/
theorem packing_roundTrip :
    (∀ ws : List UInt32, 3 * ws.length < 2 ^ 63 ->
      (ofWords ws).remaining.toInt = ws.length ∧
      (∃ c, (ofWords ws).read? (ofWords ws).remaining = some (.units (ws.map low24), c) ∧
        c.remaining = 0) ∧
      ∃ c, (ofWords ws).readEach? () ws.length =
          some (ws.map fun x => x.toNat % 2 ^ 24, c) ∧ c.remaining = 0) ∧
    ∀ data : Bytes, data.length < 2 ^ 63 ->
      let c : PackedCursor Packing.words := { data }
      (∃ us c', c.read? c.remaining = some (.units us, c') ∧ c'.remaining = 0 ∧
        (ofWords us).data = data.take (data.length - data.length % 3)) ∧
      ∃ vs c', c.readEach? () (data.length / 3) = some (vs, c') ∧ c'.remaining = 0 ∧
        (ofWords (vs.map UInt32.ofNat)).data = data.take (data.length - data.length % 3) := by
  constructor
  · intro ws hws
    have hunits : wordUnits (ofWords ws).data = ws.map low24 :=
      Packing.wordUnits_flatMap_bytesOfWord ws
    have hlength : (ofWords ws).data.length = 3 * ws.length :=
      Packing.length_flatMap_bytesOfWord ws
    have hstart : StandsAt wordUnits (ofWords ws) 0 := standsAt_start (by
      rw [Packing.length_flatMap_bytesOfWord]
      exact hws)
    refine ⟨?_, ?_, ?_⟩
    · rw [hstart.remaining_eq fetches_words, hunits, List.length_map]
      simp
    · rw [← hunits]
      exact hstart.exists_read?_remaining
    · have hnumbers : (ws.map low24).map UInt32.toNat = ws.map fun x => x.toNat % 2 ^ 24 := by
        rw [List.map_map]
        exact List.map_congr_left fun x _ => Packing.toNat_low24 x
      have hread := hstart.readEach?_eq (n := ws.length)
        (by rw [hunits, List.length_map, zero_add])
      rwa [List.drop_zero, hunits, hnumbers] at hread
  · intro data hdata
    have hstart : StandsAt wordUnits ({ data } : PackedCursor Packing.words) 0 :=
      standsAt_start hdata
    constructor
    · rcases hstart.exists_read?_remaining with ⟨c', hread, hremaining⟩
      exact ⟨_, c', hread, hremaining, data_ofWords_wordUnits data⟩
    · rcases hstart.readEach?_eq (n := data.length / 3)
        (by rw [Packing.length_wordUnits, zero_add]) with ⟨c', hread, hremaining⟩
      refine ⟨_, c', hread, hremaining, ?_⟩
      have hback : ((wordUnits data).map UInt32.toNat).map UInt32.ofNat = wordUnits data := by
        rw [List.map_map]
        exact List.map_id'' (fun x => UInt32.ofNat_toNat) _
      rw [List.drop_zero, hback, data_ofWords_wordUnits]

theorem packing_roundTrip_highBits :
    3 * [0x123456, 0xffabcdef].length < 2 ^ 63 ∧
      (∃ c, (ofWords [0x123456, 0xffabcdef]).readEach? () 2 = some ([0x123456, 0xabcdef], c) ∧
        c.remaining = 0) ∧
      [0x0a, 0xf0, 0x80, 0x12].length < 2 ^ 63 ∧
      ∃ vs c, (({ data := [0x0a, 0xf0, 0x80, 0x12] } : PackedCursor Packing.words).readEach? ()
          1) = some (vs, c) ∧ c.remaining = 0 ∧
        (ofWords (vs.map UInt32.ofNat)).data = [0x0a, 0xf0, 0x80] :=
  ⟨by decide, (packing_roundTrip.1 [0x123456, 0xffabcdef] (by decide)).2.2, by decide,
    (packing_roundTrip.2 [0x0a, 0xf0, 0x80, 0x12] (by decide)).2⟩

end PackedCursor
end Disassembler
