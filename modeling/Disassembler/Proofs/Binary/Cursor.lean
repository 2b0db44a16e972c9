import Disassembler.Binary.Cursor

/-!
# Words in bytes, and cursors

How cutting and joining byte sequences shows in the words that they make up,
and the cursor between two parts of a sequence.
-/

namespace Disassembler

namespace Word16

@[simp] theorem length_ofByteList (bytes : Bytes) :
    (ofByteList bytes).length = bytes.length / 2 := by
  match bytes with
  | [] => rfl
  | [_] => simp [ofByteList]
  | high :: low :: rest =>
      simp only [ofByteList, List.length_cons, length_ofByteList rest]
      omega

/-- Cutting bytes cuts off the words that are no longer whole. -/
theorem ofByteList_take (bytes : Bytes) (n : Nat) :
    ofByteList (bytes.take n) = (ofByteList bytes).take (n / 2) := by
  match bytes, n with
  | [], n => simp [ofByteList]
  | [_], 0 => rfl
  | [_], n + 1 => simp [ofByteList]
  | _ :: _ :: _, 0 => rfl
  | _ :: _ :: _, 1 => rfl
  | high :: low :: rest, n + 2 =>
      have hn : (n + 2) / 2 = n / 2 + 1 := by omega
      rw [List.take_succ_cons, List.take_succ_cons, ofByteList, ofByteList, hn,
        List.take_succ_cons, ofByteList_take rest n]

/-- Whole words in front stay as they are. -/
theorem ofByteList_append {front : Bytes} (h : front.length % 2 = 0) (bytes : Bytes) :
    ofByteList (front ++ bytes) = ofByteList front ++ ofByteList bytes := by
  match front, h with
  | [], _ => rfl
  | [_], h => simp at h
  | high :: low :: rest, h =>
      have hrest : rest.length % 2 = 0 := by
        simp only [List.length_cons] at h
        omega
      rw [List.cons_append, List.cons_append, ofByteList, ofByteList, List.cons_append,
        ofByteList_append hrest bytes]

end Word16

namespace Word24

/-- Bytes after the last whole word are ignored. -/
theorem length_unpack (bytes : Bytes) : (unpack bytes).length = bytes.length / 3 := by
  match bytes with
  | [] => rfl
  | [_] => simp [unpack]
  | [_, _] => simp [unpack]
  | high :: middle :: low :: rest =>
      simp only [unpack, List.length_cons, length_unpack rest]
      omega

theorem unpack_take (bytes : Bytes) (n : Nat) :
    unpack (bytes.take n) = (unpack bytes).take (n / 3) := by
  match bytes, n with
  | [], n => simp [unpack]
  | [_], 0 => rfl
  | [_], n + 1 => simp [unpack]
  | [_, _], 0 => rfl
  | [_, _], 1 => simp [unpack]
  | [_, _], n + 2 => simp [unpack]
  | _ :: _ :: _ :: _, 0 => rfl
  | _ :: _ :: _ :: _, 1 => rfl
  | _ :: _ :: _ :: _, 2 => rfl
  | high :: middle :: low :: rest, n + 3 =>
      have hn : (n + 3) / 3 = n / 3 + 1 := by omega
      rw [List.take_succ_cons, List.take_succ_cons, List.take_succ_cons, unpack, unpack, hn,
        List.take_succ_cons, unpack_take rest n]

/-- Words begin at every third byte. -/
theorem unpack_drop (bytes : Bytes) (n : Nat) :
    unpack (bytes.drop (3 * n)) = (unpack bytes).drop n := by
  induction n generalizing bytes with
  | zero => rfl
  | succ n ih =>
      rw [Nat.mul_succ]
      match bytes with
      | [] => simp [unpack]
      | [_] => simp [unpack]
      | [_, _] => simp [unpack]
      | _ :: _ :: _ :: rest => exact ih rest

/-- Whole words in front stay as they are. -/
theorem unpack_append {front : Bytes} (h : front.length % 3 = 0) (bytes : Bytes) :
    unpack (front ++ bytes) = unpack front ++ unpack bytes := by
  match front, h with
  | [], _ => rfl
  | [_], h => simp at h
  | [_, _], h => simp at h
  | high :: middle :: low :: rest, h =>
      have hrest : rest.length % 3 = 0 := by
        simp only [List.length_cons] at h
        omega
      rw [List.cons_append, List.cons_append, List.cons_append, unpack, unpack, List.cons_append,
        unpack_append hrest bytes]

theorem length_pack (words : List Word24) : (pack words).length = 3 * words.length := by
  induction words with
  | nil => rfl
  | cons w words ih =>
      rw [pack, List.flatMap_cons, List.length_append, ← pack, ih, List.length_cons]
      show 3 + 3 * words.length = 3 * (words.length + 1)
      omega

theorem unpack_toBytes_append (w : Word24) (bytes : Bytes) :
    unpack (toBytes w ++ bytes) = w :: unpack bytes := by
  have hw : ofBytes (.ofBitVec ((w >>> 16).setWidth 8)) (.ofBitVec ((w >>> 8).setWidth 8))
      (.ofBitVec (w.setWidth 8)) = w := by
    apply BitVec.eq_of_getLsbD_eq
    intro i hi
    simp only [ofBytes, BitVec.getLsbD_append, BitVec.getLsbD_setWidth,
      BitVec.getLsbD_ushiftRight]
    grind
  rw [toBytes, List.cons_append, List.cons_append, List.cons_append, List.nil_append, unpack, hw]

/-- Words in front of bytes are found again. -/
theorem unpack_pack_append (words : List Word24) (bytes : Bytes) :
    unpack (pack words ++ bytes) = words ++ unpack bytes := by
  induction words with
  | nil => rfl
  | cons w words ih =>
      rw [pack, List.flatMap_cons, List.append_assoc, unpack_toBytes_append, ← pack, ih,
        List.cons_append]

end Word24

namespace Cursor

variable {u : Type}

/-- The cursor that has read the units before it, and has the others yet to
read. -/
def between (before after : List u) : Cursor u where
  units := before ++ after
  position := before.length
  position_le := by simp

@[simp] theorem rest_between (before after : List u) : (between before after).rest = after := by
  simp [between, rest]

@[simp] theorem rest_ofList (units : List u) : (ofList units).rest = units :=
  rfl

@[simp] theorem length_rest (c : Cursor u) : c.rest.length = c.remaining := by
  simp [rest, remaining]

end Cursor

end Disassembler
