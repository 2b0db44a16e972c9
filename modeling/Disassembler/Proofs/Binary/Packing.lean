import Disassembler.Binary.Packed
import Disassembler.Proofs.Binary.Cursor
import Mathlib.Data.Nat.Digits.Defs

/-!
# Units in bytes

A packing is sound if fetching bytes by their indexes gives the units of a sequence,
as long as the position and the count stay inside of it.  Both packings are sound: the
units of the one are the bytes themselves, and those of the other are the words at every
third byte.
-/

namespace Disassembler

/-! ## Integers of 64 bits -/

theorem toInt_add_of_fits {a b : Int64} (hlow : -2 ^ 63 ≤ a.toInt + b.toInt)
    (hhigh : a.toInt + b.toInt < 2 ^ 63) : (a + b).toInt = a.toInt + b.toInt := by
  rw [Int64.toInt_add, Int.bmod_eq_of_le (by omega) (by omega)]

theorem toInt_sub_of_fits {a b : Int64} (hlow : -2 ^ 63 ≤ a.toInt - b.toInt)
    (hhigh : a.toInt - b.toInt < 2 ^ 63) : (a - b).toInt = a.toInt - b.toInt := by
  rw [Int64.toInt_sub, Int.bmod_eq_of_le (by omega) (by omega)]

/-- A sum of two numbers that is too large comes out below both of them. -/
theorem toInt_add_of_overflow {a b : Int64} (h : 2 ^ 63 ≤ a.toInt + b.toInt) :
    (a + b).toInt = a.toInt + b.toInt - 2 ^ 64 := by
  have ha := a.toInt_lt
  have hb := b.toInt_lt
  have hsum : a.toInt + b.toInt = (a.toInt + b.toInt - 2 ^ 64) + (2 ^ 64 : Nat) := by omega
  rw [Int64.toInt_add, hsum, Int.add_bmod_right, Int.bmod_eq_of_le (by omega) (by omega)]
  omega

theorem toInt_max (a b : Int64) : (max a b).toInt = max a.toInt b.toInt := by
  show (if a ≤ b then b else a).toInt = _
  split <;> rename_i h <;> rw [Int64.le_iff_toInt_le] at h <;> omega

theorem toInt_min (a b : Int64) : (min a b).toInt = min a.toInt b.toInt := by
  show (if a ≤ b then a else b).toInt = _
  split <;> rename_i h <;> rw [Int64.le_iff_toInt_le] at h <;> omega

/-! ## Big-endian numbers -/

/-- The number that digits make up, the most significant one first. -/
def bigEndian (base : Nat) (digits : List Nat) : Nat :=
  Nat.ofDigits base digits.reverse

theorem bigEndian_single (base a : Nat) : bigEndian base [a] = a := by
  simp [bigEndian]

theorem bigEndian_pair {a b : Nat} (hb : b < 256) : bigEndian 256 [a, b] = a <<< 8 ||| b := by
  rw [← Nat.shiftLeft_add_eq_or_of_lt (by omega), Nat.shiftLeft_eq]
  simp only [bigEndian, List.reverse_cons, List.reverse_nil, List.nil_append, List.cons_append,
    Nat.ofDigits_cons, Nat.ofDigits_nil]
  push_cast
  omega

theorem bigEndian_triple {a b c : Nat} (hb : b < 256) (hc : c < 256) :
    bigEndian 256 [a, b, c] = a <<< 16 ||| b <<< 8 ||| c := by
  rw [Nat.or_assoc, ← Nat.shiftLeft_add_eq_or_of_lt (i := 8) (by omega),
    ← Nat.shiftLeft_add_eq_or_of_lt (i := 16), Nat.shiftLeft_eq, Nat.shiftLeft_eq]
  · simp only [bigEndian, List.reverse_cons, List.reverse_nil, List.nil_append, List.cons_append,
      Nat.ofDigits_cons, Nat.ofDigits_nil]
    push_cast
    omega
  · rw [Nat.shiftLeft_eq]
    omega

theorem bigEndian_quadruple {a b c d : Nat} (hb : b < 256) (hc : c < 256) (hd : d < 256) :
    bigEndian 256 [a, b, c, d] = a <<< 24 ||| b <<< 16 ||| c <<< 8 ||| d := by
  have hcons : bigEndian 256 [a, b, c, d] = 2 ^ 24 * a + bigEndian 256 [b, c, d] := by
    simp only [bigEndian, List.reverse_cons, List.reverse_nil, List.nil_append, List.cons_append,
      Nat.ofDigits_cons, Nat.ofDigits_nil]
    push_cast
    omega
  have hlt : bigEndian 256 [b, c, d] < 2 ^ 24 := by
    simp only [bigEndian, List.reverse_cons, List.reverse_nil, List.nil_append, List.cons_append,
      Nat.ofDigits_cons, Nat.ofDigits_nil]
    push_cast
    omega
  rw [hcons, Nat.mul_comm, ← Nat.shiftLeft_eq, Nat.shiftLeft_add_eq_or_of_lt hlt,
    bigEndian_triple hc hd, Nat.or_assoc, Nat.or_assoc, Nat.or_assoc]

/-- A word of the signal processor is the big-endian number of its bytes. -/
theorem Word24.toNat_ofBytes (high middle low : UInt8) :
    (Word24.ofBytes high middle low).toNat =
      bigEndian 256 [high.toNat, middle.toNat, low.toNat] := by
  rw [bigEndian_triple middle.toNat_lt low.toNat_lt, Nat.or_assoc, Word24.ofBytes,
    BitVec.toNat_append, BitVec.toNat_append]
  rfl

namespace Packing

/-! ## Indexes -/

theorem size_eq {data : Bytes} (h : data.length < 2 ^ 63) : (size data).toInt = data.length :=
  Int64.toInt_ofNat_of_lt h

theorem byteAt?_eq {data : Bytes} {i : Int64} {n : Nat} (hi : i.toInt = n) :
    byteAt? data i = data[n]? := by
  have hindex : i.toNatClampNeg = n := by
    rw [← Int64.toNat_toInt]
    omega
  have hneg : ¬ i < 0 := by
    rw [Int64.lt_iff_toInt_lt, Int64.toInt_zero]
    omega
  rw [byteAt?, if_neg hneg, hindex]

theorem suffix?_eq {data : Bytes} {i : Int64} {n : Nat} (h : data.length < 2 ^ 63)
    (hi : i.toInt = n) (hn : n ≤ data.length) : suffix? data i = some (data.drop n) := by
  have hindex : i.toNatClampNeg = n := by
    rw [← Int64.toNat_toInt]
    omega
  have hinside : ¬ (i < 0 ∨ size data < i) := by
    rw [Int64.lt_iff_toInt_lt, Int64.lt_iff_toInt_lt, Int64.toInt_zero, size_eq h]
    omega
  rw [suffix?, if_neg hinside, hindex]

theorem buffer_eq_take {n : Nat} {data : Bytes} (h : n ≤ data.length) :
    buffer n data = data.take n := by
  rw [buffer, Nat.sub_eq_zero_of_le h, List.replicate_zero, List.append_nil]

/-! ## Soundness -/

/-- Units are fetched where they stand.  Positions and counts are given by natural numbers, so
that no index is negative. -/
structure Fetches {u w : Type} (p : Packing u w) (unitsOf : Bytes -> List u)
    (valueOf : List u -> Nat) (spanOf : w -> Nat) : Prop where
  count_eq : ∀ {data : Bytes}, data.length < 2 ^ 63 ->
    (p.count data).toInt = (unitsOf data).length
  span_eq : ∀ k, (p.span k).toInt = spanOf k
  slice?_eq : ∀ {data : Bytes} {i n : Int64} {pos num : Nat}, data.length < 2 ^ 63 ->
    i.toInt = pos -> n.toInt = num -> pos + num ≤ (unitsOf data).length ->
    p.slice? data i n = some (((unitsOf data).drop pos).take num)
  value?_eq : ∀ {data : Bytes} {i : Int64} {pos : Nat} {k : w}, data.length < 2 ^ 63 ->
    i.toInt = pos -> pos + spanOf k ≤ (unitsOf data).length ->
    p.value? k data i = some (valueOf (((unitsOf data).drop pos).take (spanOf k)))

/-! ## Bytes -/

/-- The number that bytes make up. -/
def byteValue (us : Bytes) : Nat :=
  bigEndian 256 (us.map UInt8.toNat)

def ByteWidth.span : ByteWidth -> Nat
  | .byte => 1
  | .word => 2
  | .long => 4

theorem toNat_two (b1 b0 : UInt8) :
    (b1.toUInt16 <<< 8 ||| b0.toUInt16).toNat = byteValue [b1, b0] := by
  have h1 := b1.toNat_lt
  simp only [byteValue, List.map_cons, List.map_nil, bigEndian_pair b0.toNat_lt,
    UInt16.toNat_or, UInt16.toNat_shiftLeft, UInt8.toNat_toUInt16]
  show b1.toNat <<< 8 % 2 ^ 16 ||| _ = _
  rw [Nat.mod_eq_of_lt]
  rw [Nat.shiftLeft_eq]
  omega

theorem toNat_three (b2 b1 b0 : UInt8) :
    (b2.toUInt32 <<< 16 ||| b1.toUInt32 <<< 8 ||| b0.toUInt32).toNat =
      byteValue [b2, b1, b0] := by
  have h2 := b2.toNat_lt
  have h1 := b1.toNat_lt
  simp only [byteValue, List.map_cons, List.map_nil, bigEndian_triple b1.toNat_lt b0.toNat_lt,
    UInt32.toNat_or, UInt32.toNat_shiftLeft, UInt8.toNat_toUInt32]
  show b2.toNat <<< 16 % 2 ^ 32 ||| b1.toNat <<< 8 % 2 ^ 32 ||| _ = _
  rw [Nat.mod_eq_of_lt (a := b2.toNat <<< 16), Nat.mod_eq_of_lt (a := b1.toNat <<< 8)] <;>
  · rw [Nat.shiftLeft_eq]
    omega

theorem toNat_four (b3 b2 b1 b0 : UInt8) :
    (b3.toUInt32 <<< 24 ||| b2.toUInt32 <<< 16 ||| b1.toUInt32 <<< 8 ||| b0.toUInt32).toNat =
      byteValue [b3, b2, b1, b0] := by
  have h3 := b3.toNat_lt
  have h2 := b2.toNat_lt
  have h1 := b1.toNat_lt
  simp only [byteValue, List.map_cons, List.map_nil,
    bigEndian_quadruple b2.toNat_lt b1.toNat_lt b0.toNat_lt, UInt32.toNat_or,
    UInt32.toNat_shiftLeft, UInt8.toNat_toUInt32]
  show b3.toNat <<< 24 % 2 ^ 32 ||| b2.toNat <<< 16 % 2 ^ 32 ||| b1.toNat <<< 8 % 2 ^ 32 ||| _ = _
  rw [Nat.mod_eq_of_lt (a := b3.toNat <<< 24), Nat.mod_eq_of_lt (a := b2.toNat <<< 16),
    Nat.mod_eq_of_lt (a := b1.toNat <<< 8)] <;>
  · rw [Nat.shiftLeft_eq]
    omega

/-- Single bytes and pairs are fetched by their indexes in the data, and four bytes by those
in what follows the position. -/
theorem value?_bytes {data : Bytes} {i : Int64} {pos : Nat} {k : ByteWidth}
    (h : data.length < 2 ^ 63) (hi : i.toInt = pos) (hle : pos + k.span ≤ data.length) :
    bytes.value? k data i = some (byteValue ((data.drop pos).take k.span)) := by
  cases k with
  | byte =>
      rw [ByteWidth.span] at hle
      rw [List.drop_eq_getElem_cons hle]
      simp only [bytes, byteAt?_eq hi, List.getElem?_eq_getElem hle]
      exact congrArg some (bigEndian_single 256 _).symm
  | word =>
      rw [ByteWidth.span] at hle
      have hnext : (i + 1).toInt = (pos + 1 : Nat) := by
        rw [toInt_add_of_fits (by simp; omega) (by simp; omega), hi]
        rfl
      have hlast : pos + 1 < data.length := hle
      have hfirst : pos < data.length := Nat.lt_of_succ_lt hlast
      rw [List.drop_eq_getElem_cons hfirst, List.drop_eq_getElem_cons hlast]
      simp only [bytes, byteAt?_eq hi, byteAt?_eq hnext, List.getElem?_eq_getElem hfirst,
        List.getElem?_eq_getElem hlast]
      exact congrArg some (toNat_two _ _)
  | long =>
      rw [ByteWidth.span] at hle
      simp only [bytes, suffix?_eq h hi (Nat.le_of_add_right_le hle)]
      rw [List.drop_eq_getElem_cons (by omega), List.drop_eq_getElem_cons (by omega),
        List.drop_eq_getElem_cons (by omega), List.drop_eq_getElem_cons (by omega)]
      exact congrArg some (toNat_four _ _ _ _)

theorem fetches_bytes : Fetches bytes id byteValue ByteWidth.span where
  count_eq := size_eq
  span_eq k := by cases k <;> rfl
  slice?_eq {data i n pos num} h hi hn hle := by
    have hcount : n.toNatClampNeg = num := by
      rw [← Int64.toNat_toInt]
      omega
    rw [id_eq] at hle
    simp only [bytes, suffix?_eq h hi (Nat.le_of_add_right_le hle), hcount, Option.map_some]
    rw [buffer_eq_take (by rw [List.length_drop]; omega), id_eq]
  value?_eq h hi hle := value?_bytes h hi hle

/-! ## Words of three bytes -/

/-- The whole words in bytes, each as a big-endian number. -/
def wordUnits : Bytes -> List UInt32
  | high :: middle :: low :: rest => .ofNat (byteValue [high, middle, low]) :: wordUnits rest
  | _ => []

/-- A word is a number already. -/
def wordValue (us : List UInt32) : Nat :=
  bigEndian (2 ^ 24) (us.map UInt32.toNat)

/-- These are the words that the decoder of the signal processor is given. -/
theorem wordUnits_eq_unpack (data : Bytes) :
    wordUnits data = (Word24.unpack data).map fun x => .ofNat x.toNat := by
  match data with
  | [] => rfl
  | [_] => rfl
  | [_, _] => rfl
  | high :: middle :: low :: rest =>
      rw [wordUnits, Word24.unpack, List.map_cons, wordUnits_eq_unpack rest,
        Word24.toNat_ofBytes]
      rfl

theorem length_wordUnits (data : Bytes) : (wordUnits data).length = data.length / 3 := by
  rw [wordUnits_eq_unpack, List.length_map, Word24.length_unpack]

theorem wordUnits_drop (data : Bytes) (n : Nat) :
    wordUnits (data.drop (3 * n)) = (wordUnits data).drop n := by
  rw [wordUnits_eq_unpack, wordUnits_eq_unpack, Word24.unpack_drop, List.map_drop]

theorem toNat_wordUnit (high middle low : UInt8) :
    (UInt32.ofNat (byteValue [high, middle, low])).toNat = byteValue [high, middle, low] := by
  rw [← toNat_three, UInt32.ofNat_toNat]

/-- The word with a number begins at three times its number. -/
theorem wordAt?_eq {data : Bytes} {i : Int64} {pos : Nat} (h : data.length < 2 ^ 63)
    (hi : i.toInt = pos) (hpos : pos < (wordUnits data).length) :
    wordAt? data i = some (wordUnits data)[pos] := by
  have hbytes : 3 * pos + 2 < data.length := by
    rw [length_wordUnits] at hpos
    omega
  have hindex : (i * wordSize).toInt = (3 * pos : Nat) := by
    rw [Int64.toInt_mul, hi, Int.bmod_eq_of_le (by simp [wordSize]; omega)
      (by simp [wordSize]; omega)]
    simp [wordSize]
    omega
  have hdrop : data.drop (3 * pos) =
      data[3 * pos] :: data[3 * pos + 1] :: data[3 * pos + 2] :: data.drop (3 * pos + 3) := by
    rw [List.drop_eq_getElem_cons (by omega), List.drop_eq_getElem_cons (by omega),
      List.drop_eq_getElem_cons hbytes]
  have hunit : (wordUnits data)[pos] =
      .ofNat (byteValue [data[3 * pos], data[3 * pos + 1], data[3 * pos + 2]]) := by
    have hunits := wordUnits_drop data pos
    rw [hdrop, wordUnits, List.drop_eq_getElem_cons hpos] at hunits
    exact (List.cons.inj hunits).1.symm
  rw [wordAt?, suffix?_eq h hindex (by omega), hdrop, hunit]
  refine congrArg some (UInt32.toNat_inj.1 ?_)
  rw [toNat_wordUnit]
  exact toNat_three _ _ _

theorem mapM_eq_some_map {α β : Type} {f : α -> Option β} {g : α -> β} {xs : List α}
    (h : ∀ a ∈ xs, f a = some (g a)) : xs.mapM f = some (xs.map g) := by
  induction xs with
  | nil => rfl
  | cons x xs ih =>
      rw [List.mapM_cons, h x List.mem_cons_self, ih fun a ha => h a (List.mem_cons_of_mem x ha)]
      rfl

theorem slice?_words {data : Bytes} {i n : Int64} {pos num : Nat} (h : data.length < 2 ^ 63)
    (hi : i.toInt = pos) (hn : n.toInt = num) (hle : pos + num ≤ (wordUnits data).length) :
    words.slice? data i n = some (((wordUnits data).drop pos).take num) := by
  have hcount : n.toNatClampNeg = num := by
    rw [← Int64.toNat_toInt]
    omega
  have hlt : (wordUnits data).length < 2 ^ 63 := by
    rw [length_wordUnits]
    omega
  have hword : ∀ k ∈ List.range num,
      wordAt? data (i + .ofNat k) = some ((wordUnits data)[pos + k]?.getD 0) := by
    intro k hk
    have hk : k < num := List.mem_range.1 hk
    have hoffset : (Int64.ofNat k).toInt = k := Int64.toInt_ofNat_of_lt (by omega)
    have hsum : (i + .ofNat k).toInt = (pos + k : Nat) := by
      rw [toInt_add_of_fits (by omega) (by omega), hi, hoffset]
      rfl
    have hinside : pos + k < (wordUnits data).length := by omega
    rw [wordAt?_eq h hsum hinside, List.getElem?_eq_getElem hinside, Option.getD_some]
  simp only [words, hcount]
  rw [mapM_eq_some_map hword]
  refine congrArg some (List.ext_getElem ?_ ?_)
  · rw [List.length_map, List.length_range, List.length_take, List.length_drop]
    omega
  · intro k hk hk'
    rw [List.length_map, List.length_range] at hk
    rw [List.getElem_map, List.getElem_range, List.getElem_take, List.getElem_drop,
      List.getElem?_eq_getElem (by omega), Option.getD_some]

theorem fetches_words : Fetches words wordUnits wordValue fun _ => 1 where
  count_eq {data} h := by
    show (size data / wordSize).toInt = _
    have hne : size data ≠ Int64.minValue := by
      intro heq
      have hsize := size_eq h
      rw [heq, Int64.toInt_minValue] at hsize
      omega
    rw [Int64.toInt_div_of_ne_left _ _ hne, size_eq h,
      Int.tdiv_eq_ediv_of_nonneg (Int.natCast_nonneg _), length_wordUnits]
    rfl
  span_eq _ := rfl
  slice?_eq h hi hn hle := slice?_words h hi hn hle
  value?_eq {data i pos k} h hi hle := by
    show (wordAt? data i).map UInt32.toNat = _
    rw [wordAt?_eq h hi hle, List.drop_eq_getElem_cons hle, List.take_succ_cons, List.take_zero,
      Option.map_some, wordValue, List.map_cons, List.map_nil, bigEndian_single]

end Packing
end Disassembler
