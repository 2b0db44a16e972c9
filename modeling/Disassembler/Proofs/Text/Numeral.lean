import Mathlib
import Disassembler.Proofs.Text.Column
import Disassembler.Text.Literal
import Disassembler.Text.Number

/-!
# Reading numerals

The digits of a number are read back, whatever follows them as long as it is no
further digit.
-/

namespace Disassembler
namespace Number

open Literal (digit?)
open Text (NoBlank)

/-! ## Digits -/

theorem digit?_digitChar {d : Nat} (hd : d < 16) : digit? (Nat.digitChar d) = some d := by
  have hall : ∀ d < 16, digit? (Nat.digitChar d) = some d := by decide
  exact hall d hd

/-- Whether a character is a digit of a base. -/
def isDigit (b : Nat) (c : Char) : Bool :=
  (digit? c).any (· < b)

theorem isDigit_eq_false_of_le {a b : Nat} (hab : a ≤ b) {c : Char}
    (hc : isDigit b c = false) : isDigit a c = false := by
  unfold isDigit at hc ⊢
  cases hd : digit? c with
  | none => rfl
  | some d =>
      rw [hd] at hc
      have hbd : ¬d < b := of_decide_eq_false hc
      exact decide_eq_false (by omega)

theorem exists_digitChar_of_mem {b n : Nat} (hb : 1 < b) {c : Char}
    (hc : c ∈ Nat.toDigits b n) : ∃ d < b, c = Nat.digitChar d := by
  induction n using Nat.strongRecOn with
  | ind n ih =>
      rw [Nat.toDigits_eq_if hb] at hc
      split at hc
      · exact ⟨n, by assumption, List.mem_singleton.1 hc⟩
      · rename_i hn
        rcases List.mem_append.1 hc with hc | hc
        · exact ih (n / b) (Nat.div_lt_self (by omega) hb) hc
        · exact ⟨n % b, Nat.mod_lt n (by omega), List.mem_singleton.1 hc⟩

theorem exists_toDigits_eq_cons {b : Nat} (hb : 1 < b) (n : Nat) :
    ∃ d < b, ∃ cs, Nat.toDigits b n = Nat.digitChar d :: cs := by
  cases h : Nat.toDigits b n with
  | nil => exact absurd h Nat.toDigits_ne_nil
  | cons c cs =>
      rcases exists_digitChar_of_mem hb (n := n) (c := c) (by simp [h]) with ⟨d, hd, hc⟩
      exact ⟨d, hd, cs, by rw [hc]⟩

theorem forall_mem_toDigits {b n : Nat} (hb : 1 < b) (hb16 : b ≤ 16) {P : Char -> Prop}
    (hP : ∀ d < 16, P (Nat.digitChar d)) : ∀ c ∈ Nat.toDigits b n, P c := by
  intro c hc
  rcases exists_digitChar_of_mem hb hc with ⟨d, hd, rfl⟩
  exact hP d (by omega)

/-- The digits of a number with another one in front of its first digit. -/
theorem toDigits_mul_pow_add {b m : Nat} (hb : 1 < b) (hm : 0 < m) (n : Nat) :
    Nat.toDigits b (m * b ^ (Nat.toDigits b n).length + n) =
      Nat.toDigits b m ++ Nat.toDigits b n := by
  induction n using Nat.strongRecOn with
  | ind n ih =>
      by_cases hn : n < b
      · rw [Nat.toDigits_append_toDigits hb hm hn, Nat.toDigits_of_lt_base hn,
          List.length_singleton, Nat.pow_one, Nat.mul_comm]
      · have hle : b ≤ n := Nat.not_lt.1 hn
        have hlt : n / b < n := Nat.div_lt_self (by omega) hb
        have hmod : n % b < b := Nat.mod_lt n (by omega)
        have hpos : 0 < m * b ^ (Nat.toDigits b (n / b)).length + n / b :=
          Nat.add_pos_left (Nat.mul_pos hm (Nat.pow_pos (by omega))) _
        rw [Nat.toDigits_of_base_le hb hle, ← List.append_assoc, ← ih (n / b) hlt,
          ← Nat.toDigits_of_lt_base hmod, Nat.toDigits_append_toDigits hb hpos hmod,
          List.length_append, Nat.toDigits_of_lt_base hmod, List.length_singleton, Nat.pow_succ]
        congr 1
        rw [Nat.mul_add, Nat.add_assoc, Nat.div_add_mod, ← Nat.mul_assoc, Nat.mul_comm b,
          Nat.mul_assoc]

/-! ## Reading -/

/-- Read digits after those that make up `n`. -/
def readNumeral (b n : Nat) : List Char -> Nat × List Char
  | [] => (n, [])
  | c :: cs =>
      match digit? c with
      | none => (n, c :: cs)
      | some d => if d < b then readNumeral b (n * b + d) cs else (n, c :: cs)

theorem readNumeral_digitChar {b d : Nat} (hd : d < b) (hb16 : b ≤ 16) (n : Nat)
    (rest : List Char) :
    readNumeral b n (Nat.digitChar d :: rest) = readNumeral b (n * b + d) rest := by
  rw [readNumeral, digit?_digitChar (by omega)]
  exact if_pos hd

theorem readNumeral_of_noDigit {b n : Nat} {rest : List Char}
    (hrest : ∀ c ∈ rest.head?, isDigit b c = false) : readNumeral b n rest = (n, rest) := by
  cases rest with
  | nil => rfl
  | cons c cs =>
      have hc : isDigit b c = false := hrest c rfl
      rw [readNumeral]
      cases hd : digit? c with
      | none => rfl
      | some d =>
          rw [isDigit, hd] at hc
          exact if_neg (of_decide_eq_false hc)

theorem readNumeral_toDigits_append {b : Nat} (hb : 1 < b) (hb16 : b ≤ 16) (n : Nat)
    (rest : List Char) :
    readNumeral b 0 (Nat.toDigits b n ++ rest) = readNumeral b n rest := by
  -- The last digit of `n` comes after the digits of `n / b`, so it is part of
  -- what follows them.
  induction n using Nat.strongRecOn generalizing rest with
  | ind n ih =>
      by_cases hn : n < b
      · rw [Nat.toDigits_of_lt_base hn, List.singleton_append, readNumeral_digitChar hn hb16,
          Nat.zero_mul, Nat.zero_add]
      · have hle : b ≤ n := Nat.not_lt.1 hn
        have hlt : n / b < n := Nat.div_lt_self (by omega) hb
        have hmod : n % b < b := Nat.mod_lt n (by omega)
        rw [Nat.toDigits_of_base_le hb hle, List.append_assoc, ih (n / b) hlt,
          List.singleton_append, readNumeral_digitChar hmod hb16, Nat.div_add_mod']

/-- A numeral is read back. -/
theorem readNumeral_toDigits {b : Nat} (hb : 1 < b) (hb16 : b ≤ 16) (n : Nat)
    {rest : List Char} (hrest : ∀ c ∈ rest.head?, isDigit b c = false) :
    readNumeral b 0 (Nat.toDigits b n ++ rest) = (n, rest) := by
  rw [readNumeral_toDigits_append hb hb16, readNumeral_of_noDigit hrest]

/-- Leading zeros do not count. -/
theorem readNumeral_zeros (b k : Nat) (hb : 0 < b) (rest : List Char) :
    readNumeral b 0 (List.replicate k '0' ++ rest) = readNumeral b 0 rest := by
  induction k with
  | zero => rfl
  | succ k ih =>
      have hzero : digit? '0' = some 0 := rfl
      rw [List.replicate_succ, List.cons_append, readNumeral, hzero]
      simp only [if_pos hb, Nat.zero_mul, Nat.add_zero, ih]

theorem readNumeral_hexPadded (width n : Nat) {rest : List Char}
    (hrest : ∀ c ∈ rest.head?, isDigit 16 c = false) :
    readNumeral 16 0 ((hexPadded width n).toList ++ rest) = (n, rest) := by
  rw [hexPadded, padZero, String.toList_append, String.toList_ofList, List.append_assoc,
    readNumeral_zeros 16 _ (by decide), hexDigits, String.toList_ofList]
  exact readNumeral_toDigits (by decide) (by decide) n hrest

/-! ## Numbers in operands -/

/-- Read a number, which is decimal unless a `$` stands before it. -/
def readUnsigned : List Char -> Nat × List Char
  | '$' :: s => readNumeral 16 0 s
  | s => readNumeral 10 0 s

/-- Read a number with a sign. -/
def readNumber : List Char -> Int × List Char
  | '-' :: s => (-(readUnsigned s).1, (readUnsigned s).2)
  | s => ((readUnsigned s).1, (readUnsigned s).2)

/-- What can follow a number. -/
def AfterNumber (s : List Char) : Prop :=
  ∀ c ∈ s.head?, isDigit 16 c = false

theorem afterNumber_cons {c : Char} (hc : isDigit 16 c = false) (s : List Char) :
    AfterNumber (c :: s) := by
  intro c' hc'
  cases hc'
  exact hc

def unsignedText : Style -> Nat -> List Char
  | .decimal, n => Nat.toDigits 10 n
  | .hex, n => '$' :: Nat.toDigits 16 n

def numberStart : List Char :=
  ['$', '0', '1', '2', '3', '4', '5', '6', '7', '8', '9']

theorem exists_unsignedText_eq_cons (style : Style) (n : Nat) :
    ∃ c ∈ numberStart, ∃ cs, unsignedText style n = c :: cs := by
  cases style with
  | decimal =>
      rcases exists_toDigits_eq_cons (b := 10) (by decide) n with ⟨d, hd, cs, h⟩
      have hstart : ∀ d < 10, Nat.digitChar d ∈ numberStart := by decide
      exact ⟨Nat.digitChar d, hstart d hd, cs, h⟩
  | hex => exact ⟨'$', by decide, Nat.toDigits 16 n, rfl⟩

theorem readUnsigned_unsignedText (style : Style) (n : Nat) {s : List Char}
    (hs : AfterNumber s) : readUnsigned (unsignedText style n ++ s) = (n, s) := by
  cases style with
  | decimal =>
      have hs10 : ∀ c ∈ s.head?, isDigit 10 c = false := by
        intro c hc
        exact isDigit_eq_false_of_le (by decide) (hs c hc)
      have hread := readNumeral_toDigits (b := 10) (by decide) (by decide) n hs10
      rcases exists_toDigits_eq_cons (b := 10) (by decide) n with ⟨d, hd, cs, h⟩
      have hne : ∀ d < 10, Nat.digitChar d ≠ '$' := by decide
      have hdollar : Nat.digitChar d ≠ '$' := hne d hd
      simp only [unsignedText, h, List.cons_append] at hread ⊢
      rw [readUnsigned, hread]
      intro t ht
      exact hdollar (List.cons.inj ht).1
  | hex => exact readNumeral_toDigits (by decide) (by decide) n hs

theorem readNumber_unsignedText (style : Style) (n : Nat) {s : List Char}
    (hs : AfterNumber s) : readNumber (unsignedText style n ++ s) = ((n : Int), s) := by
  have hread := readUnsigned_unsignedText style n hs
  rcases exists_unsignedText_eq_cons style n with ⟨c, hc, cs, h⟩
  have hminus : c ≠ '-' := by
    rintro rfl
    exact absurd hc (by decide)
  simp only [h, List.cons_append] at hread ⊢
  rw [readNumber, hread]
  intro t ht
  exact hminus (List.cons.inj ht).1

theorem readNumber_neg_unsignedText (style : Style) (n : Nat) {s : List Char}
    (hs : AfterNumber s) :
    readNumber ('-' :: (unsignedText style n ++ s)) = (-(n : Int), s) := by
  rw [readNumber, readUnsigned_unsignedText style n hs]

theorem toList_signed (style : Style) (v : Int32) :
    (signed style v).toList =
      if v.toInt < 0 then '-' :: unsignedText style v.toInt.natAbs
      else unsignedText style v.toInt.natAbs := by
  cases style with
  | decimal =>
      by_cases hneg : v.toInt < 0 <;>
        simp [signed, signedDigits, decDigits, unsignedText, hneg]
  | hex =>
      by_cases hneg : v.toInt < 0 <;>
        simp [signed, hexDigits, unsignedText, hneg]

theorem toList_hex (v : UInt32) : (hex v).toList = unsignedText .hex v.toNat := by
  simp [hex, hexDigits, unsignedText]

theorem length_toDigits_four {n : Nat} (hlow : 16 ^ 3 ≤ n) (hhigh : n < 16 ^ 4) :
    (Nat.toDigits 16 n).length = 4 := by
  have hle : (Nat.toDigits 16 n).length ≤ 4 :=
    (Nat.length_toDigits_le_iff (by decide) (by decide)).2 hhigh
  have hlt : ¬(Nat.toDigits 16 n).length ≤ 3 := by
    rw [Nat.length_toDigits_le_iff (by decide) (by decide)]
    omega
  omega

theorem hexPadded_four {n : Nat} (hn : (Nat.toDigits 16 n).length = 4) :
    hexPadded 4 n = hexDigits n := by
  simp [hexPadded, padZero, hexDigits, hn]

/-- A sign extended address is a number with the same low word. -/
theorem exists_toList_absWord (a : UInt16) :
    ∃ n, UInt16.ofNat n = a ∧ (absWord a).toList = unsignedText .hex n := by
  have hhigh : a.toNat < 16 ^ 4 := a.toNat_lt
  cases hbit : a.toNat.testBit 15 with
  | false =>
      refine ⟨a.toNat, UInt16.ofNat_toNat, ?_⟩
      simp [absWord, hbit, hexDigits, unsignedText]
  | true =>
      have hlow : 2 ^ 15 ≤ a.toNat := Nat.ge_two_pow_of_testBit hbit
      have hlength := length_toDigits_four (by omega) hhigh
      have hdigits := toDigits_mul_pow_add (b := 16) (m := 0xffff) (by decide) (by decide)
        a.toNat
      rw [hlength] at hdigits
      refine ⟨0xffff * 16 ^ 4 + a.toNat, ?_, ?_⟩
      · rw [← UInt16.toNat_inj, UInt16.toNat_ofNat']
        omega
      · have hffff : Nat.toDigits 16 0xffff = ['f', 'f', 'f', 'f'] := by decide
        rw [unsignedText, hdigits, hffff]
        simp [absWord, hbit, hexPadded_four hlength, hexDigits]

/-! ## Characters -/

/-- The characters of numbers. -/
def numberChars : List Char :=
  ['-', '$', '0', '1', '2', '3', '4', '5', '6', '7', '8', '9', 'a', 'b', 'c', 'd', 'e', 'f']

section

variable {P : Char -> Prop} (hP : ∀ c ∈ numberChars, P c)

include hP

theorem forall_mem_digits {b : Nat} (hb : 1 < b) (hb16 : b ≤ 16) (n : Nat) :
    ∀ c ∈ Nat.toDigits b n, P c := by
  have hdigits : ∀ d < 16, Nat.digitChar d ∈ numberChars := by decide
  intro c hc
  exact hP c (forall_mem_toDigits hb hb16 hdigits c hc)

theorem forall_mem_decDigits (n : Nat) : ∀ c ∈ (decDigits n).toList, P c := by
  rw [decDigits, String.toList_ofList]
  exact forall_mem_digits hP (by decide) (by decide) n

theorem forall_mem_unsignedText (style : Style) (n : Nat) : ∀ c ∈ unsignedText style n, P c := by
  cases style with
  | decimal => exact forall_mem_digits hP (by decide) (by decide) n
  | hex =>
      exact List.forall_mem_cons.2
        ⟨hP '$' (by decide), forall_mem_digits hP (by decide) (by decide) n⟩

theorem forall_mem_signed (style : Style) (v : Int32) : ∀ c ∈ (signed style v).toList, P c := by
  rw [toList_signed]
  split
  · exact List.forall_mem_cons.2 ⟨hP '-' (by decide), forall_mem_unsignedText hP style _⟩
  · exact forall_mem_unsignedText hP style _

theorem forall_mem_hexPadded (width n : Nat) : ∀ c ∈ (hexPadded width n).toList, P c := by
  rw [hexPadded, padZero, String.toList_append, String.toList_ofList]
  rw [List.forall_mem_append]
  constructor
  · intro c hc
    rw [List.eq_of_mem_replicate hc]
    exact hP '0' (by decide)
  · rw [hexDigits, String.toList_ofList]
    exact forall_mem_digits hP (by decide) (by decide) n

theorem forall_mem_hex (v : UInt32) : ∀ c ∈ (hex v).toList, P c := by
  rw [toList_hex]
  exact forall_mem_unsignedText hP .hex v.toNat

theorem forall_mem_absWord (a : UInt16) : ∀ c ∈ (absWord a).toList, P c := by
  rcases exists_toList_absWord a with ⟨n, _, htext⟩
  rw [htext]
  exact forall_mem_unsignedText hP .hex n

end

theorem noBlank_numberChars : NoBlank numberChars := by
  simp [numberChars]

theorem noBlank_signed (style : Style) (v : Int32) : NoBlank (signed style v).toList :=
  forall_mem_signed noBlank_numberChars style v

theorem noBlank_decDigits (n : Nat) : NoBlank (decDigits n).toList :=
  forall_mem_decDigits noBlank_numberChars n

theorem noBlank_hex (v : UInt32) : NoBlank (hex v).toList :=
  forall_mem_hex noBlank_numberChars v

theorem noBlank_absWord (a : UInt16) : NoBlank (absWord a).toList :=
  forall_mem_absWord noBlank_numberChars a

end Number
end Disassembler
