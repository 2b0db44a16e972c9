import Disassembler.Binary.Word

/-!
# Encoding of text

A text of this library is a sequence of bytes: each character of the `String`
is below 256 and stands for one byte.  Files may hold any bytes, and they have
to come back unchanged.  Unicode is converted where text enters and leaves the
library.
-/

namespace Disassembler
namespace Text

def ofByte (b : UInt8) : Char :=
  Char.ofNat b.toNat

def toByte (c : Char) : UInt8 :=
  UInt8.ofNat c.toNat

/-- A byte comes back from its character. -/
@[simp] theorem toByte_ofByte (b : UInt8) : toByte (ofByte b) = b := by
  have h : b.toNat.isValidChar := Or.inl (Nat.lt_trans b.toNat_lt (by decide))
  have hc : (ofByte b).toNat = b.toNat := by
    rw [ofByte, Char.ofNat, dif_pos h]
    rfl
  rw [toByte, hc, UInt8.ofNat_toNat]

def encode (s : String) : Bytes :=
  s.toList.map toByte

def decode (bytes : Bytes) : String :=
  String.ofList (bytes.map ofByte)

/-- Bytes come back from their text. -/
@[simp] theorem encode_decode (bytes : Bytes) : encode (decode bytes) = bytes := by
  simp [encode, decode, Function.comp_def]

/-- Each character of a text stands for a byte. -/
def IsBytes (s : String) : Prop :=
  ∀ c ∈ s.toList, c.toNat < 256

instance (s : String) : Decidable (IsBytes s) :=
  List.decidableBAll (fun c : Char => c.toNat < 256) s.toList

theorem isBytes_append {s t : String} (hs : IsBytes s) (ht : IsBytes t) : IsBytes (s ++ t) := by
  intro c hc
  rw [String.toList_append] at hc
  rcases List.mem_append.mp hc with hc | hc
  · exact hs c hc
  · exact ht c hc

theorem ofByte_toByte {c : Char} (hc : c.toNat < 256) : ofByte (toByte c) = c := by
  rw [ofByte, toByte, UInt8.toNat_ofNat_of_lt' hc, Char.ofNat_toNat]

/-- A text comes back from its bytes. -/
theorem decode_encode {s : String} (h : IsBytes s) : decode (encode s) = s := by
  have hmap : (s.toList.map toByte).map ofByte = s.toList := by
    rw [List.map_map]
    exact (List.map_congr_left fun c hc => ofByte_toByte (h c hc)).trans (List.map_id _)
  rw [decode, encode, hmap, String.ofList_toList]

theorem isBytes_decode (bytes : Bytes) : IsBytes (decode bytes) := by
  intro c hc
  rw [decode, String.toList_ofList] at hc
  rcases List.mem_map.mp hc with ⟨b, _, rfl⟩
  have hvalid : b.toNat.isValidChar := Or.inl (Nat.lt_trans b.toNat_lt (by decide))
  rw [ofByte, Char.ofNat, dif_pos hvalid]
  exact b.toNat_lt

/-! ## Unicode -/

/-- A Unicode string as text, in the encoding of one to four bytes for a
character. -/
def ofUnicode (s : String) : String :=
  decode s.toByteArray.data.toList

/-- The Unicode string of a text, if its bytes are valid. -/
def toUnicode? (s : String) : Option String :=
  String.fromUTF8? ⟨(encode s).toArray⟩

end Text
end Disassembler
