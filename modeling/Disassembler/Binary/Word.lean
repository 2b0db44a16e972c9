/-!
# Words

Big-endian values made of bytes, and the bit fields of a word.
-/

namespace Disassembler

abbrev Bytes := List UInt8

abbrev Word24 := BitVec 24

/-! ## Bit fields -/

/-- The `count` bits of `n` from bit `low` upwards. -/
def bits (n low count : Nat) : Nat :=
  (n >>> low) % (1 <<< count)

theorem bits_lt (n low count : Nat) : bits n low count < 1 <<< count := by
  apply Nat.mod_lt
  rw [Nat.one_shiftLeft]
  exact Nat.two_pow_pos count

def low3 (n : Nat) : Fin 8 :=
  ⟨n % 8, Nat.mod_lt n (by decide)⟩

namespace Word16

def field (w : UInt16) (low count : Nat) : Nat :=
  bits w.toNat low count

def bit (w : UInt16) (i : Nat) : Bool :=
  w.toNat.testBit i

def ofBytes (high low : UInt8) : UInt16 :=
  high.toUInt16 <<< 8 ||| low.toUInt16

/-- The high and the low byte of a word. -/
def toBytes (w : UInt16) : Bytes :=
  [(w >>> 8).toUInt8, w.toUInt8]

/-- The whole words at the front of a byte sequence.  An odd byte at the end
is left out. -/
def ofByteList : Bytes -> List UInt16
  | high :: low :: rest => ofBytes high low :: ofByteList rest
  | _ => []

/-- The low byte as a signed number. -/
def lowSigned (w : UInt16) : Int8 :=
  w.toUInt8.toInt8

end Word16

namespace Word32

def ofWords (high low : UInt16) : UInt32 :=
  high.toUInt32 <<< 16 ||| low.toUInt32

end Word32

namespace Word24

def field (w : Word24) (low count : Nat) : Nat :=
  bits w.toNat low count

def bit (w : Word24) (i : Nat) : Bool :=
  w.toNat.testBit i

/-- The word made of three bytes, the most significant first. -/
def ofBytes (high middle low : UInt8) : Word24 :=
  high.toBitVec ++ (middle.toBitVec ++ low.toBitVec)

/-- The three bytes of a word, the most significant first. -/
def toBytes (w : Word24) : Bytes :=
  [.ofBitVec ((w >>> 16).setWidth 8), .ofBitVec ((w >>> 8).setWidth 8), .ofBitVec (w.setWidth 8)]

/-- The whole words at the front of a byte sequence.  Up to two bytes at the
end are left out. -/
def unpack : Bytes -> List Word24
  | high :: middle :: low :: rest => ofBytes high middle low :: unpack rest
  | _ => []

def pack (words : List Word24) : Bytes :=
  words.flatMap toBytes

end Word24

end Disassembler
