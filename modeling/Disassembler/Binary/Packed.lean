import Disassembler.Binary.Word

/-!
# Packed cursors

A cursor over units that are kept in bytes, as a program holds it: the bytes,
and a position that is a 64-bit integer.  Every byte is fetched by its index.
Where an index is outside of the bytes there is no result at all (`none`).
-/

namespace Disassembler

/-- How units of type `u` are kept in bytes, and how numbers of the widths `w`
are made of them. -/
structure Packing (u w : Type) where
  /-- How many whole units there are. -/
  count : Bytes -> Int64
  /-- As many units as the last argument says, from a position on. -/
  slice? : Bytes -> Int64 -> Int64 -> Option (List u)
  /-- How many units make up a number. -/
  span : w -> Int64
  /-- The number at a position. -/
  value? : w -> Bytes -> Int64 -> Option Nat

namespace Packing

/-! ## Indexes -/

def size (data : Bytes) : Int64 :=
  .ofNat data.length

def byteAt? (data : Bytes) (i : Int64) : Option UInt8 :=
  if i < 0 then none else data[i.toNatClampNeg]?

/-- The bytes from an index on, which may be the end. -/
def suffix? (data : Bytes) (i : Int64) : Option Bytes :=
  if i < 0 ∨ size data < i then none else some (data.drop i.toNatClampNeg)

/-- A new buffer of `n` bytes after others have been copied to its front. -/
def buffer (n : Nat) (data : Bytes) : Bytes :=
  data.take n ++ List.replicate (n - data.length) 0

/-! ## Bytes -/

inductive ByteWidth where
  | byte | word | long
  deriving DecidableEq, Repr

def bytes : Packing UInt8 ByteWidth where
  count := size
  slice? data i n := (suffix? data i).map (buffer n.toNatClampNeg)
  span
    | .byte => 1
    | .word => 2
    | .long => 4
  value?
    | .byte, data, i => do
        let low <- byteAt? data i
        return low.toNat
    | .word, data, i => do
        let high <- byteAt? data i
        let low <- byteAt? data (i + 1)
        return (high.toUInt16 <<< 8 ||| low.toUInt16).toNat
    | .long, data, i => do
        let rest <- suffix? data i
        let b3 <- byteAt? rest 0
        let b2 <- byteAt? rest 1
        let b1 <- byteAt? rest 2
        let b0 <- byteAt? rest 3
        return (b3.toUInt32 <<< 24 ||| b2.toUInt32 <<< 16 ||| b1.toUInt32 <<< 8
          ||| b0.toUInt32).toNat

/-! ## Words of three bytes -/

def wordSize : Int64 := 3

def wordAt? (data : Bytes) (i : Int64) : Option UInt32 := do
  let rest <- suffix? data (i * wordSize)
  let high <- byteAt? rest 0
  let middle <- byteAt? rest 1
  let low <- byteAt? rest 2
  return high.toUInt32 <<< 16 ||| middle.toUInt32 <<< 8 ||| low.toUInt32

/-- Units of three bytes each.  A unit that is not whole does not count. -/
def words : Packing UInt32 Unit where
  count data := size data / wordSize
  slice? data i n := (List.range n.toNatClampNeg).mapM fun k => wordAt? data (i + .ofNat k)
  span _ := 1
  value? _ data i := (wordAt? data i).map UInt32.toNat

/-- The three bytes of the low 24 bits. -/
def bytesOfWord (w : UInt32) : Bytes :=
  [(w >>> 16).toUInt8, (w >>> 8).toUInt8, w.toUInt8]

end Packing

structure PackedCursor {u w : Type} (p : Packing u w) where
  data : Bytes
  position : Int64 := 0

/-! ## Requests -/

/-- What is asked of a cursor. -/
inductive CursorRequest (w : Type) where
  | read (n : Int64)
  | readValue (width : w)
  | peek (n : Int64)
  | advance (n : Int64)
  | copy

inductive CursorAnswer (u : Type) where
  | units (us : List u)
  | value (n : Nat)
  /-- Too few units remain. -/
  | refused
  | nothing

namespace PackedCursor

variable {u w : Type} {p : Packing u w}

def remaining (c : PackedCursor p) : Int64 :=
  p.count c.data - c.position

/-- The next `n` units, or those that remain if there are fewer. -/
def peek? (c : PackedCursor p) (n : Int64) : Option (List u) :=
  p.slice? c.data c.position (max 0 (min n c.remaining))

def read? (c : PackedCursor p) (n : Int64) : Option (CursorAnswer u × PackedCursor p) :=
  if n < 0 ∨ c.remaining < n then some (.refused, c)
  else do
    let us <- c.peek? n
    return (.units us, { c with position := c.position + n })

def readValue? (c : PackedCursor p) (width : w) : Option (CursorAnswer u × PackedCursor p) :=
  if c.remaining < p.span width then some (.refused, c)
  else do
    let v <- p.value? width c.data c.position
    return (.value v, { c with position := c.position + p.span width })

/-- Move forward, but not past the end.  The target is a sum of 64 bits. -/
def advance (c : PackedCursor p) (n : Int64) : PackedCursor p :=
  { c with position := max c.position (min (c.position + n) (p.count c.data)) }

def answer? (c : PackedCursor p) : CursorRequest w -> Option (CursorAnswer u × PackedCursor p)
  | .read n => c.read? n
  | .readValue width => c.readValue? width
  | .peek n => (c.peek? n).map fun us => (.units us, c)
  | .advance n => some (.nothing, c.advance n)
  | .copy => some (.nothing, c)

/-- The cursors that a request adds. -/
def copies (c : PackedCursor p) : CursorRequest w -> List (PackedCursor p)
  | .copy => [c]
  | _ => []

/-- One of several cursors answers a request.  Nothing happens if there is none with
that number. -/
def step? (cursors : List (PackedCursor p)) (i : Nat) (q : CursorRequest w) :
    Option (CursorAnswer u × List (PackedCursor p)) :=
  match cursors[i]? with
  | none => some (.nothing, cursors)
  | some c => do
      let (a, c') <- c.answer? q
      return (a, cursors.set i c' ++ c.copies q)

/-- A cursor over words of which the low 24 bits are packed. -/
def ofWords (ws : List UInt32) : PackedCursor Packing.words :=
  { data := ws.flatMap Packing.bytesOfWord }

end PackedCursor

end Disassembler
