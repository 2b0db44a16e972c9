import Disassembler.Text.Encoding

/-!
# Characters of a text

The bytes of a text make up Unicode characters of one to four bytes.  A byte
that belongs to no character stands alone and is taken for the replacement
character.
-/

namespace Disassembler
namespace Text

/-- A character with the bytes that it is made up of. -/
structure Glyph where
  char : Char
  bytes : List Char
  deriving DecidableEq, Repr

def replacement : Char :=
  Char.ofNat 0xfffd

namespace Glyph

/-- Whether a glyph is a byte that belongs to no character.  The replacement
character itself has three bytes. -/
def isStray (g : Glyph) : Bool :=
  g.char == replacement && g.bytes.length == 1

end Glyph

/-! ## Decoding -/

/-- What has to follow the first byte of a character: how many bytes, and from
where to where the first of them goes. -/
structure Continuation where
  count : Nat
  low : Nat
  high : Nat

/-- What has to follow a byte from 128 on.  No character begins with a byte
that would leave room for a shorter encoding, a surrogate or a number that is
too large. -/
def continuationOf? (first : Nat) : Option Continuation :=
  if first < 0xc2 then none
  else if first < 0xe0 then some ⟨1, 0x80, 0xbf⟩
  else if first = 0xe0 then some ⟨2, 0xa0, 0xbf⟩
  else if first = 0xed then some ⟨2, 0x80, 0x9f⟩
  else if first < 0xf0 then some ⟨2, 0x80, 0xbf⟩
  else if first = 0xf0 then some ⟨3, 0x90, 0xbf⟩
  else if first < 0xf4 then some ⟨3, 0x80, 0xbf⟩
  else if first = 0xf4 then some ⟨3, 0x80, 0x8f⟩
  else none

namespace Continuation

def fits (k : Continuation) (tail : List Char) : Bool :=
  tail.length == k.count && tail.all (fun c => 0x80 ≤ c.toNat && c.toNat ≤ 0xbf)
    && match tail with
      | [] => true
      | c :: _ => k.low ≤ c.toNat && c.toNat ≤ k.high

def assemble (k : Continuation) (first : Char) (tail : List Char) : Char :=
  Char.ofNat (tail.foldl (fun n c => n * 64 + c.toNat % 64) (first.toNat % 1 <<< (6 - k.count)))

end Continuation

/-- How many bytes after the first one belong to a character, and the character
itself. -/
def firstChar (first : Char) (rest : List Char) : Nat × Char :=
  if first.toNat < 0x80 then (0, first)
  else
    match continuationOf? first.toNat with
    | none => (0, replacement)
    | some k =>
        let tail := rest.take k.count
        if k.fits tail then (k.count, k.assemble first tail) else (0, replacement)

/-- The glyphs of some bytes, after `skip` bytes that have been dealt with. -/
def glyphsFrom : Nat -> List Char -> List Glyph
  | _, [] => []
  | skip + 1, _ :: cs => glyphsFrom skip cs
  | 0, c :: cs =>
      let (n, char) := firstChar c cs
      { char, bytes := c :: cs.take n } :: glyphsFrom n cs

def glyphs (s : String) : List Glyph :=
  glyphsFrom 0 s.toList

def ofGlyphs (gs : List Glyph) : String :=
  String.ofList (gs.flatMap Glyph.bytes)

/-- The glyphs hold all bytes but those that are skipped. -/
theorem flatMap_glyphsFrom (skip : Nat) (cs : List Char) :
    (glyphsFrom skip cs).flatMap Glyph.bytes = cs.drop skip := by
  induction cs generalizing skip with
  | nil => simp [glyphsFrom]
  | cons c cs ih =>
      cases skip with
      | zero => simp [glyphsFrom, ih]
      | succ skip => simp [glyphsFrom, ih]

@[simp] theorem ofGlyphs_glyphs (s : String) : ofGlyphs (glyphs s) = s := by
  simp [ofGlyphs, glyphs, flatMap_glyphsFrom]

/-! ## Counting and cutting -/

def width (s : String) : Nat :=
  (glyphs s).length

def takeChars (n : Nat) (s : String) : String :=
  ofGlyphs ((glyphs s).take n)

/-! ## Encoding -/

def ofChar (c : Char) : String :=
  ofUnicode (String.singleton c)

end Text
end Disassembler
