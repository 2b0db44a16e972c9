import Disassembler.Text.Glyph

/-!
# White space

The white space of Unicode, trimming, and the words of a text.
-/

namespace Disassembler
namespace Text

/-- The characters with the Unicode property `White_Space`. -/
def isSpace (c : Char) : Bool :=
  let n := c.toNat
  (0x09 ≤ n && n ≤ 0x0d) || n == 0x20 || n == 0x85 || n == 0xa0 || n == 0x1680
    || (0x2000 ≤ n && n ≤ 0x200a) || n == 0x2028 || n == 0x2029 || n == 0x202f
    || n == 0x205f || n == 0x3000

namespace Glyph

def isSpace (g : Glyph) : Bool :=
  Text.isSpace g.char

end Glyph

def dropSpaceEnd (gs : List Glyph) : List Glyph :=
  (gs.reverse.dropWhile Glyph.isSpace).reverse

def trimGlyphs (gs : List Glyph) : List Glyph :=
  dropSpaceEnd (gs.dropWhile Glyph.isSpace)

def trim (s : String) : String :=
  ofGlyphs (trimGlyphs (glyphs s))

/-- Put a glyph in front of the first word. -/
def consWord (g : Glyph) : List (List Glyph) -> List (List Glyph)
  | [] => [[g]]
  | w :: ws => (g :: w) :: ws

/-- The words of some glyphs.  A word that continues what stands before them
comes first, and may be empty. -/
def wordsFrom : List Glyph -> List (List Glyph)
  | [] => [[]]
  | g :: gs => if g.isSpace then [] :: wordsFrom gs else consWord g (wordsFrom gs)

/-- The longest parts of a text without white space. -/
def words (s : String) : List String :=
  ((wordsFrom (glyphs s)).filter fun w => !w.isEmpty).map ofGlyphs

end Text
end Disassembler
