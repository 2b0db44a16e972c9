import Disassembler.Text.Glyph
import Disassembler.Text.Number
import Disassembler.Text.Printable

/-!
# Quoted text

A text between quotation marks.  Quotation marks and backslashes are escaped,
and so is every character that cannot be printed.
-/

namespace Disassembler
namespace Text

def letterEscapes : List (Nat × String) :=
  [(0x07, "\\a"), (0x08, "\\b"), (0x09, "\\t"), (0x0a, "\\n"), (0x0b, "\\v"), (0x0c, "\\f"),
    (0x0d, "\\r")]

def escapeByte (n : Nat) : String :=
  "\\x" ++ Number.hexPadded 2 n

def escape (c : Char) : String :=
  let n := c.toNat
  match letterEscapes.lookup n with
  | some e => e
  | none =>
      if n < 0x20 || n == 0x7f then escapeByte n
      else if n < 0x10000 then "\\u" ++ Number.hexPadded 4 n
      else "\\U" ++ Number.hexPadded 8 n

/-- A character between two marks.  With `asciiOnly` everything outside ASCII
is escaped. -/
def quotedChar (mark : Char) (asciiOnly : Bool) (c : Char) : String :=
  if c == mark || c == '\\' then String.ofList ['\\', c]
  else if isPrintable c && (c.toNat < 0x80 || !asciiOnly) then ofChar c
  else escape c

/-- A glyph between two marks.  A byte that belongs to no character is
escaped. -/
def quotedGlyph (mark : Char) (asciiOnly : Bool) (g : Glyph) : String :=
  if g.isStray then String.join (g.bytes.map fun c => escapeByte c.toNat)
  else quotedChar mark asciiOnly g.char

/-- What stands between two marks. -/
def between (mark : Char) (content : String) : String :=
  String.singleton mark ++ content ++ String.singleton mark

def quotedBy (mark : Char) (asciiOnly : Bool) (s : String) : String :=
  between mark (String.join ((glyphs s).map (quotedGlyph mark asciiOnly)))

def quoted (s : String) : String :=
  quotedBy '"' false s

def quotedAscii (s : String) : String :=
  quotedBy '"' true s

def quotedSingle (asciiOnly : Bool) (c : Char) : String :=
  between '\'' (quotedChar '\'' asciiOnly c)

/-! ## Text that is quoted as it is -/

/-- The mark around a text without escapes. -/
def rawMark : Char :=
  Char.ofNat 0x60

/-- Whether a glyph can stand as it is between two raw marks.  The mark itself,
control characters but the tabulator, and the byte order mark cannot. -/
def Glyph.isRaw (g : Glyph) : Bool :=
  let n := g.char.toNat
  !g.isStray && g.char != rawMark && (0x20 ≤ n || n == 0x09) && n != 0x7f && n != 0xfeff

/-- A text as it is between two raw marks, if it can stand there. -/
def quotedRaw? (s : String) : Option String :=
  if (glyphs s).all Glyph.isRaw then some (between rawMark s) else none

end Text
end Disassembler
