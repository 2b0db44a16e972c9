import Disassembler.Text.Glyph

/-!
# Columns of text

Padding a text to a width and trimming what stands at its ends.  Widths count
characters.
-/

namespace Disassembler
namespace Text

/-- Blanks after the text, up to the given width. -/
def padRight (n : Nat) (s : String) : String :=
  s ++ String.ofList (List.replicate (n - width s) ' ')

def trimRightWhile (p : Char -> Bool) (s : String) : String :=
  String.ofList (s.toList.reverse.dropWhile p).reverse

def trimBlanks (s : String) : String :=
  trimRightWhile (· == ' ') s

/-- The texts with a separator between neighbours. -/
def join (separator : String) : List String -> String
  | [] => ""
  | [s] => s
  | s :: t :: rest => s ++ separator ++ join separator (t :: rest)

end Text
end Disassembler
