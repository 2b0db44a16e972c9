import Disassembler.Text.Split

/-!
# Lines

The lines of a text file.  A line ends with a line feed, before which a carriage
return may stand; the last line may do without.
-/

namespace Disassembler
namespace Text

/-- The lines as they stand in the text, without the line feeds. -/
def rawLines (s : String) : List String :=
  let parts := split "\n" s
  if parts.getLast? = some "" then parts.dropLast else parts

def dropReturn (line : String) : String :=
  if line.toList.getLast? = some '\r' then String.ofList line.toList.dropLast else line

/-- How many bytes of a line can be held while reading. -/
def lineCapacity : Nat := 64 * 1024

def isOverlong (line : String) : Bool :=
  lineCapacity ≤ line.length

end Text
end Disassembler
