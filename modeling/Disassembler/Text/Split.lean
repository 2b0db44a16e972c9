/-!
# Splitting

Cutting a text at the places where a separator stands.
-/

namespace Disassembler
namespace Text

/-- What stands before and after the first separator. -/
def breakOnList? (separator : List Char) : List Char -> Option (List Char × List Char)
  | [] => none
  | c :: cs =>
      if separator.isPrefixOf (c :: cs) then
        some ([], (c :: cs).drop separator.length)
      else
        (breakOnList? separator cs).map fun (before, after) => (c :: before, after)

def breakOn? (separator s : String) : Option (String × String) :=
  (breakOnList? separator.toList s.toList).map fun (before, after) =>
    (String.ofList before, String.ofList after)

def consPart (c : Char) : List (List Char) -> List (List Char)
  | [] => [[c]]
  | p :: ps => (c :: p) :: ps

/-- The parts between separators, after `skip` more characters of the current
separator. -/
def splitListFrom (separator : List Char) : Nat -> List Char -> List (List Char)
  | _, [] => [[]]
  | skip + 1, _ :: cs => splitListFrom separator skip cs
  | 0, c :: cs =>
      if separator.isPrefixOf (c :: cs) then
        [] :: splitListFrom separator (separator.length - 1) cs
      else
        consPart c (splitListFrom separator 0 cs)

def splitList (separator cs : List Char) : List (List Char) :=
  splitListFrom separator 0 cs

/-- The parts between separators.  There is one more part than there are
separators. -/
def split (separator s : String) : List String :=
  (splitList separator.toList s.toList).map String.ofList

/-- Whether a text stands somewhere in another one. -/
def occurs (part s : String) : Bool :=
  part.isEmpty || (breakOnList? part.toList s.toList).isSome

def dropStart (start s : String) : String :=
  if start.toList.isPrefixOf s.toList then
    String.ofList (s.toList.drop start.toList.length)
  else
    s

def startsWith (start s : String) : Bool :=
  start.toList.isPrefixOf s.toList

def remove (c : Char) (s : String) : String :=
  String.ofList (s.toList.filter fun d => d != c)

end Text
end Disassembler
