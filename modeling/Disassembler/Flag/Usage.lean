import Disassembler.Flag.Basic

/-!
# Usage of flags

The description of the flags that is shown on request.
-/

namespace Disassembler

namespace FlagValue

def placeholder : FlagValue -> String
  | switch _ => ""
  | number _ => "int"
  | text _ => "string"
  | address _ => "value"

/-- The note on the value that a flag has at first, unless it goes without
saying. -/
def initialNote : FlagValue -> String
  | switch b => if b then " (default true)" else ""
  | number n => if n = 0 then "" else " (default " ++ Number.signedDigits n ++ ")"
  | text s => if s.isEmpty then "" else " (default " ++ Text.quoted s ++ ")"
  | address _ => ""

end FlagValue

namespace Flag

/-- The mark around a name for the value in a description. -/
def quoteMark : Char := Char.ofNat 0x60

/-- The name for the value in a description, and the description without the
marks. -/
def quotedName? (usage : String) : Option (String × String) :=
  let cs := usage.toList
  let before := cs.takeWhile (· != quoteMark)
  match cs.dropWhile (· != quoteMark) with
  | [] => none
  | _ :: cs =>
      match cs.dropWhile (· != quoteMark) with
      | [] => none
      | _ :: after =>
          let name := cs.takeWhile (· != quoteMark)
          some (String.ofList name, String.ofList (before ++ name ++ after))

def usageText (name : String) (f : Flag) : String :=
  let (placeholder, usage) := (quotedName? f.usage).getD (f.value.placeholder, f.usage)
  let head := "  -" ++ name ++ (if placeholder.isEmpty then "" else " " ++ placeholder)
  head ++ (if head.length ≤ 4 then "\t" else "\n    \t")
    ++ Text.join "\n    \t" (Text.split "\n" usage) ++ f.initial.initialNote ++ "\n"

end Flag

namespace FlagSet

def usage (fs : FlagSet) : String :=
  String.join (fs.flags.map fun (name, f) => f.usageText name)

end FlagSet

end Disassembler
