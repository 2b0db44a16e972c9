/-!
# Version

What the program is called, and which version of it this is.
-/

namespace Disassembler

def applicationName : String := "hrdisasm"

structure Version where
  version : String
  revision : String
  deriving DecidableEq, Repr

namespace Version

/-- The last value of a setting. -/
def setting? (settings : List (String × String)) (key : String) : Option String :=
  settings.reverse.lookup key

def ofBuild (number : String) (settings : List (String × String)) : Version :=
  let revision := (setting? settings "vcs.revision").getD ""
  let modified := setting? settings "vcs.modified" == some "true"
  { version :=
      if !number.isEmpty then number
      else if (setting? settings "vcs").isSome then "unreleased"
      else "local"
    revision :=
      if revision.isEmpty then "no revision information"
      else if modified then revision ++ "+dirty"
      else revision }

/-- The description of a version.  A release needs no revision. -/
def text (v : Version) (number : String) : String :=
  if !number.isEmpty && v.version == number then applicationName ++ " " ++ v.version
  else applicationName ++ " " ++ v.version ++ " (" ++ v.revision ++ ")"

end Version

end Disassembler
