import Disassembler.Text.Column
import Disassembler.Text.Number
import Disassembler.Text.Split

/-!
# Log

A log keeps the most recent entries.  An entry that is equal to the one before
it is counted and not kept again.  Entries can also be echoed as they are made.
-/

namespace Disassembler

/-- A tag and a detail, with the number of times that they were repeated. -/
structure LogEntry where
  tag : String
  detail : String
  repeated : Nat := 0
  deriving DecidableEq, Repr

namespace LogEntry

def text (e : LogEntry) : String :=
  e.tag ++ ": " ++ e.detail
    ++ (if e.repeated = 0 then "" else " (repeat x" ++ Number.decDigits (e.repeated + 1) ++ ")")
    ++ "\n"

end LogEntry

structure Log where
  /-- The number of entries that are kept at most. -/
  limit : Nat
  /-- The entries that are kept, the most recent one first. -/
  recent : List LogEntry := []
  echoing : Bool := false
  echo : String := ""
  deriving Repr

namespace Log

/-- The limit of the log that all parts of the program share. -/
def centralLimit : Nat := 256

def central : Log :=
  { limit := centralLimit }

/-- There is no room for more entries in any log. -/
def maxLimit : Nat := 1 <<< 42

def create? (limit : Int) : Option Log :=
  if 0 ≤ limit ∧ limit.toNat ≤ maxLimit then some { limit := limit.toNat } else none

def entries (log : Log) : List LogEntry :=
  log.recent.reverse

/-- Add an entry in front, or count the first one again if it is equal. -/
def push (recent : List LogEntry) (tag detail : String) : List LogEntry :=
  match recent with
  | [] => [{ tag, detail }]
  | e :: rest =>
      if e.tag = tag ∧ e.detail = detail then
        { e with repeated := e.repeated + 1 } :: rest
      else
        { tag, detail } :: e :: rest

/-- Write an entry.  Line breaks are removed, so that an entry is one line.  It is
echoed before entries that are too many are dropped. -/
def add (log : Log) (tag detail : String) : Log :=
  let { limit, recent, echoing, echo } := log
  let pushed := push recent (Text.remove '\n' tag) (Text.remove '\n' detail)
  let line := (pushed.head?.map LogEntry.text).getD ""
  { limit, recent := pushed.take limit, echoing
    echo := if echoing then echo ++ line else echo }

def clear (log : Log) : Log :=
  { log with recent := [] }

def setEcho (log : Log) (on : Bool) : Log :=
  { log with echoing := on }

def linesOf (entries : List LogEntry) : String :=
  String.join (entries.map LogEntry.text)

def text (log : Log) : String :=
  linesOf log.entries

/-- The last `n` lines of the log, none if `n` is negative. -/
def tail (log : Log) (n : Int) : String :=
  linesOf (log.recent.take n.toNat).reverse

end Log

end Disassembler
