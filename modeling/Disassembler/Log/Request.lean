import Disassembler.Log
import Disassembler.Message.Fault

/-!
# Requests to a log

Parts of the program ask for entries with a permission of theirs; without one
nothing is written.
-/

namespace Disassembler

/-- Whether a part of the program may write entries. -/
structure Permission where
  allowsLogging : Bool
  deriving DecidableEq, Repr

namespace Permission

def allow : Permission :=
  { allowsLogging := true }

/-- For parts of the program that are to be silent. -/
def deny : Permission :=
  { allowsLogging := false }

end Permission

inductive LogRequest where
  | value (perm : Permission) (tag : String) (detail : Value)
  | template (perm : Permission) (tag pattern : String) (values : List Value)
  | clear
  | setEcho (on : Bool)

namespace Log

/-- Write an entry about a value, if that is permitted. -/
def record (log : Log) (perm : Permission) (tag : String) (detail : Value) : Log :=
  if perm.allowsLogging then log.add tag detail.shown else log

def recordFilled (log : Log) (perm : Permission) (tag pattern : String)
    (values : List Value) : Log :=
  if perm.allowsLogging then log.add tag (Template.note pattern (Fault.argumentsOf values))
  else log

def answer (log : Log) : LogRequest -> Log
  | .value perm tag detail => log.record perm tag detail
  | .template perm tag pattern values => log.recordFilled perm tag pattern values
  | .clear => log.clear
  | .setEcho on => log.setEcho on

end Log

end Disassembler
