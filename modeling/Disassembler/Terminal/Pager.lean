import Disassembler.Message.Fault
import Disassembler.Terminal.Color

/-!
# Pagers

A pager shows texts on a terminal a screenful at a time.  After each screenful it waits for
a key, and nothing more is shown after a key that stops it.
-/

namespace Disassembler

/-- A terminal, with the keys that are going to be pressed. -/
structure Terminal where
  rows : UInt16
  keys : Bytes := []
  deriving DecidableEq, Repr

structure Pager where
  terminal : Terminal
  /-- The line breaks since the last pause. -/
  count : Nat := 0
  stopped : Bool := false
  deriving DecidableEq, Repr

namespace Pager

/-- Escape, the keys that interrupt and that end the input, and the letter `q`. -/
def stopKeys : Bytes := [27, 3, 4, 113, 81]

def pause : String :=
  (Terminal.penStyles.lookup "inverse").getD "" ++ "-- more --" ++ Terminal.normalPen
    ++ "\r" ++ Terminal.clearLine

def wait (p : Pager) : Option Fault × Pager :=
  match p.terminal.keys with
  | [] => (some (.plain "EOF"), { p with count := 0 })
  | key :: keys =>
      (none, { terminal := { p.terminal with keys }, stopped := stopKeys.contains key })

/-- Write a text.  The result is what is shown, and the fault if no key can be read. -/
def write (p : Pager) (text : String) : String × Option Fault × Pager :=
  if p.stopped then ("", none, p)
  else
    let rows := p.terminal.rows.toNat
    let count := p.count + text.toList.count '\n'
    if 1 < rows ∧ rows - 1 ≤ count then (text ++ pause, p.wait)
    else (text, none, { p with count })

def writeAll (p : Pager) : List String -> String × Option Fault
  | [] => ("", none)
  | text :: texts =>
      match p.write text with
      | (shown, some f, _) => (shown, some f)
      | (shown, none, p) => (shown ++ (p.writeAll texts).1, (p.writeAll texts).2)

/-- Write texts in turn, whatever faults there are. -/
def showAll (p : Pager) : List String -> String
  | [] => ""
  | text :: texts => (p.write text).1 ++ (p.write text).2.2.showAll texts

end Pager

end Disassembler
