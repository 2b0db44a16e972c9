import Disassembler.Message.Directive

/-!
# Templates

A template is a text with directives, each of which begins with a percent sign
and is filled in with an argument.  Arguments that are missing or left over are
noted in the result.  Each reader takes something off the front of the text and
leaves the rest, which is never longer.
-/

namespace Disassembler

namespace Template

/-- What has been written, and which argument comes next. -/
structure State where
  args : List Argument
  /-- Whether the message can have a cause. -/
  wraps : Bool
  /-- The place of the next argument. -/
  next : Nat := 0
  /-- Some argument was chosen by its number. -/
  reordered : Bool := false
  /-- The number of an argument in the current directive is not valid. -/
  badNumber : Bool := false
  /-- The argument was just chosen by its number. -/
  numbered : Bool := false
  output : String := ""

namespace State

def emit (s : State) (text : String) : State :=
  { s with output := s.output ++ text }

end State

/-! ## Flags and numbers -/

def withFlag? (d : Directive) (c : Char) : Option Directive :=
  match c with
  | '#' => some { d with sharp := true }
  | '0' => some { d with zero := true }
  | '+' => some { d with plus := true }
  | '-' => some { d with minus := true }
  | ' ' => some { d with space := true }
  | _ => none

def readFlags (d : Directive) : List Char -> Directive × List Char
  | [] => (d, [])
  | c :: cs =>
      match withFlag? d c with
      | some d' => readFlags d' cs
      | none => (d, c :: cs)

theorem length_readFlags_le (d : Directive) (cs : List Char) :
    (readFlags d cs).2.length ≤ cs.length := by
  induction cs generalizing d with
  | nil => simp [readFlags]
  | cons c cs ih =>
      rw [readFlags]
      split
      · exact Nat.le_succ_of_le (ih _)
      · exact Nat.le_refl _

def maxNumber : Nat := 1000000

/-- Read digits after those that make up `n`.  What follows a number that is
too large is not read any further. -/
def readDigits (n : Option Nat) : List Char -> Option Nat × List Char
  | [] => (n, [])
  | c :: cs =>
      if c.isDigit then
        if maxNumber < n.getD 0 then (none, [])
        else readDigits (some (10 * n.getD 0 + (c.toNat - '0'.toNat))) cs
      else (n, c :: cs)

theorem length_readDigits_le (n : Option Nat) (cs : List Char) :
    (readDigits n cs).2.length ≤ cs.length := by
  induction cs generalizing n with
  | nil => simp [readDigits]
  | cons c cs ih =>
      rw [readDigits]
      split
      · split
        · exact Nat.zero_le _
        · exact Nat.le_succ_of_le (ih _)
      · exact Nat.le_refl _

def readNumber (cs : List Char) : Option Nat × List Char :=
  readDigits none cs

/-! ## Numbers of arguments -/

/-- What stands in brackets, and what follows them.  Nothing does if they are
not closed, or empty at the end of the text. -/
def bracketed? (cs : List Char) : Option (List Char × List Char) :=
  match cs.dropWhile (· != ']') with
  | [] => none
  | _ :: after =>
      let inside := cs.takeWhile (· != ']')
      if inside.isEmpty && after.isEmpty then none else some (inside, after)

/-- Choose an argument by its number, which counts from one. -/
def choose (s : State) (inside : List Char) : State :=
  match readNumber inside with
  | (some n, []) =>
      if 0 < n ∧ n ≤ s.args.length then { s with next := n - 1, numbered := true }
      else { s with badNumber := true, numbered := true }
  | _ => { s with badNumber := true }

def readChoice (s : State) (cs : List Char) : State × List Char :=
  let s := { s with numbered := false }
  match cs with
  | '[' :: rest =>
      match bracketed? rest with
      | none => ({ s with reordered := true, badNumber := true }, rest)
      | some (inside, after) => (choose { s with reordered := true } inside, after)
  | cs => (s, cs)

theorem length_bracketed?_le {cs inside after : List Char}
    (h : bracketed? cs = some (inside, after)) : after.length ≤ cs.length := by
  have hlen : (cs.dropWhile (· != ']')).length ≤ cs.length := (List.dropWhile_sublist _).length_le
  unfold bracketed? at h
  split at h
  · exact absurd h (by simp)
  · rename_i c rest heq
    rw [heq] at hlen
    dsimp only at h
    split at h
    · exact absurd h (by simp)
    · simp only [Option.some.injEq, Prod.mk.injEq] at h
      rw [← h.2]
      exact Nat.le_of_succ_le hlen

theorem length_readChoice_le (s : State) (cs : List Char) :
    (readChoice s cs).2.length ≤ cs.length := by
  unfold readChoice
  split
  · split
    · exact Nat.le_succ _
    · rename_i h
      exact Nat.le_succ_of_le (length_bracketed?_le h)
  · exact Nat.le_refl _

/-! ## Width and precision -/

/-- The next argument, if it is an integer that can be a width or a
precision. -/
def takeInteger (s : State) : Option Int × State :=
  match s.args[s.next]? with
  | none => (none, s)
  | some (.integer _ n) =>
      (if n.natAbs ≤ maxNumber then some n else none, { s with next := s.next + 1 })
  | some _ => (none, { s with next := s.next + 1 })

/-- Take the width from an argument.  Behind a negative one stand blanks. -/
def argumentWidth (s : State) (d : Directive) : State × Directive :=
  match takeInteger s with
  | (some n, s) =>
      ({ s with numbered := false },
        { d with width := some n.natAbs, minus := d.minus || n < 0, zero := d.zero && 0 ≤ n })
  | (none, s) => ({ s.emit "%!(BADWIDTH)" with numbered := false }, d)

/-- Take the precision from an argument.  A negative one is not valid. -/
def argumentPrecision (s : State) (d : Directive) : State × Directive :=
  match takeInteger s with
  | (some (.ofNat n), s) => ({ s with numbered := false }, { d with precision := some n })
  | (_, s) => ({ s.emit "%!(BADPREC)" with numbered := false }, d)

def readWidth (s : State) (d : Directive) (cs : List Char) : State × Directive × List Char :=
  match cs with
  | '*' :: rest =>
      let (s, d) := argumentWidth s d
      (s, d, rest)
  | cs =>
      let (width, rest) := readNumber cs
      ({ s with badNumber := s.badNumber || (s.numbered && width.isSome) }, { d with width }, rest)

theorem length_readWidth_le (s : State) (d : Directive) (cs : List Char) :
    (readWidth s d cs).2.2.length ≤ cs.length := by
  unfold readWidth
  split
  · exact Nat.le_succ _
  · exact length_readDigits_le _ _

def readPlaces (s : State) (d : Directive) (cs : List Char) : State × Directive × List Char :=
  match cs with
  | '*' :: rest =>
      let (s, d) := argumentPrecision s d
      (s, d, rest)
  | cs =>
      let (precision, rest) := readNumber cs
      (s, { d with precision := some (precision.getD 0) }, rest)

theorem length_readPlaces_le (s : State) (d : Directive) (cs : List Char) :
    (readPlaces s d cs).2.2.length ≤ cs.length := by
  unfold readPlaces
  split
  · exact Nat.le_succ _
  · exact length_readDigits_le _ _

/-- Read the precision, if there is one.  A point at the end of the text does
not begin one. -/
def readPrecision (s : State) (d : Directive) (cs : List Char) : State × Directive × List Char :=
  match cs with
  | '.' :: c :: rest =>
      let s := { s with badNumber := s.badNumber || s.numbered }
      let (s, rest) := readChoice s (c :: rest)
      readPlaces s d rest
  | cs => (s, d, cs)

theorem length_readPrecision_le (s : State) (d : Directive) (cs : List Char) :
    (readPrecision s d cs).2.2.length ≤ cs.length := by
  unfold readPrecision
  split
  · exact Nat.le_trans (length_readPlaces_le _ _ _)
      (Nat.le_succ_of_le (length_readChoice_le _ _))
  · exact Nat.le_refl _

/-- Read all of a directive that stands before its verb. -/
def readDirective (s : State) (cs : List Char) : State × Directive × List Char :=
  let flags := readFlags {} cs
  let choice := readChoice { s with badNumber := false } flags.2
  let width := readWidth choice.1 flags.1 choice.2
  let precision := readPrecision width.1 width.2.1 width.2.2
  let last := if precision.1.numbered then (precision.1, precision.2.2)
    else readChoice precision.1 precision.2.2
  (last.1, precision.2.1, last.2)

theorem length_readDirective_le (s : State) (cs : List Char) :
    (readDirective s cs).2.2.length ≤ cs.length := by
  let flags := readFlags {} cs
  let choice := readChoice { s with badNumber := false } flags.2
  let width := readWidth choice.1 flags.1 choice.2
  let precision := readPrecision width.1 width.2.1 width.2.2
  have hflags : flags.2.length ≤ cs.length := length_readFlags_le _ _
  have hchoice : choice.2.length ≤ flags.2.length := length_readChoice_le _ _
  have hwidth : width.2.2.length ≤ choice.2.length := length_readWidth_le _ _ _
  have hprecision : precision.2.2.length ≤ width.2.2.length := length_readPrecision_le _ _ _
  have hlast : (if precision.1.numbered then (precision.1, precision.2.2)
      else readChoice precision.1 precision.2.2).2.length ≤ precision.2.2.length := by
    split
    · exact Nat.le_refl _
    · exact length_readChoice_le _ _
  exact Nat.le_trans hlast (Nat.le_trans hprecision
    (Nat.le_trans hwidth (Nat.le_trans hchoice hflags)))

/-! ## Verbs -/

def onVerb (s : State) (d : Directive) (verb : Char) : State :=
  if verb == '%' then s.emit "%"
  else if s.badNumber then s.emit (Directive.misfit verb "BADINDEX")
  else
    match s.args[s.next]? with
    | none => s.emit (Directive.misfit verb "MISSING")
    | some a => { s.emit ((d.forVerb verb).write s.wraps verb a) with next := s.next + 1 }

def run (s : State) : List Char -> State
  | [] => s
  | c :: cs =>
      if c == '%' then
        match _h : readDirective s cs with
        | (s', _, []) => s'.emit "%!(NOVERB)"
        | (s', d, first :: rest) =>
            let (n, verb) := Text.firstChar first rest
            run (onVerb s' d verb) (rest.drop n)
      else run { s with output := s.output.push c } cs
  termination_by cs => cs.length
  decreasing_by
    · have hle := length_readDirective_le s cs
      rw [_h] at hle
      simp only [List.length_cons, List.length_drop] at hle ⊢
      omega
    · simp

/-! ## Results -/

/-- An argument that no directive asked for. -/
def extraText (wraps : Bool) (a : Argument) : String :=
  match a with
  | .absent _ => Argument.nothing
  | a => Directive.typed a.typeName (({} : Directive).write wraps Directive.usual a)

/-- What has been written, and the arguments that are left over. -/
def result (s : State) : String :=
  let extra := s.args.drop s.next
  if s.reordered || extra.isEmpty then s.output
  else s.output ++ "%!(EXTRA " ++ Text.join ", " (extra.map (extraText s.wraps)) ++ ")"

/-- A template filled in with arguments, some of which may be causes. -/
def fill (template : String) (args : List Argument) : String :=
  result (run { args, wraps := true } template.toList)

/-- A template filled in for a remark, which has no cause. -/
def note (template : String) (args : List Argument) : String :=
  result (run { args, wraps := false } template.toList)

end Template

end Disassembler
