import Disassembler.Message.Argument
import Disassembler.Text.Quote
import Disassembler.Text.Split

/-!
# Directives

A directive says how an argument is written: with which verb, in which width
and precision, and with which flags.  An argument that the verb does not fit is
written with its type and value, so that nothing is lost.
-/

namespace Disassembler

/-- How an argument is written, the verb apart. -/
structure Directive where
  plus : Bool := false
  minus : Bool := false
  sharp : Bool := false
  space : Bool := false
  zero : Bool := false
  width : Option Nat := none
  precision : Option Nat := none
  /-- Values are written like literals of a program. -/
  literal : Bool := false
  /-- The values of a record are written with their names. -/
  named : Bool := false
  deriving Repr

namespace Directive

def usual : Char := 'v'

/-- The verb for an error that is the cause of the message. -/
def causal : Char := 'w'

/-- The directive for a verb.  For the usual form two of the flags have another
meaning. -/
def forVerb (d : Directive) (verb : Char) : Directive :=
  if verb == usual || verb == causal then
    { d with literal := d.sharp, sharp := false, named := d.plus, plus := false }
  else d

/-! ## Padding -/

/-- Fill a text up to the width: with blanks after it, or before it with zeros
or blanks. -/
def pad (d : Directive) (s : String) : String :=
  let missing := (d.width.getD 0) - Text.width s
  if d.minus then s.pushn ' ' missing
  else "".pushn (if d.zero then '0' else ' ') missing ++ s

def padBlank (d : Directive) (s : String) : String :=
  { d with zero := false }.pad s

/-! ## Integers -/

def digitsIn (base n : Nat) (capital : Bool) : String :=
  let digits := Nat.toDigits base n
  String.ofList (if capital then digits.map Char.toUpper else digits)

/-- At least `least` characters, with zeros in front. -/
def padDigits (least : Nat) (digits : String) : String :=
  "".pushn '0' (least - digits.length) ++ digits

def baseMark (d : Directive) (verb : Char) (base : Nat) (digits : String) : String :=
  let mark := if !d.sharp then ""
    else match base with
      | 2 => "0b"
      | 8 => if Text.startsWith "0" digits then "" else "0"
      | 16 => if verb == 'X' then "0X" else "0x"
      | _ => ""
  if verb == 'O' then "0o" ++ mark else mark

def sign (d : Directive) (negative : Bool) : String :=
  if negative then "-" else if d.plus then "+" else if d.space then " " else ""

/-- An integer in a base.  The precision is the least number of digits; without
one, zeros fill the width. -/
def integer (d : Directive) (verb : Char) (base : Nat) (n : Int) : String :=
  if d.precision == some 0 && n == 0 then d.padBlank ""
  else
    let sign := d.sign (n < 0)
    let least := match d.precision, d.width with
      | some p, _ => p
      | none, some w => if d.zero && !d.minus then w - sign.length else 0
      | none, none => 0
    let digits := padDigits least (digitsIn base n.natAbs (verb == 'X'))
    d.padBlank (sign ++ d.baseMark verb base digits ++ digits)

def charOf? (n : Int) : Option Char :=
  if 0 ≤ n ∧ n.toNat.isValidChar then some (Char.ofNat n.toNat) else none

def charOf (n : Int) : Char :=
  (charOf? n).getD Text.replacement

/-- A code point as `U+` and at least four digits, and with the character if
that is asked for and possible. -/
def codePoint (d : Directive) (n : Int) : String :=
  let digits := digitsIn 16 (if n < 0 then (0x10000000000000000 + n).toNat else n.toNat) true
  let shown := if d.sharp then (charOf? n).filter Text.isPrintable else none
  d.padBlank ("U+" ++ padDigits (max 4 (d.precision.getD 4)) digits
    ++ (shown.map fun c => " '" ++ Text.ofChar c ++ "'").getD "")

def ofInteger? (d : Directive) (verb : Char) (type : IntType) (n : Int) : Option String :=
  match verb with
  | 'v' =>
      if d.literal && !type.isSigned then some ({ d with sharp := true }.integer verb 16 n)
      else some (d.integer verb 10 n)
  | 'd' => some (d.integer verb 10 n)
  | 'b' => some (d.integer verb 2 n)
  | 'o' | 'O' => some (d.integer verb 8 n)
  | 'x' | 'X' => some (d.integer verb 16 n)
  | 'c' => some (d.pad (Text.ofChar (charOf n)))
  | 'q' => some (d.pad (Text.quotedSingle d.plus (charOf n)))
  | 'U' => some (d.codePoint n)
  | _ => none

/-! ## Floating point numbers -/

def layout? (d : Directive) (verb : Char) : Option Binary.Layout :=
  let general (letter : Char) : Binary.Layout := match d.precision with
    | some p => .digits p letter
    | none => .fewest letter
  match verb with
  | 'v' | 'g' => some (general 'e')
  | 'G' => some (general 'E')
  | 'e' | 'E' => some (.exponent (d.precision.getD 6) verb)
  | 'f' | 'F' => some (.fixed (d.precision.getD 6))
  | 'b' => some .power
  | 'x' | 'X' => some (.hexadecimal d.precision)
  | _ => none

/-- How many characters of a number are significant in the long form. -/
def leastSignificant (d : Directive) (verb : Char) : Nat :=
  match verb with
  | 'v' | 'g' | 'G' | 'x' => d.precision.getD 6
  | _ => 0

/-- The long form of a number: with a point, and with zeros up to a number of
significant characters.  The exponent stays at the end. -/
def longForm (least : Nat) (hexadecimal : Bool) (number : String) : String :=
  let inFront (c : Char) : Bool := c.toUpper != 'P' && (hexadecimal || c.toUpper != 'E')
  let front := number.toList.takeWhile inFront
  let counted := ((front.filter (· != '.')).dropWhile (· == '0')).length
  let counted := if front == ['0'] then 1 else counted
  let front := if front.contains '.' then front else front ++ ['.']
  (String.ofList front).pushn '0' (least - counted)
    ++ String.ofList (number.toList.dropWhile inFront)

/-- A number without its sign, as a verb and the flags want it. -/
def unsigned (d : Directive) (verb : Char) (layout : Binary.Layout) (f : FloatFormat)
    (m : Nat) (e : Int) : String :=
  let number := Binary.magnitudeText f layout m e
  let number := if d.sharp && verb != 'b'
    then longForm (d.leastSignificant verb) (verb == 'x' || verb == 'X') number else number
  if verb == 'X' then String.ofList (number.toList.map Char.toUpper) else number

/-- A floating point number with a verb that fits it.  Zeros do not fill the
width of what is no number. -/
def ofFloat? (d : Directive) (verb : Char) (f : FloatFormat) (x : Binary) : Option String :=
  (d.layout? verb).map fun layout =>
    match x with
    | .undefined => d.padBlank (d.sign false ++ "NaN")
    | .signed negative .infinite =>
        let sign := if negative then "-" else if d.space && !d.plus then " " else "+"
        d.padBlank (sign ++ "Inf")
    | .signed negative (.finite m e) =>
        let sign := d.sign negative
        let number := d.unsigned verb layout f m e
        if d.zero && !d.minus then
          sign ++ padDigits ((d.width.getD 0) - sign.length) number
        else d.pad (sign ++ number)

/-! ## Texts -/

/-- The first characters of a text, as many as the precision says. -/
def truncate (d : Directive) (s : String) : String :=
  match d.precision with
  | some p => Text.takeChars p s
  | none => s

def plain (d : Directive) (s : String) : String :=
  d.pad (d.truncate s)

def quoted (d : Directive) (s : String) : String :=
  let s := d.truncate s
  let raw := if d.sharp then Text.quotedRaw? s else none
  d.pad (raw.getD (if d.plus then Text.quotedAscii s else Text.quoted s))

def hexText (d : Directive) (capital : Bool) (s : String) : String :=
  let bytes := match d.precision with
    | some p => s.toList.take p
    | none => s.toList
  let mark := if !d.sharp then "" else if capital then "0X" else "0x"
  let texts := bytes.map fun c => padDigits 2 (digitsIn 16 c.toNat capital)
  d.pad (if d.space then Text.join " " (texts.map (mark ++ ·))
    else if texts.isEmpty then "" else mark ++ String.join texts)

def ofText? (d : Directive) (verb : Char) (s : String) : Option String :=
  match verb with
  | 'v' => some (if d.literal then d.quoted s else d.plain s)
  | 's' => some (d.plain s)
  | 'q' => some (d.quoted s)
  | 'x' => some (d.hexText false s)
  | 'X' => some (d.hexText true s)
  | _ => none

def ofBool? (d : Directive) (verb : Char) (b : Bool) : Option String :=
  if verb == usual || verb == 't' then some (d.pad (if b then "true" else "false")) else none

/-! ## Arguments -/

/-- A directive that does not fit, with what it was meant for. -/
def misfit (verb : Char) (what : String) : String :=
  "%!" ++ Text.ofChar verb ++ "(" ++ what ++ ")"

def typed (type value : String) : String :=
  type ++ "=" ++ value

/-- Write a value with a verb, or with its type if the verb does not fit. -/
def fitted (verb : Char) (type : String) (write? : Char -> Option String) : String :=
  (write? verb).getD (misfit verb (typed type ((write? usual).getD "")))

def somewhere : String := "0x0"

/-- Values in brackets, which differ for literals. -/
def bracketed (d : Directive) (type opening closing : String) (values : List String) : String :=
  if d.literal then type ++ "\x7b" ++ Text.join ", " values ++ "\x7d"
  else opening ++ Text.join " " values ++ closing

def labelled (d : Directive) (name value : String) : String :=
  if d.literal || d.named then name ++ ":" ++ value else value

mutual

/-- Write what an argument is made up of.  Only the outermost reference is
followed. -/
def content (d : Directive) (verb : Char) (outermost : Bool) : Argument -> String
  | .absent place => if d.literal then place ++ "(nil)" else Argument.nothing
  | .bool b => fitted verb "bool" fun v => d.ofBool? v b
  | .integer t n => fitted verb t.name fun v => d.ofInteger? v t n
  | .float t x => fitted verb t.name fun v => d.ofFloat? v t.format x
  | .text t s => fitted verb t fun v => d.ofText? v s
  | .record t names values =>
      d.bracketed t "\x7b" "\x7d" (List.zipWith d.labelled names (contents d verb values))
  | .sequence t items => d.bracketed t "[" "]" (contents d verb items)
  | .reference a => if outermost then "&" ++ content d verb false a else somewhere
  | .described _ _ a => content d verb outermost a

def contents (d : Directive) (verb : Char) : List Argument -> List String
  | [] => []
  | a :: rest => content d verb false a :: contents d verb rest

end

def unfitting (d : Directive) (verb : Char) (a : Argument) : String :=
  misfit verb (typed a.typeName (d.content usual true a))

/-- Write an argument with a verb.  Something that describes itself is written
as its description, as far as the verb fits a text.  `wraps` says whether the
message can have a cause. -/
def write (d : Directive) (wraps : Bool) (verb : Char) (a : Argument) : String :=
  match a with
  | .absent _ =>
      if verb == usual || verb == 'T' then d.pad Argument.nothing
      else misfit verb Argument.nothing
  | a =>
      if verb == 'T' then d.plain a.typeName
      else if verb == 'p' then d.unfitting verb a
      else
        match a with
        | .described description isError _ =>
            if verb == causal && !(isError && wraps) then d.unfitting verb a
            else
              let description? := if d.literal then none
                else d.ofText? (if verb == causal then usual else verb) description
              description?.getD (d.content verb true a)
        | a => d.content verb true a

def plainText (a : Argument) : String :=
  ({} : Directive).write false usual a

end Directive

end Disassembler
