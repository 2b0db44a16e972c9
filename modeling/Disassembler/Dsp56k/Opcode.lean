import Disassembler.Dsp56k.Condition

/-!
# Opcodes

The mnemonics of the DSP56000 family.  The conditional families carry their
condition.
-/

namespace Disassembler
namespace Dsp56k

inductive Opcode where
  /-- An encoding that is no instruction, shown as data. -/
  | data
  | move | tfr | addr | tst | cmp | subr | cmpm | add | rnd | addl
  | clr | sub | subl | not | adc | asr | lsr | sbc | abs | ror
  | asl | lsl | neg | rol | or | eor | and | mpy | mpyr | mac
  | macr
  | andi | ori | div | norm | lua | movec | movem | movep
  | bclr | bset | bchg | btst | jclr | jset | jsclr | jsset
  | doLoop | rep | enddo | jmp | jsr
  | jumpOn (c : Condition)
  | callOn (c : Condition)
  | transferOn (c : Condition)
  | nop | rti | rts | illegal | swi | reset | wait | stop
  /-- An opcode outside the instruction set. -/
  | unlisted
  deriving DecidableEq, Repr

namespace Opcode

def name : Opcode -> String
  | data => "dc"
  | move => "move"
  | tfr => "tfr"
  | addr => "addr"
  | tst => "tst"
  | cmp => "cmp"
  | subr => "subr"
  | cmpm => "cmpm"
  | add => "add"
  | rnd => "rnd"
  | addl => "addl"
  | clr => "clr"
  | sub => "sub"
  | subl => "subl"
  | not => "not"
  | adc => "adc"
  | asr => "asr"
  | lsr => "lsr"
  | sbc => "sbc"
  | abs => "abs"
  | ror => "ror"
  | asl => "asl"
  | lsl => "lsl"
  | neg => "neg"
  | rol => "rol"
  | or => "or"
  | eor => "eor"
  | and => "and"
  | mpy => "mpy"
  | mpyr => "mpyr"
  | mac => "mac"
  | macr => "macr"
  | andi => "andi"
  | ori => "ori"
  | div => "div"
  | norm => "norm"
  | lua => "lua"
  | movec => "movec"
  | movem => "movem"
  | movep => "movep"
  | bclr => "bclr"
  | bset => "bset"
  | bchg => "bchg"
  | btst => "btst"
  | jclr => "jclr"
  | jset => "jset"
  | jsclr => "jsclr"
  | jsset => "jsset"
  | doLoop => "do"
  | rep => "rep"
  | enddo => "enddo"
  | jmp => "jmp"
  | jsr => "jsr"
  | jumpOn c => "j" ++ c.name
  | callOn c => "js" ++ c.name
  | transferOn c => "t" ++ c.name
  | nop => "nop"
  | rti => "rti"
  | rts => "rts"
  | illegal => "illegal"
  | swi => "swi"
  | reset => "reset"
  | wait => "wait"
  | stop => "stop"
  | unlisted => "?"

/-- The opcodes of the instruction set in their catalogue order. -/
def all : List Opcode :=
  [data]
    ++ [move, tfr, addr, tst, cmp, subr, cmpm, add, rnd, addl]
    ++ [clr, sub, subl, not, adc, asr, lsr, sbc, abs, ror]
    ++ [asl, lsl, neg, rol, or, eor, and, mpy, mpyr, mac]
    ++ [macr]
    ++ [andi, ori, div, norm, lua, movec, movem, movep]
    ++ [bclr, bset, bchg, btst, jclr, jset, jsclr, jsset]
    ++ [doLoop, rep, enddo, jmp, jsr]
    ++ Condition.all.map jumpOn
    ++ Condition.all.map callOn
    ++ Condition.all.map transferOn
    ++ [nop, rti, rts, illegal, swi, reset, wait, stop]

/-- The opcode at a place of the catalogue. -/
def ofNumber (n : Int) : Opcode :=
  if n < 0 then unlisted else all.getD n.toNat unlisted

def ofName (s : String) : Opcode :=
  (all.find? fun op => op.name == s).getD unlisted

/-- The condition of a conditional jump, call or transfer. -/
def condition? : Opcode -> Option Condition
  | jumpOn c | callOn c | transferOn c => some c
  | _ => none

end Opcode

end Dsp56k
end Disassembler
