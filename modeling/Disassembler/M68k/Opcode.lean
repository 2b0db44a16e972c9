import Disassembler.M68k.Condition

/-!
# Opcodes

The mnemonics of the 68000 family.  The conditional families carry their
condition.  The place of the never-taken branch is used for `bsr`.
-/

namespace Disassembler
namespace M68k

inductive Opcode where
  /-- An encoding that is no instruction, shown as data. -/
  | data
  | ori | andi | subi | addi | eori | cmpi
  | btst | bchg | bclr | bset
  | movep | moves | cmp2 | chk2 | cas | cas2
  | move | movea
  | negx | clr | neg | not | tst | tas | nbcd | swap | ext | extb
  | chk | lea | pea | link | unlk | movem
  | mulu | muls | divu | divs | divul | divsl
  | trap | trapv | illegal | reset | nop | stop | rte | rtd | rts | rtr | bkpt | movec
  | jsr | jmp
  | addq | subq | moveq
  | or | and | eor | sub | add | cmp | cmpa | cmpm | suba | adda | subx | addx
  | abcd | sbcd | pack | unpk | exg
  | asl | asr | lsl | lsr | roxl | roxr | rol | ror
  | bftst | bfextu | bfchg | bfexts | bfclr | bfffo | bfset | bfins
  | bsr
  | branch (c : Condition)
  | loop (c : Condition)
  | set (c : Condition)
  | trapOn (c : Condition)
  /-- An opcode outside the instruction set. -/
  | unlisted
  deriving DecidableEq, Repr

namespace Opcode

def name : Opcode -> String
  | data => "dc.w"
  | ori => "ori"
  | andi => "andi"
  | subi => "subi"
  | addi => "addi"
  | eori => "eori"
  | cmpi => "cmpi"
  | btst => "btst"
  | bchg => "bchg"
  | bclr => "bclr"
  | bset => "bset"
  | movep => "movep"
  | moves => "moves"
  | cmp2 => "cmp2"
  | chk2 => "chk2"
  | cas => "cas"
  | cas2 => "cas2"
  | move => "move"
  | movea => "movea"
  | negx => "negx"
  | clr => "clr"
  | neg => "neg"
  | not => "not"
  | tst => "tst"
  | tas => "tas"
  | nbcd => "nbcd"
  | swap => "swap"
  | ext => "ext"
  | extb => "extb"
  | chk => "chk"
  | lea => "lea"
  | pea => "pea"
  | link => "link"
  | unlk => "unlk"
  | movem => "movem"
  | mulu => "mulu"
  | muls => "muls"
  | divu => "divu"
  | divs => "divs"
  | divul => "divul"
  | divsl => "divsl"
  | trap => "trap"
  | trapv => "trapv"
  | illegal => "illegal"
  | reset => "reset"
  | nop => "nop"
  | stop => "stop"
  | rte => "rte"
  | rtd => "rtd"
  | rts => "rts"
  | rtr => "rtr"
  | bkpt => "bkpt"
  | movec => "movec"
  | jsr => "jsr"
  | jmp => "jmp"
  | addq => "addq"
  | subq => "subq"
  | moveq => "moveq"
  | or => "or"
  | and => "and"
  | eor => "eor"
  | sub => "sub"
  | add => "add"
  | cmp => "cmp"
  | cmpa => "cmpa"
  | cmpm => "cmpm"
  | suba => "suba"
  | adda => "adda"
  | subx => "subx"
  | addx => "addx"
  | abcd => "abcd"
  | sbcd => "sbcd"
  | pack => "pack"
  | unpk => "unpk"
  | exg => "exg"
  | asl => "asl"
  | asr => "asr"
  | lsl => "lsl"
  | lsr => "lsr"
  | roxl => "roxl"
  | roxr => "roxr"
  | rol => "rol"
  | ror => "ror"
  | bftst => "bftst"
  | bfextu => "bfextu"
  | bfchg => "bfchg"
  | bfexts => "bfexts"
  | bfclr => "bfclr"
  | bfffo => "bfffo"
  | bfset => "bfset"
  | bfins => "bfins"
  | bsr => "bsr"
  | branch .t => "bra"
  | branch c => "b" ++ c.name
  | loop c => "db" ++ c.name
  | set c => "s" ++ c.name
  | trapOn c => "trap" ++ c.name
  | unlisted => "?"

/-- The opcodes of the instruction set in their catalogue order. -/
def all : List Opcode :=
  [data]
    ++ [ori, andi, subi, addi, eori, cmpi]
    ++ [btst, bchg, bclr, bset]
    ++ [movep, moves, cmp2, chk2, cas, cas2]
    ++ [move, movea]
    ++ [negx, clr, neg, not, tst, tas, nbcd, swap, ext, extb]
    ++ [chk, lea, pea, link, unlk, movem]
    ++ [mulu, muls, divu, divs, divul, divsl]
    ++ [trap, trapv, illegal, reset, nop, stop, rte, rtd, rts, rtr, bkpt, movec]
    ++ [jsr, jmp]
    ++ [addq, subq, moveq]
    ++ [or, and, eor, sub, add, cmp, cmpa, cmpm, suba, adda, subx, addx]
    ++ [abcd, sbcd, pack, unpk, exg]
    ++ [asl, asr, lsl, lsr, roxl, roxr, rol, ror]
    ++ [bftst, bfextu, bfchg, bfexts, bfclr, bfffo, bfset, bfins]
    ++ Condition.all.map (fun c => if c = .f then bsr else branch c)
    ++ Condition.all.map loop
    ++ Condition.all.map set
    ++ Condition.all.map trapOn

/-- The opcode at a place of the catalogue. -/
def ofNumber (n : Int) : Opcode :=
  if n < 0 then unlisted else all.getD n.toNat unlisted

def ofName (s : String) : Opcode :=
  (all.find? fun op => op.name == s).getD unlisted

/-- The condition of a conditional opcode.  A branch or loop without a test
has the condition that always holds; `bsr` has none. -/
def condition? : Opcode -> Option Condition
  | branch c | loop c | set c | trapOn c => some c
  | _ => none

end Opcode

/-! ## Size suffixes -/

/-- The size suffix written after an opcode. -/
inductive Suffix where
  | none
  | byte
  | word
  | long
  | short
  deriving DecidableEq, Repr

namespace Suffix

def all : List Suffix :=
  [none, byte, word, long, short]

def name : Suffix -> String
  | none => ""
  | byte => ".b"
  | word => ".w"
  | long => ".l"
  | short => ".s"

/-- The suffix at a place of the list; other numbers mean no suffix. -/
def ofNumber (n : Int) : Suffix :=
  if n < 0 then none else all.getD n.toNat none

end Suffix

end M68k
end Disassembler
