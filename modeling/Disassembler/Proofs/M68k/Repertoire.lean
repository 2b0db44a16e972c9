import Disassembler.M68k.Decode
import Disassembler.Proofs.M68k.Addressing

/-!
# The instruction repertoire

Which operations there are on each processor model, with the operands that each
of them takes.  Whatever the decoder makes of a first word and the words after
it is one of them.
-/

namespace Disassembler
namespace M68k

open Decoder (immediateTarget worksOnStatus anySource bitfieldTarget testTarget hasControlReg)

/-- The sizes of operations on data. -/
def dataSizes : List Suffix :=
  [.byte, .word, .long]

/-- The sizes of operations on addresses. -/
def addressSizes : List Suffix :=
  [.word, .long]

/-- A data register or an address register. -/
def IsRegister (x : Operand) : Prop :=
  ∃ r : Fin 8, x = .dataReg r ∨ x = .addrReg r

/-- The operations of a processor model. -/
inductive Repertoire (cpu : Cpu) : Operation -> Prop
  -- Immediate data.
  | immediate {op : Opcode} {size : Suffix} {v : UInt32} {x : Operand}
      (hop : op ∈ [.ori, .andi, .subi, .addi, .eori, .cmpi]) (hsize : size ∈ dataSizes)
      (hx : Accepts cpu (immediateTarget cpu op) x) :
      Repertoire cpu (.binary op size (.immediate v) x)
  | immediateToCcr {op : Opcode} {v : UInt32} (hop : worksOnStatus op = true) :
      Repertoire cpu (.binary op .byte (.immediate v) .ccr)
  | immediateToSr {op : Opcode} {v : UInt32} (hop : worksOnStatus op = true) :
      Repertoire cpu (.binary op .word (.immediate v) .sr)
  | moveq {v : UInt32} (r : Fin 8) :
      Repertoire cpu (.binary .moveq .none (.immediate v) (.dataReg r))
  | quick {op : Opcode} {size : Suffix} {v : UInt32} {x : Operand}
      (hop : op ∈ [.addq, .subq]) (hsize : size ∈ dataSizes)
      (hx : Accepts cpu (fun m => m.isAlterable && anySource size m) x) :
      Repertoire cpu (.binary op size (.immediate v) x)
  -- Single bits.
  | bitStatic {op : Opcode} {v : UInt32} {x : Operand} (hop : op ∈ [.btst, .bchg, .bclr, .bset])
      (hx : Accepts cpu
        (fun m => if op = .btst then m.isData && m != .immediate else m.isDataAlterable) x) :
      Repertoire cpu (.binary op .none (.immediate v) x)
  | bitDynamic {op : Opcode} {x : Operand} (hop : op ∈ [.btst, .bchg, .bclr, .bset]) (r : Fin 8)
      (hx : Accepts cpu (fun m => if op = .btst then m.isData else m.isDataAlterable) x) :
      Repertoire cpu (.binary op .none (.dataReg r) x)
  -- Bounds and compare-and-swap.
  | bounds {op : Opcode} {size : Suffix} {x r : Operand} (h020 : cpu.is020 = true)
      (hop : op ∈ [.cmp2, .chk2]) (hsize : size ∈ dataSizes) (hx : Accepts cpu Mode.isControl x)
      (hr : IsRegister r) : Repertoire cpu (.binary op size x r)
  | cas {size : Suffix} {x : Operand} (h020 : cpu.is020 = true) (hsize : size ∈ dataSizes)
      (r s : Fin 8) (hx : Accepts cpu Mode.isMemoryAlterable x) :
      Repertoire cpu (.ternary .cas size (.dataReg r) (.dataReg s) x)
  | cas2 {size : Suffix} (h020 : cpu.is020 = true) (hsize : size ∈ addressSizes)
      (r s t u : Fin 8) {m n : Nat} (hm : m < 16) (hn : n < 16) :
      Repertoire cpu (.ternary .cas2 size (.regPair r s) (.regPair t u)
        (.indirectPair (.ofNumber m) (.ofNumber n)))
  -- Moves.
  | move {size : Suffix} {x y : Operand} (hsize : size ∈ dataSizes)
      (hx : Accepts cpu (anySource size) x) (hy : Accepts cpu Mode.isDataAlterable y) :
      Repertoire cpu (.binary .move size x y)
  | movea {size : Suffix} {x : Operand} (hsize : size ∈ addressSizes)
      (hx : Accepts cpu (anySource size) x) (r : Fin 8) :
      Repertoire cpu (.binary .movea size x (.addrReg r))
  | moveToUsp (r : Fin 8) : Repertoire cpu (.binary .move .long (.addrReg r) .usp)
  | moveFromUsp (r : Fin 8) : Repertoire cpu (.binary .move .long .usp (.addrReg r))
  | moveFromSr {x : Operand} (hx : Accepts cpu Mode.isDataAlterable x) :
      Repertoire cpu (.binary .move .word .sr x)
  | moveFromCcr {x : Operand} (h010 : cpu.is010 = true)
      (hx : Accepts cpu Mode.isDataAlterable x) : Repertoire cpu (.binary .move .word .ccr x)
  | moveToCcr {x : Operand} (hx : Accepts cpu Mode.isData x) :
      Repertoire cpu (.binary .move .word x .ccr)
  | moveToSr {x : Operand} (hx : Accepts cpu Mode.isData x) :
      Repertoire cpu (.binary .move .word x .sr)
  | movepLoad {size : Suffix} (hsize : size ∈ addressSizes) (r s : Fin 8) (d : Int16) :
      Repertoire cpu (.binary .movep size (.disp16 r d) (.dataReg s))
  | movepStore {size : Suffix} (hsize : size ∈ addressSizes) (r s : Fin 8) (d : Int16) :
      Repertoire cpu (.binary .movep size (.dataReg s) (.disp16 r d))
  | movesLoad {size : Suffix} {x r : Operand} (h010 : cpu.is010 = true)
      (hsize : size ∈ dataSizes) (hx : Accepts cpu Mode.isMemoryAlterable x)
      (hr : IsRegister r) : Repertoire cpu (.binary .moves size x r)
  | movesStore {size : Suffix} {x r : Operand} (h010 : cpu.is010 = true)
      (hsize : size ∈ dataSizes) (hx : Accepts cpu Mode.isMemoryAlterable x)
      (hr : IsRegister r) : Repertoire cpu (.binary .moves size r x)
  | movemLoad {size : Suffix} {x : Operand} (hsize : size ∈ addressSizes)
      (hx : Accepts cpu (fun m => m.isControl || m = .postInc) x) (mask : UInt16) :
      Repertoire cpu (.binary .movem size x (.regList mask))
  | movemStore {size : Suffix} {x : Operand} (hsize : size ∈ addressSizes)
      (hx : Accepts cpu (fun m => m.isControlAlterable || m = .preDec) x) (mask : UInt16) :
      Repertoire cpu (.binary .movem size (.regList mask) x)
  | movecLoad {r : Operand} {code : UInt16} (h010 : cpu.is010 = true)
      (hcode : hasControlReg cpu code = true) (hr : IsRegister r) :
      Repertoire cpu (.binary .movec .none (.controlReg code) r)
  | movecStore {r : Operand} {code : UInt16} (h010 : cpu.is010 = true)
      (hcode : hasControlReg cpu code = true) (hr : IsRegister r) :
      Repertoire cpu (.binary .movec .none r (.controlReg code))
  | exgData (r s : Fin 8) : Repertoire cpu (.binary .exg .none (.dataReg r) (.dataReg s))
  | exgAddress (r s : Fin 8) : Repertoire cpu (.binary .exg .none (.addrReg r) (.addrReg s))
  | exgBoth (r s : Fin 8) : Repertoire cpu (.binary .exg .none (.dataReg r) (.addrReg s))
  -- Arithmetic and logic.
  | logicLoad {op : Opcode} {size : Suffix} {x : Operand} (hop : op ∈ [.or, .and])
      (hsize : size ∈ dataSizes) (hx : Accepts cpu Mode.isData x) (r : Fin 8) :
      Repertoire cpu (.binary op size x (.dataReg r))
  | dataLoad {op : Opcode} {size : Suffix} {x : Operand} (hop : op ∈ [.sub, .add, .cmp])
      (hsize : size ∈ dataSizes) (hx : Accepts cpu (anySource size) x) (r : Fin 8) :
      Repertoire cpu (.binary op size x (.dataReg r))
  | dataStore {op : Opcode} {size : Suffix} {x : Operand} (hop : op ∈ [.or, .and, .sub, .add])
      (hsize : size ∈ dataSizes) (r : Fin 8) (hx : Accepts cpu Mode.isMemoryAlterable x) :
      Repertoire cpu (.binary op size (.dataReg r) x)
  | eor {size : Suffix} {x : Operand} (hsize : size ∈ dataSizes) (r : Fin 8)
      (hx : Accepts cpu Mode.isDataAlterable x) :
      Repertoire cpu (.binary .eor size (.dataReg r) x)
  | addressLoad {op : Opcode} {size : Suffix} {x : Operand} (hop : op ∈ [.suba, .adda, .cmpa])
      (hsize : size ∈ addressSizes) (hx : Accepts cpu (fun _ => true) x) (r : Fin 8) :
      Repertoire cpu (.binary op size x (.addrReg r))
  | cmpm {size : Suffix} (hsize : size ∈ dataSizes) (r s : Fin 8) :
      Repertoire cpu (.binary .cmpm size (.postInc r) (.postInc s))
  | extendedRegisters {op : Opcode} {size : Suffix}
      (h : op ∈ [.abcd, .sbcd] ∧ size = .none ∨ op ∈ [.addx, .subx] ∧ size ∈ dataSizes)
      (r s : Fin 8) : Repertoire cpu (.binary op size (.dataReg r) (.dataReg s))
  | extendedMemory {op : Opcode} {size : Suffix}
      (h : op ∈ [.abcd, .sbcd] ∧ size = .none ∨ op ∈ [.addx, .subx] ∧ size ∈ dataSizes)
      (r s : Fin 8) : Repertoire cpu (.binary op size (.preDec r) (.preDec s))
  | packedRegisters {op : Opcode} {v : UInt32} (h020 : cpu.is020 = true)
      (hop : op ∈ [.pack, .unpk]) (r s : Fin 8) :
      Repertoire cpu (.ternary op .none (.dataReg r) (.dataReg s) (.immediate v))
  | packedMemory {op : Opcode} {v : UInt32} (h020 : cpu.is020 = true)
      (hop : op ∈ [.pack, .unpk]) (r s : Fin 8) :
      Repertoire cpu (.ternary op .none (.preDec r) (.preDec s) (.immediate v))
  | multiplyWord {op : Opcode} {x : Operand} (hop : op ∈ [.divu, .divs, .mulu, .muls])
      (hx : Accepts cpu Mode.isData x) (r : Fin 8) :
      Repertoire cpu (.binary op .word x (.dataReg r))
  | multiplyLong {op : Opcode} {x : Operand} (h020 : cpu.is020 = true)
      (hop : op ∈ [.divu, .divs, .mulu, .muls]) (hx : Accepts cpu Mode.isData x) (r : Fin 8) :
      Repertoire cpu (.binary op .long x (.dataReg r))
  | multiplyPair {op : Opcode} {x : Operand} (h020 : cpu.is020 = true)
      (hop : op ∈ [.divu, .divs, .divul, .divsl, .mulu, .muls]) (hx : Accepts cpu Mode.isData x)
      (r s : Fin 8) : Repertoire cpu (.binary op .long x (.regPair r s))
  -- Shifts and bit fields.
  | shiftRegister {op : Opcode} {size : Suffix} {x : Operand}
      (hop : op ∈ [.asr, .asl, .lsr, .lsl, .roxr, .roxl, .ror, .rol]) (hsize : size ∈ dataSizes)
      (hx : (∃ s : Fin 8, x = .dataReg s) ∨ IsImmediate x) (r : Fin 8) :
      Repertoire cpu (.binary op size x (.dataReg r))
  | shiftMemory {op : Opcode} {x : Operand}
      (hop : op ∈ [.asr, .asl, .lsr, .lsl, .roxr, .roxl, .ror, .rol])
      (hx : Accepts cpu Mode.isMemoryAlterable x) : Repertoire cpu (.unary op .word x)
  | bitfieldRead {op : Opcode} {x : Operand} (h020 : cpu.is020 = true)
      (hop : op ∈ [.bfextu, .bfexts, .bfffo]) (hx : Accepts cpu (bitfieldTarget op) x)
      (r : Fin 8) (ext : UInt16) :
      Repertoire cpu { Operation.binary op .none x (.dataReg r) with
        firstField := some (Decoder.bitfieldOf ext) }
  | bitfieldInsert {x : Operand} (h020 : cpu.is020 = true)
      (hx : Accepts cpu (bitfieldTarget .bfins) x) (r : Fin 8) (ext : UInt16) :
      Repertoire cpu { Operation.binary .bfins .none (.dataReg r) x with
        secondField := some (Decoder.bitfieldOf ext) }
  | bitfieldChange {op : Opcode} {x : Operand} (h020 : cpu.is020 = true)
      (hop : op ∈ [.bftst, .bfchg, .bfclr, .bfset]) (hx : Accepts cpu (bitfieldTarget op) x)
      (ext : UInt16) :
      Repertoire cpu { Operation.unary op .none x with
        firstField := some (Decoder.bitfieldOf ext) }
  -- One operand.
  | single {op : Opcode} {size : Suffix} {x : Operand} (hop : op ∈ [.negx, .clr, .neg, .not])
      (hsize : size ∈ dataSizes) (hx : Accepts cpu Mode.isDataAlterable x) :
      Repertoire cpu (.unary op size x)
  | tst {size : Suffix} {x : Operand} (hsize : size ∈ dataSizes)
      (hx : Accepts cpu (testTarget cpu size) x) : Repertoire cpu (.unary .tst size x)
  | byteSingle {op : Opcode} {x : Operand} (hop : op ∈ [.nbcd, .tas])
      (hx : Accepts cpu Mode.isDataAlterable x) : Repertoire cpu (.unary op .none x)
  | control {op : Opcode} {x : Operand} (hop : op ∈ [.jsr, .jmp, .pea])
      (hx : Accepts cpu Mode.isControl x) : Repertoire cpu (.unary op .none x)
  | lea {x : Operand} (hx : Accepts cpu Mode.isControl x) (r : Fin 8) :
      Repertoire cpu (.binary .lea .none x (.addrReg r))
  | chk {size : Suffix} {x : Operand} (h : size = .word ∨ size = .long ∧ cpu.is020 = true)
      (hx : Accepts cpu Mode.isData x) (r : Fin 8) :
      Repertoire cpu (.binary .chk size x (.dataReg r))
  | swap (r : Fin 8) : Repertoire cpu (.unary .swap .none (.dataReg r))
  | ext {size : Suffix} (hsize : size ∈ addressSizes) (r : Fin 8) :
      Repertoire cpu (.unary .ext size (.dataReg r))
  | extb (h020 : cpu.is020 = true) (r : Fin 8) :
      Repertoire cpu (.unary .extb .long (.dataReg r))
  | link {size : Suffix} {v : UInt32} (h : size = .word ∨ size = .long ∧ cpu.is020 = true)
      (r : Fin 8) : Repertoire cpu (.binary .link size (.addrReg r) (.immediate v))
  | unlk (r : Fin 8) : Repertoire cpu (.unary .unlk .none (.addrReg r))
  -- Program control.
  | plain {op : Opcode} (hop : op ∈ [.illegal, .reset, .nop, .rte, .rts, .trapv, .rtr]) :
      Repertoire cpu (.nullary op .none)
  | stop {v : UInt32} : Repertoire cpu (.unary .stop .none (.immediate v))
  | rtd {v : UInt32} (h010 : cpu.is010 = true) :
      Repertoire cpu (.unary .rtd .none (.immediate v))
  | trap {v : UInt32} : Repertoire cpu (.unary .trap .none (.immediate v))
  | bkpt {v : UInt32} (h010 : cpu.is010 = true) :
      Repertoire cpu (.unary .bkpt .none (.immediate v))
  | branch {size : Suffix} (c : Condition) (hc : c ≠ .f) (d : Int32)
      (h : size = .short ∨ size = .word ∨ size = .long ∧ cpu.is020 = true) :
      Repertoire cpu (.unary (.branch c) size (.branch d))
  | bsr {size : Suffix} (d : Int32)
      (h : size = .short ∨ size = .word ∨ size = .long ∧ cpu.is020 = true) :
      Repertoire cpu (.unary .bsr size (.branch d))
  | loop (c : Condition) (r : Fin 8) (d : Int32) :
      Repertoire cpu (.binary (.loop c) .none (.dataReg r) (.branch d))
  | set {x : Operand} (c : Condition) (hx : Accepts cpu Mode.isDataAlterable x) :
      Repertoire cpu (.unary (.set c) .none x)
  | trapOn (h020 : cpu.is020 = true) (c : Condition) :
      Repertoire cpu (.nullary (.trapOn c) .none)
  | trapOnImmediate {size : Suffix} {v : UInt32} (h020 : cpu.is020 = true)
      (hsize : size ∈ addressSizes) (c : Condition) :
      Repertoire cpu (.unary (.trapOn c) size (.immediate v))

end M68k
end Disassembler
