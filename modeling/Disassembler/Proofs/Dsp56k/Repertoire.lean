import Disassembler.Dsp56k.Decode

/-!
# The instruction repertoire

Which operations there are, with the operands that each of them takes and the
words that follow its first word.  Only an absolute address and immediate data
that do not fit into the first word have a word of their own.
-/

namespace Disassembler
namespace Dsp56k

open Decoder (whole register6? accumulator inputRegister xRegister yRegister longRegister factors
  bothMode bitOpcode bitJumpOpcode ordered directed Moves withMoves)

/-! ## The words of an operation -/

namespace Operand

/-- The number of words that an operand has to itself. -/
def words : Operand -> Nat
  | immLong _ | absLong _ _ => 1
  | _ => 0

@[simp] theorem words_immShort (v : UInt32) : (immShort v).words = 0 :=
  rfl

@[simp] theorem words_reg (r : Register) : (reg r).words = 0 :=
  rfl

@[simp] theorem words_indirect (mode : IndirectMode) (space : Space) (r : Nat) :
    (indirect mode space r).words = 0 :=
  rfl

@[simp] theorem words_absLong (space : Space) (a : UInt32) : (absLong space a).words = 1 :=
  rfl

@[simp] theorem words_ioShort (space : Space) (a : UInt32) : (ioShort space a).words = 0 :=
  rfl

/-- An operand that can be absent. -/
def wordsOf (x : Option Operand) : Nat :=
  x.elim 0 words

end Operand

def Move.words (m : Move) : Nat :=
  Operand.wordsOf m.source + Operand.wordsOf m.destination

/-- The number of words after the first one that the operands and the moves
have. -/
def Operation.words (o : Operation) : Nat :=
  Operand.wordsOf o.first + Operand.wordsOf o.second + Operand.wordsOf o.third
    + o.transfer.words + o.moveX.words + o.moveY.words

/-! ## Operands -/

/-- The modes in which an address register is used. -/
def indirectModes : List IndirectMode :=
  [.postDecN, .postIncN, .postDec, .postInc, .noUpdate, .indexedN, .preDec]

/-- The modes that update an address register. -/
def updateModes : List IndirectMode :=
  [.postDecN, .postIncN, .postDec, .postInc]

/-- The spaces of data. -/
def dataSpaces : List Space :=
  [.x, .y]

/-- A register that has a six bit code. -/
def IsRegister (x : Operand) : Prop :=
  ∃ code r, register6? code = some r ∧ x = .reg r

/-- What an effective address stands for, with the words that it continues in. -/
inductive Effective (space : Space) (allowImmediate : Bool) : List Word24 -> Operand -> Prop
  | indirect {mode : IndirectMode} {r : Nat} (hmode : mode ∈ indirectModes) (hr : r < 8) :
      Effective space allowImmediate [] (.indirect mode space r)
  | absolute (ext : Word24) :
      Effective space allowImmediate [ext] (.absLong space (whole ext))
  | immediate (ext : Word24) (hallow : allowImmediate = true) :
      Effective space allowImmediate [ext] (.immLong (whole ext))

/-- An effective address or an address in the first word. -/
inductive Memory (space : Space) (allowImmediate : Bool) : List Word24 -> Operand -> Prop
  | effective {ext : List Word24} {x : Operand} (hx : Effective space allowImmediate ext x) :
      Memory space allowImmediate ext x
  | short {a : UInt32} (ha : a < 64) : Memory space allowImmediate [] (.absShort space a)

/-- The number of repetitions of a loop. -/
inductive LoopCount : List Word24 -> Operand -> Prop
  | immediate {v : UInt32} (hv : v < 4096) : LoopCount [] (.immShort v)
  | memory {space : Space} {ext : List Word24} {x : Operand} (hspace : space ∈ dataSpaces)
      (hx : Memory space false ext x) : LoopCount ext x
  | register {x : Operand} (hx : IsRegister x) : LoopCount [] x

/-- The place of a single bit. -/
inductive BitPlace : List Word24 -> Operand -> Prop
  | memory {space : Space} {ext : List Word24} {x : Operand} (hspace : space ∈ dataSpaces)
      (hx : Memory space false ext x) : BitPlace ext x
  | peripheral {space : Space} {a : UInt32} (hspace : space ∈ dataSpaces) (ha : a < 64) :
      BitPlace [] (.ioShort space a)
  | register {x : Operand} (hx : IsRegister x) : BitPlace [] x

/-! ## Parallel instructions -/

/-- The operations of the data ALU. -/
inductive Arithmetic : Operation -> Prop
  | move : Arithmetic (.nullary .move)
  | single {op : Opcode}
      (hop : op ∈ [.tst, .rnd, .clr, .not, .asr, .lsr, .abs, .ror, .asl, .lsl, .neg, .rol])
      (acc : Bool) : Arithmetic (.unary op (accumulator acc))
  | both {op : Opcode} (hop : op ∈ [.tfr, .addr, .cmp, .subr, .cmpm, .add, .addl, .sub, .subl])
      (acc : Bool) : Arithmetic (.binary op (accumulator !acc) (accumulator acc))
  | pair {op : Opcode} {r : Register} (hop : op ∈ [.add, .adc, .sub, .sbc]) (hr : r ∈ [.x, .y])
      (acc : Bool) : Arithmetic (.binary op (.reg r) (accumulator acc))
  | input {op : Opcode} (hop : op ∈ [.add, .tfr, .or, .eor, .sub, .cmp, .and, .cmpm]) (n : Nat)
      (acc : Bool) : Arithmetic (.binary op (inputRegister n) (accumulator acc))
  | product {op : Opcode} (hop : op ∈ [.mpy, .mpyr, .mac, .macr]) (n : Nat)
      (acc negated : Bool) :
      Arithmetic { Operation.ternary op (.reg (factors n).1) (.reg (factors n).2)
        (accumulator acc) with negated }

/-- The moves beside an operation of the data ALU. -/
inductive Beside : List Word24 -> Moves -> Prop
  | none : Beside [] {}
  | update {mode : IndirectMode} {r : Nat} (hmode : mode ∈ updateModes) (hr : r < 8) :
      Beside [] { first := { source := some (.indirect mode .none r) } }
  | registers {x y : Operand} (hx : IsRegister x) (hy : IsRegister y) :
      Beside [] { first := .between x y }
  | immediate {v : UInt32} {x : Operand} (hv : v < 256) (hx : IsRegister x) :
      Beside [] { first := .between (.immShort v) x }
  | oneSpace {space : Space} {load : Bool} {ext : List Word24} {x y : Operand}
      (hspace : space ∈ dataSpaces) (hx : Memory space load ext x) (hy : IsRegister y) :
      Beside ext { first := directed load x y }
  | longSpace {ext : List Word24} {x : Operand} (load : Bool) (hx : Memory .l false ext x)
      (n : Nat) : Beside ext { first := directed load x (longRegister n) }
  | spaceX {load : Bool} {ext : List Word24} {x : Operand} (hx : Effective .x load ext x)
      (m : Nat) (acc : Bool) {n : Nat} (hn : n < 2) :
      Beside ext { first := directed load x (xRegister m)
                   second := .between (accumulator acc) (yRegister n) }
  | spaceY {load : Bool} {ext : List Word24} {x : Operand} (acc : Bool) {m : Nat} (hm : m < 2)
      (hx : Effective .y load ext x) (n : Nat) :
      Beside ext { first := .between (accumulator acc) (xRegister m)
                   second := directed load x (yRegister n) }
  | bothSpaces (loadX loadY : Bool) (modeX modeY m n : Nat) {r s : Nat} (hr : r < 8) (hs : s < 8)
      (hbank : r < 4 ↔ 4 ≤ s) :
      Beside [] { first := directed loadX (.indirect (bothMode modeX) .x r) (xRegister m)
                  second := directed loadY (.indirect (bothMode modeY) .y s) (yRegister n) }
  | exchangeX {ext : List Word24} {x : Operand} (acc : Bool) (hx : Effective .x false ext x) :
      Beside ext { first := .between (accumulator acc) x
                   second := .between (.reg .x0) (accumulator acc) }
  | exchangeY {ext : List Word24} {x : Operand} (acc : Bool) (hx : Effective .y false ext x) :
      Beside ext { first := .between (.reg .y0) (accumulator acc)
                   second := .between (accumulator acc) x }

/-! ## Operations -/

/-- A jump or a call that looks at no bit. -/
def IsJump (op : Opcode) : Prop :=
  op = .jmp ∨ op = .jsr ∨ ∃ c, op = .jumpOn c ∨ op = .callOn c

/-- The operations with an operand that says where a jump goes or a loop
ends. -/
inductive Targeted : List Word24 -> Operation -> Prop
  | jump {op : Opcode} {ext : List Word24} {x : Operand} (hop : IsJump op)
      (hx : Effective .none false ext x) : Targeted ext (.unary op x)
  | jumpShort {op : Opcode} {a : UInt32} (hop : IsJump op) (ha : a < 4096) :
      Targeted [] (.unary op (.absShort .none a))
  | doLoop {ext : List Word24} {x : Operand} (hx : LoopCount ext x) (last : Word24) :
      Targeted (ext ++ [last])
        (.binary .doLoop x (.absLong .none ((whole last + 1) % 0x10000)))
  | bitJump (call value : Bool) {n : UInt32} {ext : List Word24} {x : Operand} (hn : n < 32)
      (hx : BitPlace ext x) (target : Word24) :
      Targeted (ext ++ [target])
        (.ternary (bitJumpOpcode call value) (.immShort n) x
          (.absLong .none (whole target % 0x10000)))

/-- The operations, each with the words after its first one. -/
inductive Repertoire : List Word24 -> Operation -> Prop
  | parallel {ext : List Word24} {o : Operation} {m : Moves} (ho : Arithmetic o)
      (hm : Beside ext m) : Repertoire ext (withMoves o m)
  -- Registers and status.
  | plain {op : Opcode}
      (hop : op ∈ [.nop, .rti, .illegal, .swi, .rts, .reset, .wait, .stop, .enddo]) :
      Repertoire [] (.nullary op)
  | statusLogic {op : Opcode} {v : UInt32} {r : Register} (hop : op ∈ [.andi, .ori])
      (hv : v < 256) (hr : r ∈ [.mr, .ccr, .omr]) :
      Repertoire [] (.binary op (.immShort v) (.reg r))
  | divide (n : Nat) (acc : Bool) :
      Repertoire [] (.binary .div (inputRegister n) (accumulator acc))
  | normalize (r : Fin 8) (acc : Bool) :
      Repertoire [] (.binary .norm (.reg (.r r)) (accumulator acc))
  | transfer (c : Condition) (acc : Bool) {x : Operand}
      (hx : x = accumulator (!acc) ∨ ∃ n, x = inputRegister n) :
      Repertoire [] (.binary (.transferOn c) x (accumulator acc))
  | transferBoth (c : Condition) (acc : Bool) {x : Operand}
      (hx : x = accumulator (!acc) ∨ ∃ n, x = inputRegister n) (r s : Fin 8) :
      Repertoire [] { Operation.binary (.transferOn c) x (accumulator acc) with
        transfer := .between (.reg (.r r)) (.reg (.r s)) }
  | loadUpdated {mode : IndirectMode} {r : Nat} {s : Register} (hmode : mode ∈ updateModes)
      (hr : r < 8) (hs : ∃ k, s = .n k ∨ s = .r k) :
      Repertoire [] (.binary .lua (.indirect mode .none r) (.reg s))
  -- Moves without an operation of the data ALU.
  | moveControlRegister (load : Bool) {x y : Operand} (hx : IsRegister x) (hy : IsRegister y) :
      Repertoire [] (ordered .movec load x y)
  | moveControlImmediate {v : UInt32} {y : Operand} (hv : v < 256) (hy : IsRegister y) :
      Repertoire [] (.binary .movec (.immShort v) y)
  | moveControlMemory {load : Bool} {space : Space} {ext : List Word24} {x y : Operand}
      (hspace : space ∈ dataSpaces) (hx : Memory space load ext x) (hy : IsRegister y) :
      Repertoire ext (ordered .movec load x y)
  | moveProgram {load : Bool} {ext : List Word24} {x y : Operand} (hx : Memory .p load ext x)
      (hy : IsRegister y) : Repertoire ext (ordered .movem load x y)
  | movePeripheral {load : Bool} {space space' : Space} {ext : List Word24} {x : Operand}
      {a : UInt32} (hspace : space ∈ .p :: dataSpaces) (hx : Effective space load ext x)
      (hspace' : space' ∈ dataSpaces) (ha : a < 64) :
      Repertoire ext (ordered .movep load x (.ioShort space' a))
  | movePeripheralRegister (load : Bool) {space : Space} {x : Operand} {a : UInt32}
      (hx : IsRegister x) (hspace : space ∈ dataSpaces) (ha : a < 64) :
      Repertoire [] (ordered .movep load x (.ioShort space a))
  -- Loops, bits and jumps.
  | rep {ext : List Word24} {x : Operand} (hx : LoopCount ext x) :
      Repertoire ext (.unary .rep x)
  | bit (upper value : Bool) {n : UInt32} {ext : List Word24} {x : Operand} (hn : n < 32)
      (hx : BitPlace ext x) :
      Repertoire ext (.binary (bitOpcode upper value) (.immShort n) x)
  | targeted {ext : List Word24} {o : Operation} (h : Targeted ext o) : Repertoire ext o

/-! ## Opcodes -/

/-- The opcodes of the data ALU. -/
def arithmeticOpcodes : List Opcode :=
  [.move, .tfr, .addr, .tst, .cmp, .subr, .cmpm, .add, .rnd, .addl, .clr, .sub, .subl, .not, .adc,
    .asr, .lsr, .sbc, .abs, .ror, .asl, .lsl, .neg, .rol, .or, .eor, .and, .mpy, .mpyr, .mac,
    .macr]

theorem Arithmetic.opcode_mem {o : Operation} (h : Arithmetic o) :
    o.opcode ∈ arithmeticOpcodes := by
  cases h with
  | move => decide
  | single hop acc => exact (by decide : _ ⊆ arithmeticOpcodes) hop
  | both hop acc => exact (by decide : _ ⊆ arithmeticOpcodes) hop
  | pair hop hr acc => exact (by decide : _ ⊆ arithmeticOpcodes) hop
  | input hop n acc => exact (by decide : _ ⊆ arithmeticOpcodes) hop
  | product hop n acc negated => exact (by decide : _ ⊆ arithmeticOpcodes) hop

theorem Targeted.opcode_ne_data {ext : List Word24} {o : Operation} (h : Targeted ext o) :
    o.opcode ≠ .data := by
  cases h with
  | jump hop hx => rcases hop with rfl | rfl | ⟨c, rfl | rfl⟩ <;> exact nofun
  | jumpShort hop ha => rcases hop with rfl | rfl | ⟨c, rfl | rfl⟩ <;> exact nofun
  | doLoop hx last => exact nofun
  | bitJump call value hn hx target => cases call <;> cases value <;> exact nofun

/-- No operation of the repertoire is a word of data. -/
theorem Repertoire.opcode_ne_data {ext : List Word24} {o : Operation} (h : Repertoire ext o) :
    o.opcode ≠ .data := by
  cases h with
  | parallel ho hm => exact (by decide : ∀ op ∈ _, op ≠ .data) _ ho.opcode_mem
  | plain hop => exact (by decide : ∀ op ∈ _, op ≠ .data) _ hop
  | statusLogic hop hv hr => exact (by decide : ∀ op ∈ _, op ≠ .data) _ hop
  | moveControlRegister load hx hy => cases load <;> exact nofun
  | @moveControlMemory load => cases load <;> exact nofun
  | @moveProgram load => cases load <;> exact nofun
  | @movePeripheral load => cases load <;> exact nofun
  | movePeripheralRegister load hx hspace ha => cases load <;> exact nofun
  | bit upper value hn hx => cases upper <;> cases value <;> exact nofun
  | targeted h => exact h.opcode_ne_data
  | _ => exact nofun

/-! ## Counting words -/

theorem IsRegister.words_eq {x : Operand} (h : IsRegister x) : x.words = 0 := by
  rcases h with ⟨code, r, _, rfl⟩
  rfl

theorem Effective.length_eq {space : Space} {allowImmediate : Bool} {ext : List Word24}
    {x : Operand} (h : Effective space allowImmediate ext x) : ext.length = x.words := by
  cases h <;> rfl

theorem Memory.length_eq {space : Space} {allowImmediate : Bool} {ext : List Word24}
    {x : Operand} (h : Memory space allowImmediate ext x) : ext.length = x.words := by
  cases h with
  | effective hx => exact hx.length_eq
  | short ha => rfl

theorem LoopCount.length_eq {ext : List Word24} {x : Operand} (h : LoopCount ext x) :
    ext.length = x.words := by
  cases h with
  | immediate hv => rfl
  | memory hspace hx => exact hx.length_eq
  | register hx => exact hx.words_eq.symm

theorem BitPlace.length_eq {ext : List Word24} {x : Operand} (h : BitPlace ext x) :
    ext.length = x.words := by
  cases h with
  | memory hspace hx => exact hx.length_eq
  | peripheral hspace ha => rfl
  | register hx => exact hx.words_eq.symm

@[simp] theorem Move.words_empty : ({} : Move).words = 0 :=
  rfl

@[simp] theorem Move.words_between (x y : Operand) :
    (Move.between x y).words = x.words + y.words :=
  rfl

@[simp] theorem Move.words_directed (load : Bool) (x y : Operand) :
    (directed load x y).words = x.words + y.words := by
  cases load with
  | true => rfl
  | false => exact Nat.add_comm y.words x.words

theorem Beside.length_eq {ext : List Word24} {m : Moves} (h : Beside ext m) :
    ext.length = m.first.words + m.second.words := by
  cases h with
  | none => rfl
  | update hmode hr => rfl
  | registers hx hy => simp [hx.words_eq, hy.words_eq]
  | immediate hv hx => simp [hx.words_eq]
  | oneSpace hspace hx hy => simp [hx.length_eq, hy.words_eq]
  | longSpace load hx n => simp [hx.length_eq, longRegister]
  | spaceX hx m acc hn => simp [hx.length_eq, xRegister, yRegister, accumulator]
  | spaceY acc hm hx n => simp [hx.length_eq, xRegister, yRegister, accumulator]
  | bothSpaces => simp [xRegister, yRegister]
  | exchangeX acc hx => simp [hx.length_eq, accumulator]
  | exchangeY acc hx => simp [hx.length_eq, accumulator]

/-- An operation of the data ALU works on registers alone. -/
theorem Arithmetic.words_withMoves {o : Operation} (h : Arithmetic o) (m : Moves) :
    (withMoves o m).words = m.first.words + m.second.words := by
  have hregisters : Operand.wordsOf o.first = 0 ∧ Operand.wordsOf o.second = 0 ∧
      Operand.wordsOf o.third = 0 ∧ o.transfer.words = 0 := by
    cases h <;> exact ⟨rfl, rfl, rfl, rfl⟩
  rcases hregisters with ⟨hfirst, hsecond, hthird, htransfer⟩
  simp only [Operation.words, withMoves, hfirst, hsecond, hthird, htransfer, Nat.zero_add]

namespace Operation

@[simp] theorem words_unary (op : Opcode) (x : Operand) : (unary op x).words = x.words :=
  rfl

@[simp] theorem words_binary (op : Opcode) (x y : Operand) :
    (binary op x y).words = x.words + y.words :=
  rfl

@[simp] theorem words_ternary (op : Opcode) (x y z : Operand) :
    (ternary op x y z).words = x.words + y.words + z.words :=
  rfl

@[simp] theorem words_ordered (op : Opcode) (forward : Bool) (x y : Operand) :
    (ordered op forward x y).words = x.words + y.words := by
  cases forward with
  | true => rfl
  | false => exact Nat.add_comm y.words x.words

end Operation

theorem Targeted.length_eq {ext : List Word24} {o : Operation} (h : Targeted ext o) :
    ext.length = o.words := by
  cases h with
  | jump hop hx => simp [hx.length_eq]
  | jumpShort hop ha => rfl
  | doLoop hx last => simp [hx.length_eq]
  | bitJump call value hn hx target => simp [hx.length_eq]

/-- The words after the first one are those of the operands and of the moves. -/
theorem Repertoire.length_eq {ext : List Word24} {o : Operation} (h : Repertoire ext o) :
    ext.length = o.words := by
  cases h with
  | parallel ho hm => rw [ho.words_withMoves, hm.length_eq]
  | plain hop => rfl
  | statusLogic hop hv hr => rfl
  | divide n acc => rfl
  | normalize r acc => rfl
  | transfer c acc hx => rcases hx with rfl | ⟨n, rfl⟩ <;> rfl
  | transferBoth c acc hx r s => rcases hx with rfl | ⟨n, rfl⟩ <;> rfl
  | loadUpdated hmode hr hs => rfl
  | moveControlRegister load hx hy => simp [hx.words_eq, hy.words_eq]
  | moveControlImmediate hv hy => simp [hy.words_eq]
  | moveControlMemory hspace hx hy => simp [hx.length_eq, hy.words_eq]
  | moveProgram hx hy => simp [hx.length_eq, hy.words_eq]
  | movePeripheral hspace hx hspace' ha => simp [hx.length_eq]
  | movePeripheralRegister load hx hspace ha => simp [hx.words_eq]
  | rep hx => simp [hx.length_eq]
  | bit upper value hn hx => simp [hx.length_eq]
  | targeted h => exact h.length_eq

theorem Operand.words_le_one (x : Operand) : x.words ≤ 1 := by
  unfold words
  split <;> decide

theorem Effective.length_le {space : Space} {allowImmediate : Bool} {ext : List Word24}
    {x : Operand} (h : Effective space allowImmediate ext x) : ext.length ≤ 1 := by
  rw [h.length_eq]
  exact x.words_le_one

theorem Memory.length_le {space : Space} {allowImmediate : Bool} {ext : List Word24}
    {x : Operand} (h : Memory space allowImmediate ext x) : ext.length ≤ 1 := by
  rw [h.length_eq]
  exact x.words_le_one

theorem Beside.length_le {ext : List Word24} {m : Moves} (h : Beside ext m) :
    ext.length ≤ 1 := by
  cases h with
  | oneSpace hspace hx hy => exact hx.length_le
  | longSpace load hx n => exact hx.length_le
  | spaceX hx m acc hn => exact hx.length_le
  | spaceY acc hm hx n => exact hx.length_le
  | exchangeX acc hx => exact hx.length_le
  | exchangeY acc hx => exact hx.length_le
  | _ => exact Nat.zero_le 1

/-! ## Operations without a target -/

/-- Whether an operand says where a jump goes or a loop ends. -/
def Opcode.hasTarget : Opcode -> Bool
  | .jmp | .jsr | .jumpOn _ | .callOn _ => true
  | .jclr | .jset | .jsclr | .jsset => true
  | .doLoop => true
  | _ => false

/-- Only an operation with a target can have more than one word after its first
one. -/
theorem Repertoire.targeted_or {ext : List Word24} {o : Operation} (h : Repertoire ext o) :
    Targeted ext o ∨ o.opcode.hasTarget = false ∧ ext.length ≤ 1 := by
  cases h with
  | targeted h => exact Or.inl h
  | parallel ho hm =>
      have hop := (by decide : ∀ op ∈ arithmeticOpcodes, op.hasTarget = false) _ ho.opcode_mem
      exact Or.inr ⟨hop, hm.length_le⟩
  | plain hop =>
      exact Or.inr ⟨(by decide : ∀ op ∈ _, Opcode.hasTarget op = false) _ hop, Nat.zero_le 1⟩
  | statusLogic hop hv hr =>
      exact Or.inr ⟨(by decide : ∀ op ∈ _, Opcode.hasTarget op = false) _ hop, Nat.zero_le 1⟩
  | moveControlRegister load hx hy => cases load <;> exact Or.inr ⟨rfl, Nat.zero_le 1⟩
  | @moveControlMemory load _ _ _ _ hspace hx hy =>
      cases load <;> exact Or.inr ⟨rfl, hx.length_le⟩
  | @moveProgram load _ _ _ hx hy => cases load <;> exact Or.inr ⟨rfl, hx.length_le⟩
  | @movePeripheral load _ _ _ _ _ hspace hx hspace' ha =>
      cases load <;> exact Or.inr ⟨rfl, hx.length_le⟩
  | movePeripheralRegister load hx hspace ha => cases load <;> exact Or.inr ⟨rfl, Nat.zero_le 1⟩
  | @rep _ x hx => exact Or.inr ⟨rfl, hx.length_eq ▸ x.words_le_one⟩
  | @bit upper value _ _ x hn hx =>
      cases upper <;> cases value <;> exact Or.inr ⟨rfl, hx.length_eq ▸ x.words_le_one⟩
  | _ => exact Or.inr ⟨rfl, Nat.zero_le 1⟩

end Dsp56k
end Disassembler
