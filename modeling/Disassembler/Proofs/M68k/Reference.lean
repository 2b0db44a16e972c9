import Disassembler.Proofs.M68k.Bracket
import Disassembler.Proofs.M68k.Placement

/-!
# What relative operands refer to

An operand relative to the program counter refers to one address.  The effective
address, the target of a branch and the text of the operand agree on it.
-/

namespace Disassembler
namespace M68k

open Number (AfterNumber afterNumber_cons)

/-! ## Targets of branches -/

theorem Accepts.isBranch {cpu : Cpu} {allowed : Mode -> Bool} {x : Operand}
    (hx : Accepts cpu allowed x) : x.isBranch = false := by
  have hspecial := hx.isSpecial
  cases x with
  | branch d => cases hspecial
  | _ => rfl

theorem IsRegister.isBranch {x : Operand} (hx : IsRegister x) : x.isBranch = false := by
  rcases hx with ⟨r, rfl | rfl⟩ <;> rfl

open Operation in
/-- The destination in the operands of a branch or a loop is its target.  Nothing
else has a destination. -/
theorem Repertoire.targetOperand?_eq {cpu : Cpu} {o : Operation} (h : Repertoire cpu o)
    (header : UInt16) (length : Nat) :
    ∀ x ∈ o.present, x.isBranch = true ->
      ({ o with header := header, length := length } : Instruction).targetOperand? = some x := by
  have hnone (hfalse : ∀ x ∈ o.present, x.isBranch = false) :
      ∀ x ∈ o.present, x.isBranch = true ->
        ({ o with header := header, length := length } : Instruction).targetOperand? =
          some x := by
    intro x hx hbranch
    rw [hfalse x hx] at hbranch
    cases hbranch
  cases h with
  | branch c hc d h | bsr d h => exact forall_unary fun _ => rfl
  | loop c r d => exact forall_binary (absurd · Bool.false_ne_true) fun _ => rfl
  | immediate hop hsize hx | quick hop hsize hx | bitStatic hop hx | bitDynamic hop r hx
  | dataStore hop hsize r hx | eor hsize r hx | bitfieldInsert h020 hx r ext | moveFromSr hx
  | moveFromCcr h010 hx | movemStore hsize hx mask => exact hnone (forall_binary rfl hx.isBranch)
  | movea hsize hx r | addressLoad hop hsize hx r | lea hx r | moveToCcr hx | moveToSr hx
  | movemLoad hsize hx mask | logicLoad hop hsize hx r | dataLoad hop hsize hx r
  | multiplyWord hop hx r | multiplyLong h020 hop hx r | bitfieldRead h020 hop hx r ext
  | chk h hx r | multiplyPair h020 hop hx r s => exact hnone (forall_binary hx.isBranch rfl)
  | bounds h020 hop hsize hx hr | movesLoad h010 hsize hx hr | move hsize hx hr =>
      exact hnone (forall_binary hx.isBranch hr.isBranch)
  | movesStore h010 hsize hx hr => exact hnone (forall_binary hr.isBranch hx.isBranch)
  | movecLoad h010 hcode hr => exact hnone (forall_binary rfl hr.isBranch)
  | movecStore h010 hcode hr => exact hnone (forall_binary hr.isBranch rfl)
  | shiftRegister hop hsize hx r =>
      rcases hx with ⟨s, rfl⟩ | ⟨v, rfl⟩ <;> exact hnone (forall_binary rfl rfl)
  | cas h020 hsize r s hx => exact hnone (forall_ternary rfl rfl hx.isBranch)
  | cas2 | packedRegisters | packedMemory => exact hnone (forall_ternary rfl rfl rfl)
  | shiftMemory hop hx | bitfieldChange h020 hop hx ext | single hop hsize hx | tst hsize hx
  | byteSingle hop hx | control hop hx | set c hx => exact hnone (forall_unary hx.isBranch)
  | swap | ext | extb | unlk | stop | rtd | trap | bkpt | trapOnImmediate =>
      exact hnone (forall_unary rfl)
  | plain | trapOn => exact hnone (List.forall_mem_nil _)
  | _ => exact hnone (forall_binary rfl rfl)

/-! ## Texts -/

/-- A number stands at the front of a text, or right after what opens it. -/
def Shows (s : String) (v : UInt32) : Prop :=
  ∃ opening after : String, s = opening ++ Number.hex v ++ after ∧
    opening ∈ ["", "(", "(["] ∧ AfterNumber after.toList

/-- No digit follows the first of some texts that are joined with commas. -/
theorem exists_join_cons_afterNumber (s : String) (rest : List String) (closing : String)
    (hclosing : AfterNumber closing.toList) :
    ∃ after, Text.join "," (s :: rest) ++ closing = s ++ after ∧ AfterNumber after.toList := by
  cases rest with
  | nil => exact ⟨closing, rfl, hclosing⟩
  | cons t rest =>
      refine ⟨"," ++ (Text.join "," (t :: rest) ++ closing), ?_, ?_⟩
      · rw [Text.join]
        simp only [String.append_assoc]
      · rw [String.toList_append]
        exact afterNumber_cons (by decide) _

theorem FullExt.exists_text_eq_baseDispText (e : FullExt) (addr : UInt32) (inner : Nat)
    (h : e.hasBaseDisp = true) :
    ∃ opening after : String, e.text inner addr = opening ++ e.baseDispText addr ++ after ∧
      opening ∈ ["", "(", "(["] ∧ AfterNumber after.toList := by
  cases inner with
  | zero =>
      have houtside : ∃ rest, e.outside addr 0 = e.baseDispText addr :: rest := by
        simp [outside, components, h]
      rcases houtside with ⟨rest, houtside⟩
      rcases exists_join_cons_afterNumber (e.baseDispText addr) rest ")"
        (afterNumber_cons (by decide) _) with ⟨after, hjoin, hafter⟩
      refine ⟨"(", after, ?_, by simp, hafter⟩
      rw [e.text_of_pointer_eq_nil addr rfl, houtside, String.append_assoc, hjoin,
        String.append_assoc]
  | succ inner =>
      have hpointer : ∃ rest, e.pointer addr (inner + 1) = e.baseDispText addr :: rest := by
        simp [pointer, components, h]
      rcases hpointer with ⟨rest, hpointer⟩
      -- The brackets are closed before the components outside of them.
      rcases exists_join_cons_afterNumber
        ("[" ++ Text.join "," (e.pointer addr (inner + 1)) ++ "]") (e.outside addr (inner + 1)) ")"
        (afterNumber_cons (by decide) _) with ⟨closing, hclosing, _⟩
      have hbracket : AfterNumber ("]" ++ closing).toList := by
        rw [String.toList_append]
        exact afterNumber_cons (by decide) _
      rcases exists_join_cons_afterNumber (e.baseDispText addr) rest ("]" ++ closing) hbracket
        with ⟨after, hjoin, hafter⟩
      refine ⟨"([", after, ?_, by simp, hafter⟩
      calc e.text (inner + 1) addr
          = "(" ++ (("[" ++ Text.join "," (e.pointer addr (inner + 1)) ++ "]") ++ closing) := by
            rw [e.text_of_pointer_ne_nil addr (by simp [hpointer]), String.append_assoc, hclosing]
        _ = "([" ++ (Text.join "," (e.baseDispText addr :: rest) ++ ("]" ++ closing)) := by
            have hopening : "([" = "(" ++ "[" := rfl
            rw [hopening, hpointer]
            simp only [String.append_assoc]
        _ = "([" ++ e.baseDispText addr ++ after := by
            rw [hjoin, String.append_assoc]

/-- The text of an operand shows the address that the operand refers to, unless its
displacement is left out. -/
theorem Operand.shows_of_relative? {x : Operand} {d : Int32} (h : x.relative? = some d)
    (hshown : ∀ e, x.fullExt? = some e -> e.hasBaseDisp = true) (addr : UInt32) (style : Style) :
    Shows (x.text addr style) (relative addr d) := by
  cases x with
  | postIndexed e | preIndexed e | memoryIndirect e | noMemoryIndirect e =>
      simp only [relative?, fullExt?, Option.bind_some, Option.ite_none_right_eq_some,
        Option.some.injEq, Bool.and_eq_true, beq_iff_eq] at h
      rcases h with ⟨⟨hbase, hpc⟩, rfl⟩
      have htext : e.baseDispText addr = Number.hex (relative addr e.baseDisp) :=
        if_pos ⟨hpc, hbase⟩
      rw [Operand.text, Shows, ← htext]
      exact e.exists_text_eq_baseDispText addr _ (hshown e rfl)
  | branch d' =>
      cases h
      refine ⟨"", "", by simp [Operand.text], by simp, ?_⟩
      intro c hc
      cases hc
  | pcDisp d' =>
      cases h
      exact ⟨"", "(pc)", by simp [Operand.text], by simp, afterNumber_cons (by decide) _⟩
  | pcIndexed d' i =>
      cases h
      refine ⟨"", "(pc," ++ (i.text ++ ")"), ?_, by simp, ?_⟩
      · simp [Operand.text, String.append_assoc]
      · rw [String.toList_append]
        exact afterNumber_cons (by decide) _
  | _ => cases h

/-! ## Addresses -/

theorem Encodes.places {cpu : Cpu} {code : Bytes} {inst : Instruction}
    (h : Encodes cpu code inst) :
    ∀ x ∈ inst.present, inst.Places (Word16.ofByteList code) x := by
  cases h with
  | intro heven hreads => exact Decoder.line_placed cpu _ _ _ hreads

theorem Encodes.target?_eq {cpu : Cpu} {code : Bytes} {inst : Instruction}
    (h : Encodes cpu code inst) {x : Operand} (hx : x ∈ inst.present) (hbranch : x.isBranch = true)
    (addr : UInt32) : inst.target? addr = x.address? none addr := by
  cases h with
  | intro heven hreads =>
      have hrepertoire := ((Decoder.line_sound cpu _).of_reads hreads).1
      rw [Instruction.target?, hrepertoire.targetOperand?_eq _ _ x hx hbranch]
      cases x with
      | branch d => simp [Operand.address?]
      | _ => cases hbranch

/-- An operand relative to the program counter refers to the address that the
displacement in its words gives from the place where these words begin. -/
theorem address?_of_isRelative (cpu : Cpu) (bytes : Bytes) (addr : UInt32) (style : Style)
    {x : Operand} (hx : x ∈ (decode cpu bytes).present) (hrelative : x.isRelative = true) :
    let inst := decode cpu bytes
    ∃ d, inst.displacement? (Word16.ofByteList (bytes.take inst.length)) x = some d ∧
      let destination := UInt32.ofInt (addr.toNat + inst.origin x + d)
      x.address? none addr = some destination ∧
        (x.isBranch = true -> inst.target? addr = some destination) ∧
        ((∀ e, x.fullExt? = some e -> e.hasBaseDisp = true) ->
          Shows (x.text addr style) destination) := by
  intro inst
  have hdata : inst.opcode ≠ .data := by
    intro hdata
    rw [decode_eq_data hdata] at hx
    cases hx
  have hcode := (encodes_take hdata).2
  rcases Option.isSome_iff_exists.1 (Operand.isSome_relative? hrelative) with ⟨d, hd⟩
  rcases hcode.places x hx d hd with ⟨n, hn, hdisp⟩
  have hdestination : relative addr d = UInt32.ofInt (addr.toNat + inst.origin x + n) := by
    rw [hdisp, relative_ofInt, Int.add_assoc]
  refine ⟨n, hn, ?_⟩
  rw [← hdestination]
  refine ⟨Operand.address?_of_relative? hd addr, ?_, ?_⟩
  · intro hbranch
    rw [hcode.target?_eq hx hbranch, Operand.address?_of_relative? hd]
  · intro hshown
    exact Operand.shows_of_relative? hd hshown addr style

/-- The displacement of the operand counts from behind a long immediate, and the sum
wraps around. -/
theorem address?_of_isRelative_wraps :
    let bytes : Bytes := [0x0c, 0xba, 0x00, 0x00, 0x00, 0x01, 0x00, 0x10]
    .pcDisp 22 ∈ (decode .m68020 bytes).present ∧ (Operand.pcDisp 22).isRelative = true ∧
      (Operand.pcDisp 22).address? none 0xfffffffe = some 0x14 ∧
        Shows ((Operand.pcDisp 22).text 0xfffffffe .hex) 0x14 := by
  intro bytes
  have hx : .pcDisp 22 ∈ (decode .m68020 bytes).present := by decide
  rcases address?_of_isRelative .m68020 bytes 0xfffffffe .hex hx rfl with
    ⟨d, hd, haddress, _, hshows⟩
  have hvalue : d = 16 := by
    have hwords : (decode .m68020 bytes).displacement? (Word16.ofByteList (bytes.take
      (decode .m68020 bytes).length)) (.pcDisp 22) = some 16 := by decide
    exact Option.some.inj (hd.symm.trans hwords)
  have hdestination : UInt32.ofInt ((0xfffffffe : UInt32).toNat +
      (decode .m68020 bytes).origin (.pcDisp 22) + 16) = 0x14 := by decide
  rw [hvalue, hdestination] at haddress hshows
  refine ⟨hx, rfl, haddress, hshows ?_⟩
  intro e he
  cases he

end M68k
end Disassembler
