import Disassembler.Proofs.Dsp56k.Legible
import Disassembler.Proofs.Text.Lines

/-!
# Reading operands

A reader for operands and for the groups that they make up.  It finds the operands
that a text was printed from, but for one thing: immediate data are written alike
whether they have a word of their own or not.
-/

namespace Disassembler
namespace Dsp56k

/-- Immediate data, taken for a word of their own. -/
def Operand.widen : Operand -> Operand
  | immShort v => immLong v
  | x => x

namespace Reader

open Number (readNumeral readUnsigned unsignedText)

/-! ## Operands -/

/-- Read the space in front of an address. -/
def readSpace : List Char -> Space × List Char
  | 'x' :: ':' :: s => (.x, s)
  | 'y' :: ':' :: s => (.y, s)
  | 'l' :: ':' :: s => (.l, s)
  | 'p' :: ':' :: s => (.p, s)
  | s => (.none, s)

/-- Read what follows the number of the first register. -/
def readMode : List Char -> Option IndirectMode
  | [')'] => some .noUpdate
  | [')', '-'] => some .postDec
  | [')', '+'] => some .postInc
  | ')' :: '-' :: 'n' :: _ => some .postDecN
  | ')' :: '+' :: 'n' :: _ => some .postIncN
  | '+' :: 'n' :: _ => some .indexedN
  | _ => none

/-- Read an operand of a space. -/
def readPlace (space : Space) : List Char -> Option Operand
  | '<' :: '<' :: s => some (.ioShort space (.ofNat (readUnsigned s).1 - ioBase))
  | '<' :: s => some (.absShort space (.ofNat (readUnsigned s).1))
  | '$' :: s => some (.absLong space (.ofNat (readNumeral 16 0 s).1))
  | '-' :: '(' :: 'r' :: s => some (.indirect .preDec space (readNumeral 10 0 s).1)
  | '(' :: 'r' :: s =>
      (readMode (readNumeral 10 0 s).2).map fun mode =>
        .indirect mode space (readNumeral 10 0 s).1
  | _ => none

def readOperand : List Char -> Operand
  | '#' :: s => .immLong (.ofNat (readUnsigned s).1)
  | s =>
      (readPlace (readSpace s).1 (readSpace s).2).getD
        (.reg (Register.ofName (String.ofList s)))

/-! ## Reading operands back -/

theorem afterNumber_nil : Number.AfterNumber [] :=
  nofun

theorem toList_immediateText (style : Style) (v : UInt32) :
    (immediateText style v).toList = unsignedText style v.toNat := by
  cases style with
  | decimal => simp [immediateText, Number.decDigits, unsignedText]
  | hex => exact Number.toList_hex v

theorem readOperand_immediate (style : Style) (v : UInt32) :
    readOperand ("#" ++ immediateText style v).toList = .immLong v := by
  have hread := Number.readUnsigned_unsignedText style v.toNat afterNumber_nil
  rw [List.append_nil] at hread
  rw [String.toList_append, toList_immediateText]
  show Operand.immLong (.ofNat (readUnsigned (unsignedText style v.toNat)).1) = _
  rw [hread, UInt32.ofNat_toNat]

theorem readOperand_register {r : Register}
    (hr : r ∈ Register.stored ++ Register.operandOnly) :
    readOperand r.name.toList = .reg r := by
  -- The register set is closed, so that its names are compared by evaluation.
  have hall : ∀ r ∈ Register.stored ++ Register.operandOnly,
      readOperand r.name.toList = .reg r := by
    decide +kernel
  exact hall r hr

/-- With what the operands of a space begin. -/
def placeStart : List Char :=
  ['<', '$', '-', '(']

/-- An operand in memory is read as what its space and the rest say. -/
theorem readOperand_place {space : Space} (hspace : space ∈ spaces) {c : Char}
    (hc : c ∈ placeStart) {s : List Char} {x : Operand}
    (hread : readPlace space (c :: s) = some x) :
    readOperand (space.text.toList ++ c :: s) = x := by
  cases space with
  | unlisted n => simp [spaces] at hspace
  | none =>
      have hsplit : readOperand (c :: s) =
          (readPlace .none (c :: s)).getD (.reg (Register.ofName (String.ofList (c :: s)))) := by
        simp only [placeStart, List.mem_cons, List.not_mem_nil, or_false] at hc
        rcases hc with rfl | rfl | rfl | rfl <;> rfl
      show readOperand (c :: s) = x
      rw [hsplit, hread]
      rfl
  | x | y | l | p => simp [Space.text, readSpace, readOperand, hread]

theorem readNumeral_decDigits (r : Nat) {s : List Char}
    (hs : ∀ c ∈ s.head?, Number.isDigit 10 c = false) :
    readNumeral 10 0 ((Number.decDigits r).toList ++ s) = (r, s) := by
  rw [Number.decDigits, String.toList_ofList]
  exact Number.readNumeral_toDigits (by decide) (by decide) r hs

theorem readNumeral_hexPadded_four (n : Nat) :
    readNumeral 16 0 (Number.hexPadded 4 n).toList = (n, []) := by
  have hread := Number.readNumeral_hexPadded 4 n afterNumber_nil
  rwa [List.append_nil] at hread

theorem exists_indirectText {mode : IndirectMode} (hmode : mode ∈ indirectModes) (space : Space)
    (r : Nat) : ∃ c s, (mode.text r).toList = c :: s ∧ c ∈ placeStart ∧
      readPlace space (c :: s) = some (.indirect mode space r) := by
  -- Digits come to an end at a sign and at a parenthesis.
  have hclose (s : List Char) : readNumeral 10 0 ((Number.decDigits r).toList ++ ')' :: s) =
      (r, ')' :: s) := readNumeral_decDigits r (by simp; decide)
  have hplus (s : List Char) : readNumeral 10 0 ((Number.decDigits r).toList ++ '+' :: s) =
      (r, '+' :: s) := readNumeral_decDigits r (by simp; decide)
  cases mode with
  | unlisted n => cases n <;> simp [indirectModes] at hmode
  | _ => simp [IndirectMode.text, placeStart, readPlace, readMode, hclose, hplus]

theorem readPlace_absShort (space : Space) (a : UInt32) :
    readPlace space ('<' :: (Number.hex a).toList) = some (.absShort space a) := by
  have hread := Number.readUnsigned_unsignedText .hex a.toNat afterNumber_nil
  rw [List.append_nil] at hread
  rw [Number.toList_hex]
  show some (Operand.absShort space (.ofNat (readUnsigned (unsignedText .hex a.toNat)).1)) = _
  rw [hread, UInt32.ofNat_toNat]

theorem readPlace_absLong (space : Space) (a : UInt32) :
    readPlace space ('$' :: (Number.hexPadded 4 a.toNat).toList) = some (.absLong space a) := by
  rw [readPlace, readNumeral_hexPadded_four, UInt32.ofNat_toNat]

theorem readPlace_ioShort (space : Space) (a : UInt32) :
    readPlace space ('<' :: '<' :: '$' :: (Number.hexPadded 4 (ioBase + a).toNat).toList) =
      some (.ioShort space a) := by
  rw [readPlace, readUnsigned, readNumeral_hexPadded_four, UInt32.ofNat_toNat, UInt32.add_comm,
    UInt32.add_sub_cancel]

/-- An operand is read back from its text. -/
theorem readOperand_text {x : Operand} (hx : x.WellFormed) (style : Style) :
    readOperand (x.text style).toList = x.widen := by
  cases x with
  | immShort v | immLong v => exact readOperand_immediate style v
  | reg r => exact readOperand_register hx
  | indirect mode space r =>
      rcases exists_indirectText hx.1 space r with ⟨c, s, htext, hc, hread⟩
      rw [Operand.text, String.toList_append, htext]
      exact readOperand_place hx.2.1 hc hread
  | absShort space a =>
      rw [Operand.text, String.toList_append, String.toList_append, List.append_assoc]
      exact readOperand_place hx (by decide) (readPlace_absShort space a)
  | absLong space a =>
      rw [Operand.text, String.toList_append, String.toList_append, List.append_assoc]
      exact readOperand_place hx (by decide) (readPlace_absLong space a)
  | ioShort space a =>
      rw [Operand.text, String.toList_append, String.toList_append, List.append_assoc]
      exact readOperand_place hx (by decide) (readPlace_ioShort space a)

/-! ## Groups -/

/-- The text of the operands of a group. -/
def groupText (style : Style) (xs : List Operand) : String :=
  Text.join "," (xs.map (Operand.text style))

/-- Read the operands of a group. -/
def readGroup (s : List Char) : List Operand :=
  (Text.splitList [','] s).map readOperand

/-- Read the groups of an instruction. -/
def readGroups (s : List Char) : List (List Operand) :=
  if s = [] then [] else (Text.splitList [' '] s).map readGroup

theorem readGroup_groupText {xs : List Operand} (hne : xs ≠ []) (hxs : ∀ x ∈ xs, x.WellFormed)
    (style : Style) : readGroup (groupText style xs).toList = xs.map Operand.widen := by
  have hcomma : ∀ s ∈ xs.map (Operand.text style), ',' ∉ s.toList := by
    intro s hs hmem
    rcases List.mem_map.1 hs with ⟨x, hx, rfl⟩
    exact (operandChars_spec _ ((hxs x hx).spelled_text style ',' hmem)).1.2 rfl
  rw [readGroup, groupText, Text.splitList_join (by rfl) (by simpa using hne) hcomma,
    List.map_map, List.map_map]
  apply List.map_congr_left
  intro x hx
  exact readOperand_text (hxs x hx) style

theorem isGroup_groupText {xs : List Operand} (hne : xs ≠ []) (hxs : ∀ x ∈ xs, x.WellFormed)
    (style : Style) : IsGroup (groupText style xs) := by
  constructor
  · refine Text.HasOnly.join (by decide) ?_
    intro s hs
    rcases List.mem_map.1 hs with ⟨x, hx, rfl⟩
    exact ((hxs x hx).spelled_text style).group
  · refine Text.join_ne_empty (by simpa using hne) ?_
    intro s hs
    rcases List.mem_map.1 hs with ⟨x, hx, rfl⟩
    exact (hxs x hx).text_ne_empty style

/-- Groups are read back from their texts with blanks between them. -/
theorem readGroups_join {gs : List (List Operand)}
    (hgs : ∀ xs ∈ gs, xs ≠ [] ∧ ∀ x ∈ xs, x.WellFormed) (style : Style) :
    readGroups (Text.join " " (gs.map (groupText style))).toList =
      gs.map (List.map Operand.widen) := by
  have hgroups : ∀ s ∈ gs.map (groupText style), IsGroup s := by
    intro s hs
    rcases List.mem_map.1 hs with ⟨xs, hxs, rfl⟩
    exact isGroup_groupText (hgs xs hxs).1 (hgs xs hxs).2 style
  by_cases hne : gs = []
  · subst hne
    rfl
  · have hne' : gs.map (groupText style) ≠ [] := by simpa using hne
    have htext : (Text.join " " (gs.map (groupText style))).toList ≠ [] := fun hnil =>
      Text.join_ne_empty hne' (fun s hs => (hgroups s hs).2) (String.toList_eq_nil_iff.1 hnil)
    have hblank : ∀ s ∈ gs.map (groupText style), ' ' ∉ s.toList := fun s hs hmem =>
      Text.noBlank_of_isGraphic (hgroups s hs).isGraphic ' ' hmem rfl
    rw [readGroups, if_neg htext, Text.splitList_join (by rfl) hne' hblank, List.map_map,
      List.map_map]
    apply List.map_congr_left
    intro xs hxs
    exact readGroup_groupText (hgs xs hxs).1 (hgs xs hxs).2 style

/-! ## Signs -/

/-- Whether the operands begin with the sign of a product.  Before a parenthesis a minus
belongs to the operand. -/
def isNegated : List Char -> Bool
  | '-' :: '(' :: _ => false
  | '-' :: _ => true
  | _ => false

theorem isNegated_operand (x : Operand) (style : Style) (s : List Char) :
    isNegated ((x.text style).toList ++ s) = false := by
  cases x with
  | immShort v | immLong v => simp [Operand.text, isNegated]
  | reg r => cases r <;> simp [Operand.text, Register.name, isNegated]
  | indirect mode space r =>
      cases space <;> cases mode <;>
        simp [Operand.text, IndirectMode.text, Space.text, isNegated]
  | absShort space a | absLong space a | ioShort space a =>
      cases space <;> simp [Operand.text, Space.text, isNegated]

theorem isNegated_register (r : Register) (s : List Char) :
    isNegated ('-' :: (r.name.toList ++ s)) = true := by
  cases r <;> simp [Register.name, isNegated]

end Reader
end Dsp56k
end Disassembler
