import Disassembler.M68k.Print
import Disassembler.Proofs.M68k.Operand
import Disassembler.Proofs.Text.Character
import Disassembler.Proofs.Text.Numeral

/-!
# Brackets

A full extension operand that goes through a pointer in memory shows the address
of the pointer in brackets.  The brackets stand around the components of that
address: where all of them are suppressed, there are none.
-/

namespace Disassembler
namespace M68k

/-! ## Texts with and without brackets -/

/-- No bracket. -/
def Unbracketed (s : String) : Prop :=
  Text.HasOnly (fun c => c ≠ '[' ∧ c ≠ ']') s

/-- One opening bracket, and one closing bracket after it. -/
def Bracketed (s : String) : Prop :=
  ∃ before inside after : String, s = before ++ "[" ++ inside ++ "]" ++ after ∧
    Unbracketed before ∧ Unbracketed inside ∧ Unbracketed after

theorem Unbracketed.not_mem {s : String} (h : Unbracketed s) : '[' ∉ s.toList ∧ ']' ∉ s.toList := by
  constructor
  · intro hmem
    exact (h '[' hmem).1 rfl
  · intro hmem
    exact (h ']' hmem).2 rfl

theorem Bracketed.mem {s : String} (h : Bracketed s) : '[' ∈ s.toList := by
  rcases h with ⟨before, inside, after, rfl, _⟩
  simp

theorem unbracketed_of_all {s : String}
    (h : (s.toList.all fun c => c != '[' && c != ']') = true) : Unbracketed s := by
  intro c hc
  have hspec := List.all_eq_true.1 h c hc
  rw [Bool.and_eq_true, bne_iff_ne, bne_iff_ne] at hspec
  exact hspec

theorem unbracketed_numberChars : ∀ c ∈ Number.numberChars, c ≠ '[' ∧ c ≠ ']' := by
  simp [Number.numberChars]

theorem unbracketed_hex (v : UInt32) : Unbracketed (Number.hex v) :=
  Number.forall_mem_hex unbracketed_numberChars v

theorem unbracketed_decDigits (n : Nat) : Unbracketed (Number.decDigits n) :=
  Number.forall_mem_decDigits unbracketed_numberChars n

/-! ## Components -/

theorem IndexReg.unbracketed_name (r : IndexReg) : Unbracketed r.name := by
  cases r with
  | d n | a n =>
      exact Text.hasOnly_append.2 ⟨unbracketed_of_all (by decide), unbracketed_decDigits _⟩
  | unlisted n => exact unbracketed_of_all (show ("?".toList.all _) = true by decide)
  | _ => exact unbracketed_of_all (by decide)

theorem Index.unbracketed_text (i : Index) : Unbracketed i.text := by
  have hlength : Unbracketed (if i.long then ".l" else ".w") := by
    split <;> exact unbracketed_of_all (by decide)
  have hscale : Unbracketed (scaleText i.scale) := by
    unfold scaleText
    split <;> exact unbracketed_of_all (by decide)
  rw [Index.text]
  split
  · exact unbracketed_of_all (by decide)
  · exact Text.hasOnly_append.2 ⟨Text.hasOnly_append.2 ⟨i.reg.unbracketed_name, hlength⟩, hscale⟩

namespace FullExt

variable (e : FullExt) (addr : UInt32)

theorem unbracketed_component {s : String} (hs : some s ∈ e.components addr) :
    Unbracketed s := by
  simp only [components, List.mem_cons, List.not_mem_nil, or_false] at hs
  rcases hs with hs | hs | hs | hs
  · split at hs <;> cases hs
    rw [baseDispText]
    split <;> exact unbracketed_hex _
  · split at hs <;> cases hs
    exact e.base.unbracketed_name
  · split at hs <;> cases hs
    exact e.index.unbracketed_text
  · split at hs <;> cases hs
    exact unbracketed_hex _

/-- The components of the address of the pointer. -/
def pointer (inner : Nat) : List String :=
  ((e.components addr).take inner).filterMap id

/-- The components after the pointer is read. -/
def outside (inner : Nat) : List String :=
  ((e.components addr).drop inner).filterMap id

theorem unbracketed_pointer {inner : Nat} {s : String} (hs : s ∈ e.pointer addr inner) :
    Unbracketed s := by
  apply e.unbracketed_component addr
  exact List.mem_of_mem_take (by simpa [pointer] using hs)

theorem unbracketed_outside {inner : Nat} {s : String} (hs : s ∈ e.outside addr inner) :
    Unbracketed s := by
  apply e.unbracketed_component addr
  exact List.mem_of_mem_drop (by simpa [outside] using hs)

theorem text_of_pointer_eq_nil {inner : Nat} (h : e.pointer addr inner = []) :
    e.text inner addr = "(" ++ Text.join "," (e.outside addr inner) ++ ")" := by
  rw [pointer] at h
  simp only [text, h]
  rfl

theorem text_of_pointer_ne_nil {inner : Nat} (h : e.pointer addr inner ≠ []) :
    e.text inner addr =
      "(" ++ Text.join "," (("[" ++ Text.join "," (e.pointer addr inner) ++ "]") ::
        e.outside addr inner) ++ ")" := by
  have hpart : (e.pointer addr inner).isEmpty = false := by simpa using h
  rw [pointer] at hpart
  simp only [text, hpart]
  rfl

theorem unbracketed_text {inner : Nat} (h : e.pointer addr inner = []) :
    Unbracketed (e.text inner addr) := by
  have hsigns : Unbracketed "(" ∧ Unbracketed "," ∧ Unbracketed ")" := by
    refine ⟨?_, ?_, ?_⟩ <;> exact unbracketed_of_all (by decide)
  have houtside : Unbracketed (Text.join "," (e.outside addr inner)) :=
    Text.HasOnly.join hsigns.2.1 fun s hs => e.unbracketed_outside addr hs
  rw [e.text_of_pointer_eq_nil addr h]
  exact Text.hasOnly_append.2 ⟨Text.hasOnly_append.2 ⟨hsigns.1, houtside⟩, hsigns.2.2⟩

theorem bracketed_text {inner : Nat} (h : e.pointer addr inner ≠ []) :
    Bracketed (e.text inner addr) := by
  have hsigns : Unbracketed "(" ∧ Unbracketed "," ∧ Unbracketed ")" := by
    refine ⟨?_, ?_, ?_⟩ <;> exact unbracketed_of_all (by decide)
  have hinside : Unbracketed (Text.join "," (e.pointer addr inner)) :=
    Text.HasOnly.join hsigns.2.1 fun s hs => e.unbracketed_pointer addr hs
  rcases Text.exists_join_cons hsigns.2.1 (fun s hs => e.unbracketed_outside addr hs)
    ("[" ++ Text.join "," (e.pointer addr inner) ++ "]") with ⟨tail, hjoin, htail⟩
  have hafter : Unbracketed (tail ++ ")") := Text.hasOnly_append.2 ⟨htail, hsigns.2.2⟩
  refine ⟨"(", Text.join "," (e.pointer addr inner), tail ++ ")", ?_, hsigns.1, hinside, hafter⟩
  rw [e.text_of_pointer_ne_nil addr h, hjoin]
  simp only [String.append_assoc]

theorem pointer_two : e.pointer addr 2 ≠ [] ↔ e.hasBaseDisp = true ∨ e.hasBase = true := by
  cases hdisp : e.hasBaseDisp <;> cases hbase : e.hasBase <;>
    simp [pointer, components, hdisp, hbase]

theorem pointer_three (hindex : e.hasIndex = true) : e.pointer addr 3 ≠ [] := by
  simp [pointer, components, hindex]

end FullExt

/-! ## Operands -/

/-- Refers to memory through a pointer in memory. -/
def Operand.isMemoryIndirect : Operand -> Bool
  | postIndexed _ | preIndexed _ | memoryIndirect _ => true
  | _ => false

/-- An index that is added before the pointer is read is not suppressed. -/
theorem Available.hasIndex {cpu : Cpu} {e : FullExt} (h : Available cpu (.preIndexed e)) :
    e.hasIndex = true := by
  rcases h with ⟨hx⟩
  cases hx with
  | indexFull r h020 hx | pcIndexFull h020 hx =>
      cases hx with
      | preIndexed he hindex => exact hindex

/-- The brackets stand around the address of the pointer, and are left out with
it. -/
theorem Available.bracketed_or {cpu : Cpu} {x : Operand} {e : FullExt} (hx : Available cpu x)
    (he : x.fullExt? = some e) (addr : UInt32) (style : Style) :
    (x.isMemoryIndirect = true ∧ (e.hasBaseDisp = true ∨ e.hasBase = true ∨ x = .preIndexed e)) ∧
        Bracketed (x.text addr style) ∨
      ¬(x.isMemoryIndirect = true ∧
          (e.hasBaseDisp = true ∨ e.hasBase = true ∨ x = .preIndexed e)) ∧
        Unbracketed (x.text addr style) := by
  cases x with
  | preIndexed e' =>
      cases he
      have hpointer := e.pointer_three addr hx.hasIndex
      left
      constructor
      · exact ⟨rfl, Or.inr (Or.inr rfl)⟩
      · rw [Operand.text]
        exact e.bracketed_text addr hpointer
  | postIndexed e' | memoryIndirect e' =>
      cases he
      by_cases hpointer : e.pointer addr 2 = []
      · have hnot := mt (e.pointer_two addr).2 (not_not_intro hpointer)
        right
        constructor
        · rintro ⟨_, hdisp | hbase | heq⟩
          · exact hnot (Or.inl hdisp)
          · exact hnot (Or.inr hbase)
          · cases heq
        · rw [Operand.text]
          exact e.unbracketed_text addr hpointer
      · have hused := (e.pointer_two addr).1 hpointer
        left
        constructor
        · exact ⟨rfl, hused.imp_right Or.inl⟩
        · rw [Operand.text]
          exact e.bracketed_text addr hpointer
  | noMemoryIndirect e' =>
      cases he
      have hpointer : e.pointer addr 0 = [] := rfl
      right
      constructor
      · rintro ⟨hindirect, _⟩
        cases hindirect
      · rw [Operand.text]
        exact e.unbracketed_text addr hpointer
  | _ => cases he

/-- A full extension operand shows an opening bracket exactly if it refers to
memory through a pointer and has a component in the address of the pointer. -/
theorem bracket_mem_iff (cpu : Cpu) (bytes : Bytes) (addr : UInt32) (style : Style)
    {x : Operand} {e : FullExt} (hx : x ∈ (decode cpu bytes).present)
    (he : x.fullExt? = some e) :
    let text := x.text addr style
    ('[' ∈ text.toList ↔
        x.isMemoryIndirect = true ∧ (e.hasBaseDisp = true ∨ e.hasBase = true ∨ x = .preIndexed e)) ∧
      ('[' ∈ text.toList -> Bracketed text) ∧ ('[' ∉ text.toList -> ']' ∉ text.toList) := by
  intro text
  have hall : ∀ y ∈ (decode cpu bytes).present, Available cpu y :=
    toOperation_decode (List.forall_mem_nil _) (fun o h => h.available) bytes
  rcases (hall x hx).bracketed_or he addr style with ⟨hshown, htext⟩ | ⟨hnot, htext⟩
  · exact ⟨iff_of_true htext.mem hshown, fun _ => htext, fun h => absurd htext.mem h⟩
  · have hnone := htext.not_mem
    exact ⟨iff_of_false hnone.1 hnot, fun h => absurd h hnone.1, fun _ => hnone.2⟩

/-- The index stands after the brackets. -/
theorem bracket_mem_iff_postIndexed :
    let bytes : Bytes := [0x20, 0x30, 0x01, 0x25, 0x00, 0x10]
    let e : FullExt :=
      { base := .a 0, baseDisp := 16, index := { reg := .d 0, long := false, scale := 0 }
        outerDisp := 0, hasBaseDisp := true, hasBase := true, hasIndex := true
        hasOuterDisp := false }
    .postIndexed e ∈ (decode .m68020 bytes).present ∧
      (Operand.postIndexed e).fullExt? = some e ∧
        Bracketed ((Operand.postIndexed e).text 0 .hex) := by
  intro bytes e
  have hx : .postIndexed e ∈ (decode .m68020 bytes).present := by decide
  have h := bracket_mem_iff .m68020 bytes 0 .hex hx rfl
  exact ⟨hx, rfl, h.2.1 (h.1.2 ⟨rfl, Or.inl rfl⟩)⟩

/-- The address of the pointer can be empty: then the text has no bracket,
although the operand refers to memory through a pointer. -/
theorem exists_isMemoryIndirect_without_bracket :
    ¬∀ (cpu : Cpu) (bytes : Bytes) (addr : UInt32) (style : Style) (x : Operand),
      x ∈ (decode cpu bytes).present -> x.fullExt?.isSome = true ->
        ('[' ∈ (x.text addr style).toList ↔ x.isMemoryIndirect = true) := by
  intro h
  have hiff := h .m68020 [0x20, 0x30, 0x01, 0x95] 0 .hex
    (.postIndexed
      { base := .a 0, baseDisp := 0, index := { reg := .d 0, long := false, scale := 0 }
        outerDisp := 0, hasBaseDisp := false, hasBase := false, hasIndex := true
        hasOuterDisp := false })
    (by decide) rfl
  exact absurd (hiff.2 rfl) (by decide)

end M68k
end Disassembler
