import Mathlib
import Disassembler.Preference.Store
import Disassembler.Proofs.Message.Template
import Disassembler.Proofs.Text.Literal
import Disassembler.Proofs.Text.Space

/-!
# Values and texts of preferences

A preference that is set to the text of some content takes on this content.
-/

namespace Disassembler

/-! ## Values -/

/-- The least number of a type, and the first one above all. -/
def IntType.bounds : IntType -> Int × Int
  | .int | .int64 => (-0x8000000000000000, 0x8000000000000000)
  | .int32 => (-0x80000000, 0x80000000)
  | .uint32 => (0, 0x100000000)
  | .uint8 => (0, 0x100)

/-- A number is one of its type. -/
def Value.IsRepresentable : Value -> Prop
  | .integer type n => type.bounds.1 ≤ n ∧ n < type.bounds.2
  | _ => True

theorem Value.shown_text (s : String) : Value.shown (.text s) = s := by
  change ({} : Directive).content 'v' true (.text "string" s) = s
  rw [Directive.content]
  exact Directive.plain_default s

/-! ## Setting one preference -/

namespace PreferenceKind

theorem number_read_lt {v : Value} (hv : v.IsRepresentable) {n : Int}
    (h : number.read v = .ok n) : n < 0x8000000000000000 := by
  cases v with
  | integer type m =>
      cases type with
      | uint8 => cases h
      | int | int64 => cases h; exact hv.2
      | int32 | uint32 => cases h; exact lt_trans hv.2 (by decide)
  | text s =>
      simp only [number] at h
      split at h
      · rename_i m hsigned
        cases h
        exact Literal.lt_of_signed_eq hsigned
      · cases h
  | absent => cases h
  | bool b => cases h
  | float type x => cases h
  | named s => cases h
  | fault f => cases h

theorem switch_read_text (b : Bool) : switch.read (.text (switch.text b)) = .ok b := by
  cases b with
  | true => rfl
  | false => rfl

theorem phrase_read_text (s : String) : phrase.read (.text s) = .ok s :=
  congrArg Except.ok (Value.shown_text s)

theorem number_read_text {n : Int} (hn : 0 ≤ n) (hlt : n < 0x8000000000000000) :
    number.read (.text (number.text n)) = .ok n := by
  have hdigits : number.text n = Number.decDigits n.natAbs := if_neg (by omega)
  have hsigned := Literal.signed_decDigits (n := n.natAbs) (by omega)
  have hnat : (n.natAbs : Int) = n := Int.natAbs_of_nonneg hn
  rw [hdigits, number]
  simp only [Text.trim_of_noSpace (Text.noSpace_decDigits _), hsigned, hnat]

end PreferenceKind

namespace Preference

/-- A preference that is set has the content for the value, or is as it was. -/
theorem set_cases {α : Type} (p : Preference α) (v : Value) :
    (p.set v).preference = p ∨
      ∃ content, p.kind.read v = .ok content ∧ check p.before content = none ∧
        (p.set v).preference = { p with content } := by
  rw [set]
  cases hread : p.kind.read v with
  | error f => exact Or.inl rfl
  | ok content =>
      cases hcheck : check p.before content with
      | some f =>
          left
          simp only [store, hcheck]
      | none =>
          refine Or.inr ⟨content, rfl, hcheck, ?_⟩
          simp only [store, hcheck]

/-- A preference that nothing looks at after it is set takes on content that is accepted. -/
theorem set_eq {α : Type} {p : Preference α} {v : Value} {content : α}
    (hread : p.kind.read v = .ok content) (hcheck : check p.before content = none)
    (hafter : p.after = none) :
    (p.set v).preference = { p with content } ∧ (p.set v).fault = none := by
  simp only [set, hread, store, hcheck, hafter]
  exact ⟨trivial, rfl⟩

end Preference

/-! ## Values in a file -/

namespace PreferenceStore

theorem setFrom_switch {p : Preference Bool} (hkind : p.kind = .switch) (hbefore : p.before = none)
    (hafter : p.after = none) (b : Bool) :
    setFrom (some (PreferenceKind.switch.text b)) (.switch p) =
      (none, .switch { p with content := b }) := by
  have hcheck : Preference.check p.before b = none := by
    rw [hbefore]
    rfl
  have hset := p.set_eq (v := .text (PreferenceKind.switch.text b))
    (by rw [hkind]; exact PreferenceKind.switch_read_text b) hcheck hafter
  rw [setFrom, PreferenceEntry.set, hset.1, hset.2]

theorem setFrom_phrase {p : Preference String} (hkind : p.kind = .phrase) (hafter : p.after = none)
    {s : String} (hcheck : Preference.check p.before s = none) :
    setFrom (some s) (.phrase p) = (none, .phrase { p with content := s }) := by
  have hset := p.set_eq (v := .text s) (by rw [hkind]; exact PreferenceKind.phrase_read_text s)
    hcheck hafter
  rw [setFrom, PreferenceEntry.set, hset.1, hset.2]

theorem setFrom_number {p : Preference Int} (hkind : p.kind = .number) (hafter : p.after = none)
    {n : Int} (hn : 0 ≤ n) (hlt : n < 0x8000000000000000)
    (hcheck : Preference.check p.before n = none) :
    setFrom (some (PreferenceKind.number.text n)) (.number p) =
      (none, .number { p with content := n }) := by
  have hset := p.set_eq (v := .text (PreferenceKind.number.text n))
    (by rw [hkind]; exact PreferenceKind.number_read_text hn hlt) hcheck hafter
  rw [setFrom, PreferenceEntry.set, hset.1, hset.2]

end PreferenceStore
end Disassembler
