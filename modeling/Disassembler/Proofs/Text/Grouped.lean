import Mathlib
import Disassembler.Text.Literal
import Disassembler.Proofs.Text.Digits
import Disassembler.Proofs.Text.Literal

/-!
# Grouped digits

Underscores group the digits of a literal.  Reading skips them, and whether they are
well placed is looked at in a pass of its own; together the two passes accept the digits
of a base with single underscores between them.  From that follows which characters are
a literal, and of which number.
-/

namespace Disassembler
namespace Literal

/-! ## Groups -/

/-- Digits of a base with an underscore at most between two of them, after what stands
before.  None can stand at the end. -/
inductive Grouped (base : Nat) : Before -> List Char -> List Nat -> Prop where
  | nil {before : Before} : before ≠ .underscore -> Grouped base before [] []
  | digit {before : Before} {c : Char} {d : Nat} {cs : List Char} {ds : List Nat} :
      IsDigitOf base c d -> Grouped base .digit cs ds -> Grouped base before (c :: cs) (d :: ds)
  | underscore {cs : List Char} {ds : List Nat} :
      Grouped base .underscore cs ds -> Grouped base .digit ('_' :: cs) ds

/-- Grouped digits make up a number, the highest one first. -/
def IsGrouped (base : Nat) (before : Before) (cs : List Char) (n : Nat) : Prop :=
  ∃ ds, Grouped base before cs ds ∧ Nat.ofDigits base ds.reverse = n

/-- What is left of grouped digits without the underscores. -/
def ungrouped (cs : List Char) : List Char :=
  cs.filter (· != '_')

section Grouped

variable {base limit d n : Nat} {before : Before} {c : Char} {cs : List Char} {ds : List Nat}

theorem ungrouped_underscore (cs : List Char) : ungrouped ('_' :: cs) = ungrouped cs :=
  rfl

theorem ungrouped_cons (hc : c ≠ '_') (cs : List Char) :
    ungrouped (c :: cs) = c :: ungrouped cs :=
  List.filter_cons_of_pos (bne_iff_ne.mpr hc)

theorem ungrouped_eq_self (hcs : '_' ∉ cs) : ungrouped cs = cs := by
  rw [ungrouped, List.filter_eq_self]
  intro c hc
  exact bne_iff_ne.mpr fun heq => hcs (heq ▸ hc)

theorem IsDigitOf.ne_underscore (h : IsDigitOf base c d) (hbase : base ≤ 16) : c ≠ '_' := by
  intro hc
  have hdigit := ((digit?_eq_some_iff hbase).mpr h).1
  rw [hc] at hdigit
  cases hdigit

theorem underscoresFrom_underscore (hex : Bool) (before : Before) (cs : List Char) :
    underscoresFrom hex before ('_' :: cs) =
      (before == .digit && underscoresFrom hex .underscore cs) :=
  rfl

theorem underscoresFrom_digit {hex : Bool} (hbase : base ≤ 16) (hdecimal : hex = false -> base ≤ 10)
    (h : IsDigitOf base c d) (before : Before) (cs : List Char) :
    underscoresFrom hex before (c :: cs) = underscoresFrom hex .digit cs := by
  rw [underscoresFrom, ((digit?_eq_some_iff hbase).mpr h).1]
  have hd : d < base := h.1
  cases hex with
  | false =>
      have hten : d < 10 := hd.trans_le (hdecimal rfl)
      simp only [hten, decide_true, Bool.true_or, if_true]
  | true =>
      have hsixteen : d < 16 := hd.trans_le hbase
      simp only [hsixteen, decide_true, Bool.and_true, Bool.or_true, if_true]

/-- Grouped digits are digits once the underscores are left out, and these are well
placed. -/
theorem grouped_iff {hex : Bool} (hbase : base ≤ 16) (hdecimal : hex = false -> base ≤ 10) :
    Grouped base before cs ds ↔
      List.Forall₂ (IsDigitOf base) (ungrouped cs) ds ∧
        underscoresFrom hex before cs = true := by
  constructor
  · intro h
    induction h with
    | nil hbefore => exact ⟨List.Forall₂.nil, bne_iff_ne.mpr hbefore⟩
    | digit hd _ ih =>
        rw [ungrouped_cons (hd.ne_underscore hbase), underscoresFrom_digit hbase hdecimal hd]
        exact ⟨List.Forall₂.cons hd ih.1, ih.2⟩
    | underscore _ ih =>
        rw [ungrouped_underscore, underscoresFrom_underscore]
        exact ih
  · intro h
    rcases h with ⟨hds, hplaced⟩
    induction cs generalizing before ds with
    | nil =>
        cases hds
        exact Grouped.nil (bne_iff_ne.mp hplaced)
    | cons c cs ih =>
        by_cases hc : c = '_'
        · rw [hc, underscoresFrom_underscore, Bool.and_eq_true, beq_iff_eq] at hplaced
          rw [hc, ungrouped_underscore] at hds
          rw [hc, hplaced.1]
          exact Grouped.underscore (ih hds hplaced.2)
        · rw [ungrouped_cons hc] at hds
          cases hds with
          | cons hd hds =>
              rw [underscoresFrom_digit hbase hdecimal hd] at hplaced
              exact Grouped.digit hd (ih hds hplaced)

/-- Without underscores there is nothing but digits. -/
theorem grouped_iff_of_not_mem (hbase : base ≤ 16) (hbefore : before ≠ .underscore)
    (hcs : '_' ∉ cs) : Grouped base before cs ds ↔ List.Forall₂ (IsDigitOf base) cs ds := by
  constructor
  · intro h
    have hparts : List.Forall₂ (IsDigitOf base) (ungrouped cs) ds ∧
        underscoresFrom true before cs = true :=
      (grouped_iff hbase (by simp)).mp h
    rw [ungrouped_eq_self hcs] at hparts
    exact hparts.1
  · intro h
    clear hcs
    induction h generalizing before with
    | nil => exact Grouped.nil hbefore
    | cons hd _ ih => exact Grouped.digit hd (ih nofun)

theorem isNumeral_iff_isGrouped (hbase : base ≤ 16) (hbefore : before ≠ .underscore)
    (hcs : '_' ∉ cs) : IsNumeral base cs n ↔ cs ≠ [] ∧ IsGrouped base before cs n := by
  constructor
  · intro h
    rcases h.digits with ⟨ds, hds, hn⟩
    exact ⟨h.ne_nil, ds, (grouped_iff_of_not_mem hbase hbefore hcs).mpr hds, hn⟩
  · intro h
    rcases h with ⟨hne, ds, hds, hn⟩
    exact ⟨hne, ds, (grouped_iff_of_not_mem hbase hbefore hcs).mp hds, hn⟩

/-! ## Reading groups -/

theorem readDigits_ungrouped (base limit m : Nat) (cs : List Char) :
    readDigits base limit true m cs = readDigits base limit false m (ungrouped cs) := by
  induction cs generalizing m with
  | nil => rfl
  | cons c cs ih =>
      by_cases hc : c = '_'
      · rw [hc, ungrouped_underscore]
        exact ih m
      · rw [ungrouped_cons hc, readDigits, readDigits,
          beq_eq_false_iff_ne.mpr hc]
        simp only [ih, Bool.and_false]

/-- Exactly the grouped digits of numbers up to the limit are read. -/
theorem readDigits_eq_ok_iff_isGrouped {hex : Bool} (hpos : 0 < base) (hbase : base ≤ 16)
    (hdecimal : hex = false -> base ≤ 10) (hbefore : before ≠ .underscore) :
    readDigits base limit true 0 cs = .ok n ∧ ('_' ∈ cs -> underscoresFrom hex before cs = true) ↔
      IsGrouped base before cs n ∧ n ≤ limit := by
  rw [readDigits_ungrouped, readDigits_eq_ok_iff hpos hbase (Nat.zero_le limit)]
  constructor
  · intro h
    rcases h with ⟨⟨ds, hds, hn, hle⟩, hplaced⟩
    refine ⟨⟨ds, ?_, (ofDigits_reverse base ds).trans hn⟩, hle⟩
    by_cases hcs : '_' ∈ cs
    · exact (grouped_iff hbase hdecimal).mpr ⟨hds, hplaced hcs⟩
    · rw [ungrouped_eq_self hcs] at hds
      exact (grouped_iff_of_not_mem hbase hbefore hcs).mpr hds
  · intro h
    rcases h with ⟨⟨ds, hds, hn⟩, hle⟩
    rcases (grouped_iff hbase hdecimal).mp hds with ⟨hdigits, hplaced⟩
    exact ⟨⟨ds, hdigits, (ofDigits_reverse base ds).symm.trans hn, hle⟩, fun _ => hplaced⟩

end Grouped

/-! ## Bases -/

/-- A letter after a zero names a base, in either case. -/
def NamesBase (letter : Char) (base : Nat) : Prop :=
  (letter.toLower, base) ∈ [('b', 2), ('o', 8), ('x', 16)]

/-- Which characters denote which number: decimal digits that do not begin with a zero,
octal digits after a zero, or digits after the name of their base. -/
inductive Denotes : List Char -> Nat -> Prop where
  | decimal {c : Char} {cs : List Char} {n : Nat} :
      c ≠ '0' -> IsGrouped 10 .other (c :: cs) n -> Denotes (c :: cs) n
  | octal {cs : List Char} {n : Nat} : IsGrouped 8 .digit cs n -> Denotes ('0' :: cs) n
  | based {letter : Char} {base : Nat} {cs : List Char} {n : Nat} :
      NamesBase letter base -> cs ≠ [] -> IsGrouped base .digit cs n ->
        Denotes ('0' :: letter :: cs) n

section Bases

variable {base limit n : Nat} {letter c : Char} {cs : List Char}

theorem NamesBase.cases (h : NamesBase letter base) :
    letter.toLower = 'b' ∧ base = 2 ∨ letter.toLower = 'o' ∧ base = 8 ∨
      letter.toLower = 'x' ∧ base = 16 := by
  simpa [NamesBase] using h

theorem NamesBase.pos (h : NamesBase letter base) : 0 < base := by
  rcases h.cases with ⟨_, rfl⟩ | ⟨_, rfl⟩ | ⟨_, rfl⟩ <;> decide

theorem NamesBase.le (h : NamesBase letter base) : base ≤ 16 := by
  rcases h.cases with ⟨_, rfl⟩ | ⟨_, rfl⟩ | ⟨_, rfl⟩ <;> decide

theorem NamesBase.le_ten (h : NamesBase letter base) : (base == 16) = false -> base ≤ 10 := by
  rcases h.cases with ⟨_, rfl⟩ | ⟨_, rfl⟩ | ⟨_, rfl⟩ <;> decide

theorem NamesBase.ne_underscore (h : NamesBase letter base) : letter ≠ '_' := by
  intro heq
  subst heq
  rcases h.cases with ⟨heq, _⟩ | ⟨heq, _⟩ | ⟨heq, _⟩ <;> cases heq

/-- Neither an octal digit nor an underscore names a base. -/
theorem IsGrouped.not_namesBase (h : IsGrouped 8 .digit cs n) :
    ∀ letter ∈ cs.head?, ¬ NamesBase letter base := by
  intro letter hletter hnames
  have hall : ∀ d < 8, (Nat.digitChar d).toLower ∉ ['b', 'o', 'x'] ∧
      (Nat.digitChar d).toUpper.toLower ∉ ['b', 'o', 'x'] := by
    decide
  have hmem : letter.toLower ∈ ['b', 'o', 'x'] := by
    rcases hnames.cases with ⟨heq, _⟩ | ⟨heq, _⟩ | ⟨heq, _⟩ <;> rw [heq] <;> decide
  rcases h with ⟨ds, hds, _⟩
  cases hds with
  | nil _ => cases hletter
  | digit hd _ =>
      cases hletter
      rcases hd with ⟨hd, rfl | rfl⟩
      · exact (hall _ hd).1 hmem
      · exact (hall _ hd).2 hmem
  | underscore _ =>
      cases hletter
      exact absurd hmem (by decide)

theorem baseOf_based (h : NamesBase letter base) (hcs : cs ≠ []) :
    baseOf ('0' :: letter :: cs) = (base, cs) := by
  rcases List.exists_cons_of_ne_nil hcs with ⟨d, rest, rfl⟩
  rcases h.cases with ⟨heq, rfl⟩ | ⟨heq, rfl⟩ | ⟨heq, rfl⟩ <;> rw [baseOf, heq] <;> rfl

theorem underscoresOk_based (h : NamesBase letter base) (cs : List Char) :
    underscoresOk ('0' :: letter :: cs) = underscoresFrom (base == 16) .digit cs := by
  have hdrop : dropSign ('0' :: letter :: cs) = '0' :: letter :: cs := rfl
  rcases h.cases with ⟨heq, rfl⟩ | ⟨heq, rfl⟩ | ⟨heq, rfl⟩ <;>
    simp only [underscoresOk, hdrop, heq] <;> rfl

/-- A letter that names no base is none of the letters that are looked for. -/
theorem namesBase_eq_false (h : ∀ base, ¬ NamesBase letter base) :
    (letter.toLower == 'b') = false ∧ (letter.toLower == 'o') = false ∧
      (letter.toLower == 'x') = false := by
  simp only [NamesBase, List.mem_cons, Prod.mk.injEq, List.not_mem_nil, or_false] at h
  refine ⟨beq_eq_false_iff_ne.mpr fun heq => h 2 ?_, beq_eq_false_iff_ne.mpr fun heq => h 8 ?_,
    beq_eq_false_iff_ne.mpr fun heq => h 16 ?_⟩
  · exact Or.inl ⟨heq, rfl⟩
  · exact Or.inr (Or.inl ⟨heq, rfl⟩)
  · exact Or.inr (Or.inr ⟨heq, rfl⟩)

theorem baseOf_octal (h : ∀ letter ∈ cs.head?, ∀ base, ¬ NamesBase letter base) :
    baseOf ('0' :: cs) = (8, cs) := by
  rcases cs with _ | ⟨letter, _ | ⟨d, rest⟩⟩
  · rfl
  · rfl
  · rcases namesBase_eq_false (h letter rfl) with ⟨hb, ho, hx⟩
    simp only [baseOf, hb, ho, hx, Bool.false_eq_true, if_false]

theorem underscoresOk_octal (h : ∀ letter ∈ cs.head?, ∀ base, ¬ NamesBase letter base) :
    underscoresOk ('0' :: cs) = underscoresFrom false .digit cs := by
  have hdrop : dropSign ('0' :: cs) = '0' :: cs := rfl
  rcases cs with _ | ⟨letter, rest⟩
  · rfl
  · rcases namesBase_eq_false (h letter rfl) with ⟨hb, ho, hx⟩
    simp only [underscoresOk, hdrop, hb, ho, hx, Bool.or_self, Bool.false_eq_true, if_false]
    rfl

theorem underscoresOk_decimal (hzero : c ≠ '0') (hplus : c ≠ '+') (hminus : c ≠ '-')
    (cs : List Char) : underscoresOk (c :: cs) = underscoresFrom false .other (c :: cs) := by
  have hdrop : dropSign (c :: cs) = c :: cs := by
    rw [dropSign.eq_def]
    split
    · rename_i heq
      exact absurd (List.cons.inj heq).1 hplus
    · rename_i heq
      exact absurd (List.cons.inj heq).1 hminus
    · rfl
  rw [underscoresOk, hdrop]
  split
  · rename_i heq
    exact absurd (List.cons.inj heq).1 hzero
  · rfl

/-! ## Unsigned literals -/

theorem unsignedList_eq_ok_iff_read (hcs : cs ≠ []) :
    unsignedList limit cs = .ok n ↔
      readDigits (baseOf cs).1 limit true 0 (baseOf cs).2 = .ok n ∧
        ('_' ∈ cs -> underscoresOk cs = true) := by
  rw [unsignedList, if_neg (by rwa [List.isEmpty_iff])]
  cases hread : readDigits (baseOf cs).1 limit true 0 (baseOf cs).2 with
  | error e =>
      constructor
      · intro h
        cases h
      · intro h
        cases h.1
  | ok m =>
      by_cases hmem : '_' ∈ cs
      · cases hplaced : underscoresOk cs with
        | false => simp [hmem]
        | true => simp [hmem]
      · simp [hmem]

theorem unsignedList_based (h : NamesBase letter base) (hcs : cs ≠ []) :
    unsignedList limit ('0' :: letter :: cs) = .ok n ↔ IsGrouped base .digit cs n ∧ n ≤ limit := by
  have hmem : '_' ∈ '0' :: letter :: cs ↔ '_' ∈ cs := by
    rw [List.mem_cons, List.mem_cons, or_iff_right h.ne_underscore.symm, or_iff_right (by decide)]
  rw [unsignedList_eq_ok_iff_read (List.cons_ne_nil _ _), baseOf_based h hcs, hmem,
    underscoresOk_based h]
  exact readDigits_eq_ok_iff_isGrouped h.pos h.le h.le_ten (by decide)

theorem unsignedList_letter_ne (h : NamesBase letter base) :
    unsignedList limit ['0', letter] ≠ .ok n := by
  intro hread
  rw [unsignedList_eq_ok_iff_read (List.cons_ne_nil _ _)] at hread
  have hoctal : readDigits 8 limit true 0 [letter] = .ok n := hread.1
  have hplaced : '_' ∈ [letter] -> underscoresFrom false .digit [letter] = true :=
    fun hmem => absurd (List.mem_singleton.mp hmem).symm h.ne_underscore
  rcases (readDigits_eq_ok_iff_isGrouped (by decide) (by decide) (by decide) (by decide)).mp
    ⟨hoctal, hplaced⟩ with ⟨hgrouped, _⟩
  exact hgrouped.not_namesBase letter rfl h

theorem unsignedList_octal (h : ∀ letter ∈ cs.head?, ∀ base, ¬ NamesBase letter base) :
    unsignedList limit ('0' :: cs) = .ok n ↔ IsGrouped 8 .digit cs n ∧ n ≤ limit := by
  have hmem : '_' ∈ '0' :: cs ↔ '_' ∈ cs := by
    rw [List.mem_cons, or_iff_right (by decide)]
  rw [unsignedList_eq_ok_iff_read (List.cons_ne_nil _ _), baseOf_octal h, hmem,
    underscoresOk_octal h]
  dsimp only
  exact readDigits_eq_ok_iff_isGrouped (by decide) (by decide) (by decide) (by decide)

theorem unsignedList_decimal (hzero : c ≠ '0') :
    unsignedList limit (c :: cs) = .ok n ↔ IsGrouped 10 .other (c :: cs) n ∧ n ≤ limit := by
  have hiff : readDigits 10 limit true 0 (c :: cs) = .ok n ∧
      ('_' ∈ c :: cs -> underscoresFrom false .other (c :: cs) = true) ↔
        IsGrouped 10 .other (c :: cs) n ∧ n ≤ limit :=
    readDigits_eq_ok_iff_isGrouped (by decide) (by decide) (by decide) (by decide)
  rw [unsignedList_eq_ok_iff_read (List.cons_ne_nil _ _), baseOf_of_ne hzero, ← hiff]
  apply and_congr_right
  intro hread
  -- A sign is no digit, so that there is none in front.
  have hplus : c ≠ '+' := by
    rintro rfl
    cases hread
  have hminus : c ≠ '-' := by
    rintro rfl
    cases hread
  rw [underscoresOk_decimal hzero hplus hminus]

/-- Exactly the literals of numbers up to the limit are read. -/
theorem unsignedList_eq_ok_iff : unsignedList limit cs = .ok n ↔ Denotes cs n ∧ n ≤ limit := by
  constructor
  · intro h
    rcases cs with _ | ⟨c, rest⟩
    · cases h
    · by_cases hzero : c = '0'
      · subst hzero
        by_cases hbase : ∃ letter ∈ rest.head?, ∃ base, NamesBase letter base
        · rcases hbase with ⟨letter, hletter, base, hnames⟩
          rcases rest with _ | ⟨_, digits⟩
          · cases hletter
          · cases hletter
            by_cases hdigits : digits = []
            · subst hdigits
              exact absurd h (unsignedList_letter_ne hnames)
            · rcases (unsignedList_based hnames hdigits).mp h with ⟨hgrouped, hle⟩
              exact ⟨Denotes.based hnames hdigits hgrouped, hle⟩
        · have hoctal : ∀ letter ∈ rest.head?, ∀ base, ¬ NamesBase letter base :=
            fun letter hletter base hnames => hbase ⟨letter, hletter, base, hnames⟩
          rcases (unsignedList_octal hoctal).mp h with ⟨hgrouped, hle⟩
          exact ⟨Denotes.octal hgrouped, hle⟩
      · rcases (unsignedList_decimal hzero).mp h with ⟨hgrouped, hle⟩
        exact ⟨Denotes.decimal hzero hgrouped, hle⟩
  · intro h
    rcases h with ⟨hdenotes, hle⟩
    cases hdenotes with
    | decimal hzero hgrouped => exact (unsignedList_decimal hzero).mpr ⟨hgrouped, hle⟩
    | octal hgrouped =>
        apply (unsignedList_octal _).mpr ⟨hgrouped, hle⟩
        exact fun letter hletter _ => hgrouped.not_namesBase letter hletter
    | based hnames hne hgrouped => exact (unsignedList_based hnames hne).mpr ⟨hgrouped, hle⟩

end Bases

end Literal
end Disassembler
