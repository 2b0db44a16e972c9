import Mathlib
import Disassembler.Dsp56k.Register

/-!
# Combined registers

After writes to a snapshot, in whatever order, an accumulator or an input register has the value
that was written to it last, or else the one that its parts make up.
-/

namespace Disassembler
namespace Dsp56k

namespace Register

/-- The registers that have parts. -/
def combined : List Register :=
  [a, b, x, y]

/-- The parts of a register, the highest one first. -/
def parts : Register -> List Register
  | a => [a2, a1, a0]
  | b => [b2, b1, b0]
  | x => [x1, x0]
  | y => [y1, y0]
  | _ => []

theorem not_mem_parts_self (r : Register) : r ∉ r.parts := by
  cases r with
  | a | b | x | y => decide
  | _ => exact List.not_mem_nil

theorem parts_of_mem_parts {part whole : Register} (h : part ∈ whole.parts) :
    part.parts = [] := by
  have hall : ∀ whole ∈ combined, ∀ part ∈ whole.parts, part.parts = [] := by decide
  cases whole with
  | a | b | x | y => exact hall _ (by decide) part h
  | _ => cases h

theorem isStored_of_mem_combined {whole : Register} (h : whole ∈ combined) :
    whole.isStored = true := by
  have hall : ∀ whole ∈ combined, whole.isStored = true := by decide
  exact hall whole h

/-! ## Numbers -/

theorem ofNumber_of_neg {i : Int} (h : i < 0) : ofNumber i = unlisted :=
  if_pos h

theorem ofNumber_of_lt {i : Int} (h : 0 ≤ i) (hlt : i < stored.length) :
    stored[i.toNat]? = some (ofNumber i) := by
  have hplace : i.toNat < stored.length := by omega
  rw [ofNumber, if_neg (by omega), List.append_assoc, List.getD_eq_getElem?_getD,
    List.getElem?_append_left hplace, List.getElem?_eq_getElem hplace, Option.getD_some]

theorem isStored_ofNumber_iff (i : Int) :
    (ofNumber i).isStored = true ↔ 0 ≤ i ∧ i < stored.length := by
  have hstored : ∀ r ∈ stored, r.isStored = true := by decide
  have hothers : ∀ r ∈ [unlisted] ++ operandOnly, r.isStored = false := by decide
  constructor
  · intro h
    rcases Int.lt_or_le i 0 with hneg | hpos
    · rw [ofNumber_of_neg hneg] at h
      cases h
    refine ⟨hpos, Int.lt_of_not_ge fun hge => ?_⟩
    rw [ofNumber, if_neg (by omega), List.append_assoc, List.getD_eq_getElem?_getD,
      List.getElem?_append_right (by omega)] at h
    cases hplace : ([unlisted] ++ operandOnly)[i.toNat - stored.length]? with
    | none =>
        rw [hplace] at h
        cases h
    | some r =>
        rw [hplace, Option.getD_some, hothers r (List.mem_of_getElem? hplace)] at h
        cases h
  · intro h
    exact hstored _ (List.mem_of_getElem? (ofNumber_of_lt h.1 h.2))

/-- No two numbers stand for the same stored register. -/
theorem eq_of_ofNumber_eq {i j : Int} (h : ofNumber i = ofNumber j)
    (hi : (ofNumber i).isStored = true) : i = j := by
  have hj : (ofNumber j).isStored = true := h ▸ hi
  rw [isStored_ofNumber_iff] at hi hj
  have hnodup : stored.Nodup := by decide
  have hplace : stored[i.toNat]? = stored[j.toNat]? := by
    rw [ofNumber_of_lt hi.1 hi.2, ofNumber_of_lt hj.1 hj.2, h]
  have heq : i.toNat = j.toNat := (List.getElem?_inj (by omega) hnodup).1 hplace
  omega

end Register

namespace Registers

open Register

variable {s : Registers} {r r' part whole : Register} {v : UInt64}

/-! ## One register -/

/-- Nothing but the register that a register is a part of is computed. -/
theorem combine_cases (s : Registers) (r : Register) :
    (∃ whole v, r ∈ whole.parts ∧ s.combine r = s.put whole v) ∨ s.combine r = s := by
  cases r with
  | a2 | a1 | a0 => exact Or.inl ⟨.a, _, by decide, rfl⟩
  | b2 | b1 | b0 => exact Or.inl ⟨.b, _, by decide, rfl⟩
  | x1 | x0 => exact Or.inl ⟨.x, _, by decide, rfl⟩
  | y1 | y0 => exact Or.inl ⟨.y, _, by decide, rfl⟩
  | _ => exact Or.inr rfl

theorem value_put_of_ne (h : r' ≠ r) : (s.put r v).value r' = s.value r' :=
  if_neg h

theorem value_combine_of_not_mem (h : r ∉ r'.parts) : (s.combine r).value r' = s.value r' := by
  rcases s.combine_cases r with ⟨whole, v, hpart, hcombine⟩ | hcombine
  · rw [hcombine]
    apply value_put_of_ne
    rintro rfl
    exact h hpart
  · rw [hcombine]

theorem get_set_self (h : r.isStored = true) : (s.set r v).get r = v := by
  rw [get, if_pos h, set, if_pos h, value_combine_of_not_mem r.not_mem_parts_self]
  exact if_pos rfl

theorem get_set_of_ne (hne : r' ≠ r) (hpart : r ∉ r'.parts) : (s.set r v).get r' = s.get r' := by
  rw [set]
  split
  · rw [get, get, value_combine_of_not_mem hpart, value_put_of_ne hne]
  · rfl

theorem set_of_not_stored (h : r.isStored = false) : s.set r v = s := by
  rw [set, h]
  rfl

theorem get_of_not_stored (h : r.isStored = false) : s.get r = 0 := by
  rw [get, h]
  rfl

/-! ## Combinations -/

/-- What the values of parts make up.  Each part stands 24 bits above the next one, and values
that are wider than that overlap. -/
def combination (s : Registers) : List Register -> Nat
  | [] => 0
  | part :: parts => (s.get part).toNat <<< (24 * parts.length) ||| s.combination parts

theorem combination_pair (s : Registers) (high low : Register) :
    s.combination [high, low] = (s.get high).toNat <<< 24 ||| (s.get low).toNat := by
  simp [combination]

theorem combination_triple (s : Registers) (high middle low : Register) :
    s.combination [high, middle, low] =
      (s.get high).toNat <<< 48 ||| (s.get middle).toNat <<< 24 ||| (s.get low).toNat := by
  simp [combination, Nat.or_assoc]

theorem combination_congr {t : Registers} {parts : List Register}
    (h : ∀ part ∈ parts, t.get part = s.get part) : t.combination parts = s.combination parts := by
  induction parts with
  | nil => rfl
  | cons part parts ih =>
      rw [combination, combination, h part List.mem_cons_self,
        ih fun part hpart => h part (List.mem_cons_of_mem _ hpart)]

theorem toNat_accumulator (high middle low : UInt64) :
    (accumulator high middle low).toNat =
      (high.toNat <<< 48 ||| middle.toNat <<< 24 ||| low.toNat) % 2 ^ 64 := by
  rw [Nat.or_mod_two_pow, Nat.or_mod_two_pow, Nat.mod_eq_of_lt low.toNat_lt]
  simp only [accumulator, UInt64.toNat_or, UInt64.toNat_shiftLeft]
  rfl

theorem toNat_input (high low : UInt64) :
    (input high low).toNat = (high.toNat <<< 24 ||| low.toNat) % 2 ^ 64 := by
  rw [Nat.or_mod_two_pow, Nat.mod_eq_of_lt low.toNat_lt]
  simp only [input, UInt64.toNat_or, UInt64.toNat_shiftLeft]
  rfl

/-- Writing a part writes the combination. -/
theorem toNat_get_set_of_mem_parts (s : Registers) (v : UInt64) (h : part ∈ whole.parts) :
    ((s.set part v).get whole).toNat = (s.set part v).combination whole.parts % 2 ^ 64 := by
  cases whole with
  | a | b =>
      rw [parts, combination_triple]
      simp only [parts, List.mem_cons, List.not_mem_nil, or_false] at h
      rcases h with rfl | rfl | rfl
      · exact toNat_accumulator _ _ _
      · exact toNat_accumulator _ _ _
      · exact toNat_accumulator _ _ _
  | x | y =>
      rw [parts, combination_pair]
      simp only [parts, List.mem_cons, List.not_mem_nil, or_false] at h
      rcases h with rfl | rfl
      · exact toNat_input _ _
      · exact toNat_input _ _
  | _ => cases h

end Registers

/-! ## Writes -/

/-- A value for the register with a number. -/
structure RegisterWrite where
  number : Int
  value : UInt64

namespace RegisterWrite

def register (w : RegisterWrite) : Register :=
  .ofNumber w.number

/-- A value that was written to a register directly, when neither the register nor a part of it
was written after that. -/
def IsLast (writes : List RegisterWrite) (r : Register) (v : UInt64) : Prop :=
  ∃ before w after, writes = before ++ w :: after ∧ w.register = r ∧ w.value = v ∧
    ∀ later ∈ after, later.register ≠ r ∧ later.register ∉ r.parts

theorem not_isLast_nil {r : Register} {v : UInt64} : ¬ IsLast [] r v := by
  rintro ⟨before, w, after, hnil, _⟩
  cases before with
  | nil => cases hnil
  | cons _ _ => cases hnil

theorem isLast_concat_iff {writes : List RegisterWrite} {w : RegisterWrite} {r : Register}
    {v : UInt64} :
    IsLast (writes ++ [w]) r v ↔
      w.register = r ∧ w.value = v ∨
        (w.register ≠ r ∧ w.register ∉ r.parts) ∧ IsLast writes r v := by
  constructor
  · rintro ⟨before, last, after, hwrites, hregister, hvalue, hafter⟩
    rcases List.eq_nil_or_concat after with rfl | ⟨after, final, rfl⟩
    · rcases List.append_inj' hwrites rfl with ⟨rfl, hlast⟩
      cases hlast
      exact Or.inl ⟨hregister, hvalue⟩
    · rw [List.concat_eq_append, ← List.cons_append, ← List.append_assoc] at hwrites
      rcases List.append_inj' hwrites rfl with ⟨rfl, hfinal⟩
      cases hfinal
      rw [List.concat_eq_append] at hafter
      refine Or.inr ⟨hafter w (List.mem_concat_self ..), ?_⟩
      exact ⟨before, last, after, rfl, hregister, hvalue,
        fun later hlater => hafter later (List.mem_append_left _ hlater)⟩
  · rintro (⟨hregister, hvalue⟩ | ⟨hother, before, last, after, rfl, hregister, hvalue, hafter⟩)
    · exact ⟨writes, w, [], rfl, hregister, hvalue, nofun⟩
    · refine ⟨before, last, after ++ [w], by simp, hregister, hvalue, fun later hlater => ?_⟩
      rcases List.mem_append.1 hlater with hlater | hlater
      · exact hafter later hlater
      · rw [List.mem_singleton.1 hlater]
        exact hother

end RegisterWrite

namespace Registers

open Register

def write (s : Registers) (w : RegisterWrite) : Registers :=
  s.set w.register w.value

def afterAll (s : Registers) (writes : List RegisterWrite) : Registers :=
  writes.foldl write s

/-- What a write to any number changes. -/
structure WritesOnly (s : Registers) (w : RegisterWrite) : Prop where
  named : 0 ≤ w.number -> w.number < stored.length -> (s.write w).get w.register = w.value
  others : ∀ i : Int, i ≠ w.number -> w.register ∉ (ofNumber i).parts ->
    (s.write w).get (ofNumber i) = s.get (ofNumber i)
  refused : w.number < 0 ∨ (stored.length : Int) ≤ w.number ->
    s.write w = s ∧ s.get w.register = 0

theorem writesOnly (s : Registers) (w : RegisterWrite) : s.WritesOnly w := by
  constructor
  · intro hpos hlt
    exact get_set_self ((isStored_ofNumber_iff w.number).2 ⟨hpos, hlt⟩)
  · intro i hne hpart
    by_cases hsame : ofNumber i = w.register
    · -- two numbers of one register, which then is not a stored one
      have hstored : (ofNumber i).isStored = false :=
        Bool.eq_false_iff.2 fun hstored => hne (eq_of_ofNumber_eq hsame hstored)
      rw [get_of_not_stored hstored, get_of_not_stored hstored]
    · exact get_set_of_ne hsame hpart
  · intro hrefused
    have hstored : w.register.isStored = false := by
      rw [Bool.eq_false_iff, RegisterWrite.register, Ne, isStored_ofNumber_iff]
      omega
    exact ⟨set_of_not_stored hstored, get_of_not_stored hstored⟩

/-- A combined register after writes. -/
structure FollowsWrites (writes : List RegisterWrite) (s : Registers) (whole : Register) :
    Prop where
  get_eq : ∀ v, RegisterWrite.IsLast writes whole v -> s.get whole = v
  toNat_get : (∀ v, ¬ RegisterWrite.IsLast writes whole v) ->
    (s.get whole).toNat = s.combination whole.parts % 2 ^ 64

variable {s : Registers} {whole : Register} {writes : List RegisterWrite}

theorem combination_write {w : RegisterWrite} (h : w.register ∉ whole.parts) :
    (s.write w).combination whole.parts = s.combination whole.parts := by
  apply combination_congr
  intro part hpart
  have hne : part ≠ w.register := by
    rintro rfl
    exact h hpart
  refine get_set_of_ne hne ?_
  rw [parts_of_mem_parts hpart]
  exact List.not_mem_nil

theorem followsWrites_of_register_eq (hwhole : whole ∈ combined) {w : RegisterWrite}
    (hself : w.register = whole) : FollowsWrites (writes ++ [w]) (s.write w) whole := by
  have hget : (s.write w).get whole = w.value := by
    rw [write, hself]
    exact get_set_self (isStored_of_mem_combined hwhole)
  constructor
  · intro v hlast
    rcases RegisterWrite.isLast_concat_iff.1 hlast with ⟨_, rfl⟩ | ⟨⟨hother, _⟩, _⟩
    · exact hget
    · exact absurd hself hother
  · intro hnone
    exact absurd (RegisterWrite.isLast_concat_iff.2 (Or.inl ⟨hself, rfl⟩)) (hnone w.value)

theorem followsWrites_of_mem_parts {w : RegisterWrite} (hpart : w.register ∈ whole.parts) :
    FollowsWrites (writes ++ [w]) (s.write w) whole := by
  constructor
  · intro v hlast
    rcases RegisterWrite.isLast_concat_iff.1 hlast with ⟨rfl, _⟩ | ⟨⟨_, hother⟩, _⟩
    · exact absurd hpart w.register.not_mem_parts_self
    · exact absurd hpart hother
  · intro _
    exact s.toNat_get_set_of_mem_parts w.value hpart

theorem FollowsWrites.of_other (h : FollowsWrites writes s whole) {w : RegisterWrite}
    (hself : w.register ≠ whole) (hpart : w.register ∉ whole.parts) :
    FollowsWrites (writes ++ [w]) (s.write w) whole := by
  have hget : (s.write w).get whole = s.get whole := get_set_of_ne (Ne.symm hself) hpart
  constructor
  · intro v hlast
    rcases RegisterWrite.isLast_concat_iff.1 hlast with ⟨hsame, _⟩ | ⟨_, hbefore⟩
    · exact absurd hsame hself
    · rw [hget]
      exact h.get_eq v hbefore
  · intro hnone
    rw [hget, combination_write hpart]
    exact h.toNat_get fun v hbefore =>
      hnone v (RegisterWrite.isLast_concat_iff.2 (Or.inr ⟨⟨hself, hpart⟩, hbefore⟩))

theorem FollowsWrites.write (h : FollowsWrites writes s whole) (hwhole : whole ∈ combined)
    (w : RegisterWrite) : FollowsWrites (writes ++ [w]) (s.write w) whole := by
  by_cases hself : w.register = whole
  · exact followsWrites_of_register_eq hwhole hself
  by_cases hpart : w.register ∈ whole.parts
  · exact followsWrites_of_mem_parts hpart
  · exact h.of_other hself hpart

/-- All values of an empty snapshot are zero, and so are the combinations of them. -/
theorem followsWrites_zero (hwhole : whole ∈ combined) : FollowsWrites [] zero whole where
  get_eq v hlast := absurd hlast RegisterWrite.not_isLast_nil
  toNat_get _ := by
    have hzero : ∀ whole ∈ combined, zero.get whole = 0 ∧ zero.combination whole.parts = 0 := by
      decide
    rw [(hzero whole hwhole).1, (hzero whole hwhole).2]
    rfl

theorem afterAll_concat (s : Registers) (writes : List RegisterWrite) (w : RegisterWrite) :
    s.afterAll (writes ++ [w]) = (s.afterAll writes).write w := by
  rw [afterAll, List.foldl_append]
  rfl

theorem followsWrites_afterAll (hwhole : whole ∈ combined) (writes : List RegisterWrite) :
    FollowsWrites writes (zero.afterAll writes) whole := by
  induction writes using List.reverseRecOn with
  | nil => exact followsWrites_zero hwhole
  | append_singleton writes w ih =>
      rw [afterAll_concat]
      exact ih.write hwhole w

/-- Whatever is written to a snapshot, a combined register has the value that was written to it
last, or the combination of its parts if one of them was written later.  A write changes the
register with its number and the one that this is a part of, and nothing if the number is not
one of a stored register. -/
theorem afterAll_followsWrites (writes : List RegisterWrite) :
    (∀ whole ∈ combined, FollowsWrites writes (zero.afterAll writes) whole) ∧
      ∀ w, (zero.afterAll writes).WritesOnly w := by
  constructor
  · intro whole hwhole
    exact followsWrites_afterAll hwhole writes
  · exact (zero.afterAll writes).writesOnly

/-- Both accumulators are written directly, and then the parts of one with values that are too
wide, while a part of the other one was written before. -/
def wideWrites : List RegisterWrite :=
  [⟨41, 5⟩, ⟨9, 7⟩, ⟨6, 0x789abc⟩, ⟨5, 0x3123456⟩, ⟨49, 1⟩, ⟨4, 0x1ff01⟩, ⟨42, 0xb⟩, ⟨-1, 2⟩]

theorem afterAll_followsWrites_wide :
    let s := zero.afterAll wideWrites
    s.get .b = 0xb ∧
      (s.get .a).toNat = (0x1ff01 <<< 48 ||| 0x3123456 <<< 24 ||| 0x789abc) % 2 ^ 64 ∧
      (FollowsWrites wideWrites s .a ∧ FollowsWrites wideWrites s .b) ∧
      s.write ⟨49, 3⟩ = s := by
  intro s
  have h := afterAll_followsWrites wideWrites
  refine ⟨by decide, by decide, ⟨h.1 .a (by decide), h.1 .b (by decide)⟩, ?_⟩
  exact ((h.2 ⟨49, 3⟩).refused (Or.inr (by decide))).1

end Registers
end Dsp56k
end Disassembler
