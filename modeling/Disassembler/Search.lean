/-!
# Searching

Finding where a property begins to hold, by halving.  What is found is the first number
with the property, and in a list the first element.
-/

namespace Disassembler

/-- The least number from `low` to `high` with a property, found by halving.
The property is expected to hold from some number on. -/
def searchFirst (p : Nat -> Bool) (low high : Nat) : Nat :=
  if low < high then
    let middle := (low + high) / 2
    if p middle then searchFirst p low middle else searchFirst p (middle + 1) high
  else low
  termination_by high - low

/-- What holds from some number on holds from the number that is found on, and
not before it. -/
theorem searchFirst_spec {p : Nat -> Bool} {low high : Nat} (hle : low ≤ high)
    (hmono : ∀ i j, i ≤ j -> j < high -> p i = true -> p j = true) :
    (low ≤ searchFirst p low high ∧ searchFirst p low high ≤ high) ∧
      (∀ k, low ≤ k -> k < searchFirst p low high -> p k = false) ∧
      (searchFirst p low high < high -> p (searchFirst p low high) = true) := by
  fun_induction searchFirst p low high with
  | case1 low high hlt middle hmiddle ih =>
      have hmono' : ∀ i j, i ≤ j -> j < middle -> p i = true -> p j = true := by
        intro i j hij hj
        exact hmono i j hij (by omega)
      rcases ih (by omega) hmono' with ⟨⟨hlow, hhigh⟩, hbelow, hfound⟩
      refine ⟨⟨hlow, by omega⟩, hbelow, ?_⟩
      intro _
      rcases Nat.lt_or_ge (searchFirst p low middle) middle with hlt' | hge
      · exact hfound hlt'
      · rwa [Nat.le_antisymm hhigh hge]
  | case2 low high hlt middle hmiddle ih =>
      rcases ih (by omega) hmono with ⟨⟨hlow, hhigh⟩, hbelow, hfound⟩
      refine ⟨⟨by omega, hhigh⟩, ?_, hfound⟩
      intro k hk hlt'
      rcases Nat.lt_or_ge middle k with hk' | hk'
      · exact hbelow k hk' hlt'
      · -- Otherwise it would hold from here on, and so in the middle.
        rw [Bool.eq_false_iff]
        intro hpk
        exact hmiddle (hmono k middle hk' (by omega) hpk)
  | case3 low high hlt =>
      exact ⟨⟨Nat.le_refl low, hle⟩, fun k hk hlt' => absurd hlt' (Nat.not_lt.2 hk),
        fun hlt' => absurd hlt' hlt⟩

theorem searchFirst_eq_findIdx {α : Type} {xs : List α} {p : Nat -> Bool} {q : α -> Bool}
    (hp : ∀ k (hk : k < xs.length), p k = q xs[k])
    (hq : xs.Pairwise fun a b => q a = true -> q b = true) :
    searchFirst p 0 xs.length = xs.findIdx q := by
  have hmono : ∀ i j, i ≤ j -> j < xs.length -> p i = true -> p j = true := by
    intro i j hij hj hpi
    rcases Nat.eq_or_lt_of_le hij with rfl | hlt
    · exact hpi
    · rw [hp i (by omega)] at hpi
      rw [hp j hj]
      exact List.pairwise_iff_getElem.1 hq i j (by omega) hj hlt hpi
  rcases searchFirst_spec (Nat.zero_le _) hmono with ⟨⟨_, hle⟩, hbelow, hfound⟩
  generalize searchFirst p 0 xs.length = found at hle hbelow hfound
  have hbelow' : ∀ k (hk : k < xs.length), k < found -> q xs[k] = false := by
    intro k hk hlt
    rw [← hp k hk]
    exact hbelow k (Nat.zero_le k) hlt
  symm
  rcases Nat.eq_or_lt_of_le hle with rfl | hlt
  · rw [List.findIdx_eq_length]
    intro x hx
    rcases List.mem_iff_getElem.1 hx with ⟨k, hk, rfl⟩
    exact hbelow' k hk hk
  · rw [List.findIdx_eq hlt, ← hp found hlt]
    exact ⟨hfound hlt, fun k hk => hbelow' k (Nat.lt_trans hk hlt) hk⟩

theorem pairwise_le_address {α : Type} {xs : List α} {addressOf : α -> UInt32}
    (hxs : xs.Pairwise fun a b => addressOf a < addressOf b) (address : UInt32) :
    xs.Pairwise fun a b =>
      decide (address ≤ addressOf a) = true -> decide (address ≤ addressOf b) = true := by
  refine hxs.imp ?_
  intro a b hab ha
  rw [decide_eq_true_iff] at ha ⊢
  exact UInt32.le_trans ha (UInt32.le_of_lt hab)

theorem searchFirst_address {α : Type} {xs : List α} {addressOf : α -> UInt32}
    (hxs : xs.Pairwise fun a b => addressOf a < addressOf b) (address : UInt32) :
    searchFirst (fun k => address ≤ (xs.map addressOf).toArray.getD k 0) 0
        (xs.map addressOf).toArray.size =
      xs.findIdx fun x => address ≤ addressOf x := by
  have hget : ∀ k (hk : k < xs.length),
      decide (address ≤ (xs.map addressOf).toArray.getD k 0) =
        decide (address ≤ addressOf xs[k]) := by
    intro k hk
    rw [Array.getD_eq_getD_getElem?, List.getElem?_toArray, List.getElem?_map,
      List.getElem?_eq_getElem hk]
    rfl
  rw [List.size_toArray, List.length_map]
  exact searchFirst_eq_findIdx hget (pairwise_le_address hxs address)

/-- The first element with such a property parts a list. -/
theorem exists_append_findIdx {α : Type} {xs : List α} {q : α -> Bool}
    (hq : xs.Pairwise fun a b => q a = true -> q b = true) :
    ∃ before after, xs = before ++ after ∧ xs.findIdx q = before.length ∧
      (∀ x ∈ before, q x = false) ∧ ∀ x ∈ after, q x = true := by
  induction xs with
  | nil =>
      exact ⟨[], [], rfl, rfl, fun x hx => absurd hx List.not_mem_nil,
        fun x hx => absurd hx List.not_mem_nil⟩
  | cons x xs ih =>
      rcases List.pairwise_cons.1 hq with ⟨hx, hxs⟩
      by_cases hqx : q x = true
      · refine ⟨[], x :: xs, rfl, ?_, fun y hy => absurd hy List.not_mem_nil, ?_⟩
        · rw [List.findIdx_cons, hqx]
          rfl
        · intro y hy
          rcases List.mem_cons.1 hy with rfl | hy
          · exact hqx
          · exact hx y hy hqx
      · rw [Bool.not_eq_true] at hqx
        rcases ih hxs with ⟨before, after, happend, hlength, hbefore, hafter⟩
        refine ⟨x :: before, after, congrArg (List.cons x) happend, ?_, ?_, hafter⟩
        · rw [List.findIdx_cons, hqx, hlength]
          rfl
        · intro y hy
          rcases List.mem_cons.1 hy with rfl | hy
          · exact hqx
          · exact hbefore y hy

end Disassembler
