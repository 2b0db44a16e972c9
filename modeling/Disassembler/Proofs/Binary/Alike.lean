import Disassembler.Proofs.Binary.Fetch

/-!
# Trees of the same shape

Two decision trees that look at their units at the same points and end in values
that are related.  A tree that is alike itself reads the same number of units
from all inputs, whatever the units are.
-/

namespace Disassembler
namespace Fetch

variable {u α β α' β' : Type} {mayFail : Prop}

/-- Both trees look at the next unit or both end, and what they end in is
related.  If it is allowed, one of them may also fail. -/
inductive Alike (mayFail : Prop) (R : α -> β -> Prop) : Fetch u α -> Fetch u β -> Prop
  | done {a : α} {b : β} (h : R a b) : Alike mayFail R (done a) (done b)
  | fail : Alike mayFail R fail fail
  | more {k : Nat -> u -> Fetch u α} {l : Nat -> u -> Fetch u β}
      (h : ∀ i x y, Alike mayFail R (k i x) (l i y)) : Alike mayFail R (more k) (more l)
  | failLeft (hfail : mayFail) (g : Fetch u β) : Alike mayFail R fail g
  | failRight (hfail : mayFail) (f : Fetch u α) : Alike mayFail R f fail

namespace Alike

/-! ## Sequencing -/

section

variable {R : α -> β -> Prop} {S : α' -> β' -> Prop} {f : Fetch u α} {g : Fetch u β}

theorem bind {p : α -> Fetch u α'} {q : β -> Fetch u β'} (hfg : Alike mayFail R f g)
    (hpq : ∀ a b, R a b -> Alike mayFail S (p a) (q b)) :
    Alike mayFail S (f.bind p) (g.bind q) := by
  induction hfg with
  | done h => exact hpq _ _ h
  | fail => exact fail
  | more _ ih => exact more ih
  | failLeft hfail g => exact failLeft hfail _
  | failRight hfail f =>
      rw [fail_bind]
      exact failRight hfail _

/-- Trees whose values are only put into another form. -/
theorem map {p : α -> α'} {q : β -> β'} (hfg : Alike mayFail R f g)
    (hpq : ∀ a b, R a b -> S (p a) (q b)) :
    Alike mayFail S (f.bind fun a => .done (p a)) (g.bind fun b => .done (q b)) :=
  hfg.bind fun a b h => done (hpq a b h)

theorem mono {R' : α -> β -> Prop} (hfg : Alike mayFail R f g)
    (hR : ∀ a b, R a b -> R' a b) : Alike mayFail R' f g := by
  induction hfg with
  | done h => exact done (hR _ _ h)
  | fail => exact fail
  | more _ ih => exact more ih
  | failLeft hfail g => exact failLeft hfail g
  | failRight hfail f => exact failRight hfail f

end

theorem next {R : u -> u -> Prop} (hR : ∀ x y, R x y) :
    Alike mayFail R Fetch.next Fetch.next :=
  more fun _ x y => done (hR x y)

/-- A condition on both trees. -/
theorem ensure {R : α -> β -> Prop} {b : Bool} {f : Fetch u α} {g : Fetch u β}
    (h : b = true -> Alike mayFail R f g) :
    Alike mayFail R ((Fetch.ensure b).bind fun _ => f) ((Fetch.ensure b).bind fun _ => g) := by
  cases b with
  | false => exact fail
  | true => exact h rfl

/-! ## Runs -/

section

variable {R : α -> β -> Prop} {f : Fetch u α} {g : Fetch u β} {i : Nat} {xs ys : List u}

theorem of_reads (h : Alike mayFail R f g) {a : α} {b : β} (hf : f.Reads i xs a)
    (hg : g.Reads i ys b) : xs.length = ys.length ∧ R a b := by
  induction h generalizing i xs ys with
  | done h =>
      cases hf
      cases hg
      exact ⟨rfl, h⟩
  | more _ ih =>
      cases hf with
      | more hf =>
          cases hg with
          | more hg =>
              rcases ih _ _ _ hf hg with ⟨hlength, hR⟩
              exact ⟨congrArg (· + 1) hlength, hR⟩
  | fail => cases hf
  | failLeft hfail g => cases hf
  | failRight hfail f => cases hg

/-- Without failures on one side, it depends on the number of units alone whether
a run succeeds. -/
theorem isSome_run (h : Alike False R f g) (hlength : xs.length = ys.length) :
    (f.run i xs).isSome = (g.run i ys).isSome := by
  induction h generalizing i xs ys with
  | done h => simp
  | fail => simp
  | more _ ih =>
      cases xs with
      | nil =>
          cases ys with
          | nil => rfl
          | cons y ys => cases hlength
      | cons x xs =>
          cases ys with
          | nil => cases hlength
          | cons y ys => exact ih i x y (Nat.succ.inj hlength)
  | failLeft hfail g => exact hfail.elim
  | failRight hfail f => exact hfail.elim

end

end Alike

/-! ## Trees that are alike themselves -/

/-- Whatever the units are, the tree looks at the same number of them, and its
value is the same as far as the relation tells. -/
def Settled (mayFail : Prop) (same : α -> α -> Prop) (f : Fetch u α) : Prop :=
  Alike mayFail same f f

section

variable {same : α -> α -> Prop} {same' : β -> β -> Prop} {f : Fetch u α}

theorem settled_done {a : α} (h : same a a) : Settled mayFail same (done a : Fetch u α) :=
  Alike.done h

theorem settled_fail : Settled mayFail same (fail : Fetch u α) :=
  Alike.fail

theorem settled_ensure {b : Bool} (h : b = true -> Settled mayFail same f) :
    Settled mayFail same ((ensure b).bind fun _ => f) :=
  Alike.ensure h

theorem Settled.map {g : α -> β} (hf : Settled mayFail same f)
    (hg : ∀ a b, same a b -> same' (g a) (g b)) :
    Settled mayFail same' (f.bind fun a => .done (g a)) :=
  Alike.map hf hg

/-- What is found without looking at further units is the same. -/
theorem Settled.bind {g : α -> Fetch u β} (hf : Settled mayFail Eq f)
    (hg : ∀ a, Settled mayFail same' (g a)) : Settled mayFail same' (f.bind g) := by
  refine Alike.bind hf ?_
  rintro a _ rfl
  exact hg a

theorem settled_next {g : u -> β} (hg : ∀ x y, same' (g x) (g y)) :
    Settled mayFail same' (next.bind fun x => .done (g x)) :=
  Alike.map (Alike.next fun _ _ => trivial) fun x y _ => hg x y

end

end Fetch
end Disassembler
