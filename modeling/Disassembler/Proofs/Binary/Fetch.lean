import Disassembler.Binary.Fetch

/-!
# Trees of decisions

What can be said about a decision tree without running it.  A tree reads a
definite list of units and no others, so that the units after them do not
matter and a shorter input is not enough.  A bound on the units it looks at and
a property of its values are found by following its structure, and so is the
fact that one tree accepts everything that another one does.
-/

namespace Disassembler
namespace Fetch

variable {u α β : Type}

/-! ## Sequencing -/

@[simp] theorem pure_eq_done (a : α) : (pure a : Fetch u α) = done a :=
  rfl

@[simp] theorem bind_eq (f : Fetch u α) (g : α -> Fetch u β) : f >>= g = f.bind g :=
  rfl

@[simp] theorem done_bind (a : α) (g : α -> Fetch u β) : (done a).bind g = g a :=
  rfl

@[simp] theorem fail_bind (g : α -> Fetch u β) : (fail : Fetch u α).bind g = fail :=
  rfl

@[simp] theorem more_bind (k : Nat -> u -> Fetch u α) (g : α -> Fetch u β) :
    (more k).bind g = more fun i x => (k i x).bind g :=
  rfl

/-! ## The units that are read -/

/-- From offset `i` the tree reads exactly the units of the list, and ends in
the value. -/
inductive Reads : Fetch u α -> Nat -> List u -> α -> Prop
  | done (a : α) (i : Nat) : Reads (done a) i [] a
  | more {k : Nat -> u -> Fetch u α} {i : Nat} {x : u} {xs : List u} {a : α}
      (h : Reads (k i x) (i + 1) xs a) : Reads (more k) i (x :: xs) a

/-- A run that succeeds reads a part at the front of its input. -/
theorem exists_reads_of_run {f : Fetch u α} {i n : Nat} {xs : List u} {a : α}
    (h : f.run i xs = some (a, n)) :
    ∃ ys zs, xs = ys ++ zs ∧ n = i + ys.length ∧ f.Reads i ys a := by
  induction f generalizing i xs with
  | done b =>
      simp only [run_done, Option.some.injEq, Prod.mk.injEq] at h
      rcases h with ⟨rfl, rfl⟩
      exact ⟨[], xs, rfl, rfl, Reads.done b i⟩
  | fail => simp at h
  | more k ih =>
      cases xs with
      | nil => simp at h
      | cons x xs =>
          rw [run_more_cons] at h
          rcases ih i x h with ⟨ys, zs, rfl, rfl, hreads⟩
          refine ⟨x :: ys, zs, rfl, ?_, Reads.more hreads⟩
          simp only [List.length_cons]
          omega

/-- What stands after the units that are read has no influence. -/
theorem Reads.run_append {f : Fetch u α} {i : Nat} {ys : List u} {a : α}
    (h : f.Reads i ys a) (zs : List u) :
    f.run i (ys ++ zs) = some (a, i + ys.length) := by
  induction h with
  | done a i => simp
  | @more k i x xs a _ ih =>
      rw [List.cons_append, run_more_cons, ih]
      simp only [List.length_cons, Nat.add_comm 1, Nat.add_assoc]

/-- A run fails on a proper part of the units that are read. -/
theorem Reads.run_take {f : Fetch u α} {i : Nat} {ys : List u} {a : α}
    (h : f.Reads i ys a) {count : Nat} (hcount : count < ys.length) :
    f.run i (ys.take count) = none := by
  induction h generalizing count with
  | done a i => simp at hcount
  | @more k i x xs a _ ih =>
      cases count with
      | zero => rfl
      | succ count =>
          rw [List.take_succ_cons, run_more_cons]
          apply ih
          simpa using hcount

/-- Two trees in sequence read what the first one reads and then what the second
one reads. -/
theorem Reads.of_bind {f : Fetch u α} {g : α -> Fetch u β} {i : Nat} {zs : List u} {b : β}
    (h : (f.bind g).Reads i zs b) :
    ∃ xs ys a, zs = xs ++ ys ∧ f.Reads i xs a ∧ (g a).Reads (i + xs.length) ys b := by
  induction f generalizing i zs with
  | done a => exact ⟨[], zs, a, rfl, Reads.done a i, h⟩
  | fail => cases h
  | more k ih =>
      cases h with
      | @more _ _ x zs _ h =>
          rcases ih i x h with ⟨xs, ys, a, rfl, hf, hg⟩
          refine ⟨x :: xs, ys, a, rfl, Reads.more hf, ?_⟩
          rwa [List.length_cons, Nat.add_comm xs.length, ← Nat.add_assoc]

/-- Whatever the tree reads from offset `i` on, and ends in, is as the relation
says. -/
def ConformsAt (i : Nat) (P : List u -> α -> Prop) (f : Fetch u α) : Prop :=
  ∀ ys a, f.Reads i ys a -> P ys a

section

variable {i : Nat} {P : List u -> α -> Prop} {Q : List u -> β -> Prop} {f : Fetch u α}

theorem conformsAt_done {a : α} (h : P [] a) : (done a).ConformsAt i P := by
  intro ys b hreads
  cases hreads
  exact h

theorem conformsAt_fail : (fail : Fetch u α).ConformsAt i P := by
  intro ys a hreads
  cases hreads

theorem conformsAt_more {k : Nat -> u -> Fetch u α}
    (h : ∀ x, (k i x).ConformsAt (i + 1) fun ys a => P (x :: ys) a) :
    (more k).ConformsAt i P := by
  intro ys a hreads
  cases hreads with
  | more hreads => exact h _ _ _ hreads

theorem ConformsAt.mono {P' : List u -> α -> Prop} (h : f.ConformsAt i P)
    (hP : ∀ ys a, P ys a -> P' ys a) : f.ConformsAt i P' :=
  fun ys a hreads => hP ys a (h ys a hreads)

theorem ConformsAt.bind {g : α -> Fetch u β} (hf : f.ConformsAt i P)
    (hg : ∀ xs a, P xs a -> (g a).ConformsAt (i + xs.length) fun ys b => Q (xs ++ ys) b) :
    (f.bind g).ConformsAt i Q := by
  intro zs b hreads
  rcases hreads.of_bind with ⟨xs, ys, a, rfl, hfirst, hsecond⟩
  exact hg xs a (hf xs a hfirst) ys b hsecond

/-- A condition reads nothing. -/
theorem conformsAt_ensure {b : Bool} (h : b = true -> f.ConformsAt i P) :
    ((ensure b).bind fun _ => f).ConformsAt i P := by
  cases b with
  | false => exact conformsAt_fail
  | true => exact h rfl

end

/-- Whatever the tree reads and ends in is as the relation says. -/
def Conforms (P : List u -> α -> Prop) (f : Fetch u α) : Prop :=
  ∀ i ys a, f.Reads i ys a -> P ys a

theorem Conforms.conformsAt {P : List u -> α -> Prop} {f : Fetch u α} (h : f.Conforms P)
    (i : Nat) : f.ConformsAt i P :=
  h i

theorem conforms_done {P : List u -> α -> Prop} {a : α} (h : P [] a) : (done a).Conforms P :=
  fun _ => conformsAt_done h

theorem conforms_fail {P : List u -> α -> Prop} : (fail : Fetch u α).Conforms P :=
  fun _ => conformsAt_fail

theorem conforms_more {P : List u -> α -> Prop} {k : Nat -> u -> Fetch u α}
    (h : ∀ i x, (k i x).Conforms fun ys a => P (x :: ys) a) : (more k).Conforms P :=
  fun i => conformsAt_more fun x => h i x (i + 1)

theorem Conforms.mono {P Q : List u -> α -> Prop} {f : Fetch u α} (h : f.Conforms P)
    (hPQ : ∀ ys a, P ys a -> Q ys a) : f.Conforms Q :=
  fun i ys a hreads => hPQ ys a (h i ys a hreads)

theorem Conforms.bind {P : List u -> α -> Prop} {Q : List u -> β -> Prop} {f : Fetch u α}
    {g : α -> Fetch u β} (hf : f.Conforms P)
    (hg : ∀ xs a, P xs a -> (g a).Conforms fun ys b => Q (xs ++ ys) b) :
    (f.bind g).Conforms Q :=
  fun i => ConformsAt.bind (hf i) fun xs a h => hg xs a h (i + xs.length)

/-- A tree whose value is only put into another form. -/
theorem Conforms.map {P : List u -> α -> Prop} {Q : List u -> β -> Prop} {f : Fetch u α}
    {g : α -> β} (hf : f.Conforms P) (hg : ∀ xs a, P xs a -> Q xs (g a)) :
    (f.bind fun a => done (g a)).Conforms Q := by
  refine hf.bind ?_
  intro xs a ha
  refine conforms_done ?_
  rw [List.append_nil]
  exact hg xs a ha

/-- A property of the value alone, which the first tree does not matter for. -/
theorem conforms_bind {P : β -> Prop} {f : Fetch u α} {g : α -> Fetch u β}
    (hg : ∀ a, (g a).Conforms fun _ b => P b) : (f.bind g).Conforms fun _ b => P b := by
  intro i zs b hreads
  rcases hreads.of_bind with ⟨xs, ys, a, rfl, _, hsecond⟩
  exact hg a _ ys b hsecond

/-- A condition reads nothing. -/
theorem conforms_ensure {P : List u -> α -> Prop} {b : Bool} {f : Fetch u α}
    (h : b = true -> f.Conforms P) : ((ensure b).bind fun _ => f).Conforms P :=
  fun i => conformsAt_ensure fun hb => h hb i

/-! ## Bounds and properties of values -/

/-- The tree looks at `n` units at most, and every value in which it can end
has a property. -/
def Yields (P : α -> Prop) : Nat -> Fetch u α -> Prop
  | _, done a => P a
  | _, fail => True
  | 0, more _ => False
  | n + 1, more k => ∀ i x, Yields P n (k i x)

@[simp] theorem yields_done {P : α -> Prop} {n : Nat} {a : α} :
    (done a : Fetch u α).Yields P n ↔ P a := by
  cases n <;> rfl

@[simp] theorem yields_fail {P : α -> Prop} {n : Nat} : (fail : Fetch u α).Yields P n := by
  cases n <;> trivial

@[simp] theorem yields_more {P : α -> Prop} {n : Nat} {k : Nat -> u -> Fetch u α} :
    (more k).Yields P (n + 1) ↔ ∀ i x, (k i x).Yields P n :=
  Iff.rfl

/-- A bound can be raised and a property weakened. -/
theorem Yields.mono {P Q : α -> Prop} {m n : Nat} {f : Fetch u α} (h : f.Yields P m)
    (hPQ : ∀ a, P a -> Q a) (hmn : m ≤ n) : f.Yields Q n := by
  induction f generalizing m n with
  | done a => exact yields_done.2 (hPQ a (yields_done.1 h))
  | fail => exact yields_fail
  | more k ih =>
      cases m with
      | zero => exact absurd h id
      | succ m =>
          cases n with
          | zero => omega
          | succ n =>
              intro i x
              exact ih i x (h i x) (by omega)

/-- One tree after another: bounds are added, and the second tree may rely on
the property of the first one's value. -/
theorem Yields.bind {P : α -> Prop} {Q : β -> Prop} {m n l : Nat} {f : Fetch u α}
    {g : α -> Fetch u β} (hf : f.Yields P m) (hg : ∀ a, P a -> (g a).Yields Q n)
    (hl : m + n ≤ l) : (f.bind g).Yields Q l := by
  -- The bound of the second tree stays while that of the first one is used up.
  induction f generalizing m l with
  | done a => exact (hg a (yields_done.1 hf)).mono (fun _ h => h) (by omega)
  | fail => exact yields_fail
  | more k ih =>
      cases m with
      | zero => exact absurd hf id
      | succ m =>
          cases l with
          | zero => omega
          | succ l =>
              intro i x
              exact ih i x (hf i x) (by omega)

theorem yields_next {n : Nat} : (next : Fetch u u).Yields (fun _ => True) (n + 1) := by
  intro i x
  exact yields_done.2 trivial

theorem yields_nextAt {n : Nat} :
    (nextAt : Fetch u (Nat × u)).Yields (fun _ => True) (n + 1) := by
  intro i x
  exact yields_done.2 trivial

theorem yields_ensure {b : Bool} {n : Nat} :
    (ensure b : Fetch u Unit).Yields (fun _ => b = true) n := by
  cases b with
  | false => exact yields_fail
  | true => exact yields_done.2 rfl

/-- What a run ends in has the property. -/
theorem Yields.of_reads {P : α -> Prop} {n i : Nat} {f : Fetch u α} {ys : List u} {a : α}
    (h : f.Yields P n) (hreads : f.Reads i ys a) : P a ∧ ys.length ≤ n := by
  induction hreads generalizing n with
  | done a i => exact ⟨yields_done.1 h, Nat.zero_le n⟩
  | @more k i x xs a _ ih =>
      cases n with
      | zero => exact absurd h id
      | succ n =>
          rcases ih (h i x) with ⟨ha, hlength⟩
          exact ⟨ha, by simpa using hlength⟩

theorem Yields.conforms {P : α -> Prop} {n : Nat} {f : Fetch u α} (h : f.Yields P n) :
    f.Conforms fun _ a => P a :=
  fun _ _ _ hreads => (h.of_reads hreads).1

/-! ## Comparing trees -/

/-- The second tree reads the same units as the first one and ends in the same
value, wherever the first one does not fail. -/
inductive ExtendedBy : Fetch u α -> Fetch u α -> Prop
  | fail (g : Fetch u α) : ExtendedBy fail g
  | done (a : α) : ExtendedBy (done a) (done a)
  | more {k l : Nat -> u -> Fetch u α} (h : ∀ i x, ExtendedBy (k i x) (l i x)) :
      ExtendedBy (more k) (more l)

theorem ExtendedBy.refl (f : Fetch u α) : ExtendedBy f f := by
  induction f with
  | done a => exact ExtendedBy.done a
  | fail => exact ExtendedBy.fail Fetch.fail
  | more k ih => exact ExtendedBy.more ih

theorem ExtendedBy.bind {f f' : Fetch u α} {g g' : α -> Fetch u β} (hf : ExtendedBy f f')
    (hg : ∀ a, ExtendedBy (g a) (g' a)) : ExtendedBy (f.bind g) (f'.bind g') := by
  induction hf with
  | fail f' => exact ExtendedBy.fail (f'.bind g')
  | done a => exact hg a
  | more _ ih => exact ExtendedBy.more ih

/-- A weaker condition accepts more. -/
theorem extendedBy_ensure {b b' : Bool} (h : b = true -> b' = true) :
    ExtendedBy (ensure b : Fetch u Unit) (ensure b') := by
  cases b with
  | false => exact ExtendedBy.fail (ensure b')
  | true =>
      rw [h rfl]
      exact ExtendedBy.refl (ensure true)

/-- A run that succeeds has the same result with a tree that accepts more. -/
theorem ExtendedBy.run_eq_some {f g : Fetch u α} (h : ExtendedBy f g) {i : Nat} {xs : List u}
    {r : α × Nat} (hrun : f.run i xs = some r) : g.run i xs = some r := by
  induction h generalizing i xs with
  | fail g => simp at hrun
  | done a => exact hrun
  | more _ ih =>
      cases xs with
      | nil => simp at hrun
      | cons x xs => exact ih i x hrun

end Fetch
end Disassembler
