import Disassembler.Binary.Word

/-!
# Fetching units

A decoder looks at one unit of its input at a time and decides whether it is
finished, has failed, or needs another unit.  `Fetch` is the tree of these
decisions.  Because a tree can only look at the units it asks for, what it
makes of an input depends on the units it consumed and on nothing else.
-/

namespace Disassembler

/-- Decisions about units of type `u`, ending in a value of type `α` or in a
failure.  A further unit arrives together with its offset in the input. -/
inductive Fetch (u α : Type) where
  | done (a : α)
  | fail
  | more (k : Nat -> u -> Fetch u α)

namespace Fetch

variable {u α β : Type}

def bind : Fetch u α -> (α -> Fetch u β) -> Fetch u β
  | done a, f => f a
  | fail, _ => fail
  | more k, f => more fun i x => (k i x).bind f

instance : Monad (Fetch u) where
  pure := done
  bind := bind

def next : Fetch u u :=
  more fun _ x => done x

/-- The next unit, after its offset. -/
def nextAt : Fetch u (Nat × u) :=
  more fun i x => done (i, x)

def ensure (b : Bool) : Fetch u Unit :=
  if b then done () else fail

/-- Walk the tree along the units of a list, the first of which is at offset
`i`.  The result is the value and the offset after the last consumed unit. -/
def run : Fetch u α -> Nat -> List u -> Option (α × Nat)
  | done a, i, _ => some (a, i)
  | fail, _, _ => none
  | more _, _, [] => none
  | more k, i, x :: xs => (k i x).run (i + 1) xs

@[simp] theorem run_done (a : α) (i : Nat) (xs : List u) :
    (done a : Fetch u α).run i xs = some (a, i) := by
  cases xs <;> rfl

@[simp] theorem run_fail (i : Nat) (xs : List u) :
    (fail : Fetch u α).run i xs = none := by
  cases xs <;> rfl

@[simp] theorem run_more_nil (k : Nat -> u -> Fetch u α) (i : Nat) :
    (more k).run i [] = none :=
  rfl

@[simp] theorem run_more_cons (k : Nat -> u -> Fetch u α) (i : Nat) (x : u) (xs : List u) :
    (more k).run i (x :: xs) = (k i x).run (i + 1) xs :=
  rfl

/-- The offset never goes back. -/
theorem le_of_run_eq_some {f : Fetch u α} {i n : Nat} {xs : List u} {a : α}
    (h : f.run i xs = some (a, n)) : i ≤ n := by
  induction f generalizing i xs with
  | done b =>
      simp only [run_done, Option.some.injEq, Prod.mk.injEq] at h
      omega
  | fail => simp at h
  | more k ih =>
      cases xs with
      | nil => simp at h
      | cons x xs =>
          have : i + 1 ≤ n := ih i x h
          omega

/-! ## Words in bytes -/

/-- Walk a tree of words along bytes, two of which make up a word.  Bytes that
the tree does not ask for are not looked at. -/
def runBytes : Fetch UInt16 α -> Nat -> Bytes -> Option (α × Nat)
  | done a, i, _ => some (a, i)
  | fail, _, _ => none
  | more k, i, high :: low :: rest => (k i (Word16.ofBytes high low)).runBytes (i + 1) rest
  | more _, _, _ => none

/-- It does not matter whether bytes are made into words beforehand. -/
theorem runBytes_eq_run (f : Fetch UInt16 α) (i : Nat) (bytes : Bytes) :
    f.runBytes i bytes = f.run i (Word16.ofByteList bytes) := by
  induction f generalizing i bytes with
  | done a => simp [runBytes]
  | fail => simp [runBytes]
  | more k ih =>
      match bytes with
      | [] => rfl
      | [_] => rfl
      | high :: low :: rest => exact ih i (Word16.ofBytes high low) (i + 1) rest

end Fetch

end Disassembler
