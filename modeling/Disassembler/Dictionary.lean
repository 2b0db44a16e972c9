/-!
# Dictionaries

Association lists in the order of their keys.  Each key stands at most once in
a dictionary that is built with the operations of this module: its keys increase.
-/

namespace Disassembler

/-- Values with keys, in the order of the keys. -/
abbrev Dictionary (α : Type) := List (String × α)

namespace Dictionary

variable {α : Type}

/-- The value of a key. -/
def find? (d : Dictionary α) (key : String) : Option α :=
  (List.find? (fun p => p.1 == key) d).map Prod.snd

/-- Give a key a value.  A value that the key had before is replaced. -/
def insert (key : String) (value : α) : Dictionary α -> Dictionary α
  | [] => [(key, value)]
  | (k, v) :: rest =>
      if key < k then (key, value) :: (k, v) :: rest
      else if key = k then (key, value) :: rest
      else (k, v) :: insert key value rest

def erase (key : String) (d : Dictionary α) : Dictionary α :=
  List.filter (fun p => p.1 != key) d

/-- Give keys values, one after the other. -/
def insertAll (d : Dictionary α) (pairs : List (String × α)) : Dictionary α :=
  pairs.foldl (fun d p => insert p.1 p.2 d) d

/-- The dictionary of some pairs.  Of two values of a key the later one
counts. -/
def ofList (pairs : List (String × α)) : Dictionary α :=
  insertAll [] pairs

def keys (d : Dictionary α) : List String :=
  d.map Prod.fst

theorem keys_map {β : Type} (d : Dictionary α) (f : String × α -> β) :
    keys (d.map fun p => (p.1, f p)) = keys d := by
  rw [keys, keys, List.map_map]
  rfl

/-! ## Order -/

/-- The keys increase. -/
def Sorted (d : Dictionary α) : Prop :=
  d.Pairwise fun p q => p.1 < q.1

theorem sorted_iff {d : Dictionary α} : Sorted d ↔ d.keys.Pairwise fun k l => k < l :=
  List.pairwise_map.symm

theorem sorted_nil : Sorted ([] : Dictionary α) :=
  List.Pairwise.nil

theorem mem_insert {key : String} {value : α} {d : Dictionary α} {p : String × α}
    (h : p ∈ insert key value d) : p = (key, value) ∨ p ∈ d := by
  induction d with
  | nil => exact Or.inl (List.mem_singleton.1 h)
  | cons q d ih =>
      rw [insert] at h
      split at h
      · exact List.mem_cons.1 h
      · split at h
        · rcases List.mem_cons.1 h with h | h
          · exact Or.inl h
          · exact Or.inr (List.mem_cons_of_mem _ h)
        · rcases List.mem_cons.1 h with h | h
          · exact Or.inr (h ▸ List.mem_cons_self)
          · rcases ih h with h | h
            · exact Or.inl h
            · exact Or.inr (List.mem_cons_of_mem _ h)

theorem Sorted.insert {d : Dictionary α} (h : Sorted d) (key : String) (value : α) :
    Sorted (insert key value d) := by
  induction d with
  | nil => exact List.pairwise_singleton _ _
  | cons q d ih =>
      rcases List.pairwise_cons.1 h with ⟨hq, hd⟩
      rw [Dictionary.insert]
      split
      · rename_i hlt
        refine List.pairwise_cons.2 ⟨?_, h⟩
        intro r hr
        rcases List.mem_cons.1 hr with rfl | hr
        · exact hlt
        · exact String.lt_trans hlt (hq r hr)
      · split
        · rename_i heq
          refine List.pairwise_cons.2 ⟨?_, hd⟩
          intro r hr
          rw [heq]
          exact hq r hr
        · rename_i hlt hne
          refine List.pairwise_cons.2 ⟨?_, ih hd⟩
          intro r hr
          rcases mem_insert hr with rfl | hr
          · exact Std.lt_of_le_of_ne (String.not_lt.1 hlt) (Ne.symm hne)
          · exact hq r hr

theorem Sorted.insertAll {d : Dictionary α} (h : Sorted d) (pairs : List (String × α)) :
    Sorted (insertAll d pairs) := by
  induction pairs generalizing d with
  | nil => exact h
  | cons p pairs ih => exact ih (h.insert p.1 p.2)

theorem sorted_ofList (pairs : List (String × α)) : Sorted (ofList pairs) :=
  sorted_nil.insertAll pairs

theorem Sorted.filter {d : Dictionary α} (h : Sorted d) (keep : String × α -> Bool) :
    Sorted (d.filter keep) :=
  List.Pairwise.filter keep h

end Dictionary

end Disassembler
