import Mathlib
import Disassembler.Dictionary

/-!
# Looking up in dictionaries

What a key has after values were given to keys, and the order of the keys.
-/

namespace Disassembler
namespace Dictionary

variable {α β : Type}

/-! ## Look-up -/

@[simp] theorem find?_nil (key : String) : find? ([] : Dictionary α) key = none := rfl

theorem find?_cons (k : String) (v : α) (d : Dictionary α) (key : String) :
    find? ((k, v) :: d) key = if k = key then some v else find? d key := by
  by_cases h : k = key
  · simp [find?, h]
  · simp [find?, h]

theorem find?_insert (key : String) (value : α) (d : Dictionary α) (k : String) :
    find? (insert key value d) k = if key = k then some value else find? d k := by
  induction d with
  | nil => rw [insert, find?_cons]
  | cons p d ih =>
      rcases p with ⟨k', v⟩
      rw [insert]
      split
      · rw [find?_cons]
      · split
        · rename_i heq
          rw [find?_cons, find?_cons, heq]
          split <;> rfl
        · rename_i hne
          rw [find?_cons, find?_cons, ih]
          split
          · rename_i hk
            rw [if_neg]
            intro hkey
            exact hne (hkey.trans hk.symm)
          · rfl

theorem find?_map_key (f : String -> α -> β) (d : Dictionary α) (key : String) :
    find? (d.map fun p => (p.1, f p.1 p.2)) key = (find? d key).map (f key) := by
  induction d with
  | nil => rfl
  | cons p d ih =>
      rw [List.map_cons, find?_cons, find?_cons, ih]
      split
      · rename_i h
        rw [h]
        rfl
      · rfl

theorem find?_map (f : α -> β) (d : Dictionary α) (key : String) :
    find? (d.map fun p => (p.1, f p.2)) key = (find? d key).map f :=
  find?_map_key (fun _ => f) d key

theorem find?_filter (keep : String -> Bool) (d : Dictionary α) (key : String) :
    find? (List.filter (fun p => keep p.1) d) key = if keep key then find? d key else none := by
  induction d with
  | nil => simp
  | cons p d ih =>
      cases hp : keep p.1 with
      | true =>
          rw [List.filter_cons_of_pos (by simpa using hp), find?_cons, find?_cons, ih]
          split
          · rename_i heq
            rw [if_pos (heq ▸ hp)]
          · rfl
      | false =>
          rw [List.filter_cons_of_neg (by simpa using hp), find?_cons, ih]
          split
          · rename_i hkey
            rw [if_neg]
            rintro rfl
            rw [hp] at hkey
            cases hkey
          · rfl

theorem isSome_find?_iff {d : Dictionary α} {key : String} :
    (find? d key).isSome = true ↔ key ∈ keys d := by
  induction d with
  | nil => simp [keys]
  | cons p d ih =>
      rw [find?_cons, keys, List.map_cons, List.mem_cons]
      split
      · rename_i h
        simp [h]
      · rename_i h
        rw [ih]
        simp [keys, Ne.symm h]

/-- Of the values that a key is given, the last one stays. -/
theorem find?_insertAll (d : Dictionary α) (pairs : List (String × α)) (key : String) :
    find? (insertAll d pairs) key =
      ((pairs.filter fun p => p.1 == key).getLast?.map Prod.snd).or (find? d key) := by
  induction pairs generalizing d with
  | nil => rfl
  | cons p pairs ih =>
      show find? (insertAll (insert p.1 p.2 d) pairs) key = _
      rw [ih, find?_insert]
      by_cases h : p.1 = key
      · rw [List.filter_cons_of_pos (by simpa using h), List.getLast?_cons, if_pos h]
        cases (pairs.filter fun p => p.1 == key).getLast? with
        | none => rfl
        | some q => rfl
      · rw [List.filter_cons_of_neg (by simpa using h), if_neg h]

theorem find?_insertAll_of_none (d : Dictionary α) {pairs : Dictionary α} {key : String}
    (h : find? pairs key = none) : find? (insertAll d pairs) key = find? d key := by
  have hfind := List.find?_eq_none.1 (Option.map_eq_none_iff.1 h)
  rw [find?_insertAll, List.filter_eq_nil_iff.2 hfind]
  rfl

theorem find?_ofList (pairs : List (String × α)) (key : String) :
    find? (ofList pairs) key =
      (pairs.filter fun p => p.1 == key).getLast?.map Prod.snd := by
  rw [ofList, find?_insertAll, find?_nil, Option.or_none]

/-! ## Order -/

theorem mem_insertAll {d : Dictionary α} {pairs : List (String × α)} {p : String × α}
    (h : p ∈ insertAll d pairs) : p ∈ pairs ∨ p ∈ d := by
  induction pairs generalizing d with
  | nil => exact Or.inr h
  | cons q pairs ih =>
      rcases ih (d := insert q.1 q.2 d) h with h | h
      · exact Or.inl (List.mem_cons_of_mem _ h)
      · rcases mem_insert h with h | h
        · exact Or.inl (h ▸ List.mem_cons_self)
        · exact Or.inr h

theorem mem_of_mem_ofList {pairs : List (String × α)} {p : String × α}
    (h : p ∈ ofList pairs) : p ∈ pairs :=
  (mem_insertAll h).resolve_right List.not_mem_nil

theorem Sorted.map {d : Dictionary α} (h : Sorted d) (f : α -> β) :
    Sorted (d.map fun p => (p.1, f p.2)) :=
  List.Pairwise.map _ (fun _ _ hpq => hpq) h

theorem Sorted.find?_eq_some {d : Dictionary α} (h : Sorted d) {p : String × α} (hp : p ∈ d) :
    find? d p.1 = some p.2 := by
  induction d with
  | nil => exact absurd hp List.not_mem_nil
  | cons q d ih =>
      rcases List.pairwise_cons.1 h with ⟨hq, hd⟩
      rw [find?_cons]
      rcases List.mem_cons.1 hp with rfl | hp
      · rw [if_pos rfl]
      · rw [if_neg (ne_of_lt (hq p hp)), ih hd hp]

theorem mem_of_find?_eq_some {d : Dictionary α} {key : String} {value : α}
    (h : find? d key = some value) : (key, value) ∈ d := by
  induction d with
  | nil => cases h
  | cons q d ih =>
      rw [find?_cons] at h
      split at h
      · rename_i heq
        cases h
        rw [← heq]
        exact List.mem_cons_self
      · exact List.mem_cons_of_mem _ (ih h)

theorem Sorted.find?_eq_none {d : Dictionary α} {p : String × α} (h : Sorted (p :: d)) :
    find? d p.1 = none := by
  cases hfind : find? d p.1 with
  | none => rfl
  | some value =>
      have hlt := (List.pairwise_cons.1 h).1 _ (mem_of_find?_eq_some hfind)
      exact absurd hlt (lt_irrefl p.1)

/-- What is found under a key that was given a value is one of the values it was given. -/
theorem Sorted.mem_of_mem_insertAll {d : Dictionary α} (h : Sorted d) {pairs : Dictionary α}
    {p : String × α} (hp : p ∈ Dictionary.insertAll d pairs) (hkey : (find? pairs p.1).isSome = true) :
    p ∈ pairs := by
  have hfind := (h.insertAll pairs).find?_eq_some hp
  rw [find?_insertAll] at hfind
  cases hlast : (pairs.filter fun q => q.1 == p.1).getLast? with
  | none =>
      have hnone := List.filter_eq_nil_iff.1 (List.getLast?_eq_none_iff.1 hlast)
      rw [find?, Option.isSome_map, List.find?_isSome] at hkey
      rcases hkey with ⟨q, hq, heq⟩
      exact absurd heq (hnone q hq)
  | some q =>
      rw [hlast] at hfind
      rcases List.mem_filter.1 (List.mem_of_getLast? hlast) with ⟨hq, heq⟩
      rwa [← Prod.ext (eq_of_beq heq) (Option.some.inj hfind)]

/-- Each value becomes some pairs.  One that alone has its key can be found again. -/
theorem Sorted.find?_ofList_flatMap {d : Dictionary α} (h : Sorted d)
    {f : String × α -> List (String × β)} {g : α -> β} {key : String}
    (hkey : ∀ p ∈ d, p.1 = key -> f p = [(key, g p.2)])
    (hother : ∀ p ∈ d, p.1 ≠ key -> ∀ q ∈ f p, q.1 ≠ key) :
    find? (ofList (d.flatMap f)) key = (find? d key).map g := by
  have hfilter : (d.flatMap f).filter (fun q => q.1 == key) =
      ((find? d key).map fun value => (key, g value)).toList := by
    induction d with
    | nil => rfl
    | cons p d ih =>
        have ih' := ih (List.pairwise_cons.1 h).2 (fun q hq => hkey q (List.mem_cons_of_mem p hq))
          fun q hq => hother q (List.mem_cons_of_mem p hq)
        rw [List.flatMap_cons, List.filter_append, ih', find?_cons]
        by_cases hp : p.1 = key
        · have hnone := h.find?_eq_none
          rw [hp] at hnone
          have hself : [(key, g p.2)].filter (fun q => q.1 == key) = [(key, g p.2)] := by simp
          rw [hkey p List.mem_cons_self hp, hnone, if_pos hp, hself]
          rfl
        · have hempty : (f p).filter (fun q => q.1 == key) = [] :=
            List.filter_eq_nil_iff.2 fun q hq => by
              simpa using hother p List.mem_cons_self hp q hq
          rw [hempty, if_neg hp, List.nil_append]
  rw [find?_ofList, hfilter]
  cases find? d key with
  | none => rfl
  | some value => rfl

/-- Dictionaries with the same values are the same. -/
theorem Sorted.ext {d e : Dictionary α} (hd : Sorted d) (he : Sorted e)
    (h : ∀ key, find? d key = find? e key) : d = e := by
  have hsub : ∀ {d e : Dictionary α}, Sorted d -> (∀ key, find? d key = find? e key) ->
      ∀ p ∈ d, p ∈ e := by
    intro d e hd h p hp
    have hfind := hd.find?_eq_some hp
    rw [h] at hfind
    exact mem_of_find?_eq_some hfind
  have hnodup : ∀ {d : Dictionary α}, Sorted d -> d.Nodup := fun hd =>
    hd.imp fun hlt heq => absurd (heq ▸ hlt) (lt_irrefl _)
  have hperm : d.Perm e := (List.perm_ext_iff_of_nodup (hnodup hd) (hnodup he)).2 fun p =>
    ⟨hsub hd h p, hsub he (fun key => (h key).symm) p⟩
  exact hperm.eq_of_pairwise (fun p q _ _ hpq hqp => absurd hpq (lt_asymm hqp)) hd he

theorem Sorted.ofList_eq {d : Dictionary α} (h : Sorted d) : ofList d = d := by
  refine (sorted_ofList d).ext h fun key => ?_
  have hfind : find? (ofList (d.flatMap fun p => [p])) key = (find? d key).map id :=
    h.find?_ofList_flatMap (fun p _ hp => by rw [← hp]; rfl)
      fun p _ hp q hq => by cases List.mem_singleton.1 hq; exact hp
  rw [List.flatMap_singleton', Option.map_id] at hfind
  exact hfind

/-- Where all keys are given values, nothing of what was there stays. -/
theorem Sorted.insertAll_eq {d pairs : Dictionary α} (hd : Sorted d) (hpairs : Sorted pairs)
    (hkeys : ∀ p ∈ d, (find? pairs p.1).isSome = true) : Dictionary.insertAll d pairs = pairs := by
  refine (hd.insertAll pairs).ext hpairs fun key => ?_
  have hfind := find?_ofList pairs key
  rw [hpairs.ofList_eq] at hfind
  rw [find?_insertAll, ← hfind]
  cases hkey : find? pairs key with
  | some value => rfl
  | none =>
      cases hold : find? d key with
      | none => rfl
      | some value =>
          have hsome := hkeys _ (mem_of_find?_eq_some hold)
          rw [hkey] at hsome
          cases hsome

end Dictionary
end Disassembler
