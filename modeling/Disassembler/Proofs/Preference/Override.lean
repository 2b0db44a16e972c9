import Disassembler.Preference.Override
import Disassembler.Proofs.Dictionary

/-!
# Groups of overrides

Values are used up in the most recent group, and the groups before it are left alone.
-/

namespace Disassembler

/-! ## One group -/

namespace OverrideGroup

theorem ext_values {g h : OverrideGroup} (heq : g.values = h.values) : g = h := by
  rcases g with ⟨values, _⟩
  cases heq
  rfl

/-- A group without the values of some keys. -/
def without (g : OverrideGroup) (keys : List String) : OverrideGroup where
  values := List.filter (fun p => !keys.contains p.1) g.values
  sorted := g.sorted.filter _

theorem find?_without (g : OverrideGroup) (keys : List String) (key : String) :
    (g.without keys).find? key = if key ∈ keys then none else g.find? key := by
  have hfilter := Dictionary.find?_filter (fun k => !keys.contains k) g.values key
  rw [find?, find?, without, hfilter]
  by_cases hkey : key ∈ keys
  · simp [hkey]
  · simp [hkey]

theorem without_without (g : OverrideGroup) (key : String) (keys : List String) :
    (g.without [key]).without keys = g.without (key :: keys) := by
  apply ext_values
  change List.filter _ (List.filter _ _) = List.filter _ _
  rw [List.filter_filter]
  refine List.filter_congr ?_
  intro p _
  rw [← Bool.not_or, List.contains_cons, List.contains_cons, List.contains_nil, Bool.or_false,
    Bool.or_comm]

theorem erase_eq_without (g : OverrideGroup) (key : String) : g.erase key = g.without [key] := by
  apply ext_values
  refine List.filter_congr ?_
  intro p _
  rw [List.contains_cons, List.contains_nil, Bool.or_false]
  rfl

theorem without_eq_self {g : OverrideGroup} {key : String} (h : g.find? key = none) :
    g.without [key] = g := by
  apply ext_values
  refine List.filter_eq_self.2 ?_
  intro p hp
  have hne := List.find?_eq_none.1 (Option.map_eq_none_iff.1 h) p hp
  simpa using hne

theorem without_nil (g : OverrideGroup) : g.without [] = g := by
  apply ext_values
  refine List.filter_eq_self.2 ?_
  intro p _
  rfl

end OverrideGroup

/-! ## All groups -/

namespace Overrides

/-- The most recent group, which is the only one that counts. -/
def current (o : Overrides) : OverrideGroup :=
  o.groups.headD {}

/-- The groups after the values of some keys have been used. -/
def without (o : Overrides) (keys : List String) : Overrides :=
  match o.groups with
  | [] => o
  | g :: older => { groups := g.without keys :: older }

theorem take_eq (o : Overrides) (key : String) :
    o.take key = (o.current.find? key, o.without [key]) := by
  rcases o with ⟨_ | ⟨g, older⟩⟩
  · rfl
  · simp only [take, without, current, List.headD_cons]
    cases hfind : g.find? key with
    | none => rw [OverrideGroup.without_eq_self hfind]
    | some value => rw [OverrideGroup.erase_eq_without]

theorem without_nil (o : Overrides) : o.without [] = o := by
  rcases o with ⟨_ | ⟨g, older⟩⟩
  · rfl
  · simp only [without, OverrideGroup.without_nil]

theorem without_without (o : Overrides) (key : String) (keys : List String) :
    (o.without [key]).without keys = o.without (key :: keys) := by
  rcases o with ⟨_ | ⟨g, older⟩⟩
  · rfl
  · simp only [without, OverrideGroup.without_without]

theorem current_without (o : Overrides) (keys : List String) :
    (o.without keys).current = o.current.without keys := by
  rcases o with ⟨_ | ⟨g, older⟩⟩
  · rfl
  · rfl

/-- The value of a key can be used without those of other keys. -/
theorem find?_current_without {o : Overrides} {key k : String} (h : k ≠ key) :
    (o.without [key]).current.find? k = o.current.find? k := by
  rw [current_without, OverrideGroup.find?_without, if_neg (mt List.mem_singleton.mp h)]

/-- What is popped is what was not used, and the older groups stay. -/
theorem pop_without (o : Overrides) (keys : List String) :
    (o.without keys).pop = ((o.current.without keys).text, { groups := o.groups.tail }) := by
  rcases o with ⟨_ | ⟨g, older⟩⟩
  · rfl
  · rfl

/-- Values are taken out of a group, but no group is taken away. -/
theorem size_take (o : Overrides) (key : String) : (o.take key).2.size = o.size := by
  rw [take_eq]
  rcases o with ⟨_ | ⟨g, older⟩⟩
  · rfl
  · rfl

/-- What was pushed is popped, even if values have been taken out of it. -/
theorem size_pop_of_push {o p : Overrides} {s : String} (h : p.size = (o.push s).size) :
    p.pop.2.size = o.size := by
  rcases p with ⟨_ | ⟨g, older⟩⟩
  · cases h
  · exact Nat.succ.inj h

end Overrides
end Disassembler
