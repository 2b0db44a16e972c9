import Mathlib
import Disassembler.Proofs.Preference.Override
import Disassembler.Proofs.Text.Separator
import Disassembler.Proofs.Text.Space

/-!
# Texts of overrides

What has not been used of a group is popped as a text, which can be pushed again.  The
group is the same again unless a key ends in a colon: such a key goes on into the
separator after it.
-/

namespace Disassembler
namespace OverrideGroup

open Text

/-! ## Keys and values -/

/-- A text that can be a key or a value. -/
structure IsPart (s : String) : Prop where
  trimmed : trim s = s
  unended : ';' ∉ s.toList
  undivided : ¬ [':', ':'] <:+: s.toList

def IsPair (p : String × String) : Prop :=
  IsPart p.1 ∧ IsPart p.2

/-- The last character of a text is a colon. -/
def EndsInColon (s : String) : Prop :=
  s.toList.getLast? = some ':'

instance (s : String) : Decidable (EndsInColon s) :=
  inferInstanceAs (Decidable (_ = _))

theorem isPart_trim {s : String} (hend : ';' ∉ s.toList) (hdivided : ¬ [':', ':'] <:+: s.toList) :
    IsPart (trim s) where
  trimmed := trim_trim s
  unended := fun hmem => hend ((trim_isInfix s).subset hmem)
  undivided := fun hwithin => hdivided (hwithin.trans (trim_isInfix s))

theorem pairOf?_eq_some_iff {part : String} {p : String × String} :
    pairOf? part = some p ↔
      ∃ key value, split "::" part = [key, value] ∧ p = (trim key, trim value) := by
  rw [pairOf?.eq_def]
  split
  · rename_i key value hsplit
    rw [hsplit, Option.some.injEq]
    constructor
    · intro heq
      exact ⟨key, value, rfl, heq.symm⟩
    · intro hparts
      rcases hparts with ⟨key', value', hparts, heq⟩
      cases hparts
      exact heq.symm
  · rename_i hother
    constructor
    · nofun
    · intro hparts
      rcases hparts with ⟨key, value, hsplit, _⟩
      exact absurd hsplit (hother key value)

theorem isPair_of_pairOf?_eq {part : String} {p : String × String} (hpart : ';' ∉ part.toList)
    (h : pairOf? part = some p) : IsPair p := by
  rcases pairOf?_eq_some_iff.mp h with ⟨key, value, hsplit, rfl⟩
  have hparts : ∀ s ∈ split "::" part, IsPart (trim s) := by
    intro s hs
    apply isPart_trim
    · exact fun hmem => hpart ((isInfix_of_mem_split (by decide) hs).subset hmem)
    · exact not_isInfix_of_mem_split (by decide) hs
  rw [hsplit] at hparts
  constructor
  · exact hparts key List.mem_cons_self
  · exact hparts value (List.mem_cons_of_mem key List.mem_cons_self)

theorem isPair_of_mem_ofText {s : String} {p : String × String} (hp : p ∈ (ofText s).values) :
    IsPair p := by
  rcases List.mem_filterMap.mp (Dictionary.mem_of_mem_ofList hp) with ⟨part, hpart, hpair⟩
  apply isPair_of_pairOf?_eq _ hpair
  intro hmem
  rcases List.mem_map.mp hpart with ⟨cs, hcs, rfl⟩
  rw [String.toList_ofList] at hmem
  exact (mem_of_mem_splitList hcs _ hmem).2 rfl

/-! ## Pairs in a text -/

/-- The text of a key and a value, after some blanks. -/
def pairText (k : Nat) (p : String × String) : String :=
  String.ofList (List.replicate k ' ') ++ (p.1 ++ "::" ++ p.2)

theorem not_isInfix_blanks_append {cs : List Char} (h : ¬ [':', ':'] <:+: cs) (k : Nat) :
    ¬ [':', ':'] <:+: List.replicate k ' ' ++ cs := by
  induction k with
  | zero => exact h
  | succ k ih =>
      rw [List.replicate_succ, List.cons_append, List.infix_cons_iff]
      intro hwithin
      rcases hwithin with hbegin | hwithin
      · exact absurd (List.cons_prefix_cons.mp hbegin).1 (by decide)
      · exact ih hwithin

theorem getLast?_blanks_append {cs : List Char} (h : cs.getLast? ≠ some ':') (k : Nat) :
    (List.replicate k ' ' ++ cs).getLast? ≠ some ':' := by
  rw [List.getLast?_append]
  cases hlast : cs.getLast? with
  | some c =>
      rw [hlast] at h
      exact h
  | none =>
      intro hblank
      have hmem := List.eq_of_mem_replicate (List.mem_of_getLast? hblank)
      exact absurd hmem (by decide)

/-- What stands before the first separator of a pair is the key, up to its last colon. -/
theorem splits_pairText (k : Nat) {start : List Char} (hnot : ¬ [':', ':'] <:+: start)
    (hlast : start.getLast? ≠ some ':') (after : List Char) :
    Splits [':', ':'] (List.replicate k ' ' ++ start ++ [':', ':'] ++ after)
      ((List.replicate k ' ' ++ start) :: splitList [':', ':'] after) := by
  apply Splits.cut
  · exact breaksAt_pair (not_isInfix_blanks_append hnot k)
      (fun _ => getLast?_blanks_append hlast k) after
  · exact splits_splitList (List.cons_ne_nil _ _) after

theorem pairOf?_pairText (k : Nat) {p : String × String} (hp : IsPair p)
    (hkey : ¬ EndsInColon p.1) : pairOf? (pairText k p) = some p := by
  rcases p with ⟨key, value⟩
  rcases hp with ⟨hpkey, hpvalue⟩
  have hvalue : splitList [':', ':'] value.toList = [value.toList] :=
    (Splits.last hpvalue.undivided).splitList_eq (List.cons_ne_nil _ _)
  have hsplits := splits_pairText k hpkey.undivided hkey value.toList
  have hsplit : split "::" (pairText k (key, value)) =
      [String.ofList (List.replicate k ' ') ++ key, value] := by
    have htext : (pairText k (key, value)).toList =
        List.replicate k ' ' ++ key.toList ++ [':', ':'] ++ value.toList := by
      simp [pairText]
    rw [split, htext]
    change (splitList [':', ':'] _).map _ = _
    rw [hsplits.splitList_eq (List.cons_ne_nil _ _), hvalue]
    simp
  apply pairOf?_eq_some_iff.mpr
  refine ⟨_, _, hsplit, ?_⟩
  rw [trim_blanks_append, hpkey.trimmed, hpvalue.trimmed]

/-- A key that ends in a colon does not come back: what is read, if anything, is shorter. -/
theorem length_lt_of_pairOf?_pairText {k : Nat} {p q : String × String} (hp : IsPair p)
    (hkey : EndsInColon p.1) (h : pairOf? (pairText k p) = some q) :
    q.1.length < p.1.length := by
  rcases p with ⟨key, value⟩
  rcases List.getLast?_eq_some_iff.mp hkey with ⟨start, hstart⟩
  change key.toList = start ++ [':'] at hstart
  have hundivided : ¬ [':', ':'] <:+: start ++ [':'] := by
    rw [← hstart]
    exact hp.1.undivided
  have hnot : ¬ [':', ':'] <:+: start := fun hwithin =>
    hundivided (hwithin.trans (List.prefix_append start [':']).isInfix)
  have hlast : start.getLast? ≠ some ':' := by
    intro hcolon
    rcases List.getLast?_eq_some_iff.mp hcolon with ⟨before, rfl⟩
    apply hundivided
    rw [List.append_assoc]
    exact (List.suffix_append before [':', ':']).isInfix
  have hsplits := splits_pairText k hnot hlast (':' :: value.toList)
  have hsplit : split "::" (pairText k (key, value)) =
      (String.ofList (List.replicate k ' ') ++ String.ofList start) ::
        (splitList [':', ':'] (':' :: value.toList)).map String.ofList := by
    have htext : (pairText k (key, value)).toList =
        List.replicate k ' ' ++ start ++ [':', ':'] ++ (':' :: value.toList) := by
      simp [pairText, hstart]
    rw [split, htext]
    change (splitList [':', ':'] _).map _ = _
    rw [hsplits.splitList_eq (List.cons_ne_nil _ _), List.map_cons, String.ofList_append]
  rcases pairOf?_eq_some_iff.mp h with ⟨first, second, hparts, rfl⟩
  rw [hsplit] at hparts
  rw [← (List.cons.inj hparts).1, trim_blanks_append]
  have htrim := (trim_isInfix (String.ofList start)).length_le
  have hlength := congrArg List.length hstart
  rw [String.toList_ofList] at htrim
  rw [List.length_append, List.length_singleton, String.length_toList] at hlength
  rw [String.length_toList] at htrim
  change (trim (String.ofList start)).length < key.length
  omega

/-! ## The text of a group -/

theorem join_blank (s : String) (rest : List String) :
    join "; " (s :: rest) = join ";" (s :: rest.map (" " ++ ·)) := by
  induction rest generalizing s with
  | nil => rfl
  | cons t rest ih =>
      have hseparator : "; " = ";" ++ " " := rfl
      rw [List.map_cons, join, join, join_append_cons, ← ih, hseparator]
      simp only [String.append_assoc]

/-- The parts of the text of a group are its pairs, with a blank before all but the first. -/
theorem split_text {p : String × String} {g : Dictionary String} (hg : ∀ q ∈ p :: g, IsPair q) :
    split ";" (textOf (p :: g)) = pairText 0 p :: g.map (pairText 1) := by
  have hunended : ∀ k, ∀ q ∈ p :: g, ';' ∉ (pairText k q).toList := by
    intro k q hq
    have hkey := (hg q hq).1.unended
    have hvalue := (hg q hq).2.unended
    simp [pairText, hkey, hvalue]
  have htext : textOf (p :: g) = join ";" (pairText 0 p :: g.map (pairText 1)) := by
    rw [textOf, List.map_cons, join_blank, List.map_map]
    rfl
  have hparts : ∀ s ∈ pairText 0 p :: g.map (pairText 1), ';' ∉ s.toList := by
    intro s hs
    rcases List.mem_cons.mp hs with rfl | hs
    · exact hunended 0 p List.mem_cons_self
    · rcases List.mem_map.mp hs with ⟨q, hq, rfl⟩
      exact hunended 1 q (List.mem_cons_of_mem p hq)
  rw [split, htext]
  change (splitList [';'] _).map _ = _
  rw [splitList_join rfl (List.cons_ne_nil _ _) hparts, map_ofList_toList]

theorem exists_of_mem_split_text {g : Dictionary String} (hg : ∀ q ∈ g, IsPair q) {part : String}
    {q : String × String} (hpart : part ∈ split ";" (textOf g)) (hq : pairOf? part = some q) :
    ∃ p ∈ g, ∃ k, part = pairText k p := by
  cases g with
  | nil =>
      cases List.mem_singleton.mp hpart
      cases hq
  | cons p g =>
      rw [split_text hg] at hpart
      rcases List.mem_cons.mp hpart with rfl | hpart
      · exact ⟨p, List.mem_cons_self, 0, rfl⟩
      · rcases List.mem_map.mp hpart with ⟨r, hr, rfl⟩
        exact ⟨r, List.mem_cons_of_mem p hr, 1, rfl⟩

theorem pairs_text {g : Dictionary String} (hg : ∀ q ∈ g, IsPair q)
    (hkeys : ∀ q ∈ g, ¬ EndsInColon q.1) : (split ";" (textOf g)).filterMap pairOf? = g := by
  cases g with
  | nil => rfl
  | cons p g =>
      have hread : ∀ k, ∀ q ∈ p :: g, pairOf? (pairText k q) = some q := fun k q hq =>
        pairOf?_pairText k (hg q hq) (hkeys q hq)
      have hrest : g.filterMap (pairOf? ∘ pairText 1) = g.filterMap some :=
        List.filterMap_congr fun q hq => hread 1 q (List.mem_cons_of_mem p hq)
      rw [split_text hg, List.filterMap_cons_some (hread 0 p List.mem_cons_self),
        List.filterMap_map, hrest, List.filterMap_some]

/-- If a key ends in a colon, the longest one that does is not read from any pair. -/
theorem ofText_text_eq_iff {g : OverrideGroup} (hg : ∀ q ∈ g.values, IsPair q) :
    ofText g.text = g ↔ ∀ q ∈ g.values, ¬ EndsInColon q.1 := by
  constructor
  · intro heq q hq hcolon
    let ending := (g.values.filter fun r => EndsInColon r.1).toFinset
    have hmem : ∀ r, r ∈ ending ↔ r ∈ g.values ∧ EndsInColon r.1 := by simp [ending]
    rcases Finset.exists_max_image ending (fun r => r.1.length) ⟨q, (hmem q).mpr ⟨hq, hcolon⟩⟩ with
      ⟨longest, hlongest, hmax⟩
    rcases (hmem longest).mp hlongest with ⟨hin, hends⟩
    have hread : longest ∈ (ofText g.text).values := by rwa [heq]
    rcases List.mem_filterMap.mp (Dictionary.mem_of_mem_ofList hread) with ⟨part, hpart, hpair⟩
    rcases exists_of_mem_split_text hg hpart hpair with ⟨p, hp, k, rfl⟩
    by_cases hpcolon : EndsInColon p.1
    · have hlt := length_lt_of_pairOf?_pairText (hg p hp) hpcolon hpair
      have hle := hmax p ((hmem p).mpr ⟨hp, hpcolon⟩)
      exact absurd hlt (Nat.not_lt.mpr hle)
    · rw [pairOf?_pairText k (hg p hp) hpcolon] at hpair
      cases hpair
      exact hpcolon hends
  · intro hkeys
    apply ext_values
    change Dictionary.ofList ((split ";" (textOf g.values)).filterMap pairOf?) = g.values
    rw [pairs_text hg hkeys, g.sorted.ofList_eq]

end OverrideGroup

/-! ## Pushing what was popped -/

namespace Overrides

/-- The groups after the values of some keys have been asked for, one after the other. -/
def takeAll (o : Overrides) (keys : List String) : Overrides :=
  keys.foldl (fun o key => (o.take key).2) o

/-- The text that is popped is that of the same group. -/
structure PushesBack (o : Overrides) : Prop where
  group : o.pop.2.push o.pop.1 = o
  text : (o.pop.2.push o.pop.1).pop = o.pop

theorem takeAll_eq_without (o : Overrides) (keys : List String) :
    o.takeAll keys = o.without keys := by
  induction keys generalizing o with
  | nil => exact (without_nil o).symm
  | cons key keys ih =>
      change ((o.take key).2).takeAll keys = _
      rw [ih, take_eq, without_without]

/-- What is popped can be pushed again exactly if no key that was not used ends in a
colon. -/
theorem pushesBack_takeAll_iff (o : Overrides) (s : String) (keys : List String) :
    ((o.push s).takeAll keys).PushesBack ↔
      ∀ p ∈ ((o.push s).takeAll keys).current.values, ¬ OverrideGroup.EndsInColon p.1 := by
  let g := (OverrideGroup.ofText s).without keys
  have hpairs : ∀ p ∈ g.values, OverrideGroup.IsPair p := fun p hp =>
    OverrideGroup.isPair_of_mem_ofText (List.mem_filter.mp hp).1
  have hgroups : (o.push s).takeAll keys = { groups := g :: o.groups } := takeAll_eq_without _ keys
  rw [hgroups]
  constructor
  · intro hback
    have hgroup : OverrideGroup.ofText g.text :: o.groups = g :: o.groups :=
      congrArg Overrides.groups hback.group
    exact (OverrideGroup.ofText_text_eq_iff hpairs).mp (List.cons.inj hgroup).1
  · intro hkeys
    have hread := (OverrideGroup.ofText_text_eq_iff hpairs).mpr hkeys
    have hgroup : ({ groups := o.groups } : Overrides).push g.text =
        { groups := g :: o.groups } := by
      rw [push, hread]
    constructor
    · exact hgroup
    · exact congrArg pop hgroup

/-- The colon at the end of the key goes to the value. -/
theorem push_colonKey :
    (({} : Overrides).push "a: :: b").current.values = [("a:", "b")] ∧
      (({} : Overrides).push "a: :: b").pop = ("a:::b", {}) ∧
      (({} : Overrides).push "a:::b").current.values = [("a", ":b")] ∧
      ¬ ((({} : Overrides).push "a: :: b").takeAll []).PushesBack := by
  have hread : (({} : Overrides).push "a:::b").current.values = [("a", ":b")] := rfl
  have hpushed : (({} : Overrides).push "a: :: b").current.values = [("a:", "b")] := rfl
  refine ⟨hpushed, rfl, hread, ?_⟩
  intro hback
  have hgroup : (({} : Overrides).push "a:::b").current.values =
      (({} : Overrides).push "a: :: b").current.values :=
    congrArg (fun o => o.current.values) hback.group
  rw [hread, hpushed] at hgroup
  exact absurd hgroup (by decide)

end Overrides
end Disassembler
