import Disassembler.Text.Column

/-!
# Words in columns

Texts that are joined with separators, and a word in a column of its own with
what stands after the column.
-/

namespace Disassembler
namespace Text

/-! ## Joined texts -/

theorem toList_join (separator : String) (ss : List String) :
    (join separator ss).toList = separator.toList.intercalate (ss.map String.toList) := by
  fun_induction join separator ss with
  | case1 => rfl
  | case2 s => simp
  | case3 s t rest ih =>
      rw [String.toList_append, String.toList_append, ih, List.map_cons, List.map_cons,
        List.map_cons, List.intercalate_cons_cons, List.append_assoc]

theorem exists_toList_join_cons (separator s : String) (rest : List String) :
    ∃ tail, (join separator (s :: rest)).toList = s.toList ++ tail := by
  cases rest with
  | nil => exact ⟨[], by simp [join]⟩
  | cons t rest =>
      refine ⟨separator.toList ++ (join separator (t :: rest)).toList, ?_⟩
      rw [join, String.toList_append, String.toList_append, List.append_assoc]

theorem join_append_cons (separator start s : String) (rest : List String) :
    join separator ((start ++ s) :: rest) = start ++ join separator (s :: rest) := by
  cases rest with
  | nil => rfl
  | cons t rest => rw [join, join, String.append_assoc, String.append_assoc, String.append_assoc]

/-- The text is empty only if there are no parts. -/
theorem join_ne_empty {separator : String} {ss : List String} (hne : ss ≠ [])
    (hss : ∀ s ∈ ss, s ≠ "") : join separator ss ≠ "" := by
  cases ss with
  | nil => exact absurd rfl hne
  | cons s rest =>
      rcases exists_toList_join_cons separator s rest with ⟨tail, htail⟩
      intro hempty
      rw [hempty] at htail
      have hs := (List.append_eq_nil_iff.1 htail.symm).1
      exact hss s List.mem_cons_self (String.toList_eq_nil_iff.1 hs)

theorem mem_toList_join {separator : String} {ss : List String} {c : Char}
    (hc : c ∈ (join separator ss).toList) :
    c ∈ separator.toList ∨ ∃ s ∈ ss, c ∈ s.toList := by
  fun_induction join separator ss with
  | case1 => simp at hc
  | case2 s => exact Or.inr ⟨s, List.mem_singleton_self s, hc⟩
  | case3 s t rest ih =>
      rw [String.toList_append, String.toList_append, List.mem_append, List.mem_append] at hc
      rcases hc with (hc | hc) | hc
      · exact Or.inr ⟨s, List.mem_cons_self, hc⟩
      · exact Or.inl hc
      · rcases ih hc with hsep | ⟨u, hu, hc⟩
        · exact Or.inl hsep
        · exact Or.inr ⟨u, List.mem_cons_of_mem s hu, hc⟩

/-! ## Columns -/

/-- A text has at most as many glyphs as bytes. -/
theorem width_le_length (s : String) : width s ≤ s.length := by
  have hglyphs : ∀ (cs : List Char) (skip : Nat), (glyphsFrom skip cs).length ≤ cs.length := by
    intro cs
    induction cs with
    | nil => simp [glyphsFrom]
    | cons c cs ih =>
        intro skip
        cases skip with
        | zero => simpa [glyphsFrom] using ih _
        | succ skip => exact Nat.le_succ_of_le (ih skip)
  exact hglyphs s.toList 0

def NoBlank (cs : List Char) : Prop :=
  ∀ c ∈ cs, c ≠ ' '

@[simp] theorem noBlank_nil : NoBlank [] := by
  simp [NoBlank]

@[simp] theorem noBlank_cons {c : Char} {cs : List Char} :
    NoBlank (c :: cs) ↔ c ≠ ' ' ∧ NoBlank cs := by
  simp [NoBlank]

@[simp] theorem noBlank_append {cs ds : List Char} :
    NoBlank (cs ++ ds) ↔ NoBlank cs ∧ NoBlank ds := by
  simp only [NoBlank, List.mem_append]
  constructor
  · intro h
    exact ⟨fun c hc => h c (Or.inl hc), fun c hc => h c (Or.inr hc)⟩
  · rintro ⟨hcs, hds⟩ c (hc | hc)
    · exact hcs c hc
    · exact hds c hc

/-- No blank stands at either end. -/
structure Trimmed (cs : List Char) : Prop where
  head : ∀ c ∈ cs.head?, c ≠ ' '
  last : ∀ c ∈ cs.getLast?, c ≠ ' '

theorem NoBlank.trimmed {cs : List Char} (h : NoBlank cs) : Trimmed cs where
  head c hc := h c (List.mem_of_head? hc)
  last c hc := h c (List.mem_of_getLast? hc)

theorem Trimmed.dropWhile_eq {cs : List Char} (h : Trimmed cs) :
    cs.dropWhile (· == ' ') = cs := by
  cases cs with
  | nil => rfl
  | cons c cs => simp [h.head c rfl]

theorem Trimmed.reverse {cs : List Char} (h : Trimmed cs) : Trimmed cs.reverse where
  head c hc := h.last c (by rwa [List.head?_reverse] at hc)
  last c hc := h.head c (by rwa [List.getLast?_reverse] at hc)

theorem Trimmed.append {cs ds : List Char} (hcs : Trimmed cs) (hds : Trimmed ds)
    (hcs' : cs ≠ []) (hds' : ds ≠ []) (mid : List Char) : Trimmed (cs ++ (mid ++ ds)) where
  head := by
    rw [List.head?_append, List.head?_eq_some_head hcs', Option.some_or,
      ← List.head?_eq_some_head hcs']
    exact hcs.head
  last := by
    rw [← List.append_assoc, List.getLast?_append, List.getLast?_eq_some_getLast hds',
      Option.some_or, ← List.getLast?_eq_some_getLast hds']
    exact hds.last

theorem Trimmed.join {ss : List String} (hss : ∀ s ∈ ss, Trimmed s.toList ∧ s ≠ "") :
    Trimmed (join " " ss).toList := by
  fun_induction Text.join " " ss with
  | case1 => exact noBlank_nil.trimmed
  | case2 s => exact (hss s List.mem_cons_self).1
  | case3 s t rest ih =>
      have hs := hss s List.mem_cons_self
      have hrest : ∀ u ∈ t :: rest, Trimmed u.toList ∧ u ≠ "" :=
        fun u hu => hss u (List.mem_cons_of_mem s hu)
      have hne : Text.join " " (t :: rest) ≠ "" :=
        join_ne_empty (List.cons_ne_nil t rest) fun u hu => (hrest u hu).2
      rw [String.toList_append, String.toList_append, List.append_assoc]
      exact hs.1.append (ih hrest) (fun h => hs.2 (String.toList_eq_nil_iff.1 h))
        (fun h => hne (String.toList_eq_nil_iff.1 h)) _

theorem toList_trimBlanks_padRight (n : Nat) {first second : String}
    (hfirst : Trimmed first.toList) (hsecond : Trimmed second.toList) :
    (trimBlanks (padRight n first ++ second)).toList =
      if second.toList = [] then first.toList
      else first.toList ++ (List.replicate (n - width first) ' ' ++ second.toList) := by
  have hreverse : ((padRight n first ++ second).toList.reverse) =
      second.toList.reverse ++
        (List.replicate (n - width first) ' ' ++ first.toList.reverse) := by
    simp [padRight, List.reverse_replicate]
  rw [trimBlanks, trimRightWhile, String.toList_ofList, hreverse]
  split
  · rename_i hnil
    rw [hnil, List.reverse_nil, List.nil_append,
      List.dropWhile_append_of_pos (by simp), hfirst.reverse.dropWhile_eq, List.reverse_reverse]
  · rename_i hcons
    cases hlast : second.toList.reverse with
    | nil => exact absurd (List.reverse_eq_nil_iff.1 hlast) hcons
    | cons c cs =>
        have hc : c ≠ ' ' := hsecond.reverse.head c (by rw [hlast]; rfl)
        have hsecond' : second.toList = (c :: cs).reverse := by
          rw [← hlast, List.reverse_reverse]
        simp [hc, hsecond', List.reverse_replicate]

/-- Both parts are found again, if there is room for a blank between them. -/
theorem cut_trimBlanks_padRight {n : Nat} {first second : String}
    (hfirst : NoBlank first.toList) (hsecond : Trimmed second.toList)
    (hwidth : second.toList ≠ [] -> width first < n) :
    (trimBlanks (padRight n first ++ second)).toList.takeWhile (· != ' ') = first.toList ∧
      ((trimBlanks (padRight n first ++ second)).toList.dropWhile (· != ' ')).dropWhile
        (· == ' ') = second.toList := by
  have hword : ∀ c ∈ first.toList, (c != ' ') = true := by
    intro c hc
    exact bne_iff_ne.2 (hfirst c hc)
  rw [toList_trimBlanks_padRight n hfirst.trimmed hsecond]
  split
  · rename_i hnil
    rw [hnil, ← List.append_nil first.toList, List.takeWhile_append_of_pos hword,
      List.dropWhile_append_of_pos hword]
    simp
  · rename_i hcons
    obtain ⟨k, hk⟩ : ∃ k, n - width first = k + 1 := ⟨n - width first - 1, by
      have := hwidth hcons
      omega⟩
    rw [List.takeWhile_append_of_pos hword, List.dropWhile_append_of_pos hword, hk,
      List.replicate_succ, List.cons_append]
    constructor
    · simp
    · have hblanks : ∀ c ∈ List.replicate k ' ', (c == ' ') = true := by simp
      rw [List.dropWhile_cons_of_neg (by simp), List.dropWhile_cons_of_pos (by simp),
        List.dropWhile_append_of_pos hblanks, hsecond.dropWhile_eq]

end Text
end Disassembler
