import Mathlib
import Disassembler.Preference.File
import Disassembler.Proofs.Dictionary
import Disassembler.Proofs.Text.Lines
import Disassembler.Proofs.Text.Space

/-!
# What is read from a preference file

A text that is printed is read line by line, so that a value comes back as long as it
stays on the line of its key, and the line is broken where the key ends.
-/

namespace Disassembler
namespace PreferenceFile

open Text

/-! ## Printed texts -/

/-- The lines that a key and its value take up. -/
def rowsOf (pair : String × String) : List String :=
  split "\n" (pair.1 ++ separator ++ pair.2)

/-- What is read from the lines of a key and its value. -/
def pairsOf (pair : String × String) : List (String × String) :=
  (rowsOf pair).filterMap pairOf?

theorem linesOf_cons (pair : String × String) (values : Dictionary String) :
    linesOf (pair :: values) = pair.1 ++ separator ++ pair.2 ++ "\n" ++ linesOf values := by
  rw [linesOf, List.map_cons, String.join_cons]
  rfl

theorem rawLines_linesOf (values : Dictionary String) :
    rawLines (linesOf values) = values.flatMap rowsOf := by
  induction values with
  | nil => rfl
  | cons pair values ih =>
      rw [linesOf_cons, rawLines_append, ih]
      rfl

theorem rawLines_print (values : Dictionary String) :
    rawLines (print values) = heading :: values.flatMap rowsOf := by
  have hheading : '\n' ∉ heading.toList := by decide
  rw [print, rawLines_append, rawLines_linesOf, split_of_not_mem hheading]
  rfl

/-- A printed text is read as what its lines say, be they the lines of their own keys or
not. -/
theorem parse_print {values : Dictionary String}
    (hshort : ∀ pair ∈ values, ∀ row ∈ rowsOf pair, isOverlong row = false) :
    parse (print values) = .ok (.ofList (values.flatMap pairsOf)) := by
  have hrows : (values.flatMap rowsOf).any isOverlong = false := by
    rw [List.any_eq_false]
    intro row hrow
    rcases List.mem_flatMap.mp hrow with ⟨pair, hpair, hmem⟩
    rw [hshort pair hpair row hmem]
    exact Bool.false_ne_true
  have hheading : isOverlong heading = false ∧ dropReturn heading = heading := by decide
  rw [parse, rawLines_print]
  simp only [hheading.1, hheading.2, hrows]
  rw [List.filterMap_flatMap]
  rfl

theorem isBytes_print {values : Dictionary String}
    (h : ∀ pair ∈ values, IsBytes pair.1 ∧ IsBytes pair.2) : IsBytes (print values) := by
  have hlines : IsBytes (linesOf values) := by
    induction values with
    | nil => exact fun c hc => absurd hc List.not_mem_nil
    | cons pair values ih =>
        rcases h pair List.mem_cons_self with ⟨hkey, hvalue⟩
        have hseparator : IsBytes separator := by decide
        have hnewline : IsBytes "\n" := by decide
        rw [linesOf_cons]
        exact isBytes_append
          (isBytes_append (isBytes_append (isBytes_append hkey hseparator) hvalue) hnewline)
          (ih fun q hq => h q (List.mem_cons_of_mem pair hq))
  have hheading : IsBytes (heading ++ "\n") := by decide
  exact isBytes_append hheading hlines

/-! ## One line -/

/-- A pair that is read back from its own line. -/
structure IsPlain (pair : String × String) : Prop where
  trimmed : trim pair.1 = pair.1
  unbroken : ¬ separator.toList <:+: pair.1.toList
  /-- Otherwise the separator would begin within the key. -/
  ending : ¬ " ::".toList <:+ pair.1.toList
  key_line : '\n' ∉ pair.1.toList
  value_line : '\n' ∉ pair.2.toList

theorem toList_separator : separator.toList = [' ', ':', ':', ' '] := rfl

/-- The separator could begin within the key only with three characters of its own. -/
theorem IsPlain.breaksAt {pair : String × String} (h : IsPlain pair) (after : List Char) :
    BreaksAt separator.toList pair.1.toList after where
  first := by
    rcases h with ⟨-, hunbroken, hending, -, -⟩
    rw [toList_separator] at hunbroken ⊢
    rintro cs hne hcs hbegin
    rcases cs with _ | ⟨c, _ | ⟨d, _ | ⟨e, _ | ⟨f, cs⟩⟩⟩⟩
    · exact hne rfl
    · simp only [List.cons_append, List.nil_append, List.cons_prefix_cons] at hbegin
      exact absurd hbegin.2.1 (by decide)
    · simp only [List.cons_append, List.nil_append, List.cons_prefix_cons] at hbegin
      exact absurd hbegin.2.2.1 (by decide)
    · simp only [List.cons_append, List.cons_prefix_cons] at hbegin
      rcases hbegin with ⟨rfl, rfl, rfl, _⟩
      exact hending hcs
    · simp only [List.cons_append, List.cons_prefix_cons] at hbegin
      rcases hbegin with ⟨rfl, rfl, rfl, rfl, _⟩
      exact hunbroken ((List.prefix_append [' ', ':', ':', ' '] cs).isInfix.trans hcs.isInfix)

theorem dropReturn_row (key value : String) :
    dropReturn (key ++ separator ++ value) = key ++ separator ++ dropReturn value := by
  refine dropReturn_append ?_
  rw [String.toList_append, List.getLast?_append]
  change some ' ' ≠ some '\r'
  decide

theorem rowsOf_of_not_mem {pair : String × String} (hkey : '\n' ∉ pair.1.toList)
    (hvalue : '\n' ∉ pair.2.toList) : rowsOf pair = [pair.1 ++ separator ++ pair.2] := by
  refine split_of_not_mem ?_
  rw [String.toList_append, String.toList_append, List.mem_append, List.mem_append]
  rintro ((hmem | hmem) | hmem)
  · exact hkey hmem
  · exact absurd hmem (by decide)
  · exact hvalue hmem

theorem pairsOf_of_isPlain {pair : String × String} (h : IsPlain pair) :
    pairsOf pair = [(pair.1, dropReturn pair.2)] := by
  have hbreak : breakOn? separator (pair.1 ++ separator ++ dropReturn pair.2) =
      some (pair.1, dropReturn pair.2) :=
    (h.breaksAt _).breakOn?_eq (by decide)
  have hpair : pairOf? (pair.1 ++ separator ++ pair.2) = some (pair.1, dropReturn pair.2) := by
    rw [pairOf?, dropReturn_row, hbreak, Option.map_some]
    simp only [h.trimmed]
  rw [pairsOf, rowsOf_of_not_mem h.key_line h.value_line, List.filterMap_cons, hpair]
  rfl

/-! ## Last values -/

/-- The last value that the lines of a text give to a key. -/
def lastValue? (text key : String) : Option String :=
  match rawLines text with
  | [] => none
  | first :: rest =>
      if dropReturn first = heading then
        ((rest.filterMap pairOf?).filter fun pair => pair.1 == key).getLast?.map Prod.snd
      else none

theorem dropReturn_ne_heading {line : String} (h : isOverlong line = true) :
    dropReturn line ≠ heading := by
  intro heading_eq
  have hcapacity : lineCapacity = 65536 := rfl
  have hheading : heading.length = 37 := rfl
  have hle := length_le_dropReturn line
  rw [heading_eq] at hle
  rw [isOverlong, decide_eq_true_iff] at h
  omega

theorem find?_of_parse {text : String} {values : Dictionary String} (h : parse text = .ok values)
    (key : String) : values.find? key = lastValue? text key := by
  rw [parse] at h
  rw [lastValue?]
  cases hlines : rawLines text with
  | nil =>
      rw [hlines] at h
      cases h
      rfl
  | cons first rest =>
      rw [hlines] at h
      simp only at h ⊢
      split at h
      · rename_i hlong
        cases h
        rw [if_neg (dropReturn_ne_heading hlong)]
        rfl
      · split at h
        · cases h
        · rename_i hheading
          split at h
          · cases h
          · cases h
            rw [if_pos (not_not.mp hheading), Dictionary.find?_ofList]

/-! ## Read values -/

/-- What is known of a pair that is read from a text. -/
structure ReadFrom (text : String) (pair : String × String) : Prop where
  trimmed : trim pair.1 = pair.1
  unbroken : ¬ separator.toList <:+: pair.1.toList
  key_line : '\n' ∉ pair.1.toList
  value_line : '\n' ∉ pair.2.toList
  short : (pair.1 ++ separator ++ pair.2).length < lineCapacity
  chars : ∀ c ∈ pair.1.toList ++ pair.2.toList, c ∈ text.toList

theorem readFrom_of_pairOf?_eq {text row : String} {pair : String × String}
    (hrow : row ∈ split "\n" text) (hshort : isOverlong row = false)
    (hpair : pairOf? row = some pair) : ReadFrom text pair := by
  rcases Option.map_eq_some_iff.mp hpair with ⟨⟨key, value⟩, hbreak, rfl⟩
  rcases Option.map_eq_some_iff.mp hbreak with ⟨⟨before, after⟩, hbreak', heq⟩
  cases heq
  rcases breaksAt_of_breakOnList?_eq hbreak' with ⟨hsplit, hbreaks⟩
  rcases exists_append_dropReturn row with ⟨rest, hrest⟩
  have htrim := trim_isInfix (String.ofList before)
  rw [String.toList_ofList] at htrim
  have hrow_chars : ∀ c ∈ before ++ separator.toList ++ after, c ∈ text.toList ∧ c ≠ '\n' := by
    intro c hc
    refine mem_of_mem_split hrow c ?_
    rw [hrest, hsplit]
    exact List.mem_append_left rest hc
  have hbefore : ∀ c ∈ (trim (String.ofList before)).toList, c ∈ text.toList ∧ c ≠ '\n' :=
    fun c hc => hrow_chars c (List.mem_append_left _ (List.mem_append_left _ (htrim.subset hc)))
  have hafter : ∀ c ∈ after, c ∈ text.toList ∧ c ≠ '\n' :=
    fun c hc => hrow_chars c (List.mem_append_right _ hc)
  refine ⟨trim_trim _, ?_, fun hmem => (hbefore _ hmem).2 rfl, ?_, ?_, ?_⟩
  · exact fun hwithin => hbreaks.not_isInfix (by decide) (hwithin.trans htrim)
  · rw [String.toList_ofList]
    exact fun hmem => (hafter _ hmem).2 rfl
  · have hlength := congrArg List.length hrest
    have hle := htrim.length_le
    rw [isOverlong, decide_eq_false_iff_not, Nat.not_le, ← String.length_toList] at hshort
    rw [hsplit] at hlength
    rw [← String.length_toList, String.toList_append, String.toList_append, String.toList_ofList]
    simp only [List.length_append] at hlength ⊢
    omega
  · intro c hc
    rw [String.toList_ofList] at hc
    rcases List.mem_append.mp hc with hc | hc
    · exact (hbefore c hc).1
    · exact (hafter c hc).1

theorem readFrom_of_mem_parse {text : String} {values : Dictionary String}
    (h : parse text = .ok values) {pair : String × String} (hpair : pair ∈ values) :
    ReadFrom text pair := by
  rw [parse] at h
  split at h
  · cases h
    exact absurd hpair List.not_mem_nil
  · rename_i first rest hlines
    split at h
    · cases h
      exact absurd hpair List.not_mem_nil
    · split at h
      · cases h
      · split at h
        · cases h
        · rename_i hshort
          cases h
          rcases List.mem_filterMap.mp (Dictionary.mem_of_mem_ofList hpair) with
            ⟨row, hrow, hread⟩
          have hmem : row ∈ rawLines text := hlines ▸ List.mem_cons_of_mem first hrow
          have hrow_short : isOverlong row = false :=
            Bool.eq_false_iff.mpr fun hlong => hshort (List.any_eq_true.mpr ⟨row, hrow, hlong⟩)
          exact readFrom_of_pairOf?_eq (mem_split_of_mem_rawLines hmem) hrow_short hread

theorem sorted_of_parse {text : String} {values : Dictionary String}
    (h : parse text = .ok values) : values.Sorted := by
  rw [parse] at h
  split at h
  · cases h
    exact Dictionary.sorted_nil
  · split at h
    · cases h
      exact Dictionary.sorted_nil
    · split at h
      · cases h
      · split at h
        · cases h
        · cases h
          exact Dictionary.sorted_ofList _

theorem ReadFrom.short_row {text : String} {pair : String × String} (h : ReadFrom text pair) :
    ∀ row ∈ rowsOf pair, isOverlong row = false := by
  intro row hrow
  rw [rowsOf_of_not_mem h.key_line h.value_line] at hrow
  cases List.mem_singleton.mp hrow
  exact decide_eq_false (Nat.not_le.mpr h.short)

theorem ReadFrom.isPlain {text : String} {pair : String × String} (h : ReadFrom text pair)
    (hending : ¬ " ::".toList <:+ pair.1.toList) : IsPlain pair :=
  ⟨h.trimmed, h.unbroken, hending, h.key_line, h.value_line⟩

end PreferenceFile
end Disassembler
