import Mathlib
import Disassembler.Message.Fault
import Disassembler.Proofs.Message.Template
import Disassembler.Proofs.Text.Separator

/-!
# Messages of reports

The message of a report is the formatted pattern in which parts that repeat the part
before them are left out.  A pattern in front of itself does not show, as long as what it
writes first does not depend on a value.
-/

namespace Disassembler
namespace Fault

open Text

/-! ## Runs of equal parts -/

section Runs

variable {α : Type} [DecidableEq α]

/-- A list has each run of equal elements of another list once. -/
structure CollapsesTo (long short : List α) : Prop where
  runs : ∃ counts : List (α × Nat), counts.map Prod.fst = short ∧
    counts.flatMap (fun p => List.replicate (p.2 + 1) p.1) = long
  differ : short.IsChain (· ≠ ·)

theorem head?_collapse (as : List α) : (collapse as).head? = as.head? := by
  fun_induction collapse as with
  | case1 => rfl
  | case2 a => rfl
  | case3 a rest ih => exact ih
  | case4 a b rest hab ih => rfl

theorem mem_of_mem_collapse {as : List α} {a : α} (h : a ∈ collapse as) : a ∈ as := by
  fun_induction collapse as with
  | case1 => exact h
  | case2 b => exact h
  | case3 b rest ih => exact List.mem_cons_of_mem b (ih h)
  | case4 b c rest hbc ih =>
      rcases List.mem_cons.mp h with rfl | h
      · exact List.mem_cons_self
      · exact List.mem_cons_of_mem b (ih h)

theorem collapse_ne_nil {as : List α} (h : as ≠ []) : collapse as ≠ [] := by
  intro hnil
  have hhead := head?_collapse as
  rw [hnil] at hhead
  exact h (List.head?_eq_none_iff.mp hhead.symm)

theorem collapsesTo_collapse (as : List α) : CollapsesTo as (collapse as) := by
  fun_induction collapse as with
  | case1 => exact ⟨⟨[], rfl, rfl⟩, List.isChain_nil⟩
  | case2 a => exact ⟨⟨[(a, 0)], rfl, rfl⟩, List.isChain_singleton a⟩
  | case3 a rest ih =>
      rcases ih with ⟨⟨counts, hshort, hlong⟩, hdiffer⟩
      -- The first run is that of the element that is repeated, and becomes longer by one.
      rcases counts with _ | ⟨⟨b, n⟩, counts⟩
      · cases hlong
      · obtain rfl : b = a := (List.cons.inj hlong).1
        refine ⟨⟨(b, n + 1) :: counts, hshort, ?_⟩, hdiffer⟩
        rw [← hlong]
        rfl
  | case4 a b rest hab ih =>
      rcases ih with ⟨⟨counts, hshort, hlong⟩, hdiffer⟩
      refine ⟨⟨(a, 0) :: counts, ?_, ?_⟩, ?_⟩
      · rw [List.map_cons, hshort]
      · rw [List.flatMap_cons, hlong]
        rfl
      · rw [List.isChain_cons]
        constructor
        · intro c hc
          rw [head?_collapse] at hc
          cases hc
          exact hab
        · exact hdiffer

theorem collapse_of_isChain {as : List α} (h : as.IsChain (· ≠ ·)) : collapse as = as := by
  fun_induction collapse as with
  | case1 => rfl
  | case2 a => rfl
  | case3 a rest ih => exact absurd rfl (List.isChain_cons_cons.mp h).1
  | case4 a b rest hab ih => rw [ih (List.isChain_cons_cons.mp h).2]

/-- An element in front of a list that begins with it does not show. -/
theorem collapse_cons_collapse (a : α) (as : List α) :
    collapse (a :: collapse (a :: as)) = collapse (a :: as) := by
  have hhead := head?_collapse (a :: as)
  rcases hcollapse : collapse (a :: as) with _ | ⟨b, rest⟩
  · exact absurd hcollapse (collapse_ne_nil (List.cons_ne_nil a as))
  · rw [hcollapse] at hhead
    have hba : b = a := Option.some.inj hhead
    have hchain := (collapsesTo_collapse (a :: as)).differ
    rw [hcollapse] at hchain
    rw [collapse, if_pos hba.symm, collapse_of_isChain hchain]

end Runs

/-! ## Normal messages -/

/-- A message is a formatted pattern with each run of equal parts left once. -/
structure IsNormalOf (formatted message : String) : Prop where
  differ : (split separator message).IsChain (· ≠ ·)
  collapsed : ∃ parts, CollapsesTo (split separator formatted) parts ∧
    message = join separator parts

theorem separator_ne_empty : separator ≠ "" := by
  decide

theorem toList_separator : separator.toList = [':', ' '] := rfl

theorem split_normalize (message : String) :
    split separator (normalize message) = collapse (split separator message) := by
  apply split_join_pair toList_separator (by decide)
  · exact collapse_ne_nil (split_ne_nil_of_ne separator_ne_empty message)
  · intro part hpart
    exact not_isInfix_of_mem_split separator_ne_empty (mem_of_mem_collapse hpart)

theorem isNormalOf_normalize (message : String) : IsNormalOf message (normalize message) := by
  have hcollapses := collapsesTo_collapse (split separator message)
  constructor
  · rw [split_normalize]
    exact hcollapses.differ
  · exact ⟨_, hcollapses, rfl⟩

/-- What stands before the first separator is a part. -/
theorem split_context {context : String} (hcontext : ¬ [':', ' '] <:+: context.toList)
    (message : String) :
    split separator (context ++ separator ++ message) = context :: split separator message := by
  have hbreaks := breaksAt_pair hcontext (fun heq => absurd heq (by decide)) message.toList
  have hsplits : Splits [':', ' '] (context.toList ++ [':', ' '] ++ message.toList)
      (context.toList :: splitList [':', ' '] message.toList) :=
    Splits.cut hbreaks (splits_splitList (List.cons_ne_nil _ _) _)
  rw [split, String.toList_append, String.toList_append, toList_separator,
    hsplits.splitList_eq (List.cons_ne_nil _ _), List.map_cons, String.ofList_toList, split,
    toList_separator]

theorem normalize_context_twice {context : String} (hcontext : ¬ [':', ' '] <:+: context.toList)
    (message : String) :
    normalize (context ++ separator ++ normalize (context ++ separator ++ message)) =
      normalize (context ++ separator ++ message) := by
  rw [normalize, split_context hcontext, split_normalize, split_context hcontext,
    collapse_cons_collapse, ← split_context hcontext]
  rfl

/-! ## Patterns in front of values -/

/-- A prefix of a pattern in which a percent sign only stands for itself, as one of two. -/
def IsLiteral (x : String) : Prop :=
  ∃ text, Template.Writes x.toList text

/-- The pattern of a report on a value, which stands after a prefix. -/
def wrapPattern (x : String) : String :=
  x ++ ": %v"

theorem message_wrapPattern {x : String} {context : List Char}
    (hx : Template.Writes x.toList context) (v : Value) :
    (report (wrapPattern x) [v]).message =
      normalize (String.ofList context ++ separator ++
        ({} : Directive).write true Directive.usual (argumentOf v)) := by
  have hseparator : Template.Writes [':', ' '] [':', ' '] :=
    .char (by decide) (.char (by decide) .nil)
  have hpattern : wrapPattern x =
      String.ofList ((x.toList ++ [':', ' ']) ++ ['%', Directive.usual]) := by
    rw [← String.toList_inj]
    simp [wrapPattern, Directive.usual]
  rw [message, argumentsOf, argumentsOf, hpattern,
    Template.fill_usual (hx.append hseparator), String.ofList_append]
  rfl

/-- The message of a report is normal, and a report on a report with the same pattern has the
same message. -/
theorem message_isNormalOf (pattern : String) (values : List Value) {x : String}
    (hx : IsLiteral x) (hseparator : occurs separator x = false) (v : Value) :
    IsNormalOf (Template.fill pattern (argumentsOf values)) (report pattern values).message ∧
      (report (wrapPattern x) [.fault (report (wrapPattern x) [v])]).message =
        (report (wrapPattern x) [v]).message := by
  rcases hx with ⟨context, hx⟩
  have hcontext : ¬ [':', ' '] <:+: (String.ofList context).toList := by
    intro hwithin
    rw [String.toList_ofList] at hwithin
    have hoccurs := (occurs_iff separator_ne_empty x).mpr (hx.isInfix hwithin)
    rw [hseparator] at hoccurs
    cases hoccurs
  constructor
  · exact isNormalOf_normalize _
  · rw [message_wrapPattern hx, argumentOf, Directive.write_described]
    change normalize (_ ++ _ ++ (report (wrapPattern x) [v]).message) = _
    rw [message_wrapPattern hx, normalize_context_twice hcontext]

theorem message_isNormalOf_load :
    IsLiteral "load" ∧ occurs separator "load" = false ∧
      IsNormalOf (Template.fill "load: %v" (argumentsOf [.fault (report "load: %v" [.text "a"])]))
        (report "load: %v" [.fault (report "load: %v" [.text "a"])]).message ∧
      (report (wrapPattern "load") [.fault (report (wrapPattern "load") [.text "a"])]).message =
        (report (wrapPattern "load") [.text "a"]).message := by
  have hliteral : IsLiteral "load" :=
    ⟨['l', 'o', 'a', 'd'], .char (by decide) (.char (by decide) (.char (by decide)
      (.char (by decide) .nil)))⟩
  exact ⟨hliteral, rfl, message_isNormalOf _ _ hliteral rfl _⟩

/-- A directive before the separator takes the value, and what it writes changes with every
report around it. -/
theorem message_directivePrefix :
    occurs separator "%v!" = false ∧
      (report (wrapPattern "%v!") [.text "a"]).message = "a!: %!v(MISSING)" ∧
      (report (wrapPattern "%v!") [.fault (report (wrapPattern "%v!") [.text "a"])]).message =
        "a!: %!v(MISSING)!: %!v(MISSING)" ∧
      (report (wrapPattern "%v!") [.fault (report (wrapPattern "%v!") [.text "a"])]).message ≠
        (report (wrapPattern "%v!") [.text "a"]).message := by
  have hinner : (report (wrapPattern "%v!") [.text "a"]).message = "a!: %!v(MISSING)" := by
    decide +kernel
  have houter :
      (report (wrapPattern "%v!") [.fault (report (wrapPattern "%v!") [.text "a"])]).message =
        "a!: %!v(MISSING)!: %!v(MISSING)" := by
    decide +kernel
  refine ⟨rfl, hinner, houter, ?_⟩
  rw [hinner, houter]
  decide

end Fault
end Disassembler
