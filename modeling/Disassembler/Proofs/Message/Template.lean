import Mathlib
import Disassembler.Message.Template

/-!
# Templates without flags

What templates write that have only plain text and directives that consist of a verb.
-/

namespace Disassembler

/-- A text that is neither filled up nor cut off stays as it is. -/
theorem Directive.plain_default (s : String) : ({} : Directive).plain s = s := by
  have hpad : ({} : Directive).pad s = "".pushn ' ' (0 - Text.width s) ++ s := rfl
  rw [plain, truncate, hpad, Nat.zero_sub]
  exact String.empty_append

/-- What describes itself is written as its description. -/
theorem Directive.write_described (wraps : Bool) (description : String) (isError : Bool)
    (content : Argument) :
    ({} : Directive).write wraps usual (.described description isError content) = description :=
  plain_default description

namespace Template

/-! ## Verbs -/

/-- A verb that nothing else of a directive begins with. -/
structure IsBare (verb : Char) : Prop where
  noFlag : ∀ d, withFlag? d verb = none
  noDigit : verb.isDigit = false
  noMark : verb ≠ '[' ∧ verb ≠ '*' ∧ verb ≠ '.'
  ascii : verb.toNat < 0x80

theorem isBare_percent : IsBare '%' where
  noFlag := fun _ => rfl
  noDigit := rfl
  noMark := by decide
  ascii := by decide

theorem isBare_usual : IsBare Directive.usual where
  noFlag := fun _ => rfl
  noDigit := rfl
  noMark := by decide
  ascii := by decide

/-- Nothing is chosen by a number in the directive that is read. -/
structure IsAtRest (s : State) : Prop where
  badNumber : s.badNumber = false
  numbered : s.numbered = false

theorem IsAtRest.emit {s : State} (h : IsAtRest s) (text : String) : IsAtRest (s.emit text) where
  badNumber := h.badNumber
  numbered := h.numbered

theorem readChoice_of_ne {c : Char} (hc : c ≠ '[') (s : State) (cs : List Char) :
    readChoice s (c :: cs) = ({ s with numbered := false }, c :: cs) := by
  rw [readChoice.eq_def]
  split
  · rename_i heq
    exact absurd (List.cons.inj heq).1 hc
  · rfl

theorem readDirective_verb {s : State} (hs : IsAtRest s) {verb : Char} (hverb : IsBare verb)
    (cs : List Char) : readDirective s (verb :: cs) = (s, {}, verb :: cs) := by
  rcases s with ⟨args, wraps, next, reordered, badNumber, numbered, output⟩
  cases hs.badNumber
  cases hs.numbered
  let s : State := ⟨args, wraps, next, reordered, false, false, output⟩
  have hflags : readFlags {} (verb :: cs) = ({}, verb :: cs) := by
    rw [readFlags, hverb.noFlag]
  have hchoice : readChoice s (verb :: cs) = (s, verb :: cs) := readChoice_of_ne hverb.noMark.1 s cs
  have hwidth : readWidth s {} (verb :: cs) = (s, {}, verb :: cs) := by
    have hnumber : readNumber (verb :: cs) = (none, verb :: cs) := by
      rw [readNumber, readDigits, hverb.noDigit]
      rfl
    rw [readWidth.eq_def]
    split
    · rename_i heq
      exact absurd (List.cons.inj heq).1 hverb.noMark.2.1
    · rw [hnumber]
      rfl
  have hprecision : readPrecision s {} (verb :: cs) = (s, {}, verb :: cs) := by
    rw [readPrecision.eq_def]
    split
    · rename_i heq
      exact absurd (List.cons.inj heq).1 hverb.noMark.2.2
    · rfl
  have hread : readDirective s (verb :: cs) = ((readChoice s (verb :: cs)).1, {}, verb :: cs) := by
    change readDirective { s with badNumber := false } (verb :: cs) = _
    simp only [readDirective, hflags]
    rw [hchoice, hwidth, hprecision]
    simp only [s, Bool.false_eq_true, if_false]
    rw [hchoice]
  rw [hread, hchoice]

/-! ## Running -/

theorem run_nil (s : State) : run s [] = s := by
  rw [run]

theorem run_cons {c : Char} (hc : c ≠ '%') (s : State) (cs : List Char) :
    run s (c :: cs) = run { s with output := s.output.push c } cs := by
  rw [run, if_neg]
  rw [beq_iff_eq]
  exact hc

theorem run_verb {s : State} (hs : IsAtRest s) {verb : Char} (hverb : IsBare verb)
    (cs : List Char) : run s ('%' :: verb :: cs) = run (onVerb s {} verb) cs := by
  have hfirst : Text.firstChar verb cs = (0, verb) := by
    rw [Text.firstChar, if_pos hverb.ascii]
  rw [run, if_pos (beq_self_eq_true '%')]
  split
  · rename_i hread
    rw [readDirective_verb hs hverb] at hread
    cases hread
  · rename_i hread
    rw [readDirective_verb hs hverb] at hread
    cases hread
    simp only [hfirst]
    rfl

/-- A text that takes no argument, and what it writes: a percent sign stands for itself
only if there are two. -/
inductive Writes : List Char -> List Char -> Prop where
  | nil : Writes [] []
  | percent {x y : List Char} : Writes x y -> Writes ('%' :: '%' :: x) ('%' :: y)
  | char {c : Char} {x y : List Char} : c ≠ '%' -> Writes x y -> Writes (c :: x) (c :: y)

theorem Writes.append {x y x' y' : List Char} (h : Writes x y) (h' : Writes x' y') :
    Writes (x ++ x') (y ++ y') := by
  induction h with
  | nil => exact h'
  | percent _ ih => exact Writes.percent ih
  | char hc _ ih => exact Writes.char hc ih

theorem emit_push (s : State) (c : Char) (cs : List Char) :
    ({ s with output := s.output.push c } : State).emit (String.ofList cs) =
      s.emit (String.ofList (c :: cs)) := by
  have hpush : s.output.push c ++ String.ofList cs = s.output ++ String.ofList (c :: cs) := by
    rw [← String.toList_inj]
    simp
  simp only [State.emit, hpush]

theorem Writes.run_append {x y : List Char} (h : Writes x y) {s : State} (hs : IsAtRest s)
    (rest : List Char) : run s (x ++ rest) = run (s.emit (String.ofList y)) rest := by
  induction h generalizing s with
  | nil =>
      have hempty : s.emit (String.ofList []) = s := by
        rw [State.emit, String.ofList_nil, String.append_empty]
      rw [hempty, List.nil_append]
  | percent _ ih =>
      have hverb : onVerb s {} '%' = { s with output := s.output.push '%' } := by
        rw [onVerb, if_pos (beq_self_eq_true '%'), State.emit]
        rfl
      have hnext : IsAtRest { s with output := s.output.push '%' } :=
        ⟨hs.badNumber, hs.numbered⟩
      rw [List.cons_append, List.cons_append, run_verb hs isBare_percent, hverb, ih hnext,
        emit_push]
  | @char c _ _ hc _ ih =>
      have hnext : IsAtRest { s with output := s.output.push c } := ⟨hs.badNumber, hs.numbered⟩
      rw [List.cons_append, run_cons hc, ih hnext, emit_push]

/-- A single argument in its usual form, after a text. -/
theorem fill_usual {x text : List Char} (h : Writes x text) (a : Argument) :
    fill (String.ofList (x ++ ['%', Directive.usual])) [a] =
      String.ofList text ++ ({} : Directive).write true Directive.usual a := by
  let s : State := { args := [a], wraps := true }
  have hs : IsAtRest s := ⟨rfl, rfl⟩
  have hverb : onVerb (s.emit (String.ofList text)) {} Directive.usual =
      { (s.emit (String.ofList text)).emit (({} : Directive).write true Directive.usual a) with
        next := 1 } := rfl
  rw [fill, String.toList_ofList, h.run_append hs, run_verb (hs.emit _) isBare_usual, hverb,
    run_nil]
  change "" ++ String.ofList text ++ _ = _
  rw [String.empty_append]

/-! ## Separators -/

theorem Writes.isInfix {x y : List Char} (h : Writes x y) (hwithin : [':', ' '] <:+: y) :
    [':', ' '] <:+: x := by
  induction h with
  | nil => exact hwithin
  | percent _ ih =>
      rcases List.infix_cons_iff.mp hwithin with hbegin | hrest
      · exact absurd (List.cons_prefix_cons.mp hbegin).1 (by decide)
      · exact (ih hrest).trans (List.suffix_append ['%', '%'] _).isInfix
  | char hc hxy ih =>
      rcases List.infix_cons_iff.mp hwithin with hbegin | hrest
      · rcases List.cons_prefix_cons.mp hbegin with ⟨rfl, hblank⟩
        cases hxy with
        | nil => cases List.prefix_nil.mp hblank
        | percent _ => exact absurd (List.cons_prefix_cons.mp hblank).1 (by decide)
        | char _ _ =>
            rcases List.cons_prefix_cons.mp hblank with ⟨rfl, _⟩
            exact (List.prefix_append [':', ' '] _).isInfix
      · exact (ih hrest).trans (List.suffix_cons _ _).isInfix

end Template
end Disassembler
