import Mathlib
import Disassembler.Flag.Basic
import Disassembler.Proofs.Dictionary

/-!
# What flags consume

Flags are read from the front of the arguments.  They end before the first
argument that is no flag, or after two dashes.
-/

namespace Disassembler

namespace FlagValue

theorem isSwitch_read (v : FlagValue) (s : String) : (v.read s).2.isSwitch = v.isSwitch := by
  -- `delta`, for the equations of `read` would compute the bounds of a number
  delta read
  cases v with
  | switch b =>
      dsimp only
      split
      · rfl
      · split <;> rfl
  | number n =>
      dsimp only
      split <;> rfl
  | text t => rfl
  | address a =>
      dsimp only
      split <;> rfl

end FlagValue

namespace FlagSet

/-- Whether the flag of a name is a switch, if there is such a flag. -/
def isSwitch? (fs : FlagSet) (name : String) : Option Bool :=
  (fs.flags.find? name).map fun flag => flag.value.isSwitch

/-- Flags read arguments up to those that are left over. -/
inductive Consumes (isSwitch? : String -> Option Bool) : List String -> List String -> Prop where
  | nil : Consumes isSwitch? [] []
  | plain {argument : String} {args : List String} :
      ArgumentShape.ofText argument = .plain ->
        Consumes isSwitch? (argument :: args) (argument :: args)
  | terminator {argument : String} {args : List String} :
      ArgumentShape.ofText argument = .terminator -> Consumes isSwitch? (argument :: args) args
  | joined {argument name value : String} {args rest : List String} :
      ArgumentShape.ofText argument = .flag name (some value) -> (isSwitch? name).isSome = true ->
        Consumes isSwitch? args rest -> Consumes isSwitch? (argument :: args) rest
  | switch {argument name : String} {args rest : List String} :
      ArgumentShape.ofText argument = .flag name none -> isSwitch? name = some true ->
        Consumes isSwitch? args rest -> Consumes isSwitch? (argument :: args) rest
  | separate {argument name value : String} {args rest : List String} :
      ArgumentShape.ofText argument = .flag name none -> isSwitch? name = some false ->
        Consumes isSwitch? args rest -> Consumes isSwitch? (argument :: value :: args) rest

/-- No flag and no two dashes stand in front. -/
def StartsPlain (args : List String) : Prop :=
  ∀ argument ∈ args.head?, ArgumentShape.ofText argument = .plain

namespace Consumes

variable {isSwitch? : String -> Option Bool} {args rest : List String}

theorem suffix (h : Consumes isSwitch? args rest) : rest <:+ args := by
  induction h with
  | nil => exact List.suffix_rfl
  | plain _ => exact List.suffix_rfl
  | terminator _ => exact List.suffix_cons _ _
  | joined _ _ _ ih => exact ih.trans (List.suffix_cons _ _)
  | switch _ _ _ ih => exact ih.trans (List.suffix_cons _ _)
  | separate _ _ _ ih => exact ih.trans ((List.suffix_cons _ _).trans (List.suffix_cons _ _))

theorem length_lt_or (h : Consumes isSwitch? args rest) :
    rest.length < args.length ∨ (rest = args ∧ StartsPlain args) := by
  cases h with
  | nil =>
      refine Or.inr ⟨rfl, ?_⟩
      intro argument hargument
      cases hargument
  | plain hshape =>
      refine Or.inr ⟨rfl, ?_⟩
      intro argument hargument
      cases hargument
      exact hshape
  | terminator _ => exact Or.inl (Nat.lt_succ_self _)
  | joined _ _ h => exact Or.inl (Nat.lt_succ_of_le h.suffix.length_le)
  | switch _ _ h => exact Or.inl (Nat.lt_succ_of_le h.suffix.length_le)
  | separate _ _ h =>
      exact Or.inl (Nat.lt_succ_of_le (Nat.le_succ_of_le h.suffix.length_le))

/-- Flags leave all arguments only if there is none of them in front. -/
theorem length_eq_iff (h : Consumes isSwitch? args rest) :
    rest.length = args.length ↔ StartsPlain args := by
  constructor
  · intro hlength
    rcases h.length_lt_or with hlt | ⟨_, hplain⟩
    · exact absurd hlength (Nat.ne_of_lt hlt)
    · exact hplain
  · intro hplain
    cases h with
    | nil => rfl
    | plain _ => rfl
    | terminator hshape => cases hshape.symm.trans (hplain _ rfl)
    | joined hshape _ _ => cases hshape.symm.trans (hplain _ rfl)
    | switch hshape _ _ => cases hshape.symm.trans (hplain _ rfl)
    | separate hshape _ _ => cases hshape.symm.trans (hplain _ rfl)

theorem eq_iff (h : Consumes isSwitch? args rest) : args = rest ↔ StartsPlain args := by
  rw [← h.length_eq_iff]
  exact ⟨fun heq => congrArg List.length heq.symm,
    fun hlength => (h.suffix.eq_of_length hlength).symm⟩

theorem tail_eq_iff (h : Consumes isSwitch? args rest) (hrest : rest ≠ []) :
    args.tail = rest.tail ↔ StartsPlain args := by
  constructor
  · intro htail
    have hlength := congrArg List.length htail
    rw [List.length_tail, List.length_tail] at hlength
    have hpos := List.length_pos_iff.mpr hrest
    have hle := h.suffix.length_le
    exact h.length_eq_iff.mp (by omega)
  · intro hplain
    rw [h.eq_iff.mpr hplain]

end Consumes

theorem isSwitch?_assign {fs : FlagSet} {name : String} {flag : Flag}
    (hflag : fs.flags.find? name = some flag) (s : String) :
    (fs.assign name flag s).2.isSwitch? = fs.isSwitch? := by
  have hread := flag.value.isSwitch_read s
  funext other
  by_cases hother : name = other
  · subst hother
    simp only [assign, isSwitch?, hflag]
    split <;>
    · rename_i hvalue
      rw [hvalue] at hread
      rw [Dictionary.find?_insert, if_pos rfl]
      exact congrArg some hread
  · simp only [assign, isSwitch?]
    split <;> rw [Dictionary.find?_insert, if_neg hother]

theorem parse_plain (fs : FlagSet) {argument : String} (args : List String)
    (hshape : ArgumentShape.ofText argument = .plain) :
    fs.parse (argument :: args) = (none, { fs with rest := argument :: args }) := by
  rw [parse.eq_def]
  simp only [hshape]

/-- A switch without a value is turned on. -/
theorem parse_switch {fs : FlagSet} {argument name : String} {flag : Flag} {b : Bool}
    (args : List String) (hshape : ArgumentShape.ofText argument = .flag name none)
    (hflag : fs.flags.find? name = some flag) (hvalue : flag.value = .switch b) :
    fs.parse (argument :: args) =
      { fs with
        flags := fs.flags.insert name { flag with value := .switch true, given := true }
      }.parse args := by
  have hread : flag.value.read "true" = (none, .switch true) := by
    rw [hvalue]
    rfl
  rw [parse.eq_def]
  simp only [hshape, hflag, assign, hread]
  rw [hvalue]
  rfl

/-- Flags that are accepted consume the arguments in front of those that are
kept. -/
theorem consumes_parse (fs : FlagSet) (args : List String) (h : (fs.parse args).1 = none) :
    Consumes fs.isSwitch? args (fs.parse args).2.rest := by
  fun_induction parse fs args with
  | case1 => exact .nil
  | case2 fs argument args hshape => exact .plain hshape
  | case3 fs argument args hshape => exact .terminator hshape
  | case6 fs argument name flag hflag s args fs' hassign hshape ih =>
      have hkept := isSwitch?_assign hflag s
      rw [hassign] at hkept
      refine .joined hshape ?_ (hkept ▸ ih h)
      rw [isSwitch?, hflag]
      rfl
  | case8 fs argument name flag hflag args hswitch fs' hassign hshape ih =>
      have hkept := isSwitch?_assign hflag "true"
      rw [hassign] at hkept
      refine .switch hshape ?_ (hkept ▸ ih h)
      rw [isSwitch?, hflag, ← hswitch]
      rfl
  | case10 fs argument name flag hflag s args hswitch fs' hassign hshape ih =>
      have hkept := isSwitch?_assign hflag s
      rw [hassign] at hkept
      refine .separate hshape ?_ (hkept ▸ ih h)
      rw [isSwitch?, hflag, ← hswitch]
      rfl
  | _ => cases h

/-! ## Flags that are not given -/

theorem mem_given {fs : FlagSet} {name : String} {flag : Flag}
    (hflag : fs.flags.find? name = some flag) (hgiven : flag.given = true) : name ∈ fs.given :=
  List.mem_map.mpr
    ⟨(name, flag), List.mem_filter.mpr ⟨Dictionary.mem_of_find?_eq_some hflag, hgiven⟩, rfl⟩

/-- A flag is not looked at again, or else it ends up among those that are given. -/
theorem find?_assign_cases {fs fs' : FlagSet} {name : String} {flag : Flag} {s : String}
    (h : fs.assign name flag s = (none, fs')) (other : String) :
    fs'.flags.find? other = fs.flags.find? other ∨
      ∃ flag', fs'.flags.find? other = some flag' ∧ flag'.given = true := by
  rw [assign] at h
  split at h
  · cases h
    by_cases hother : name = other
    · subst hother
      right
      exact ⟨_, (Dictionary.find?_insert _ _ _ _).trans (if_pos rfl), rfl⟩
    · left
      rw [Dictionary.find?_insert, if_neg hother]
  · cases h

/-- Flags that are not given stay as they are. -/
theorem find?_parse_of_not_given {fs : FlagSet} {args : List String} {name : String}
    (h : (fs.parse args).1 = none) (hgiven : name ∉ (fs.parse args).2.given) :
    (fs.parse args).2.flags.find? name = fs.flags.find? name := by
  have hstep : ∀ {fs fs' last : FlagSet} {other : String} {flag : Flag} {s : String},
      fs.assign other flag s = (none, fs') -> name ∉ last.given ->
        last.flags.find? name = fs'.flags.find? name ->
          last.flags.find? name = fs.flags.find? name := by
    intro fs fs' last other flag s hassign hlast hsame
    rcases find?_assign_cases hassign name with hfind | ⟨flag', hfind, hflag⟩
    · exact hsame.trans hfind
    · exact absurd (mem_given (hsame.trans hfind) hflag) hlast
  fun_induction parse fs args with
  | case1 => rfl
  | case2 => rfl
  | case3 => rfl
  | case6 fs _ _ _ _ _ _ _ hassign _ ih => exact hstep hassign hgiven (ih h hgiven)
  | case8 fs _ _ _ _ _ _ _ hassign _ ih => exact hstep hassign hgiven (ih h hgiven)
  | case10 fs _ _ _ _ _ _ _ _ hassign _ ih => exact hstep hassign hgiven (ih h hgiven)
  | _ => cases h

end FlagSet
end Disassembler
