import Mathlib
import Disassembler.CommandLine
import Disassembler.Proofs.Flag

/-!
# The arguments of a mode

A mode is given the arguments after its position on the command line.  Its flags
consume some of them.  The position moves on by one for a sub-mode that is named,
whatever the flags in front of the name have consumed.
-/

namespace Disassembler
namespace CommandLine

/-- The arguments that the next parse reads. -/
def pending (c : CommandLine) : List String :=
  c.args.drop c.position

/-- An argument is one of some names, whatever the case of its letters. -/
def IsNameOf (names : List String) (argument : String) : Prop :=
  ∃ name ∈ names, Text.toUpper argument = Text.toUpper name

theorem contains_toUpper_iff (names : List String) (argument : String) :
    (names.map Text.toUpper).contains (Text.toUpper argument) = true ↔
      IsNameOf names argument := by
  rw [List.contains_iff_mem, List.mem_map]
  constructor
  · rintro ⟨name, hname, hupper⟩
    exact ⟨name, hname, hupper.symm⟩
  · rintro ⟨name, hname, hupper⟩
    exact ⟨name, hname, hupper.symm⟩

/-- A mode whose flags are accepted goes on to a sub-mode. -/
theorem parse_eq_choose (c : CommandLine) (hposition : c.position ≤ c.args.length)
    (hflags : (c.flags.parse c.pending).1 = none) :
    c.parse =
      (some .proceed,
        { c with parsed := true, flags := (c.flags.parse c.pending).2 }.choose) := by
  have hparse : c.flags.parse c.pending = (none, (c.flags.parse c.pending).2) :=
    Prod.ext hflags rfl
  rw [pending] at hparse ⊢
  simp only [parse, if_neg (Nat.not_lt.mpr hposition)]
  rw [hparse]

/-- A mode without sub-modes goes on only if its flags are accepted. -/
theorem flags_of_parse_eq {c c' : CommandLine} (h : c.parse = (some .proceed, c'))
    (hsub : c.subModes = []) :
    (c.flags.parse c.pending).1 = none ∧ c'.flags = (c.flags.parse c.pending).2 := by
  rw [pending]
  simp only [parse] at h
  split at h
  · cases h
  · split at h
    · rename_i hparse
      rw [hparse]
      simp only [choose, hsub] at h
      cases h
      exact ⟨rfl, rfl⟩
    · cases h
    · simp only [hsub] at h
      cases h

/-- Declaring flags changes nothing but the flags, and these in a way that depends on
nothing else. -/
theorem declareAll_eq (c : CommandLine) (flags : List (String × FlagValue × String)) :
    c.declareAll flags =
      { c with flags := (({ flags := c.flags } : CommandLine).declareAll flags).flags } := by
  induction flags generalizing c with
  | nil => rfl
  | cons flag flags ih =>
      rcases flag with ⟨name, value, usage⟩
      have hstep : ∀ c : CommandLine, c.declareAll ((name, value, usage) :: flags) =
          ((c.declare? name value usage).getD c).declareAll flags := fun _ => rfl
      rw [hstep, hstep]
      simp only [declare?]
      cases c.flags.define? name value _ with
      | none => exact ih c
      | some defined => exact (ih _).trans rfl

section Choose

variable {c : CommandLine} {names others : List String} {first : String}

theorem choose_of_isNameOf (hsub : c.subModes = (first :: others).map Text.toUpper)
    (hname : IsNameOf (first :: others) (c.argument 0)) :
    c.choose =
      { c with
        path := c.path ++ [Text.toUpper (c.argument 0)]
        position := c.position + 1 } := by
  have hcontains := (contains_toUpper_iff _ _).mpr hname
  rw [choose, hsub, List.map_cons]
  exact if_pos hcontains

theorem choose_of_not_isNameOf (hsub : c.subModes = (first :: others).map Text.toUpper)
    (hname : ¬ IsNameOf (first :: others) (c.argument 0)) :
    c.choose = { c with path := c.path ++ [Text.toUpper first] } := by
  have hcontains := fun h => hname ((contains_toUpper_iff _ _).mp h)
  rw [choose, hsub, List.map_cons]
  exact if_neg hcontains

end Choose

/-! ## One mode after another -/

/-- How a mode with sub-modes passes the arguments on, where its parse results in
`next`. -/
structure PassesOn (c : CommandLine) (first : String) (others : List String)
    (next : CommandLine) : Prop where
  consumed : FlagSet.Consumes c.flags.isSwitch? c.pending next.remaining
  /-- For a sub-mode that is named, one argument less is pending.  It is the name only
  if no flag stands before it. -/
  named : IsNameOf (first :: others) (next.argument 0) ->
    next.path = c.path ++ [Text.toUpper (next.argument 0)] ∧
      next.beginMode.pending = c.pending.tail ∧
      (next.remaining ≠ [] ->
        (next.beginMode.pending = next.remaining.tail ↔ FlagSet.StartsPlain c.pending))
  /-- For the default sub-mode the same arguments are pending again, with the flags
  that have been read. -/
  unnamed : ¬ IsNameOf (first :: others) (next.argument 0) ->
    next.path = c.path ++ [Text.toUpper first] ∧
      next.beginMode.pending = c.pending ∧
      (next.beginMode.pending = next.remaining ↔ FlagSet.StartsPlain c.pending)
  position_le : next.remaining ≠ [] -> next.position ≤ next.args.length

/-- The flags of a mode have been read, and its sub-mode is chosen. -/
theorem passesOn_choose {c d : CommandLine} {first : String} {others : List String}
    (hargs : d.args = c.args) (hposition : d.position = c.position) (hpath : d.path = c.path)
    (hsub : d.subModes = (first :: others).map Text.toUpper)
    (hconsumed : FlagSet.Consumes c.flags.isSwitch? c.pending d.remaining) :
    PassesOn c first others d.choose := by
  have hlt : d.remaining ≠ [] -> d.position < d.args.length := by
    intro hne
    have hpos := List.length_pos_iff.mpr hne
    have hle := hconsumed.suffix.length_le
    rw [pending, List.length_drop] at hle
    rw [hargs, hposition]
    omega
  by_cases hname : IsNameOf (first :: others) (d.argument 0)
  · rw [choose_of_isNameOf hsub hname]
    have htail : d.args.drop (d.position + 1) = c.pending.tail := by
      rw [hargs, hposition, pending, List.tail_drop]
    refine ⟨hconsumed, fun _ => ⟨?_, htail, ?_⟩, fun h => absurd hname h, fun hne => hlt hne⟩
    · rw [hpath]
      rfl
    · intro hne
      change d.args.drop (d.position + 1) = d.remaining.tail ↔ _
      rw [htail]
      exact hconsumed.tail_eq_iff hne
  · rw [choose_of_not_isNameOf hsub hname]
    have hsame : d.args.drop d.position = c.pending := by
      rw [hargs, hposition, pending]
    refine ⟨hconsumed, fun h => absurd h hname, fun _ => ⟨?_, hsame, ?_⟩,
      fun hne => Nat.le_of_lt (hlt hne)⟩
    · rw [hpath]
    · change d.args.drop d.position = d.remaining ↔ _
      rw [hsame]
      exact hconsumed.eq_iff

/-! ## A whole command line -/

/-- A mode comes after what has been parsed, with flags and sub-modes of its own.  Its
flags are accepted. -/
structure FollowsOn (d e : CommandLine) (first : String) (others : List String) : Prop where
  args : e.args = d.args
  position : e.position = d.position
  position_le : e.position ≤ e.args.length
  subModes : e.subModes = (first :: others).map Text.toUpper
  accepted : (e.flags.parse e.pending).1 = none

/-- Modes one after the other, and the number of sub-modes that are named. -/
inductive Descends (c : CommandLine) : Nat -> CommandLine -> Prop where
  | start : Descends c 0 c
  | named {n : Nat} {d e : CommandLine} {first : String} {others : List String} :
      Descends c n d -> FollowsOn d e first others ->
        IsNameOf (first :: others) (e.parse.2.argument 0) -> Descends c (n + 1) e.parse.2
  | unnamed {n : Nat} {d e : CommandLine} {first : String} {others : List String} :
      Descends c n d -> FollowsOn d e first others ->
        ¬ IsNameOf (first :: others) (e.parse.2.argument 0) -> Descends c n e.parse.2

namespace FollowsOn

variable {d e : CommandLine} {first : String} {others : List String}

theorem pending_eq (h : FollowsOn d e first others) : e.pending = d.pending := by
  rw [pending, h.args, h.position, pending]

theorem passesOn (h : FollowsOn d e first others) : PassesOn e first others e.parse.2 := by
  rw [parse_eq_choose e h.position_le h.accepted]
  exact passesOn_choose rfl rfl rfl h.subModes (FlagSet.consumes_parse e.flags e.pending h.accepted)

end FollowsOn

/-- What is pending depends on the number of the named sub-modes, not on what the flags
have consumed. -/
theorem Descends.pending_eq {c d : CommandLine} {n : Nat} (h : Descends c n d) :
    d.pending = c.pending.drop n := by
  induction h with
  | start => rfl
  | named _ hnext hname ih =>
      refine (hnext.passesOn.named hname).2.1.trans ?_
      rw [hnext.pending_eq, ih, List.tail_drop]
  | unnamed _ hnext hname ih =>
      refine (hnext.passesOn.unnamed hname).2.1.trans ?_
      rw [hnext.pending_eq, ih]

theorem parse_passesOn {c d e : CommandLine} {n : Nat} {first : String} {others : List String}
    (h : Descends c n d) (hnext : FollowsOn d e first others) :
    e.parse.1 = some .proceed ∧ e.pending = c.pending.drop n ∧
      PassesOn e first others e.parse.2 := by
  refine ⟨?_, ?_, hnext.passesOn⟩
  · rw [parse_eq_choose e hnext.position_le hnext.accepted]
  · rw [hnext.pending_eq, h.pending_eq]

/-- A switch before the name of a sub-mode. -/
def switchFirst : CommandLine :=
  (({ args := ["-v", "dsp", "file"] : CommandLine }).declareAll
    [("v", .switch false, "verbose")]).offer ["68k", "dsp"]

theorem parse_switchFirst :
    switchFirst.flags.parse switchFirst.pending =
      (none,
        { flags := [("v", ⟨"verbose", .switch false, .switch true, true⟩)],
          rest := ["dsp", "file"] }) := by
  have hshape : ArgumentShape.ofText "-v" = .flag "v" none := rfl
  change switchFirst.flags.parse ["-v", "dsp", "file"] = _
  rw [FlagSet.parse_switch _ hshape rfl rfl, FlagSet.parse_plain _ _ rfl]
  rfl

theorem switchFirst_followsOn : FollowsOn switchFirst switchFirst "68k" ["dsp"] where
  args := rfl
  position := rfl
  position_le := Nat.zero_le _
  subModes := rfl
  accepted := by rw [parse_switchFirst]

theorem switchFirst_passesOn :
    Descends switchFirst 0 switchFirst ∧ FollowsOn switchFirst switchFirst "68k" ["dsp"] ∧
      switchFirst.parse.1 = some .proceed ∧
      switchFirst.pending = switchFirst.pending.drop 0 ∧
      PassesOn switchFirst "68k" ["dsp"] switchFirst.parse.2 :=
  ⟨.start, switchFirst_followsOn, parse_passesOn .start switchFirst_followsOn⟩

/-- The name of the sub-mode is pending again, and not what follows it. -/
theorem switchFirst_pending :
    switchFirst.parse.1 = some .proceed ∧
      switchFirst.parse.2.remaining = ["dsp", "file"] ∧
      IsNameOf ["68k", "dsp"] (switchFirst.parse.2.argument 0) ∧
      switchFirst.parse.2.beginMode.pending = ["dsp", "file"] ∧
      switchFirst.parse.2.beginMode.pending ≠ switchFirst.parse.2.remaining.tail := by
  have hparse := parse_eq_choose switchFirst (Nat.zero_le _) (by rw [parse_switchFirst])
  have hname : IsNameOf ["68k", "dsp"] "dsp" :=
    ⟨"dsp", List.mem_cons_of_mem _ (List.mem_singleton_self _), rfl⟩
  rw [parse_switchFirst] at hparse
  rw [hparse, choose_of_isNameOf rfl hname]
  refine ⟨rfl, rfl, hname, rfl, ?_⟩
  intro h
  cases congrArg List.length (h : ["dsp", "file"] = ["file"])

end CommandLine
end Disassembler
