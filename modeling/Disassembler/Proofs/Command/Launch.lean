import Mathlib
import Disassembler.Proofs.Command.Disassembly
import Disassembler.Proofs.CommandLine

/-!
# What a run leaves behind

A command line leads to a disassembly, to a list of symbols or to a message.  Whatever it
leads to, the overrides are as many as before, the log is not echoed on account of the
run, and a file stays as it is unless the preferences are saved, a graph is written or a
script changes it.
-/

namespace Disassembler
namespace Command

open Disassembler.Task
open Session (Settles Stays)

/-! ## Modes -/

/-- The command line after its flags, if they are accepted and no help is asked for. -/
def accepted? (c : CommandLine) : Option CommandLine :=
  match c.parse with
  | (some .proceed, c') => some c'
  | _ => none

theorem parse_of_accepted {c c' : CommandLine} (h : accepted? c = some c') :
    c.parse = (some .proceed, c') := by
  rw [accepted?] at h
  split at h
  · rename_i hparse
    cases h
    exact hparse
  · cases h

theorem afterFlags_eq_of_accepted {c c' : CommandLine} (h : accepted? c = some c')
    (go : CommandLine -> Task Unit) : afterFlags c go = go c' := by
  rw [afterFlags, parse_of_accepted h]

theorem keeps_afterFlags_of_none {c : CommandLine} (h : accepted? c = none)
    (go : CommandLine -> Task Unit) : Keeps Stays (afterFlags c go) := by
  rw [accepted?] at h
  rw [afterFlags]
  split
  · rename_i hparse
    rw [hparse] at h
    cases h
  · exact keeps_print _
  · exact keeps_fail _
  · exact keeps_ofOption none

theorem keeps_listSymbols (c : CommandLine) : Keeps Stays (listSymbols c) := by
  unfold listSymbols
  cases haccepted : accepted?
      (c.beginMode.declareAll [("hw", .switch false, "include hardware register symbols")]) with
  | none => exact keeps_afterFlags_of_none haccepted _
  | some c' =>
      rw [afterFlags_eq_of_accepted haccepted]
      extract_lets hardware rest
      have hrest : ∀ path, Keeps Stays (rest path) := by
        intro path
        apply (keeps_symbols path hardware).bind
        intro table?
        exact (keeps_ofOption table?).bind fun _ => keeps_print _
      split
      · split
        · exact (keeps_pure "").bind hrest
        · exact (keeps_fail _).bind hrest
      · exact (keeps_pure _).bind hrest
      · exact (keeps_fail _).bind hrest

theorem disassemble_eq (tools : Tools) (processor : Processor) (c : CommandLine) :
    disassemble tools processor c =
      afterFlags (c.beginMode.declareAll (Options.flags processor))
        (disassembleAs tools processor) :=
  rfl

def processor? (mode : String) : Option Processor :=
  match mode with
  | "68K" => some .m68k
  | "DSP" => some .dsp56k
  | _ => none

theorem runMode_eq_of_processor (tools : Tools) {c : CommandLine} {processor : Processor}
    (h : processor? c.mode = some processor) :
    runMode tools c = disassemble tools processor c := by
  unfold processor? at h
  unfold runMode
  split at h
  · rename_i hmode
    cases h
    rw [hmode]
    rfl
  · rename_i hmode
    cases h
    rw [hmode]
    rfl
  · cases h

theorem keeps_runMode_of_none (tools : Tools) {c : CommandLine}
    (h : processor? c.mode = none) : Keeps Stays (runMode tools c) := by
  unfold processor? at h
  unfold runMode
  split
  · rename_i hmode
    rw [hmode] at h
    cases h
  · rename_i hmode
    rw [hmode] at h
    cases h
  · exact keeps_listSymbols c
  · exact keeps_pure ()

/-! ## Whole runs -/

/-- The command line of a run before its flags are read. -/
def commandLine (args : List String) : CommandLine :=
  ((CommandLine.withArgs {} args).offer modeNames).declareAll
    [("version", .switch false, "print version information")]

/-- The processor and the flags for which code is disassembled, if a command line leads to
that. -/
def disassembly? (args : List String) : Option (Processor × CommandLine) := do
  let c <- accepted? (commandLine args)
  if c.flags.switch "version" then none
  else
    let processor <- processor? c.mode
    let c <- accepted? (c.beginMode.declareAll (Options.flags processor))
    return (processor, c)

section Launch

variable (tools : Tools) {args : List String} {c : CommandLine} (s : Session)

theorem launch_stays_of_none (h : accepted? (commandLine args) = none) :
    s.Stays (launch tools args s).2 := by
  rw [accepted?, commandLine] at h
  unfold launch
  dsimp only
  split
  · exact refl_of Stays s
  · exact s.stays_print _
  · exact s.stays_print _
  · rename_i hparse
    rw [hparse] at h
    cases h

theorem launch_stays_of_version (h : accepted? (commandLine args) = some c)
    (hversion : c.flags.switch "version" = true) : s.Stays (launch tools args s).2 := by
  have hparse := parse_of_accepted h
  rw [commandLine] at hparse
  unfold launch
  dsimp only
  rw [hparse]
  dsimp only
  rw [if_pos hversion]
  exact s.stays_print _

/-- After a mode at most a message is printed. -/
theorem launch_stays_of_mode (h : accepted? (commandLine args) = some c)
    (hversion : ¬ c.flags.switch "version" = true) :
    ((runMode tools c).after s).Stays (launch tools args s).2 := by
  have hparse := parse_of_accepted h
  rw [commandLine] at hparse
  unfold launch
  dsimp only
  rw [hparse]
  dsimp only
  rw [if_neg hversion, Task.after]
  cases runMode tools c s with
  | ok _ s' => exact refl_of Stays s'
  | error halt s' =>
      cases halt with
      | fault f => exact s'.stays_print _
      | abort => exact refl_of Stays s'

theorem launch_cases (args : List String) :
    (disassembly? args = none ∧ s.Stays (launch tools args s).2) ∨
      ∃ processor c, disassembly? args = some (processor, c) ∧
        ((disassembleAs tools processor c).after s).Stays (launch tools args s).2 := by
  cases hflags : accepted? (commandLine args) with
  | none =>
      left
      have hnone : disassembly? args = none := by simp [disassembly?, hflags]
      exact ⟨hnone, launch_stays_of_none tools s hflags⟩
  | some c =>
      by_cases hversion : c.flags.switch "version" = true
      · left
        have hnone : disassembly? args = none := by simp [disassembly?, hflags, hversion]
        exact ⟨hnone, launch_stays_of_version tools s hflags hversion⟩
      · have hmode := launch_stays_of_mode tools s hflags hversion
        cases hprocessor : processor? c.mode with
        | none =>
            left
            have hnone : disassembly? args = none := by
              simp [disassembly?, hflags, hversion, hprocessor]
            exact ⟨hnone, trans_of Stays ((keeps_runMode_of_none tools hprocessor).after s) hmode⟩
        | some processor =>
            rw [runMode_eq_of_processor tools hprocessor, disassemble_eq] at hmode
            cases haccepted : accepted? (c.beginMode.declareAll (Options.flags processor)) with
            | none =>
                left
                have hnone : disassembly? args = none := by
                  simp [disassembly?, hflags, hversion, hprocessor, haccepted]
                exact ⟨hnone,
                  trans_of Stays ((keeps_afterFlags_of_none haccepted _).after s) hmode⟩
            | some c' =>
                right
                have hsome : disassembly? args = some (processor, c') := by
                  simp [disassembly?, hflags, hversion, hprocessor, haccepted]
                rw [afterFlags_eq_of_accepted haccepted] at hmode
                exact ⟨processor, c', hsome, hmode⟩

end Launch

/-! ## Runs without a graph -/

/-- A flag that is not given says what it said when it was declared. -/
theorem graph_of_not_given {processor : Processor} {c c' : CommandLine}
    (h : accepted? (c.beginMode.declareAll (Options.flags processor)) = some c')
    (hgiven : "dot" ∉ c'.flags.given) : (Options.ofFlags c'.flags).graph = "" := by
  have hdeclared : (({} : CommandLine).declareAll (Options.flags processor)).flags.value? "dot" =
      some (.text "") := by
    cases processor with
    | m68k => decide +kernel
    | dsp56k => decide +kernel
  have hparse := parse_of_accepted h
  rw [CommandLine.declareAll_eq] at hparse
  rcases CommandLine.flags_of_parse_eq hparse rfl with ⟨hnone, hflags⟩
  rw [hflags] at hgiven
  have hfind := FlagSet.find?_parse_of_not_given hnone hgiven
  have hvalue : c'.flags.value? "dot" = some (.text "") := by
    rw [FlagSet.value?, hflags, hfind]
    exact hdeclared
  change c'.flags.text "dot" = ""
  rw [FlagSet.text, hvalue]

theorem exists_accepted_of_disassembly {args : List String} {processor : Processor}
    {c : CommandLine} (h : disassembly? args = some (processor, c)) :
    ∃ base : CommandLine,
      accepted? (base.beginMode.declareAll (Options.flags processor)) = some c := by
  simp only [disassembly?, Option.bind_eq_bind] at h
  rcases Option.bind_eq_some_iff.mp h with ⟨top, _, h⟩
  split at h
  · cases h
  · rcases Option.bind_eq_some_iff.mp h with ⟨chosen, _, h⟩
    rcases Option.bind_eq_some_iff.mp h with ⟨c', haccepted, h⟩
    cases h
    exact ⟨top, haccepted⟩

/-- The echo of the log is wanted for the code that is disassembled. -/
def wantsEcho (args : List String) : Bool :=
  (disassembly? args).any fun p => (Options.ofFlags p.2.flags).echo

def addressScript : String :=
  "function annotate(address, text) return hex(address) end"

/-- What an interpreter knows of that script. -/
structure AddressState where
  functions : List (String × (UInt32 -> String))
  isDefined : Bool

/-- An interpreter for a language in which there is no other script. -/
def addressInterpreter : Interpreter where
  State := AddressState
  start functions := ⟨functions, false⟩
  run state _ source files :=
    if source = Text.encode addressScript then ⟨.ok (), { state with isDefined := true }, files, ""⟩
    else ⟨.error (.plain "parse error"), state, files, ""⟩
  isFunction state name := state.isDefined && name == Script.entryPoint
  call state _ address _ files :=
    match state.functions.lookup "hex" with
    | some hex => ⟨.ok (.text (hex address)), state, files, ""⟩
    | none => ⟨.error (.plain "attempt to call a non-function object"), state, files, ""⟩

theorem spares_addressInterpreter (place : Place) (source : Bytes) :
    addressInterpreter.Spares place source where
  load path files := by
    have hsame : (addressInterpreter.load path source files).files = files := by
      simp only [Interpreter.load, addressInterpreter]
      split
      · rfl
      · rfl
    rw [hsame]
    exact FileTree.SameFileAt.refl place files
  ask state address text files _ := by
    have hsame : (addressInterpreter.ask state address text files).files = files := by
      simp only [Interpreter.ask, addressInterpreter]
      split
      · rfl
      · rfl
    rw [hsame]
    exact FileTree.SameFileAt.refl place files

def addressTools : Tools :=
  { Tools.absent with scripts := addressInterpreter }

/-- The file of the preferences, with nothing but its heading, and the script. -/
def scriptedFiles : FileTree where
  entries :=
    [([Resource.folder], .folder),
      ([Resource.folder, Preferences.fileName],
        .file (Text.encode (PreferenceFile.heading ++ "\n"))),
      (["address.lua"], .file (Text.encode addressScript))]

end Command

end Disassembler
