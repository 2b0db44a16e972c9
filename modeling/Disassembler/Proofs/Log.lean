import Mathlib
import Disassembler.Log.Request
import Disassembler.Proofs.Text.Lines
import Disassembler.Proofs.Text.Numeral

/-!
# Run lengths

The entries of a log are the end of the run-length encoding of what was written since the
log was cleared.  Every entry is one line, and an echo repeats the line
of the last entry.
-/

namespace Disassembler

/-! ## Remarks -/

namespace LogEntry

def remark (e : LogEntry) : String × String :=
  (e.tag, e.detail)

/-- The line of an entry without its line feed. -/
def line (e : LogEntry) : String :=
  e.tag ++ ": " ++ e.detail
    ++ (if e.repeated = 0 then "" else " (repeat x" ++ Number.decDigits (e.repeated + 1) ++ ")")

theorem text_eq (e : LogEntry) : e.text = e.line ++ "\n" := rfl

end LogEntry

namespace LogRequest

/-- The tag and the detail that are to be written, if that is permitted. -/
def remark? : LogRequest -> Option (String × String)
  | .value perm tag detail =>
      if perm.allowsLogging then some (tag, detail.shown) else none
  | .template perm tag pattern values =>
      if perm.allowsLogging then some (tag, Template.note pattern (Fault.argumentsOf values))
      else none
  | .clear | .setEcho _ => none

def isClear : LogRequest -> Bool
  | .clear => true
  | _ => false

def echo? : LogRequest -> Option Bool
  | .setEcho on => some on
  | _ => none

end LogRequest

namespace Log

def onLine (remark : String × String) : String × String :=
  (Text.remove '\n' remark.1, Text.remove '\n' remark.2)

/-- What was written since the last request to clear the log, without line feeds. -/
def remarks (requests : List LogRequest) : List (String × String) :=
  ((requests.rtakeWhile fun r => !r.isClear).filterMap LogRequest.remark?).map onLine

theorem remarks_concat_clear (requests : List LogRequest) :
    remarks (requests ++ [.clear]) = [] := by
  rw [remarks, List.rtakeWhile_concat]
  rfl

theorem remarks_concat {r : LogRequest} (hr : r.isClear = false) (requests : List LogRequest) :
    remarks (requests ++ [r]) = remarks requests ++ (r.remark?.map onLine).toList := by
  rw [remarks, List.rtakeWhile_concat, hr, if_pos (by rfl), List.filterMap_append,
    List.map_append, remarks]
  cases h : r.remark? with
  | none => rw [List.filterMap_cons_none h]; rfl
  | some remark => rw [List.filterMap_cons_some h]; rfl

/-- Whether the last request about the echo was to turn it on. -/
def isEchoing (requests : List LogRequest) : Bool :=
  (requests.filterMap LogRequest.echo?).getLast?.getD false

theorem isEchoing_concat (requests : List LogRequest) (r : LogRequest) :
    isEchoing (requests ++ [r]) = r.echo?.getD (isEchoing requests) := by
  rw [isEchoing, List.filterMap_append]
  cases h : r.echo? with
  | none => rw [List.filterMap_cons_none h, List.filterMap_nil, List.append_nil]; rfl
  | some on => rw [List.filterMap_cons_some h, List.filterMap_nil, List.getLast?_concat]; rfl

theorem not_mem_remove (c : Char) (s : String) : c ∉ (Text.remove c s).toList := by
  intro hc
  rw [Text.remove, String.toList_ofList] at hc
  have hne := (List.mem_filter.mp hc).2
  rw [bne_self_eq_false] at hne
  cases hne

theorem not_mem_of_mem_remarks {requests : List LogRequest} {remark : String × String}
    (h : remark ∈ remarks requests) : '\n' ∉ remark.1.toList ∧ '\n' ∉ remark.2.toList := by
  rcases List.mem_map.mp h with ⟨written, _, rfl⟩
  constructor
  · exact not_mem_remove '\n' written.1
  · exact not_mem_remove '\n' written.2

/-! ## Run-length encoding -/

/-- The remarks that entries stand for. -/
def expand (entries : List LogEntry) : List (String × String) :=
  entries.flatMap fun e => List.replicate (e.repeated + 1) e.remark

/-- The run-length encoding of remarks: neighbours differ. -/
structure Encodes (remarks : List (String × String)) (entries : List LogEntry) : Prop where
  expand_eq : expand entries = remarks
  differ : (entries.map LogEntry.remark).IsChain (· ≠ ·)

theorem encodes_nil : Encodes [] [] where
  expand_eq := rfl
  differ := List.IsChain.nil

theorem expand_append (entries entries' : List LogEntry) :
    expand (entries ++ entries') = expand entries ++ expand entries' :=
  List.flatMap_append

theorem expand_cons (e : LogEntry) (entries : List LogEntry) :
    expand (e :: entries) = List.replicate (e.repeated + 1) e.remark ++ expand entries :=
  rfl

theorem head?_expand (entries : List LogEntry) :
    (expand entries).head? = (entries.map LogEntry.remark).head? := by
  cases entries with
  | nil => rfl
  | cons e entries => rfl

theorem Encodes.tail {e : LogEntry} {entries : List LogEntry} {remarks : List (String × String)}
    (h : Encodes remarks (e :: entries)) : Encodes (expand entries) entries where
  expand_eq := rfl
  differ := h.differ.tail

theorem Encodes.head_ne {e : LogEntry} {entries : List LogEntry}
    {remarks : List (String × String)} (h : Encodes remarks (e :: entries)) :
    ∀ r ∈ (expand entries).head?, r ≠ e.remark := by
  intro r hr
  rw [head?_expand] at hr
  have hdiffer := h.differ
  rw [List.map_cons, List.isChain_cons] at hdiffer
  exact Ne.symm (hdiffer.1 r hr)

/-- A run ends where something else follows it. -/
theorem replicate_append_inj {α : Type} {a : α} {m n : Nat} {as bs : List α}
    (has : ∀ c ∈ as.head?, c ≠ a) (hbs : ∀ c ∈ bs.head?, c ≠ a)
    (h : List.replicate m a ++ as = List.replicate n a ++ bs) : m = n ∧ as = bs := by
  induction m generalizing n with
  | zero =>
      cases n with
      | zero => exact ⟨rfl, h⟩
      | succ n =>
          rw [List.replicate_zero, List.nil_append] at h
          exact absurd rfl (has a (by rw [h]; rfl))
  | succ m ih =>
      cases n with
      | zero =>
          rw [List.replicate_zero, List.nil_append] at h
          exact absurd rfl (hbs a (by rw [← h]; rfl))
      | succ n =>
          rcases ih (List.cons.inj h).2 with ⟨rfl, hrest⟩
          exact ⟨rfl, hrest⟩

/-- Remarks have one encoding only. -/
theorem Encodes.unique {remarks : List (String × String)} {entries entries' : List LogEntry}
    (h : Encodes remarks entries) (h' : Encodes remarks entries') : entries = entries' := by
  induction entries generalizing remarks entries' with
  | nil =>
      cases entries' with
      | nil => rfl
      | cons e' rest' => cases h.expand_eq.trans h'.expand_eq.symm
  | cons e rest ih =>
      cases entries' with
      | nil => cases h.expand_eq.trans h'.expand_eq.symm
      | cons e' rest' =>
          have heq := h.expand_eq.trans h'.expand_eq.symm
          have hremark : e.remark = e'.remark := (List.cons.inj heq).1
          have hhead := h'.head_ne
          rw [← hremark] at hhead
          rw [expand_cons, expand_cons, ← hremark] at heq
          rcases replicate_append_inj h.head_ne hhead heq with ⟨hrepeated, hrest⟩
          have htail := h'.tail
          rw [← hrest] at htail
          have he : e = e' := by
            cases e
            cases e'
            cases hremark
            cases hrepeated
            rfl
          rw [he, ih h.tail htail]

/-- One more remark. -/
theorem Encodes.push {remarks : List (String × String)} {history : List LogEntry}
    (h : Encodes remarks history.reverse) (tag detail : String) :
    Encodes (remarks ++ [(tag, detail)]) (push history tag detail).reverse := by
  have hexpand := h.expand_eq
  have hdiffer := h.differ
  cases history with
  | nil =>
      rw [← hexpand]
      exact ⟨rfl, List.IsChain.singleton _⟩
  | cons e rest =>
      rw [List.reverse_cons, expand_append] at hexpand
      rw [List.reverse_cons, List.map_append] at hdiffer
      rw [Log.push]
      split
      · rename_i hequal
        -- The last run gets longer, so that neighbours differ as they did.
        rcases hequal with ⟨rfl, rfl⟩
        constructor
        · rw [List.reverse_cons, expand_append, ← hexpand, List.append_assoc]
          have hrun : expand [{ e with repeated := e.repeated + 1 }] =
              expand [e] ++ [e.remark] := by
            rw [expand_cons, expand_cons, expand, List.flatMap_nil, List.append_nil,
              List.append_nil]
            exact List.replicate_succ'
          exact congrArg _ hrun
        · rw [List.reverse_cons, List.map_append]
          exact hdiffer
      · rename_i hother
        constructor
        · rw [List.reverse_cons, List.reverse_cons, expand_append, expand_append, hexpand]
          rfl
        · rw [List.reverse_cons, List.reverse_cons, List.map_append, List.map_append,
            List.isChain_append]
          refine ⟨hdiffer, List.IsChain.singleton _, ?_⟩
          intro last hlast next hnext heq
          rw [List.map_singleton, List.getLast?_concat] at hlast
          cases hlast
          cases hnext
          cases heq
          exact hother ⟨rfl, rfl⟩

/-- Repeats are those of the last entry, so that entries beyond the limit do not matter
to what follows. -/
theorem take_push_take {limit : Nat} (hlimit : 0 < limit) (history : List LogEntry)
    (tag detail : String) :
    (push (history.take limit) tag detail).take limit =
      (push history tag detail).take limit := by
  cases limit with
  | zero => cases hlimit
  | succ limit =>
      cases history with
      | nil => rfl
      | cons e rest =>
          rw [List.take_succ_cons, push, push]
          split
          · rw [List.take_succ_cons, List.take_succ_cons, List.take_take, Nat.min_self]
          · -- With a new entry in front, one less of the others is kept.
            have hrest : (e :: rest.take limit).take limit = (e :: rest).take limit := by
              rw [← List.take_succ_cons, List.take_take, Nat.min_eq_left (Nat.le_succ limit)]
            rw [List.take_succ_cons, List.take_succ_cons, hrest]

/-! ## Lines -/

/-- One line for each entry. -/
structure Prints (entries : List LogEntry) (s : String) : Prop where
  joined : s = String.join (entries.map fun e => e.line ++ "\n")
  rawLines_eq : Text.rawLines s = entries.map LogEntry.line

theorem not_mem_line {e : LogEntry} (htag : '\n' ∉ e.tag.toList)
    (hdetail : '\n' ∉ e.detail.toList) : '\n' ∉ e.line.toList := by
  have hdigits : ∀ c ∈ Number.numberChars, c ≠ '\n' := by simp [Number.numberChars]
  have hcount : '\n' ∉ (Number.decDigits (e.repeated + 1)).toList := by
    intro hc
    exact Number.forall_mem_decDigits hdigits _ '\n' hc rfl
  unfold LogEntry.line
  split
  · simp [htag, hdetail]
  · simp [htag, hdetail, hcount]

theorem prints_linesOf {entries : List LogEntry}
    (h : ∀ e ∈ entries, '\n' ∉ e.line.toList) : Prints entries (linesOf entries) := by
  constructor
  · rfl
  · induction entries with
    | nil => rfl
    | cons e entries ih =>
        have hline := h e List.mem_cons_self
        have hrest := ih fun e' he' => h e' (List.mem_cons_of_mem e he')
        rw [linesOf, List.map_cons, String.join_cons, e.text_eq, Text.rawLines_append,
          Text.split_of_not_mem hline, List.singleton_append, List.map_cons]
        exact congrArg _ hrest

theorem Encodes.not_mem_line {requests : List LogRequest} {entries : List LogEntry}
    (h : Encodes (remarks requests) entries) {e : LogEntry} (he : e ∈ entries) :
    '\n' ∉ e.line.toList := by
  have hremark : e.remark ∈ remarks requests := by
    rw [← h.expand_eq]
    exact List.mem_flatMap.mpr ⟨e, he, List.mem_replicate.mpr ⟨Nat.succ_ne_zero _, rfl⟩⟩
  rcases not_mem_of_mem_remarks hremark with ⟨htag, hdetail⟩
  exact Log.not_mem_line htag hdetail

/-! ## Runs -/

/-- A log after requests. -/
def run (limit : Nat) (requests : List LogRequest) : Log :=
  requests.foldl answer { limit }

theorem run_concat (limit : Nat) (requests : List LogRequest) (r : LogRequest) :
    run limit (requests ++ [r]) = (run limit requests).answer r := by
  rw [run, List.foldl_append]
  rfl

theorem answer_of_remark?_eq_some {log : Log} {r : LogRequest} {remark : String × String}
    (h : r.remark? = some remark) : log.answer r = log.add remark.1 remark.2 := by
  cases r with
  | value perm tag detail =>
      rw [LogRequest.remark?] at h
      split at h
      · rename_i hperm
        cases h
        exact if_pos hperm
      · cases h
  | template perm tag pattern values =>
      rw [LogRequest.remark?] at h
      split at h
      · rename_i hperm
        cases h
        exact if_pos hperm
      · cases h
  | clear => cases h
  | setEcho on => cases h

/-- A request that writes nothing can only clear the log or change the echo. -/
theorem answer_of_remark?_eq_none {log : Log} {r : LogRequest} (h : r.remark? = none) :
    log.answer r =
      { log with
        recent := if r.isClear then [] else log.recent
        echoing := r.echo?.getD log.echoing } := by
  cases r with
  | value perm tag detail =>
      rw [LogRequest.remark?] at h
      split at h
      · cases h
      · rename_i hperm
        exact if_neg hperm
  | template perm tag pattern values =>
      rw [LogRequest.remark?] at h
      split at h
      · cases h
      · rename_i hperm
        exact if_neg hperm
  | clear => rfl
  | setEcho on => rfl

theorem quiet_of_remark?_eq_some {r : LogRequest} {remark : String × String}
    (h : r.remark? = some remark) : r.isClear = false ∧ r.echo? = none := by
  cases r with
  | clear => cases h
  | value perm tag detail => exact ⟨rfl, rfl⟩
  | template perm tag pattern values => exact ⟨rfl, rfl⟩
  | setEcho on => cases h

/-- The entries are the front of a history that nothing was dropped from, the encoding of
all that was written since the log was cleared. -/
structure IsSound (limit : Nat) (requests : List LogRequest) (log : Log) : Prop where
  limit_eq : log.limit = limit
  echoing_eq : log.echoing = isEchoing requests
  exists_history : ∃ history : List LogEntry,
    Encodes (remarks requests) history.reverse ∧ log.recent = history.take limit

section Sound

variable {limit : Nat} {requests : List LogRequest} {log : Log}

theorem IsSound.answer (h : IsSound limit requests log) (hlimit : 0 < limit) (r : LogRequest) :
    IsSound limit (requests ++ [r]) (log.answer r) := by
  rcases h.exists_history with ⟨history, hencodes, hrecent⟩
  cases hremark : r.remark? with
  | some remark =>
      rcases quiet_of_remark?_eq_some hremark with ⟨hclear, hecho⟩
      rw [answer_of_remark?_eq_some hremark]
      refine ⟨h.limit_eq, ?_, push history (onLine remark).1 (onLine remark).2, ?_, ?_⟩
      · rw [isEchoing_concat, hecho]
        exact h.echoing_eq
      · rw [remarks_concat hclear, hremark]
        exact hencodes.push _ _
      · rw [add, h.limit_eq, hrecent]
        exact take_push_take hlimit history _ _
  | none =>
      rw [answer_of_remark?_eq_none hremark]
      have hechoing : r.echo?.getD log.echoing = isEchoing (requests ++ [r]) := by
        rw [isEchoing_concat, h.echoing_eq]
      cases hclear : r.isClear with
      | true =>
          refine ⟨h.limit_eq, hechoing, [], ?_, List.take_nil.symm⟩
          cases r with
          | clear =>
              rw [remarks_concat_clear]
              exact encodes_nil
          | _ => cases hclear
      | false =>
          refine ⟨h.limit_eq, hechoing, history, ?_, hrecent⟩
          rw [remarks_concat hclear, hremark, Option.map_none, Option.toList_none,
            List.append_nil]
          exact hencodes

theorem isSound_run (hlimit : 0 < limit) (requests : List LogRequest) :
    IsSound limit requests (run limit requests) := by
  induction requests using List.reverseRecOn with
  | nil => exact ⟨rfl, rfl, [], encodes_nil, List.take_nil.symm⟩
  | append_singleton requests r ih =>
      rw [run_concat]
      exact ih.answer hlimit r

/-- The entries are the end of any encoding of what was written. -/
theorem IsSound.entries_eq_drop (h : IsSound limit requests log) {runs : List LogEntry}
    (hruns : Encodes (remarks requests) runs) : log.entries = runs.drop (runs.length - limit) := by
  rcases h.exists_history with ⟨history, hencodes, hrecent⟩
  rw [hruns.unique hencodes, entries, hrecent, List.reverse_take, List.length_reverse]

theorem IsSound.exists_encodes (h : IsSound limit requests log) :
    ∃ runs, Encodes (remarks requests) runs := by
  rcases h.exists_history with ⟨history, hencodes, _⟩
  exact ⟨history.reverse, hencodes⟩

theorem IsSound.not_mem_line (h : IsSound limit requests log) {e : LogEntry}
    (he : e ∈ log.entries) : '\n' ∉ e.line.toList := by
  rcases h.exists_encodes with ⟨runs, hruns⟩
  rw [h.entries_eq_drop hruns] at he
  exact hruns.not_mem_line (List.mem_of_mem_drop he)

/-- The end of a log is printed from its last entries. -/
theorem tail_eq (log : Log) (n : Int) :
    log.tail n =
      linesOf (log.entries.drop
        (log.entries.length - min (max n 0).toNat log.entries.length)) := by
  have htake : log.recent.take n.toNat =
      log.recent.take (min (max n 0).toNat log.recent.length) := by
    rw [List.take_eq_take_iff]
    omega
  rw [Log.tail, htake, List.reverse_take, entries, List.length_reverse]

/-- A permitted request echoes the line of the entry that is then the last one. -/
theorem exists_echo {r : LogRequest} (hlimit : 0 < log.limit)
    (hremark : r.remark?.isSome = true) :
    ∃ e, (log.answer r).entries.getLast? = some e ∧
      (log.answer r).echo = if log.echoing then log.echo ++ e.text else log.echo := by
  rcases Option.isSome_iff_exists.mp hremark with ⟨remark, hremark⟩
  rw [answer_of_remark?_eq_some hremark]
  have hhead : ∃ e rest, push log.recent (Text.remove '\n' remark.1)
      (Text.remove '\n' remark.2) = e :: rest := by
    cases log.recent with
    | nil => exact ⟨_, _, rfl⟩
    | cons e rest =>
        rw [push]
        split
        · exact ⟨_, _, rfl⟩
        · exact ⟨_, _, rfl⟩
  rcases hhead with ⟨e, rest, hpush⟩
  refine ⟨e, ?_, ?_⟩
  · rw [entries, List.getLast?_reverse, add]
    simp only [hpush]
    rw [List.head?_take, if_neg (Nat.ne_of_gt hlimit)]
    rfl
  · rw [add]
    simp only [hpush]
    rfl

end Sound

/-- What a log shows after requests, and what it makes of a further one. -/
structure IsTranscript (limit : Nat) (requests : List LogRequest) (log : Log) : Prop where
  exists_encodes : ∃ runs, Encodes (remarks requests) runs
  entries_eq : ∀ runs, Encodes (remarks requests) runs ->
    log.entries = runs.drop (runs.length - limit)
  prints_text : Prints log.entries log.text
  prints_tail : ∀ n : Int, Prints (log.entries.drop
    (log.entries.length - min (max n 0).toNat log.entries.length)) (log.tail n)
  echoing_eq : log.echoing = isEchoing requests
  echoes : ∀ r : LogRequest, log.echoing = true -> r.remark?.isSome = true ->
    ∃ e, (log.answer r).entries.getLast? = some e ∧ (log.answer r).echo = log.echo ++ e.text
  silent : ∀ r : LogRequest, log.echoing = false ∨ r.remark? = none ->
    (log.answer r).echo = log.echo

/-- Whatever is asked of a log, it keeps the end of the run-length encoding of what was
written since it was cleared. -/
theorem isTranscript_run {limit : Nat} (hlimit : 0 < limit) (requests : List LogRequest) :
    IsTranscript limit requests (run limit requests) := by
  have hsound := isSound_run hlimit requests
  have hpositive : 0 < (run limit requests).limit := by
    rw [hsound.limit_eq]
    exact hlimit
  constructor
  · exact hsound.exists_encodes
  · intro runs hruns
    exact hsound.entries_eq_drop hruns
  · exact prints_linesOf fun e he => hsound.not_mem_line he
  · intro n
    rw [tail_eq]
    exact prints_linesOf fun e he => hsound.not_mem_line (List.mem_of_mem_drop he)
  · exact hsound.echoing_eq
  · intro r hecho hremark
    rcases exists_echo hpositive hremark with ⟨e, hlast, htext⟩
    rw [if_pos hecho] at htext
    exact ⟨e, hlast, htext⟩
  · intro r hsilent
    cases hremark : r.remark? with
    | none => rw [answer_of_remark?_eq_none hremark]
    | some remark =>
        rw [hremark] at hsilent
        have hecho : (run limit requests).echoing = false := hsilent.resolve_right (by simp)
        rcases exists_echo hpositive (Option.isSome_iff_exists.mpr ⟨_, hremark⟩) with ⟨e, _, htext⟩
        rw [hecho] at htext
        exact htext

/-- A remark that is repeated in another form, with one between that is not permitted. -/
def undecodableTwice : List LogRequest :=
  [.setEcho true, .value .allow "cpu" (.text "68000"),
    .value .allow "disassembly" (.text "unde\ncodable"), .value .deny "cpu" (.text "68010"),
    .template .allow "disassembly" "un%s" [.text "decodable"],
    .value .allow "symbols" (.integer .int 3)]

theorem isTranscript_run_undecodableTwice :
    (run 2 undecodableTwice).text = "disassembly: undecodable (repeat x2)\nsymbols: 3\n" ∧
      (run 2 undecodableTwice).echo = "cpu: 68000\ndisassembly: undecodable\n"
        ++ "disassembly: undecodable (repeat x2)\nsymbols: 3\n" ∧
      IsTranscript 2 undecodableTwice (run 2 undecodableTwice) := by
  refine ⟨?_, ?_, ?_⟩
  · decide +kernel
  · decide +kernel
  · exact isTranscript_run (by decide) undecodableTwice

end Log
end Disassembler
