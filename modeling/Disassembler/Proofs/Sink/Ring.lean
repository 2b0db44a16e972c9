import Mathlib.Data.List.DropRight
import Disassembler.Sink.Ring

/-!
# The end of what was written

Whatever is written to a ring, and whenever it is cleared, the ring shows the last bytes that
were written since then, as many as there is room for.
-/

namespace Disassembler

/-- What can happen to a ring. -/
inductive RingEvent where
  | write (bytes : Bytes)
  | clear

namespace RingEvent

def bytes : RingEvent -> Bytes
  | write bytes => bytes
  | clear => []

def isWrite : RingEvent -> Bool
  | write _ => true
  | clear => false

end RingEvent

namespace RingSink

/-! ## Ends -/

/-- The end of what was written that there is room for. -/
structure IsEnd (room : Nat) (written kept : Bytes) : Prop where
  suffix : kept <:+ written
  length_eq : kept.length = min room written.length

theorem isEnd_rtake (room : Nat) (written : Bytes) : IsEnd room written (written.rtake room) where
  suffix := List.drop_suffix _ written
  length_eq := by
    rw [List.rtake, List.length_drop]
    omega

theorem rtake_append_of_le {room : Nat} (older : Bytes) {bytes : Bytes}
    (h : room ≤ bytes.length) : (older ++ bytes).rtake room = bytes.rtake room := by
  rw [List.rtake, List.rtake, List.drop_append, List.length_append,
    List.drop_eq_nil_of_le (by omega), List.nil_append]
  congr 1
  omega

/-- What came before the end does not matter later on. -/
theorem rtake_rtake_append (room : Nat) (written bytes : Bytes) :
    (written.rtake room ++ bytes).rtake room = (written ++ bytes).rtake room := by
  have hlost : written.rtake room ++ bytes = (written ++ bytes).drop (written.length - room) :=
    (List.drop_append_of_le_length (Nat.sub_le _ _)).symm
  rw [hlost, List.rtake, List.rtake, List.drop_drop, List.length_drop, List.length_append]
  congr 1
  omega

/-! ## One write -/

section Write

variable {r : RingSink} {bytes : Bytes}

/-- The bytes that stand at the cursor and behind it, where they can be seen. -/
def older (r : RingSink) : Bytes :=
  if r.wrapped then r.cells.drop r.cursor else []

def newer (r : RingSink) : Bytes :=
  r.cells.take r.cursor

theorem contents_eq (r : RingSink) : r.contents = r.older ++ r.newer := by
  rw [contents, older, newer]
  split
  · rfl
  · rfl

theorem length_newer (r : RingSink) : r.newer.length = r.cursor := by
  rw [newer, List.length_take, Nat.min_eq_left r.cursor_le]

theorem length_older_of_wrapped (h : r.wrapped = true) :
    r.older.length = r.size - r.cursor := by
  rw [older, if_pos h, List.length_drop, r.length_eq h]

theorem older_of_not_wrapped (h : r.wrapped = false) : r.older = [] := by
  rw [older, h]
  rfl

/-- The oldest bytes are those that are lost first. -/
theorem rtake_contents_append (hlt : bytes.length < r.size) :
    (r.contents ++ bytes).rtake r.size =
      r.older.drop bytes.length
        ++ (r.newer.drop (r.cursor + bytes.length - r.size) ++ bytes) := by
  have hcursor := r.cursor_lt
  have hnewer := r.length_newer
  rw [contents_eq, List.append_assoc, List.rtake, List.length_append, List.length_append]
  cases hwrapped : r.wrapped with
  | true =>
      have holder := length_older_of_wrapped hwrapped
      have hlost : r.older.length + (r.newer.length + bytes.length) - r.size = bytes.length := by
        omega
      rw [hlost, List.drop_append, List.drop_append_of_le_length (by omega), holder]
      congr 3
      omega
  | false =>
      rw [older_of_not_wrapped hwrapped, List.drop_nil, List.nil_append, List.nil_append,
        List.drop_append_of_le_length (by rw [List.length_nil]; omega), hnewer,
        List.length_nil, Nat.zero_add]

/-- There is room for the bytes behind the cursor. -/
theorem cellsAfter_of_lt (h : r.cursor + bytes.length < r.size) :
    r.cellsAfter bytes =
      r.newer ++ bytes ++ r.cells.drop (r.cursor + bytes.length) := by
  have hfits : bytes.take (r.size - r.cursor) = bytes := List.take_of_length_le (by omega)
  rw [cellsAfter, if_neg (by omega), overwrite, hfits, newer]

/-- The bytes go round, and what is left of the newest ones before stands between their two
parts. -/
theorem cellsAfter_of_le (h : r.size ≤ r.cursor + bytes.length) (hlt : bytes.length < r.size) :
    r.cellsAfter bytes =
      bytes.drop (r.size - r.cursor)
        ++ (r.newer.drop (r.cursor + bytes.length - r.size)
          ++ bytes.take (r.size - r.cursor)) := by
  have hcursor := r.cursor_lt
  have hnewer := r.length_newer
  have hle := r.length_le
  have hfront : 0 + (bytes.drop (r.size - r.cursor)).length =
      r.cursor + bytes.length - r.size := by
    rw [List.length_drop]
    omega
  have hrest : (bytes.drop (r.size - r.cursor)).take (r.size - 0) =
      bytes.drop (r.size - r.cursor) := List.take_of_length_le (by rw [List.length_drop]; omega)
  have hfirst : overwrite r.size r.cells r.cursor bytes =
      r.newer ++ bytes.take (r.size - r.cursor) := by
    rw [overwrite, List.drop_eq_nil_of_le (by omega), List.append_nil, newer]
  rw [cellsAfter, if_pos (by omega), hfirst, overwrite, hfront, hrest, List.take_zero,
    List.nil_append, List.drop_append_of_le_length (by omega)]

theorem contents_put_of_lt (h : r.cursor + bytes.length < r.size) :
    (r.put bytes).contents = r.older.drop bytes.length ++ (r.newer ++ bytes) := by
  have hplace : (r.put bytes).cursor = r.cursor + bytes.length := Nat.mod_eq_of_lt h
  have hwrapped : (r.put bytes).wrapped = r.wrapped := by
    show (r.wrapped || decide _) = _
    rw [decide_eq_false (by omega), Bool.or_false]
  have hcells : (r.put bytes).cells = _ := cellsAfter_of_lt h
  have hlength : (r.newer ++ bytes).length = r.cursor + bytes.length := by
    rw [List.length_append, r.length_newer]
  have holder : (r.put bytes).older = r.older.drop bytes.length := by
    rw [older, older, hwrapped, hplace, hcells, List.drop_left' hlength]
    split
    · rw [List.drop_drop]
    · rw [List.drop_nil]
  rw [contents_eq, holder, newer, hplace, hcells, List.take_left' hlength]

theorem contents_put_of_le (h : r.size ≤ r.cursor + bytes.length)
    (hlt : bytes.length < r.size) :
    (r.put bytes).contents = r.newer.drop (r.cursor + bytes.length - r.size) ++ bytes := by
  have hcursor := r.cursor_lt
  have hplace : (r.put bytes).cursor = r.cursor + bytes.length - r.size := by
    show (r.cursor + bytes.length) % r.size = _
    rw [Nat.mod_eq_sub_mod h, Nat.mod_eq_of_lt (by omega)]
  have hwrapped : (r.put bytes).wrapped = true := by
    show (r.wrapped || decide _) = _
    rw [decide_eq_true (by omega), Bool.or_true]
  have hcells : (r.put bytes).cells = _ := cellsAfter_of_le h hlt
  have hlength : (bytes.drop (r.size - r.cursor)).length =
      r.cursor + bytes.length - r.size := by
    rw [List.length_drop]
    omega
  rw [contents, if_pos hwrapped, hplace, hcells, List.drop_left' hlength,
    List.take_left' hlength, List.append_assoc, List.take_append_drop]

theorem drop_older_of_le (h : r.size ≤ r.cursor + bytes.length) :
    r.older.drop bytes.length = [] := by
  cases hwrapped : r.wrapped with
  | true =>
      refine List.drop_eq_nil_of_le ?_
      rw [length_older_of_wrapped hwrapped]
      omega
  | false => rw [older_of_not_wrapped hwrapped, List.drop_nil]

theorem contents_put (hlt : bytes.length < r.size) :
    (r.put bytes).contents = (r.contents ++ bytes).rtake r.size := by
  rw [rtake_contents_append hlt]
  rcases Nat.lt_or_ge (r.cursor + bytes.length) r.size with h | h
  · rw [contents_put_of_lt h, Nat.sub_eq_zero_of_le (Nat.le_of_lt h), List.drop_zero]
  · rw [contents_put_of_le h hlt, drop_older_of_le h, List.nil_append]

theorem contents_refill (h : r.size ≤ bytes.length) :
    (r.refill bytes h).contents = bytes.rtake r.size :=
  List.append_nil _

/-- A write makes the ring show the end of what it showed and of what is written. -/
theorem contents_write (r : RingSink) (bytes : Bytes) :
    (r.write bytes).2.contents = (r.contents ++ bytes).rtake r.size := by
  rw [write]
  split
  · rename_i h
    rw [contents_refill h, rtake_append_of_le _ h]
  · rename_i h
    exact contents_put (Nat.lt_of_not_le h)

theorem size_write (r : RingSink) (bytes : Bytes) : (r.write bytes).2.size = r.size := by
  rw [write]
  split
  · rfl
  · rfl

theorem count_write (r : RingSink) (bytes : Bytes) : (r.write bytes).1 = bytes.length := by
  rw [write]
  split
  · rfl
  · rfl

end Write

/-! ## Runs -/

/-- The ring after an event. -/
def after (r : RingSink) : RingEvent -> RingSink
  | .write bytes => (r.write bytes).2
  | .clear => r.clear

def afterAll (r : RingSink) (events : List RingEvent) : RingSink :=
  events.foldl after r

/-- Everything that was written since the ring was cleared. -/
def written (events : List RingEvent) : Bytes :=
  (events.rtakeWhile RingEvent.isWrite).flatMap RingEvent.bytes

theorem written_concat_clear (events : List RingEvent) : written (events ++ [.clear]) = [] := by
  rw [written, List.rtakeWhile_concat]
  rfl

theorem written_concat_write (events : List RingEvent) (bytes : Bytes) :
    written (events ++ [.write bytes]) = written events ++ bytes := by
  rw [written, List.rtakeWhile_concat, if_pos (by rfl), List.flatMap_append, ← written]
  exact congrArg _ (List.append_nil bytes)

theorem afterAll_concat (r : RingSink) (events : List RingEvent) (event : RingEvent) :
    r.afterAll (events ++ [event]) = (r.afterAll events).after event := by
  rw [afterAll, List.foldl_append]
  rfl

theorem size_afterAll (r : RingSink) (events : List RingEvent) :
    (r.afterAll events).size = r.size := by
  induction events generalizing r with
  | nil => rfl
  | cons event events ih =>
      refine (ih (r.after event)).trans ?_
      cases event with
      | write bytes => exact r.size_write bytes
      | clear => rfl

theorem contents_afterAll {r : RingSink} (h : r.contents = []) (events : List RingEvent) :
    (r.afterAll events).contents = (written events).rtake r.size := by
  induction events using List.reverseRecOn with
  | nil => exact h.trans (List.rtake_nil r.size).symm
  | append_singleton events event ih =>
      rw [afterAll_concat]
      cases event with
      | write bytes =>
          rw [written_concat_write, ← rtake_rtake_append, ← ih, ← r.size_afterAll events]
          exact contents_write _ bytes
      | clear =>
          rw [written_concat_clear, List.rtake_nil]
          rfl

/-- Whatever happens to a ring that there is room in, it shows the end of what was written
since it was cleared, and all bytes of a write count as written. -/
theorem isEnd_contents_afterAll {n : Int} (hn : 1 ≤ n) :
    ∃ r, create n = .ok r ∧ ∀ events,
      IsEnd n.toNat (written events) (r.afterAll events).contents ∧
        ∀ bytes, ((r.afterAll events).write bytes).1 = bytes.length := by
  refine ⟨_, dif_pos hn, fun events => ?_⟩
  constructor
  · rw [contents_afterAll rfl events]
    exact isEnd_rtake n.toNat (written events)
  · exact count_write _

/-- Too many bytes, none at all, exactly as many as there is room for behind bytes that were
forgotten, and more that go round. -/
def fourByteEvents : List RingEvent :=
  [.write [1, 2, 3, 4, 5, 6], .write [], .clear, .write [7, 8], .write [9, 10],
    .write [11, 12, 13], .write [14, 15]]

theorem isEnd_contents_afterAll_four :
    1 ≤ (4 : Int) ∧ ∃ r, create 4 = .ok r ∧
      (r.afterAll fourByteEvents).contents = [12, 13, 14, 15] ∧
      IsEnd 4 [7, 8, 9, 10, 11, 12, 13, 14, 15] (r.afterAll fourByteEvents).contents ∧
      ((r.afterAll fourByteEvents).write [16, 17, 18, 19, 20]).1 = 5 := by
  refine ⟨by decide, ?_⟩
  rcases isEnd_contents_afterAll (n := 4) (by decide) with ⟨r, hr, h⟩
  refine ⟨r, hr, ?_, (h fourByteEvents).1, (h fourByteEvents).2 _⟩
  cases hr
  decide

end RingSink
end Disassembler
