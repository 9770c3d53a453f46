import Mathlib.Data.List.Basic
import SignalRoute.Log.Clock
import SignalRoute.Log.Record

/-!
# Runs of a tick clock

A download asks its clock for the time of one record after the other.  `told` lists the records that
are given a time, with these times, and `after` is the clock behind them all.

* `TickClock.told_of_unmarked`: without marks every record is told a time.
* `TickClock.Ahead`: records whose ticks go on from what the clock has seen, and that no mark passes
  over.  They are all told a time, the marks stay, and the clock remembers the last tick of each
  reset.
* `TickClock.told_resumed`: a clock whose marks were set behind some records passes over just
  these, if no record behind them has the tick of one of them.

Whether the clock is frozen makes no difference to any of this.

A run is given by a list of records and looks at nothing but resets and ticks, so the same lemmas
serve a readout, a part of one and several in a row.  `told` drops the records that get no time;
which ones these are is what the lemmas about marks are for.
-/

set_option autoImplicit false

namespace SignalRoute.TickClock

/-! ## Runs -/

/-- A record with its time, if it was told one. -/
def timed (r : LogRecord) : Except Fault (Option Instant) → List (LogRecord × Instant)
  | .ok (some time) => [(r, time)]
  | _ => []

/-- The clock behind some records. -/
def after (now : Instant) (c : TickClock) (records : List LogRecord) : TickClock :=
  records.foldl (fun c r => (c.tell now r.reset r.tick).2) c

/-- The records that are told a time, with it. -/
def told (now : Instant) : TickClock → List LogRecord → List (LogRecord × Instant)
  | _, [] => []
  | c, r :: rest =>
    timed r (c.tell now r.reset r.tick).1 ++ told now (c.tell now r.reset r.tick).2 rest

/-- Does the calendar have the times of all records? -/
def tells (now : Instant) : TickClock → List LogRecord → Bool
  | _, [] => true
  | c, r :: rest =>
    (c.tell now r.reset r.tick).1.isOk && tells now (c.tell now r.reset r.tick).2 rest

variable {now : Instant} {c : TickClock} {r : LogRecord} {records rest : List LogRecord}

theorem after_cons : c.after now (r :: rest) = (c.tell now r.reset r.tick).2.after now rest := rfl

theorem after_append (xs ys : List LogRecord) :
    c.after now (xs ++ ys) = (c.after now xs).after now ys := List.foldl_append

theorem told_append (xs ys : List LogRecord) :
    c.told now (xs ++ ys) = c.told now xs ++ (c.after now xs).told now ys := by
  induction xs generalizing c with
  | nil => rfl
  | cons r rest ih => rw [List.cons_append, told, told, ih, List.append_assoc, after_cons]

theorem tells_append (xs ys : List LogRecord) :
    c.tells now (xs ++ ys) = (c.tells now xs && (c.after now xs).tells now ys) := by
  induction xs generalizing c with
  | nil => rfl
  | cons r rest ih => rw [List.cons_append, tells, tells, ih, Bool.and_assoc, after_cons]

theorem told_singleton : c.told now [r] = timed r (c.tell now r.reset r.tick).1 :=
  List.append_nil _

/-! ## What a run does not look at -/

theorem stamp_freeze (reset : UInt8) (tick : UInt32) :
    c.freeze.stamp now reset tick =
      ((c.stamp now reset tick).1, (c.stamp now reset tick).2.freeze) := by
  have hreplay : c.freeze.isReplay reset tick = c.isReplay reset tick := rfl
  have hbasis : c.freeze.basis now reset tick = c.basis now reset tick := rfl
  have hlast : c.freeze.lastTicks = c.lastTicks := rfl
  rw [stamp, stamp, hreplay, hbasis, hlast]
  split
  · rfl
  · cases c.lastTicks.find? reset with
    | none => rfl
    | some last => dsimp only; split <;> rfl

theorem tell_freeze (reset : UInt8) (tick : UInt32) :
    c.freeze.tell now reset tick =
      ((c.tell now reset tick).1, (c.tell now reset tick).2.freeze) := by
  have hcalendar : (c.stamp now reset tick).2.freeze.calendar =
      (c.stamp now reset tick).2.calendar := rfl
  rw [tell, tell, stamp_freeze]
  rcases h : c.stamp now reset tick with ⟨_ | time, c'⟩ <;> rfl

theorem after_freeze (records : List LogRecord) :
    c.freeze.after now records = (c.after now records).freeze := by
  induction records generalizing c with
  | nil => rfl
  | cons r rest ih => rw [after_cons, after_cons, tell_freeze, ih]

theorem told_freeze (records : List LogRecord) : c.freeze.told now records = c.told now records := by
  induction records generalizing c with
  | nil => rfl
  | cons r rest ih => rw [told, told, tell_freeze, ih]

theorem tells_freeze (records : List LogRecord) :
    c.freeze.tells now records = c.tells now records := by
  induction records generalizing c with
  | nil => rfl
  | cons r rest ih => rw [tells, tells, tell_freeze, ih]

/-! ## One record -/

theorem tell_snd (reset : UInt8) (tick : UInt32) :
    (c.tell now reset tick).2 = (c.stamp now reset tick).2 := by
  rw [tell]
  rcases c.stamp now reset tick with ⟨_ | time, c'⟩ <;> rfl

theorem tell_of_replay {reset : UInt8} {tick : UInt32} (h : c.isReplay reset tick = true) :
    c.tell now reset tick = (.ok none, c) := by
  rw [tell, stamp, if_pos h]

/-- The only fault is that the calendar does not have a time. -/
theorem tell_eq_overrun {reset : UInt8} {tick : UInt32}
    (h : (c.tell now reset tick).1.isOk = false) : (c.tell now reset tick).1 = .error .overrun := by
  rw [tell] at h ⊢
  generalize c.stamp now reset tick = stamped at h ⊢
  obtain ⟨_ | time, c'⟩ := stamped
  · cases h
  · dsimp only at h ⊢
    by_cases hcalendar : c'.calendar time = true
    · rw [if_pos hcalendar] at h
      cases h
    · rw [if_neg hcalendar]

/-- A record that was not delivered before is told a time, if the calendar has it. -/
theorem timed_tell (h : c.isReplay r.reset r.tick = false)
    (hok : (c.tell now r.reset r.tick).1.isOk = true) :
    (timed r (c.tell now r.reset r.tick).1).map Prod.fst = [r] := by
  have hstamp : (c.stamp now r.reset r.tick).1.isSome = true := by
    rw [stamp, h, if_neg Bool.false_ne_true]
    dsimp only
    split
    · split <;> rfl
    · rfl
  rw [tell] at hok ⊢
  rcases hs : c.stamp now r.reset r.tick with ⟨_ | time, c'⟩
  · rw [hs] at hstamp
    exact absurd hstamp Bool.false_ne_true
  · rw [hs] at hok
    dsimp only at hok ⊢
    by_cases hcalendar : c'.calendar time = true
    · rw [if_pos hcalendar]
      rfl
    · rw [if_neg hcalendar] at hok
      exact absurd hok Bool.false_ne_true

/-! ## Without marks -/

theorem isReplay_of_unmarked (h : c.marks = .empty) (reset : UInt8) (tick : UInt32) :
    c.isReplay reset tick = false := by
  rw [isReplay, h]
  rfl

theorem marks_tell_of_unmarked (h : c.marks = .empty) (reset : UInt8) (tick : UInt32) :
    (c.tell now reset tick).2.marks = .empty := by
  rw [tell_snd, stamp, isReplay_of_unmarked h, if_neg Bool.false_ne_true]
  dsimp only
  split
  · split
    · exact congrArg (fun marks => marks.modify reset fun _ => tick) h
    · exact h
  · exact h

/-- Without marks every record is told a time. -/
theorem told_of_unmarked (h : c.marks = .empty) (hok : c.tells now records = true) :
    (c.told now records).map Prod.fst = records := by
  induction records generalizing c with
  | nil => rfl
  | cons r rest ih =>
    rw [tells, Bool.and_eq_true] at hok
    rw [told, List.map_append, timed_tell (isReplay_of_unmarked h _ _) hok.1,
      ih (marks_tell_of_unmarked h _ _) hok.2]
    rfl

/-! ## Ascending ticks

Within one reset, and as long as the counter does not go round.  Equal ticks are allowed: several
loggers report under the same tick, and so may one that is fast.
-/

/-- Records whose ticks go on from what the clock has seen, and that no mark passes over. -/
structure Ahead (c : TickClock) (records : List LogRecord) : Prop where
  ascending : records.Pairwise fun r r' => r.reset = r'.reset → r.tick ≤ r'.tick
  beyond : ∀ r ∈ records, ∀ last, c.lastTicks.find? r.reset = some last → last ≤ r.tick
  unmarked : ∀ r ∈ records, c.isReplay r.reset r.tick = false

/-- A tick that is not smaller than the last one of its reset changes no mark and is remembered. -/
theorem tell_of_ascending (now : Instant) {reset : UInt8} {tick : UInt32}
    (h : c.isReplay reset tick = false)
    (hlast : ∀ last, c.lastTicks.find? reset = some last → last ≤ tick) :
    (c.tell now reset tick).2.marks = c.marks ∧
      (c.tell now reset tick).2.lastTicks = c.lastTicks.insert reset tick := by
  rw [tell_snd, stamp, h, if_neg Bool.false_ne_true]
  cases hfind : c.lastTicks.find? reset with
  | none => exact ⟨rfl, rfl⟩
  | some last =>
    dsimp only
    rw [if_neg (UInt32.not_lt.2 (hlast last hfind))]
    exact ⟨rfl, rfl⟩

namespace Ahead

theorem tell (now : Instant) (h : c.Ahead (r :: rest)) :
    (c.tell now r.reset r.tick).2.marks = c.marks ∧
      (c.tell now r.reset r.tick).2.lastTicks = c.lastTicks.insert r.reset r.tick :=
  tell_of_ascending now (h.unmarked r List.mem_cons_self) (h.beyond r List.mem_cons_self)

/-- What comes behind the first record is still ahead of the clock. -/
theorem tail (h : c.Ahead (r :: rest)) : (c.tell now r.reset r.tick).2.Ahead rest := by
  obtain ⟨hmarks, hlast⟩ := h.tell now
  obtain ⟨hfirst, hrest⟩ := List.pairwise_cons.1 h.ascending
  refine ⟨hrest, fun r' hr' last hfind => ?_, fun r' hr' => ?_⟩
  · rw [hlast, IdTable.find?_insert] at hfind
    split at hfind
    · rename_i heq
      obtain rfl : r.tick = last := Option.some.inj hfind
      exact hfirst r' hr' heq.symm
    · exact h.beyond r' (List.mem_cons_of_mem _ hr') last hfind
  · rw [isReplay, hmarks]
    exact h.unmarked r' (List.mem_cons_of_mem _ hr')

/-- They are all told a time. -/
theorem told (h : c.Ahead records) (hok : c.tells now records = true) :
    (c.told now records).map Prod.fst = records := by
  induction records generalizing c with
  | nil => rfl
  | cons r rest ih =>
    rw [tells, Bool.and_eq_true] at hok
    rw [TickClock.told, List.map_append, timed_tell (h.unmarked r List.mem_cons_self) hok.1,
      ih h.tail hok.2]
    rfl

/-- The last tick of a reset never gets smaller. -/
theorem grows (h : c.Ahead records) {reset : UInt8} {tick : UInt32}
    (hfind : c.lastTicks.find? reset = some tick) :
    ∃ last, (c.after now records).lastTicks.find? reset = some last ∧ tick ≤ last := by
  induction records generalizing c tick with
  | nil => exact ⟨tick, hfind, UInt32.le_refl tick⟩
  | cons r rest ih =>
    have hlast := (h.tell now).2
    rw [after_cons]
    by_cases heq : reset = r.reset
    · have hknown : (c.tell now r.reset r.tick).2.lastTicks.find? reset = some r.tick := by
        rw [hlast, IdTable.find?_insert, if_pos heq]
      obtain ⟨last, hafter, hle⟩ := ih h.tail hknown
      exact ⟨last, hafter,
        UInt32.le_trans (h.beyond r List.mem_cons_self tick (heq ▸ hfind)) hle⟩
    · exact ih h.tail (by rw [hlast, IdTable.find?_insert, if_neg heq]; exact hfind)

/-- The clock remembers a tick of each reset that it was told of, and none is beyond it. -/
theorem covers (now : Instant) (h : c.Ahead records) (hr : r ∈ records) :
    ∃ last, (c.after now records).lastTicks.find? r.reset = some last ∧ r.tick ≤ last := by
  induction records generalizing c with
  | nil => cases hr
  | cons first rest ih =>
    rw [after_cons]
    rcases List.mem_cons.1 hr with rfl | hr
    · refine h.tail.grows ?_
      rw [(h.tell now).2, IdTable.find?_insert, if_pos rfl]
    · exact ih h.tail hr

/-- What the clock remembers, it knew before or was told. -/
theorem comes (h : c.Ahead records) {reset : UInt8} {last : UInt32}
    (hfind : (c.after now records).lastTicks.find? reset = some last) :
    c.lastTicks.find? reset = some last ∨ ∃ r ∈ records, r.reset = reset ∧ r.tick = last := by
  induction records generalizing c with
  | nil => exact .inl hfind
  | cons first rest ih =>
    rcases ih h.tail hfind with hold | ⟨r, hr, hreset, htick⟩
    · rw [(h.tell now).2, IdTable.find?_insert] at hold
      split at hold
      · rename_i heq
        exact .inr ⟨first, List.mem_cons_self, heq.symm, Option.some.inj hold⟩
      · exact .inl hold
    · exact .inr ⟨r, List.mem_cons_of_mem _ hr, hreset, htick⟩

theorem of_append {xs ys : List LogRecord} (h : c.Ahead (xs ++ ys)) : c.Ahead xs :=
  ⟨(List.pairwise_append.1 h.ascending).1, fun r hr => h.beyond r (List.mem_append_left _ hr),
    fun r hr => h.unmarked r (List.mem_append_left _ hr)⟩

end Ahead

/-! ## Starting over

The board plays back what it has played back before, followed by what is new.  Marks divide the two
by ticks, so the division is right if no new record has a tick that was marked.
-/

/-- Replays are passed over, and leave no trace. -/
theorem run_of_replays (now : Instant)
    (h : ∀ r ∈ records, c.isReplay r.reset r.tick = true) :
    c.told now records = [] ∧ c.after now records = c := by
  induction records with
  | nil => exact ⟨rfl, rfl⟩
  | cons r rest ih =>
    obtain ⟨htold, hafter⟩ := ih fun r' hr' => h r' (List.mem_cons_of_mem _ hr')
    rw [told, after_cons, tell_of_replay (h r List.mem_cons_self)]
    exact ⟨htold, hafter⟩

/-- **Marks pass over just what was told before them**, if no record behind has the tick of one
before: a clock with the last ticks behind `xs` for its marks is told of `xs ++ ys`, and gives times
to the records of `ys`. -/
theorem told_resumed {c' : TickClock} {later : Instant} {xs ys : List LogRecord}
    (h : c.Ahead (xs ++ ys))
    (hcut : ∀ r ∈ xs, ∀ r' ∈ ys, r.reset = r'.reset → r.tick < r'.tick)
    (hold : ∀ r ∈ ys, ∀ last, c.lastTicks.find? r.reset = some last → last < r.tick)
    (hlast : c'.lastTicks = (c.after now xs).lastTicks)
    (hmarks : c'.marks = (c.after now xs).lastTicks) (hok : c'.tells later (xs ++ ys) = true) :
    (c'.told later (xs ++ ys)).map Prod.fst = ys := by
  have hreplay : ∀ r ∈ xs, c'.isReplay r.reset r.tick = true := by
    intro r hr
    obtain ⟨last, hfind, hle⟩ := h.of_append.covers now hr
    rw [isReplay, hmarks, hfind]
    exact decide_eq_true hle
  have hbehind : ∀ r ∈ ys, ∀ last, c'.lastTicks.find? r.reset = some last → last < r.tick := by
    intro r hr last hfind
    rw [hlast] at hfind
    rcases h.of_append.comes hfind with hknown | ⟨r', hr', hreset, rfl⟩
    · exact hold r hr last hknown
    · exact hcut r' hr' r hr hreset
  have hahead : c'.Ahead ys := by
    refine ⟨(List.pairwise_append.1 h.ascending).2.1,
      fun r hr last hfind => UInt32.le_of_lt (hbehind r hr last hfind), fun r hr => ?_⟩
    rw [isReplay, hmarks]
    split
    · rename_i mark hmark
      exact decide_eq_false (UInt32.not_le.2 (hbehind r hr mark (hlast ▸ hmark)))
    · rfl
  obtain ⟨htold, hafter⟩ := run_of_replays later hreplay
  rw [tells_append, hafter, Bool.and_eq_true] at hok
  rw [told_append, htold, hafter, List.nil_append, hahead.told hok.2]

end SignalRoute.TickClock
