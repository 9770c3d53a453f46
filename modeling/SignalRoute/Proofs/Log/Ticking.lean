import Mathlib.Data.List.Chain
import Mathlib.Data.List.Induction
import Mathlib.Tactic.Ring
import SignalRoute.Proofs.Log.Stamping

/-!
# How times go on

A clock knows for each reset a reference and the last tick, and with these the time that it gave
last (`TickClock.lastTime?`).  A tick that is not smaller than the last one is counted from the
reference, and a smaller one moves the reference on to itself (`TickClock.Stamps`).

* `TickClock.given_ascending`: the times of one reset never run backwards, however the counter goes
  round and whatever other resets do in between.  All that this needs of the span of ticks is that
  it grows with them.
* `TickClock.times_apart`: if a tick takes a whole number of microseconds, two times in a row lie
  apart by just the ticks that passed.  There is one exception: the first tick that is smaller than
  the one before it, if that lies before the reference.  Then the counter is taken to have gone
  round once more than it did (`TickClock.not_apart_beforeReference`).

The span of ticks is any that grows in the first theorem, and a linear one in the second.  What a
float makes of some ticks is rounded to microseconds, so it is linear only up to rounding, and so
are the distances between the times of a board whose tick is no whole number of microseconds.
-/

set_option autoImplicit false

namespace SignalRoute.TickClock

/-! ## Distances between ticks -/

/-- The ticks from one to another, less than none if the other is smaller. -/
def distance (start stop : UInt32) : Int64 := Int64.ofNat stop.toNat - Int64.ofNat start.toNat

theorem toInt_distance (start stop : UInt32) :
    (distance start stop).toInt = stop.toNat - start.toNat := by
  have := start.toNat_lt
  have := stop.toNat_lt
  rw [distance, Int64.toInt_sub, Int64.toInt_ofNat_of_lt (by omega),
    Int64.toInt_ofNat_of_lt (by omega)]
  exact Int.bmod_eq_of_le (by omega) (by omega)

theorem toInt_rewound (r : TimeReference) (last tick : UInt32) :
    (rewound r last tick).toInt = (tick - last).toNat + (last - r.tick).toNat := by
  generalize hx : tick - last = x
  generalize hy : last - r.tick = y
  have := x.toNat_lt
  have := y.toNat_lt
  have hsum : (x.toUInt64 + y.toUInt64).toNat = x.toNat + y.toNat := by
    rw [UInt64.toNat_add, UInt32.toNat_toUInt64, UInt32.toNat_toUInt64, Nat.mod_eq_of_lt (by omega)]
  have hsmall : 2 * (x.toUInt64 + y.toUInt64).toBitVec.toNat < 2 ^ 64 := by
    show 2 * (x.toUInt64 + y.toUInt64).toNat < 2 ^ 64
    omega
  rw [rewound, hx, hy]
  show (x.toUInt64 + y.toUInt64).toBitVec.toInt = _
  rw [BitVec.toInt_eq_toNat_of_lt hsmall, ← Int.natCast_add, ← hsum]
  rfl

/-- The ticks that pass until a counter of 32 bits goes from one value to another. -/
theorem toNat_sub_eq (start stop : UInt32) :
    ((stop - start).toNat : Int) =
      stop.toNat - start.toNat + if stop < start then 2 ^ 32 else 0 := by
  have hstart := start.toNat_lt
  have hstop := stop.toNat_lt
  rw [UInt32.toNat_sub]
  split
  · rename_i hlt
    rw [UInt32.lt_iff_toNat_lt] at hlt
    omega
  · rename_i hge
    rw [UInt32.lt_iff_toNat_lt] at hge
    omega

/-! ## One tick

`TickClock.Stamps` says what the clock does to one tick, with its three cases as constructors:
passed over, counted on, or gone round.  Everything below is a case analysis over it, and the
definition of `stamp` is not opened again.
-/

variable {c c' : TickClock} {now t : Instant} {reset : UInt8} {tick : UInt32}

/-- The time of a tick, counted from a reference. -/
def countedFrom (c : TickClock) (r : TimeReference) (tick : UInt32) : Instant :=
  r.time + c.span (distance r.tick tick)

/-- The time of a tick behind `last`, with the counter gone round in between. -/
def turnedFrom (c : TickClock) (r : TimeReference) (last tick : UInt32) : Instant :=
  r.time + c.span (rewound r last tick)

/-- What a clock does about one tick. -/
inductive Stamps (c : TickClock) (now : Instant) (reset : UInt8) (tick : UInt32) :
    Option Instant × TickClock → Prop
  /-- It was delivered before. -/
  | skipped (h : c.isReplay reset tick = true) : Stamps c now reset tick (none, c)
  /-- The counter has gone on. -/
  | counted (hlast : ∀ last, c.lastTicks.find? reset = some last → last ≤ tick) :
      Stamps c now reset tick (some (c.countedFrom (c.basis now reset tick) tick),
        { c with
          lastTicks := c.lastTicks.insert reset tick
          references := c.references.insert reset (c.basis now reset tick) })
  /-- The counter has gone round. -/
  | turned {last : UInt32} (hlast : c.lastTicks.find? reset = some last) (hturn : tick < last) :
      Stamps c now reset tick (some (c.turnedFrom (c.basis now reset tick) last tick),
        { c with
          lastTicks := c.lastTicks.insert reset tick
          references := c.references.insert reset ⟨(c.basis now reset tick).reset, tick,
            c.turnedFrom (c.basis now reset tick) last tick⟩
          marks := c.marks.modify reset fun _ => tick })

theorem stamps (c : TickClock) (now : Instant) (reset : UInt8) (tick : UInt32) :
    c.Stamps now reset tick (c.stamp now reset tick) := by
  rw [stamp]
  split
  · rename_i hreplay
    exact .skipped hreplay
  · dsimp only
    split
    · rename_i last hlast
      split
      · rename_i hturn
        exact .turned hlast hturn
      · rename_i hturn
        refine .counted fun last' hlast' => ?_
        rw [hlast] at hlast'
        exact Option.some.inj hlast' ▸ UInt32.not_lt.1 hturn
    · rename_i hnone
      refine .counted fun last hlast => ?_
      rw [hnone] at hlast
      cases hlast

/-! ## The time that was given last -/

/-- The time that a clock gave last for a reset. -/
def lastTime? (c : TickClock) (reset : UInt8) : Option Instant :=
  match c.lastTicks.find? reset, c.references.find? reset with
  | some last, some r => some (c.countedFrom r last)
  | _, _ => none

theorem lastTime?_eq_some {s : Instant} (h : c.lastTime? reset = some s) :
    ∃ last r, c.lastTicks.find? reset = some last ∧ c.references.find? reset = some r ∧
      s = c.countedFrom r last := by
  rw [lastTime?] at h
  split at h
  · rename_i last r hlast hr
    exact ⟨last, r, hlast, hr, (Option.some.inj h).symm⟩
  · cases h

theorem basis_of_find? (now : Instant) (tick : UInt32) {r : TimeReference}
    (h : c.references.find? reset = some r) :
    c.basis now reset tick = r := by
  rw [basis, h]

/-- A time that is given is the last one, and other resets keep theirs. -/
theorem lastTime?_stamp (hzero : c.span 0 = 0) (h : c.Stamps now reset tick (some t, c')) :
    c'.lastTime? reset = some t ∧ ∀ other, other ≠ reset → c'.lastTime? other = c.lastTime? other := by
  cases h with
  | counted hlast =>
    refine ⟨?_, fun other hother => ?_⟩
    · simp only [lastTime?, IdTable.find?_insert, if_pos]
      rfl
    · simp only [lastTime?, IdTable.find?_insert, if_neg hother]
      rfl
  | turned hlast hturn =>
    refine ⟨?_, fun other hother => ?_⟩
    · have hsame : distance tick tick = 0 := Int64.sub_self _
      simp only [lastTime?, IdTable.find?_insert, if_pos, countedFrom, hsame, hzero, Int.add_zero]
    · simp only [lastTime?, IdTable.find?_insert, if_neg hother]
      rfl

/-- **No time lies before the last one of its reset.** -/
theorem le_of_stamps (hspan : ∀ m n, m ≤ n → c.span m ≤ c.span n) {s : Instant}
    (hs : c.lastTime? reset = some s) (h : c.Stamps now reset tick (some t, c')) : s ≤ t := by
  obtain ⟨last, r, hlast, hr, rfl⟩ := lastTime?_eq_some hs
  have hbasis := basis_of_find? now tick hr
  cases h with
  | counted hge =>
    rw [hbasis]
    refine Int.add_le_add_left (hspan _ _ ?_) _
    have hle := UInt32.le_iff_toNat_le.1 (hge last hlast)
    rw [Int64.le_iff_toInt_le, toInt_distance, toInt_distance]
    omega
  | turned hlast' hturn =>
    rw [hlast] at hlast'
    cases hlast'
    rw [hbasis]
    refine Int.add_le_add_left (hspan _ _ ?_) _
    have hdistance := toNat_sub_eq r.tick last
    rw [Int64.le_iff_toInt_le, toInt_distance, toInt_rewound, hdistance]
    split <;> omega

/-! ## Many ticks -/

/-- A tick of which a clock is asked the time, and the time of day at which it is. -/
structure Query where
  now : Instant
  reset : UInt8
  tick : UInt32

/-- The queries that are answered with a time, with this time. -/
def given : TickClock → List Query → List (Query × Instant)
  | _, [] => []
  | c, q :: rest =>
    ((c.stamp q.now q.reset q.tick).1.map fun t => (q, t)).toList ++
      given (c.stamp q.now q.reset q.tick).2 rest

theorem span_stamp (c : TickClock) (now : Instant) (reset : UInt8) (tick : UInt32) :
    (c.stamp now reset tick).2.span = c.span := by
  cases h : c.stamp now reset tick with
  | mk outcome after =>
    have hstamps := h ▸ c.stamps now reset tick
    cases hstamps <;> rfl

/-- No time of a reset lies before the one that was given for it last. -/
theorem le_of_mem_given (hspan : ∀ m n, m ≤ n → c.span m ≤ c.span n) (hzero : c.span 0 = 0)
    {queries : List Query} {x : Query × Instant} (hx : x ∈ c.given queries) {s : Instant}
    (hs : c.lastTime? x.1.reset = some s) : s ≤ x.2 := by
  induction queries generalizing c s with
  | nil => cases hx
  | cons q rest ih =>
    have hstamps := c.stamps q.now q.reset q.tick
    have hkept := c.span_stamp q.now q.reset q.tick
    rw [given] at hx
    generalize c.stamp q.now q.reset q.tick = answer at hstamps hkept hx
    obtain ⟨outcome, after⟩ := answer
    have ih := ih (c := after) (hkept ▸ hspan) (hkept ▸ hzero)
    cases outcome with
    | none =>
      cases hstamps
      exact ih hx hs
    | some t =>
      obtain ⟨hlast, hothers⟩ := lastTime?_stamp hzero hstamps
      rcases List.mem_cons.1 hx with rfl | hx
      · exact le_of_stamps hspan hs hstamps
      · by_cases hreset : x.1.reset = q.reset
        · rw [hreset] at hs
          exact Int.le_trans (le_of_stamps hspan hs hstamps) (ih hx (hreset ▸ hlast))
        · exact ih hx ((hothers _ hreset).trans hs)

/-- **Times never run backwards.**  Ask a clock about any ticks of any resets, in any order, with
whatever it knows beforehand: the times that it gives for one reset ascend, if the span of some
ticks is no smaller than that of fewer. -/
theorem given_ascending (hspan : ∀ m n, m ≤ n → c.span m ≤ c.span n) (hzero : c.span 0 = 0)
    (queries : List Query) :
    (c.given queries).Pairwise fun x y => x.1.reset = y.1.reset → x.2 ≤ y.2 := by
  induction queries generalizing c with
  | nil => exact .nil
  | cons q rest ih =>
    have hstamps := c.stamps q.now q.reset q.tick
    have hkept := c.span_stamp q.now q.reset q.tick
    rw [given]
    generalize c.stamp q.now q.reset q.tick = answer at hstamps hkept
    obtain ⟨outcome, after⟩ := answer
    have hspan' := hkept ▸ hspan
    have hzero' := hkept ▸ hzero
    cases outcome with
    | none => exact ih hspan' hzero'
    | some t =>
      refine List.pairwise_cons.2 ⟨fun y hy hreset => ?_, ih hspan' hzero'⟩
      have hlast := (lastTime?_stamp hzero hstamps).1
      exact le_of_mem_given hspan' hzero' hy (hreset ▸ hlast)

/-- Microseconds of whole milliseconds. -/
def wholeSpan (ticks : Int64) : Int := ticks.toInt * 1000

/-- A clock that was told the time of tick 1000 in reset 0, and has delivered ticks up to 200. -/
def told1000 : TickClock :=
  { start 1 with
    span := wholeSpan
    references := IdTable.empty.insert 0 ⟨0, 1000, 0⟩
    latest := some 0
    marks := IdTable.empty.insert 0 200 }

/-- The counters of two resets go round, one of which has no reference of its own.  Ticks up to a mark
are passed over. -/
def mixedQueries : List Query :=
  [⟨0, 0, 150⟩, ⟨0, 0, 500⟩, ⟨0, 3, 40⟩, ⟨0, 0, 400⟩, ⟨0, 3, 30⟩, ⟨0, 0, 300⟩, ⟨0, 0, 4000⟩]

theorem given_ascending_mixed :
    (∀ m n, m ≤ n → told1000.span m ≤ told1000.span n) ∧ told1000.span 0 = 0 ∧
      (told1000.given mixedQueries).length = 5 ∧
      (told1000.given mixedQueries).Pairwise fun x y => x.1.reset = y.1.reset → x.2 ≤ y.2 := by
  have hspan (m n : Int64) (h : m ≤ n) : told1000.span m ≤ told1000.span n :=
    Int.mul_le_mul_of_nonneg_right (Int64.le_iff_toInt_le.1 h) (by decide)
  exact ⟨hspan, rfl, by decide, given_ascending hspan rfl mixedQueries⟩

/-! ## Two times in a row -/

/-- The clock behind some ticks of one reset, each with the time of day. -/
def behind (c : TickClock) (reset : UInt8) (asked : List (Instant × UInt32)) : TickClock :=
  asked.foldl (fun c a => (c.stamp a.1 reset a.2).2) c

theorem behind_concat (c : TickClock) (reset : UInt8) (asked : List (Instant × UInt32))
    (now : Instant) (tick : UInt32) :
    c.behind reset (asked ++ [(now, tick)]) = ((c.behind reset asked).stamp now reset tick).2 :=
  List.foldl_append

/-- The last tick of a reset that a clock knows, if it knows one, and some more. -/
def seen (c : TickClock) (reset : UInt8) (ticks : List UInt32) : List UInt32 :=
  (c.lastTicks.find? reset).toList ++ ticks

/-- The clock `c` has been asked about `ticks` of a reset, from the reference `r` on, and is now
`c'`: the reference is still `r` if the ticks went on and on, else it lies no later than the last
tick. -/
structure Follows (c : TickClock) (r : TimeReference) (reset : UInt8) (ticks : List UInt32)
    (c' : TickClock) : Prop where
  unmarked : c'.marks = .empty
  span : c'.span = c.span
  last : c'.lastTicks.find? reset = (c.seen reset ticks).getLast?
  reference : ∃ r', c'.references.find? reset = some r' ∧
    ((c.seen reset ticks).IsChain (· ≤ ·) ∧ r' = r ∨
      ¬(c.seen reset ticks).IsChain (· ≤ ·) ∧
        ∃ last, (c.seen reset ticks).getLast? = some last ∧ r'.tick ≤ last)

namespace Follows

variable {r : TimeReference} {ticks : List UInt32}

theorem start (hunmarked : c.marks = .empty) (hr : c.references.find? reset = some r) :
    c.Follows r reset [] c where
  unmarked := hunmarked
  span := rfl
  last := by
    rw [seen, List.append_nil]
    cases c.lastTicks.find? reset <;> rfl
  reference := by
    refine ⟨r, hr, .inl ⟨?_, rfl⟩⟩
    rw [seen, List.append_nil]
    cases c.lastTicks.find? reset with
    | none => exact .nil
    | some last => exact .singleton last

theorem seen_concat (ticks : List UInt32) (tick : UInt32) :
    c.seen reset (ticks ++ [tick]) = c.seen reset ticks ++ [tick] :=
  (List.append_assoc ..).symm

/-- One more tick goes on from the others if it is not smaller than the last of them. -/
theorem isChain_seen_concat (h : c.Follows r reset ticks c') (tick : UInt32) :
    (c.seen reset (ticks ++ [tick])).IsChain (· ≤ ·) ↔
      (c.seen reset ticks).IsChain (· ≤ ·) ∧
        ∀ last, c'.lastTicks.find? reset = some last → last ≤ tick := by
  rw [seen_concat, List.isChain_append, h.last]
  simp

/-- A clock that is asked about one more tick follows still. -/
theorem stamp (h : c.Follows r reset ticks c') (now : Instant) (tick : UInt32) :
    c.Follows r reset (ticks ++ [tick]) (c'.stamp now reset tick).2 := by
  have hchain := h.isChain_seen_concat tick
  obtain ⟨r', hr', hreference⟩ := h.reference
  have hbasis := basis_of_find? now tick hr'
  have hgetLast : (c.seen reset (ticks ++ [tick])).getLast? = some tick := by
    rw [seen_concat, List.getLast?_concat]
  have hstamps := c'.stamps now reset tick
  generalize c'.stamp now reset tick = answer at hstamps
  cases hstamps with
  | skipped hreplay =>
    rw [isReplay_of_unmarked h.unmarked] at hreplay
    cases hreplay
  | counted hgoes =>
    refine ⟨h.unmarked, h.span, ?_, c'.basis now reset tick, ?_, ?_⟩
    · rw [IdTable.find?_insert, if_pos rfl, hgetLast]
    · rw [IdTable.find?_insert, if_pos rfl]
    · rw [hbasis, hchain, hgetLast]
      rcases hreference with ⟨hascending, rfl⟩ | ⟨hnot, last, hlast, hle⟩
      · exact .inl ⟨⟨hascending, hgoes⟩, rfl⟩
      · exact .inr ⟨fun hboth => hnot hboth.1, tick, rfl,
          UInt32.le_trans hle (hgoes last (h.last.trans hlast))⟩
  | turned hlast hturn =>
    refine ⟨?_, h.span, ?_, _, (IdTable.find?_insert ..).trans (if_pos rfl),
      .inr ⟨?_, tick, hgetLast, UInt32.le_refl tick⟩⟩
    · exact congrArg (fun marks => marks.modify reset fun _ => tick) h.unmarked
    · rw [IdTable.find?_insert, if_pos rfl, hgetLast]
    · rw [hchain]
      exact fun hboth => UInt32.not_le.2 hturn (hboth.2 _ hlast)

end Follows

/-- Clocks follow what they are asked about. -/
theorem follows_behind {r : TimeReference} (hunmarked : c.marks = .empty)
    (hr : c.references.find? reset = some r) (asked : List (Instant × UInt32)) :
    c.Follows r reset (asked.map Prod.snd) (c.behind reset asked) := by
  induction asked using List.reverseRecOn with
  | nil => exact .start hunmarked hr
  | append_singleton before a ih =>
    rw [behind_concat, List.map_append]
    exact ih.stamp a.1 a.2

/-- Without marks every tick is given a time. -/
theorem exists_stamps (hunmarked : c.marks = .empty) (now : Instant) (reset : UInt8)
    (tick : UInt32) : ∃ t c', c.stamp now reset tick = (some t, c') := by
  have hstamps := c.stamps now reset tick
  generalize c.stamp now reset tick = answer at hstamps
  cases hstamps with
  | skipped hreplay =>
    rw [isReplay_of_unmarked hunmarked] at hreplay
    cases hreplay
  | counted hlast => exact ⟨_, _, rfl⟩
  | turned hlast hturn => exact ⟨_, _, rfl⟩

/-- How far a time lies from the one before.  A smaller tick is counted from the reference by way of
the last tick, and the way from the reference to that one is taken to be a way forward. -/
theorem apart_of_stamps {d : Int} (hspan : ∀ n, c.span n = n.toInt * d) {r : TimeReference}
    (hr : c.references.find? reset = some r) {last : UInt32}
    (hlast : c.lastTicks.find? reset = some last) (h : c.Stamps now reset tick (some t, c')) :
    t - c.countedFrom r last =
      ((tick - last).toNat + if tick < last ∧ last < r.tick then 2 ^ 32 else 0) * d := by
  have hbasis := basis_of_find? now tick hr
  cases h with
  | counted hge =>
    have hgoes : ¬tick < last := UInt32.not_lt.2 (hge last hlast)
    have hpassed := toNat_sub_eq last tick
    rw [if_neg hgoes] at hpassed
    rw [hbasis, if_neg fun hboth => hgoes hboth.1, countedFrom, countedFrom, hspan, hspan,
      toInt_distance, toInt_distance, hpassed]
    ring
  | turned hlast' hturn =>
    rw [hlast] at hlast'
    cases hlast'
    have hback := toNat_sub_eq r.tick last
    rw [hbasis, turnedFrom, countedFrom, hspan, hspan, toInt_distance, toInt_rewound, hback]
    by_cases hbefore : last < r.tick
    · rw [if_pos hbefore, if_pos ⟨hturn, hbefore⟩]
      ring
    · rw [if_neg hbefore, if_neg fun hboth => hbefore hboth.2]
      ring

/-- Does the counter go round between `a` and `b` for the first time, and is the reference taken
later than at `a`? -/
def TurnsEarly (c : TickClock) (r : TimeReference) (reset : UInt8) (ticks : List UInt32)
    (a b : UInt32) : Prop :=
  b < a ∧ a < r.tick ∧ (c.seen reset (ticks ++ [a])).IsChain (· ≤ ·)

/-- How far a time lies from the one before, by what the clock was asked so far. -/
theorem Follows.apart {d : Int} (hspan : ∀ n, c.span n = n.toInt * d) {r : TimeReference}
    {ticks : List UInt32} {a b : UInt32} (h : c.Follows r reset (ticks ++ [a]) c') {s : Instant}
    (hs : c'.lastTime? reset = some s) {later : Instant} {c'' : TickClock}
    (ht : c'.Stamps later reset b (some t, c'')) :
    (c.TurnsEarly r reset ticks a b → t - s = ((b - a).toNat + 2 ^ 32) * d) ∧
      (¬c.TurnsEarly r reset ticks a b → t - s = (b - a).toNat * d) := by
  have hgetLast : (c.seen reset (ticks ++ [a])).getLast? = some a := by
    rw [seen_concat, List.getLast?_concat]
  obtain ⟨last, r', hlast, hr', rfl⟩ := lastTime?_eq_some hs
  obtain rfl : a = last := Option.some.inj (hgetLast.symm.trans (h.last.symm.trans hlast))
  obtain ⟨r₁, hr₁, hreference⟩ := h.reference
  obtain rfl : r₁ = r' := Option.some.inj (hr₁.symm.trans hr')
  have hapart := apart_of_stamps (d := d) (fun n => by rw [h.span, hspan]) hr' hlast ht
  constructor
  · rintro ⟨hturn, hbefore, hchain⟩
    rcases hreference with ⟨-, rfl⟩ | ⟨hnot, -⟩
    · rwa [if_pos ⟨hturn, hbefore⟩] at hapart
    · exact absurd hchain hnot
  · intro hearly
    have hbehind : ¬(b < a ∧ a < r₁.tick) := by
      rintro ⟨hturn, hbefore⟩
      rcases hreference with ⟨hchain, rfl⟩ | ⟨-, last, hlast', hle⟩
      · exact hearly ⟨hturn, hbefore, hchain⟩
      · -- once the counter has gone round, the reference never lies ahead
        obtain rfl : a = last := Option.some.inj (hgetLast.symm.trans hlast')
        exact UInt32.not_le.2 hbefore hle
    rwa [if_neg hbehind, Int.add_zero] at hapart

/-- **Two times in a row lie apart by the ticks that passed**, if each takes `d` microseconds.  Ask a
clock without marks, which has the reference `r` for a reset, about any ticks of this reset, and then
about `a` and `b`.  Both are given a time, and the times lie as many ticks apart as a counter of 32
bits takes from `a` to `b`.  The exception is where the counter goes round for the first time and `a`
lies before the reference: then there is one round of the counter too many in between. -/
theorem times_apart {d : Int} (hspan : ∀ n, c.span n = n.toInt * d) (hunmarked : c.marks = .empty)
    {r : TimeReference} (hr : c.references.find? reset = some r)
    (before : List (Instant × UInt32)) (now later : Instant) (a b : UInt32) :
    ∃ s t, ((c.behind reset before).stamp now reset a).1 = some s ∧
      ((c.behind reset (before ++ [(now, a)])).stamp later reset b).1 = some t ∧
      (c.TurnsEarly r reset (before.map Prod.snd) a b →
        t - s = ((b - a).toNat + 2 ^ 32) * d) ∧
      (¬c.TurnsEarly r reset (before.map Prod.snd) a b → t - s = (b - a).toNat * d) := by
  have hfollows := follows_behind hunmarked hr before
  have hnext := hfollows.stamp now a
  obtain ⟨s, c₁, hs⟩ := exists_stamps hfollows.unmarked now reset a
  have hstamps := (c.behind reset before).stamps now reset a
  rw [behind_concat]
  rw [hs] at hnext hstamps ⊢
  obtain ⟨t, c₂, ht⟩ := exists_stamps hnext.unmarked later reset b
  have hzero : (c.behind reset before).span 0 = 0 := by
    rw [hfollows.span, hspan]
    exact Int.zero_mul d
  exact ⟨s, t, rfl, congrArg Prod.fst ht,
    hnext.apart hspan (lastTime?_stamp hzero hstamps).1 (ht ▸ c₁.stamps later reset b)⟩

/-- A clock whose reference lies shortly before the counter goes round. -/
def wrapping : TickClock :=
  { start 1 with
    span := wholeSpan
    references := IdTable.empty.insert 0 ⟨0, 4294967195, 0⟩
    latest := some 0 }

/-- The counter goes round behind the reference. -/
theorem times_apart_wrapping :
    wrapping.marks = .empty ∧ wrapping.references.find? 0 = some ⟨0, 4294967195, 0⟩ ∧
      ∃ s t, ((wrapping.behind 0 [(0, 4294967250)]).stamp 0 0 4294967285).1 = some s ∧
        ((wrapping.behind 0 ([(0, 4294967250)] ++ [(0, 4294967285)])).stamp 0 0 5).1 = some t ∧
        t - s = 16 * 1000 := by
  obtain ⟨s, t, hs, ht, -, hexact⟩ := times_apart (d := 1000) (fun _ => rfl) rfl
    (show wrapping.references.find? 0 = some _ from rfl) [(0, 4294967250)] 0 0 4294967285 5
  exact ⟨rfl, rfl, s, t, hs, ht, hexact fun hearly => absurd hearly.2.1 (by decide)⟩

/-- **From a tick before the reference to a smaller one there is a round too many**: 4294967196 ticks
pass from tick 500 to tick 400, and the clock counts 8589934492. -/
theorem not_apart_beforeReference :
    (∀ n, told1000.clearRollback.span n = n.toInt * 1000) ∧
      told1000.clearRollback.marks = .empty ∧
      told1000.clearRollback.references.find? 0 = some ⟨0, 1000, 0⟩ ∧
      ∃ s t, ((told1000.clearRollback.behind 0 []).stamp 0 0 500).1 = some s ∧
        ((told1000.clearRollback.behind 0 [(0, 500)]).stamp 0 0 400).1 = some t ∧
        t - s = 8589934492 * 1000 ∧ ((400 : UInt32) - 500).toNat = 4294967196 :=
  ⟨fun _ => rfl, rfl, rfl, -500000, 8589933992000, by decide, by decide, by decide, by decide⟩

end SignalRoute.TickClock
