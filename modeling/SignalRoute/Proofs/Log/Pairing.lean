import Mathlib.Data.List.Forall2
import Mathlib.Data.List.Induction
import Mathlib.Data.List.ReduceOption
import SignalRoute.Proofs.Log.Merging

/-!
# A merge queue pairs by position

What a queue has put out after any number of pushes is a matter of counting: the first entries of
all loggers are joined into one, then the second ones, and so on, as far as the logger with the
fewest entries goes.  Whatever else was pushed for a known logger still waits.

`MergeQueue.pairs_by_position` says so for every order of pushes, and when something comes out.

Position is the only thing that pairs entries, so this is also what goes wrong when a logger misses
a sample: from there on its entries are one row ahead of the others, and nothing in the queue can
tell.
-/

set_option autoImplicit false

namespace SignalRoute.MergeQueue

variable {ids : List UInt8} {pushes : List (UInt8 × Stamped)} {j : Nat}

/-! ## What has come out -/

/-- What comes out when entries are pushed one after the other. -/
def emitted (q : MergeQueue) (pushes : List (UInt8 × Stamped)) : List Stamped :=
  (q.pushAll pushes).1.reduceOption

theorem pushAll_concat_snd (q : MergeQueue) (pushes : List (UInt8 × Stamped)) (id : UInt8)
    (entry : Stamped) :
    (q.pushAll (pushes ++ [(id, entry)])).2 = ((q.pushAll pushes).2.push id entry).2 := by
  induction pushes generalizing q with
  | nil => rfl
  | cons p rest ih => exact ih _

/-- All pushes lead to the queue that holds what they leave, and put out what they complete. -/
theorem pushAll_ofIds (hnodup : ids.Nodup) (pushes : List (UInt8 × Stamped)) :
    (ofIds ids).emitted pushes = merged ids pushes ∧
      ((ofIds ids).pushAll pushes).2 = holding ids pushes := by
  induction pushes using List.reverseRecOn with
  | nil =>
    rw [← holding_nil]
    have hnone : fewest ids [] = 0 := by
      by_contra h
      cases ids with
      | nil => exact h rfl
      | cons first rest =>
        exact h (Nat.le_zero.1 (fewest_le (List.mem_cons_self (a := first) (l := rest))))
    refine ⟨?_, rfl⟩
    rw [merged, hnone]
    rfl
  | append_singleton before p ih =>
    obtain ⟨id, e⟩ := p
    obtain ⟨hout, hqueue⟩ := ih
    rw [emitted, pushAll_concat, List.reduceOption_append, pushAll_concat_snd, hqueue,
      push_holding hnodup, merged_concat, ← hout, List.reduceOption_singleton]
    exact ⟨rfl, rfl⟩

/-! ## Rows by position -/

/-- A row has the `j`-th entry of each logger, in the order of the loggers. -/
theorem forall₂_row (h : ∀ id ∈ ids, j < (arrivals id pushes).length) :
    List.Forall₂ (fun id e => (arrivals id pushes)[j]? = some e) ids (row ids pushes j) := by
  induction ids with
  | nil => exact .nil
  | cons first rest ih =>
    obtain ⟨hfirst, hrest⟩ := List.forall_mem_cons.1 h
    have hentry : (arrivals first pushes)[j]? = some (arrivals first pushes)[j] :=
      List.getElem?_eq_getElem hfirst
    have hrow : row (first :: rest) pushes j =
        (arrivals first pushes)[j] :: row rest pushes j := by
      rw [row, List.filterMap_cons, hentry]
      rfl
    rw [hrow]
    exact .cons hentry (ih hrest)

/-- A complete row is joined under the time of its first entry. -/
theorem join_row (hj : j < fewest ids pushes) :
    ∃ first rest,
      List.Forall₂ (fun id e => (arrivals id pushes)[j]? = some e) ids (first :: rest) ∧
        join (row ids pushes j) =
          some ⟨first.time, ((first :: rest).map Stamped.data).flatten⟩ := by
  have hids : ids ≠ [] := by
    rintro rfl
    cases hj
  have hrow := forall₂_row ((lt_fewest_iff hids).1 hj)
  cases hsome : row ids pushes j with
  | nil =>
    rw [hsome, List.forall₂_nil_right_iff] at hrow
    exact absurd hrow hids
  | cons first rest =>
    refine ⟨first, rest, hsome ▸ hrow, ?_⟩
    rw [join, List.flatMap_def]

theorem map_some_merged (ids : List UInt8) (pushes : List (UInt8 × Stamped)) :
    (merged ids pushes).map some =
      (List.range (fewest ids pushes)).map fun j => join (row ids pushes j) := by
  rw [merged, List.map_filterMap, ← List.filterMap_eq_map]
  refine List.filterMap_congr fun j hj => ?_
  obtain ⟨first, rest, -, hjoin⟩ := join_row (List.mem_range.1 hj)
  rw [Function.comp_apply, hjoin]
  rfl

/-- As many rows have come out as are complete. -/
theorem length_merged : (merged ids pushes).length = fewest ids pushes := by
  have hlength := congrArg List.length (map_some_merged ids pushes)
  rwa [List.length_map, List.length_map, List.length_range] at hlength

theorem getElem?_merged (hj : j < fewest ids pushes) :
    (merged ids pushes)[j]? = join (row ids pushes j) := by
  have hentry := congrArg (fun l => l[j]?) (map_some_merged ids pushes)
  rw [List.getElem?_map, List.getElem?_map, List.getElem?_range hj, Option.map_some] at hentry
  obtain ⟨e, he, heq⟩ := Option.map_eq_some_iff.1 hentry
  rw [he, heq]

/-! ## What waits -/

/-- The entries of different loggers, all together. -/
theorem sumCounts_arrivals (hnodup : ids.Nodup) :
    sumCounts (ids.map fun id => (arrivals id pushes).length) =
      pushes.countP fun p => p.1 ∈ ids := by
  induction ids with
  | nil => simp [sumCounts]
  | cons first rest ih =>
    obtain ⟨hfirst, hrest⟩ := List.nodup_cons.1 hnodup
    have hcount : (arrivals first pushes).length = pushes.countP fun p => p.1 == first := by
      rw [arrivals, List.length_map, List.countP_eq_length_filter]
    rw [List.map_cons, sumCounts, ih hrest, hcount]
    -- an entry is the first logger's or another's, never both
    clear ih hcount
    induction pushes with
    | nil => rfl
    | cons p others ih =>
      have hp : p.1 = first → p.1 ∉ rest := fun h => h ▸ hfirst
      simp only [List.countP_cons, List.mem_cons, beq_iff_eq, decide_eq_true_eq] at ih ⊢
      grind

/-- What waits is what was pushed less what has come out. -/
theorem pending_holding (hnodup : ids.Nodup) :
    (holding ids pushes).pending + ids.length * fewest ids pushes =
      pushes.countP fun p => p.1 ∈ ids := by
  rw [← sumCounts_arrivals hnodup, holding, pending, lanesFrom, List.map_map]
  have hle : ∀ id ∈ ids, fewest ids pushes ≤ (arrivals id pushes).length := fun _ => fewest_le
  generalize fewest ids pushes = k at hle
  clear hnodup
  induction ids with
  | nil => simp [sumCounts]
  | cons first rest ih =>
    obtain ⟨hfirst, hrest⟩ := List.forall_mem_cons.1 hle
    have hothers := ih hrest
    simp only [List.map_cons, sumCounts, List.length_cons, Function.comp_apply,
      List.length_drop, Nat.succ_mul] at hothers ⊢
    omega

/-! ## Pairing -/

/-- **A queue pairs entries by their position.**  Push any entries into an empty queue, in any
order, those of unknown loggers included.  Then as many values have come out as every logger has
entries; the `j`-th of them has the bytes of the `j`-th entry of each logger, in the order of the
loggers, and the time of the first logger's.  One more push puts something out just if it makes the
smallest number of entries grow, and does nothing at all if its logger is unknown.  What waits is
what known loggers have pushed, less one entry each for every value that has come out. -/
theorem pairs_by_position (hnodup : ids.Nodup) (pushes : List (UInt8 × Stamped)) :
    ((ofIds ids).emitted pushes).length = fewest ids pushes ∧
      (∀ j < fewest ids pushes, ∃ first rest,
        List.Forall₂ (fun id e => (arrivals id pushes)[j]? = some e) ids (first :: rest) ∧
          ((ofIds ids).emitted pushes)[j]? =
            some ⟨first.time, ((first :: rest).map Stamped.data).flatten⟩) ∧
      (∀ id e, (((ofIds ids).pushAll pushes).2.push id e).1.isSome = true ↔
        fewest ids pushes < fewest ids (pushes ++ [(id, e)])) ∧
      (∀ id ∉ ids, ∀ e, ((ofIds ids).pushAll pushes).2.push id e =
        (none, ((ofIds ids).pushAll pushes).2)) ∧
      ((ofIds ids).pushAll pushes).2.pending + ids.length * ((ofIds ids).emitted pushes).length =
        pushes.countP fun p => p.1 ∈ ids := by
  obtain ⟨hout, hqueue⟩ := pushAll_ofIds hnodup pushes
  rw [hout, hqueue, length_merged]
  refine ⟨rfl, fun j hj => ?_, fun id e => ?_, fun id hid e => ?_, pending_holding hnodup⟩
  · obtain ⟨first, rest, hrow, hjoin⟩ := join_row hj
    exact ⟨first, rest, hrow, by rw [getElem?_merged hj, hjoin]⟩
  · rw [push_holding hnodup]
    by_cases hgrows : fewest ids pushes < fewest ids (pushes ++ [(id, e)])
    · -- the new row is complete, so it is joined into something
      obtain ⟨first, rest, -, hjoin⟩ := join_row hgrows
      simp [hgrows, hjoin]
    · simp [hgrows]
  · rw [push_holding hnodup, fewest_concat_of_not_mem hid, if_neg (Nat.lt_irrefl _),
      holding_concat_of_not_mem hid]

/-- Three loggers, the third of which is ahead of the others, and an entry of a fourth one. -/
def skewed : List (UInt8 × Stamped) :=
  [(2, ⟨20, [9]⟩), (2, ⟨30, [8]⟩), (7, ⟨40, [0]⟩), (1, ⟨50, [5]⟩), (0, ⟨60, [1]⟩), (1, ⟨70, [6]⟩)]

theorem pairs_by_position_skewed :
    ([0, 1, 2] : List UInt8).Nodup ∧
      ((ofIds [0, 1, 2]).emitted skewed)[0]? = some ⟨60, [1, 5, 9]⟩ ∧
      ((ofIds [0, 1, 2]).pushAll skewed).2.pending = 2 ∧
      ∀ e, (((ofIds [0, 1, 2]).pushAll skewed).2.push 0 e).1.isSome = true ∧
        (((ofIds [0, 1, 2]).pushAll skewed).2.push 1 e).1.isSome = false := by
  have hids : ([0, 1, 2] : List UInt8).Nodup := by decide
  have hone : fewest [0, 1, 2] skewed = 1 := by decide
  have htwo (e : Stamped) : fewest [0, 1, 2] (skewed ++ [(0, e)]) = 2 := rfl
  have hstill (e : Stamped) : fewest [0, 1, 2] (skewed ++ [(1, e)]) = 1 := rfl
  obtain ⟨hcount, hrows, hgrows, -, hpending⟩ := pairs_by_position hids skewed
  obtain ⟨first, rest, hrow, hout⟩ := hrows 0 (by decide)
  have hknown : (skewed.countP fun p => p.1 ∈ ([0, 1, 2] : List UInt8)) = 5 := by decide
  rw [hcount, hone, hknown, List.length_cons, List.length_cons, List.length_singleton] at hpending
  refine ⟨hids, ?_, by omega, fun e => ⟨?_, ?_⟩⟩
  · rw [hout]
    rcases hrow with _ | ⟨h₀, _ | ⟨h₁, _ | ⟨h₂, _ | _⟩⟩⟩
    cases h₀
    cases h₁
    cases h₂
    rfl
  · rw [hgrows, hone, htwo]
    decide
  · rw [Bool.eq_false_iff, Ne, hgrows, hone, hstill]
    decide

end SignalRoute.MergeQueue
