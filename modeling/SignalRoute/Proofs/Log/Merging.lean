import Mathlib.Data.List.Nodup
import SignalRoute.Log.MergeQueue

/-!
# What a merge queue makes of its entries

The entries of a signal's loggers come in any order.  What becomes of them depends only on the order
in which the entries of each single logger come (`arrivals`): the `j`-th entries of all loggers are
the `j`-th `row`, and as many rows are complete as the logger with the `fewest` entries has sent.

* `MergeQueue.holding` is the queue behind some entries: each lane has what is left of its logger's
  entries when the complete rows are taken out.
* `MergeQueue.push_holding`: one more entry leads from one such queue to the next, and what comes
  out is the row that the entry completes, if it completes one.
* `MergeQueue.merged_concat`: all rows that have come out are thus `merged`, the complete rows in
  their order.
* `MergeQueue.pushAll_once`: of one entry of each logger, the last one brings out all the bytes.

The queue of the program is a state that is pushed along; `holding` and `merged` are functions of
everything that was pushed.  All questions about order are easier to ask of the latter, since the
order in which different loggers report does not occur in them at all.
-/

set_option autoImplicit false

namespace SignalRoute.MergeQueue

/-! ## Rows -/

/-- The entries of one logger, in their order. -/
def arrivals (id : UInt8) (pushes : List (UInt8 × Stamped)) : List Stamped :=
  (pushes.filter fun p => p.1 == id).map Prod.snd

/-- How many entries the logger with the fewest has; none, if there are no loggers. -/
def fewest (ids : List UInt8) (pushes : List (UInt8 × Stamped)) : Nat :=
  ((ids.map fun id => (arrivals id pushes).length).min?).getD 0

/-- The `j`-th entry of each logger. -/
def row (ids : List UInt8) (pushes : List (UInt8 × Stamped)) (j : Nat) : List Stamped :=
  ids.filterMap fun id => (arrivals id pushes)[j]?

/-- The complete rows, each joined into one. -/
def merged (ids : List UInt8) (pushes : List (UInt8 × Stamped)) : List Stamped :=
  (List.range (fewest ids pushes)).filterMap fun j => join (row ids pushes j)

variable {ids : List UInt8} {pushes : List (UInt8 × Stamped)} {id : UInt8} {e : Stamped} {j k : Nat}

theorem arrivals_concat (other : UInt8) :
    arrivals other (pushes ++ [(id, e)]) =
      if other = id then arrivals other pushes ++ [e] else arrivals other pushes := by
  by_cases h : other = id
  · simp [arrivals, h]
  · simp [arrivals, h, Ne.symm h]

theorem arrivals_concat_self : arrivals id (pushes ++ [(id, e)]) = arrivals id pushes ++ [e] := by
  rw [arrivals_concat, if_pos rfl]

theorem length_arrivals_le (other : UInt8) (pushes : List (UInt8 × Stamped)) (id : UInt8)
    (e : Stamped) :
    (arrivals other pushes).length ≤ (arrivals other (pushes ++ [(id, e)])).length ∧
      (arrivals other (pushes ++ [(id, e)])).length ≤ (arrivals other pushes).length + 1 := by
  rw [arrivals_concat]
  split <;> simp

/-- The number of complete rows is the largest that no logger falls short of. -/
theorem lt_fewest_iff (hids : ids ≠ []) :
    k < fewest ids pushes ↔ ∀ id ∈ ids, k < (arrivals id pushes).length := by
  obtain ⟨m, hm⟩ : ∃ m, (ids.map fun id => (arrivals id pushes).length).min? = some m := by
    rw [← Option.isSome_iff_exists, List.isSome_min?_iff]
    simpa using hids
  have hle := List.le_min?_iff hm (x := k + 1)
  rw [fewest, hm, Option.getD_some, ← Nat.succ_le_iff, hle, List.forall_mem_map]
  rfl

theorem fewest_le (hid : id ∈ ids) : fewest ids pushes ≤ (arrivals id pushes).length := by
  by_contra h
  exact absurd ((lt_fewest_iff (List.ne_nil_of_mem hid)).1 (Nat.lt_of_not_le h) id hid)
    (Nat.lt_irrefl _)

/-- One more entry completes one row at most, and undoes none. -/
theorem fewest_concat (ids : List UInt8) (pushes : List (UInt8 × Stamped)) (id : UInt8)
    (e : Stamped) :
    fewest ids pushes ≤ fewest ids (pushes ++ [(id, e)]) ∧
      fewest ids (pushes ++ [(id, e)]) ≤ fewest ids pushes + 1 := by
  by_cases hids : ids = []
  · simp [hids, fewest]
  · constructor <;> by_contra h <;> have h := (lt_fewest_iff hids).1 (Nat.lt_of_not_le h)
    · have hlt : fewest ids (pushes ++ [(id, e)]) < fewest ids (pushes ++ [(id, e)]) :=
        (lt_fewest_iff hids).2 fun other hother =>
          Nat.lt_of_lt_of_le (h other hother) (length_arrivals_le other pushes id e).1
      exact Nat.lt_irrefl _ hlt
    · have hlt : fewest ids pushes < fewest ids pushes := by
        refine (lt_fewest_iff hids).2 fun other hother => ?_
        have := h other hother
        have := (length_arrivals_le other pushes id e).2
        omega
      exact Nat.lt_irrefl _ hlt

/-- A complete row stays as it is. -/
theorem row_concat (hj : j < fewest ids pushes) :
    row ids (pushes ++ [(id, e)]) j = row ids pushes j := by
  refine List.filterMap_congr fun other hother => ?_
  rw [arrivals_concat]
  split
  · exact List.getElem?_append_left (Nat.lt_of_lt_of_le hj (fewest_le hother))
  · rfl

theorem merged_concat :
    merged ids (pushes ++ [(id, e)]) = merged ids pushes ++
      (if fewest ids pushes < fewest ids (pushes ++ [(id, e)]) then
        join (row ids (pushes ++ [(id, e)]) (fewest ids pushes)) else none).toList := by
  have hbefore : (List.range (fewest ids pushes)).filterMap
      (fun j => join (row ids (pushes ++ [(id, e)]) j)) = merged ids pushes := by
    refine List.filterMap_congr fun j hj => ?_
    rw [row_concat (List.mem_range.1 hj)]
  obtain ⟨hle, hle'⟩ := fewest_concat ids pushes id e
  rw [merged]
  split
  · rename_i hlt
    have heq : fewest ids (pushes ++ [(id, e)]) = fewest ids pushes + 1 := by omega
    rw [heq, List.range_succ, List.filterMap_append, hbefore, List.filterMap_cons]
    cases join (row ids (pushes ++ [(id, e)]) (fewest ids pushes)) <;> rfl
  · rename_i hlt
    have heq : fewest ids (pushes ++ [(id, e)]) = fewest ids pushes := by omega
    rw [heq, hbefore, Option.toList_none, List.append_nil]

/-! ## Entries of other loggers -/

theorem arrivals_concat_of_ne {other : UInt8} (h : other ≠ id) :
    arrivals other (pushes ++ [(id, e)]) = arrivals other pushes := by
  rw [arrivals_concat, if_neg h]

theorem fewest_concat_of_not_mem (hid : id ∉ ids) :
    fewest ids (pushes ++ [(id, e)]) = fewest ids pushes := by
  have hlengths : ids.map (fun other => (arrivals other (pushes ++ [(id, e)])).length) =
      ids.map fun other => (arrivals other pushes).length := by
    refine List.map_congr_left fun other hother => ?_
    rw [arrivals_concat_of_ne (ne_of_mem_of_not_mem hother hid)]
  rw [fewest, hlengths, fewest]

theorem merged_concat_of_not_mem (hid : id ∉ ids) :
    merged ids (pushes ++ [(id, e)]) = merged ids pushes := by
  rw [merged_concat, fewest_concat_of_not_mem hid, if_neg (Nat.lt_irrefl _), Option.toList_none,
    List.append_nil]

/-! ## The queue

The lanes are cut at the same number, that of the complete rows.  So a queue is known from the
entries of its loggers and one number, and a push changes one of the lists and perhaps the number.
-/

/-- Lanes in which the first `k` entries of each logger are no more. -/
def lanesFrom (k : Nat) (ids : List UInt8) (pushes : List (UInt8 × Stamped)) : List Lane :=
  ids.map fun id => ⟨id, (arrivals id pushes).drop k⟩

/-- The queue behind some entries. -/
def holding (ids : List UInt8) (pushes : List (UInt8 × Stamped)) : MergeQueue :=
  ⟨lanesFrom (fewest ids pushes) ids pushes⟩

theorem ids_holding : (holding ids pushes).ids = ids := by
  rw [holding, MergeQueue.ids, lanesFrom, List.map_map]
  exact List.map_id ids

theorem holding_nil : holding ids [] = ofIds ids := by
  rw [holding, ofIds, lanesFrom]
  simp [arrivals]

theorem lanesFrom_concat_of_not_mem (k : Nat) (pushes : List (UInt8 × Stamped)) (e : Stamped)
    (hid : id ∉ ids) : lanesFrom k ids (pushes ++ [(id, e)]) = lanesFrom k ids pushes := by
  refine List.map_congr_left fun other hother => ?_
  rw [arrivals_concat_of_ne (ne_of_mem_of_not_mem hother hid)]

theorem holding_concat_of_not_mem (hid : id ∉ ids) :
    holding ids (pushes ++ [(id, e)]) = holding ids pushes := by
  rw [holding, fewest_concat_of_not_mem hid, lanesFrom_concat_of_not_mem _ _ _ hid, holding]

/-- An entry goes to the lane of its logger. -/
theorem enqueue_lanesFrom (hnodup : ids.Nodup) (hid : id ∈ ids)
    (hk : k ≤ (arrivals id pushes).length) :
    enqueue id e (lanesFrom k ids pushes) = lanesFrom k ids (pushes ++ [(id, e)]) := by
  induction ids with
  | nil => cases hid
  | cons first rest ih =>
    obtain ⟨hfirst, hrest⟩ := List.nodup_cons.1 hnodup
    rw [lanesFrom, lanesFrom, List.map_cons, List.map_cons, enqueue]
    split
    · rename_i heq
      obtain rfl : first = id := heq
      have hothers := lanesFrom_concat_of_not_mem k pushes e hfirst
      rw [arrivals_concat_self, List.drop_append_of_le_length hk]
      exact congrArg _ hothers.symm
    · rename_i hne
      have hmem : id ∈ rest := (List.mem_cons.1 hid).resolve_left (Ne.symm hne)
      rw [arrivals_concat_of_ne hne]
      exact congrArg _ (ih hrest hmem)

/-- The heads of all lanes are a row, if each logger has sent that many entries. -/
theorem heads?_lanesFrom (h : ∀ id ∈ ids, k < (arrivals id pushes).length) :
    heads? (lanesFrom k ids pushes) = some (row ids pushes k) := by
  induction ids with
  | nil => rfl
  | cons first rest ih =>
    have hcons : lanesFrom k (first :: rest) pushes =
        ⟨first, (arrivals first pushes).drop k⟩ :: lanesFrom k rest pushes := rfl
    obtain ⟨hfirst, hrest⟩ := List.forall_mem_cons.1 h
    have hrow : row (first :: rest) pushes k =
        (arrivals first pushes)[k] :: row rest pushes k := by
      rw [row, List.filterMap_cons, List.getElem?_eq_getElem hfirst]
      rfl
    rw [hcons, heads?, ih hrest, hrow, List.drop_eq_getElem_cons hfirst]

/-- A lane that is used up has no head. -/
theorem heads?_lanesFrom_eq_none (hid : id ∈ ids) (h : (arrivals id pushes).length ≤ k) :
    heads? (lanesFrom k ids pushes) = none := by
  induction ids with
  | nil => cases hid
  | cons first rest ih =>
    have hcons : lanesFrom k (first :: rest) pushes =
        ⟨first, (arrivals first pushes).drop k⟩ :: lanesFrom k rest pushes := rfl
    rw [hcons, heads?]
    rcases List.mem_cons.1 hid with rfl | hid
    · rw [List.drop_eq_nil_of_le h]
    · rw [ih hid]
      cases (arrivals first pushes).drop k <;> rfl

theorem tails_lanesFrom : tails (lanesFrom k ids pushes) = lanesFrom (k + 1) ids pushes := by
  rw [tails, lanesFrom, lanesFrom, List.map_map]
  refine List.map_congr_left fun id _ => ?_
  simp

/-- **A queue puts out each row with the entry that completes it.** -/
theorem push_holding (hnodup : ids.Nodup) :
    (holding ids pushes).push id e =
      (if fewest ids pushes < fewest ids (pushes ++ [(id, e)]) then
        join (row ids (pushes ++ [(id, e)]) (fewest ids pushes)) else none,
      holding ids (pushes ++ [(id, e)])) := by
  by_cases hid : id ∈ ids
  · have hcontains : (holding ids pushes).contains id = true := by
      rw [contains, ids_holding, List.contains_iff_mem]
      exact hid
    obtain ⟨hle, hle'⟩ := fewest_concat ids pushes id e
    rw [push, if_pos hcontains]
    simp only [holding, enqueue_lanesFrom hnodup hid (fewest_le hid)]
    by_cases hgrows : fewest ids pushes < fewest ids (pushes ++ [(id, e)])
    · have heq : fewest ids (pushes ++ [(id, e)]) = fewest ids pushes + 1 := by omega
      rw [heads?_lanesFrom ((lt_fewest_iff (List.ne_nil_of_mem hid)).1 hgrows), if_pos hgrows, heq]
      simp only [tails_lanesFrom]
    · have heq : fewest ids (pushes ++ [(id, e)]) = fewest ids pushes := by omega
      obtain ⟨other, hother, hshort⟩ : ∃ other ∈ ids,
          (arrivals other (pushes ++ [(id, e)])).length ≤ fewest ids pushes := by
        by_contra hnone
        refine hgrows ((lt_fewest_iff (List.ne_nil_of_mem hid)).2 fun other hother => ?_)
        exact Nat.lt_of_not_le fun hle => hnone ⟨other, hother, hle⟩
      rw [heads?_lanesFrom_eq_none hother hshort, if_neg hgrows, heq]
  · have hcontains : (holding ids pushes).contains id = false := by
      rw [← Bool.not_eq_true, contains, ids_holding, List.contains_iff_mem]
      exact hid
    rw [push, hcontains, fewest_concat_of_not_mem hid, if_neg (Nat.lt_irrefl _),
      holding_concat_of_not_mem hid]
    rfl

/-! ## Times do not matter for the data

Entries are told apart by loggers and joined by position, and neither looks at a time.  This is what
makes a log read alike after a resumed download, in which the same entries may be stamped otherwise.
-/

/-- An entry without its time. -/
def untimed (p : UInt8 × Stamped) : UInt8 × Bytes := (p.1, p.2.data)

theorem map_data_arrivals (id : UInt8) (pushes : List (UInt8 × Stamped)) :
    (arrivals id pushes).map Stamped.data =
      ((pushes.map untimed).filter fun p => p.1 == id).map Prod.snd := by
  rw [arrivals, List.map_map, List.filter_map, List.map_map]
  rfl

theorem map_data_join (entries : List Stamped) :
    (join entries).map Stamped.data =
      if entries = [] then none else some (entries.map Stamped.data).flatten := by
  cases entries with
  | nil => rfl
  | cons first rest => simp [join, List.flatMap_def]

/-- Entries that differ in their times only are joined into the same bytes. -/
theorem map_data_merged {pushes' : List (UInt8 × Stamped)}
    (h : pushes.map untimed = pushes'.map untimed) (ids : List UInt8) :
    (merged ids pushes).map Stamped.data = (merged ids pushes').map Stamped.data := by
  have harrivals (id : UInt8) : (arrivals id pushes).map Stamped.data =
      (arrivals id pushes').map Stamped.data := by
    rw [map_data_arrivals, map_data_arrivals, h]
  have hlength (id : UInt8) : (arrivals id pushes).length = (arrivals id pushes').length := by
    have := congrArg List.length (harrivals id)
    rwa [List.length_map, List.length_map] at this
  have hfewest : fewest ids pushes = fewest ids pushes' := by simp only [fewest, hlength]
  have hrow (j : Nat) : (row ids pushes j).map Stamped.data =
      (row ids pushes' j).map Stamped.data := by
    rw [row, row, List.map_filterMap, List.map_filterMap]
    refine List.filterMap_congr fun id _ => ?_
    rw [← List.getElem?_map, ← List.getElem?_map, harrivals]
  rw [merged, merged, List.map_filterMap, List.map_filterMap, hfewest]
  refine List.filterMap_congr fun j _ => ?_
  have hnil : row ids pushes j = [] ↔ row ids pushes' j = [] := by
    rw [← List.map_eq_nil_iff (f := Stamped.data), hrow, List.map_eq_nil_iff]
  simp only [map_data_join, hrow, hnil]

/-! ## One entry of each logger -/

/-- Push entries one after the other; answers what comes out each time. -/
def pushAll (q : MergeQueue) : List (UInt8 × Stamped) → List (Option Stamped) × MergeQueue
  | [] => ([], q)
  | (id, entry) :: rest =>
    let (output, q) := q.push id entry
    let (outputs, q) := q.pushAll rest
    (output :: outputs, q)

theorem pushAll_concat (q : MergeQueue) (pushes : List (UInt8 × Stamped)) (id : UInt8)
    (entry : Stamped) :
    (q.pushAll (pushes ++ [(id, entry)])).1 =
      (q.pushAll pushes).1 ++ [((q.pushAll pushes).2.push id entry).1] := by
  induction pushes generalizing q with
  | nil => rfl
  | cons p rest ih => exact congrArg ((q.push p.1 p.2).1 :: ·) (ih _)

theorem fewest_append (ids : List UInt8) (pushes more : List (UInt8 × Stamped)) :
    fewest ids pushes ≤ fewest ids (pushes ++ more) := by
  induction more generalizing pushes with
  | nil => exact Nat.le_of_eq (congrArg _ (List.append_nil _).symm)
  | cons p rest ih =>
    rw [List.append_cons]
    exact Nat.le_trans (fewest_concat ids pushes p.1 p.2).1 (ih _)

/-- Entries that complete no row only wait. -/
theorem pushAll_waiting (hnodup : ids.Nodup) {more : List (UInt8 × Stamped)}
    (h : fewest ids (pushes ++ more) = fewest ids pushes) :
    (holding ids pushes).pushAll more =
      (List.replicate more.length none, holding ids (pushes ++ more)) := by
  induction more generalizing pushes with
  | nil =>
    rw [List.append_nil]
    rfl
  | cons p rest ih =>
    obtain ⟨id, e⟩ := p
    rw [List.append_cons] at h ⊢
    have hfirst := (fewest_concat ids pushes id e).1
    have hrest := fewest_append ids (pushes ++ [(id, e)]) rest
    rw [pushAll, push_holding hnodup, if_neg (by omega)]
    dsimp only
    rw [ih (by omega)]
    rfl

/-- Of pairs with different keys, one has a given key. -/
theorem filter_eq_singleton {rows : List (UInt8 × Bytes)} (hnodup : (rows.map Prod.fst).Nodup)
    {x : UInt8 × Bytes} (hx : x ∈ rows) : (rows.filter fun p => p.1 == x.1) = [x] := by
  induction rows with
  | nil => cases hx
  | cons first rest ih =>
    obtain ⟨hfirst, hrest⟩ := List.nodup_cons.1 hnodup
    rcases List.mem_cons.1 hx with rfl | hx
    · have hnone : (rest.filter fun p => p.1 == x.1) = [] := by
        rw [List.filter_eq_nil_iff]
        intro p hp hpx
        exact hfirst (List.mem_map.2 ⟨p, hp, beq_iff_eq.1 hpx⟩)
      rw [List.filter_cons, if_pos (beq_self_eq_true _), hnone]
    · have hne : first.1 ≠ x.1 := fun h => hfirst (h ▸ List.mem_map_of_mem hx)
      rw [List.filter_cons_of_neg (by simpa using hne), ih hrest hx]

section

variable {rows : List (UInt8 × Bytes)} (hnodup : (rows.map Prod.fst).Nodup)
  (hperm : (pushes.map untimed).Perm rows)

include hnodup hperm

/-- Each logger has one entry, with the bytes of its row. -/
theorem map_data_arrivals_once {x : UInt8 × Bytes} (hx : x ∈ rows) :
    (arrivals x.1 pushes).map Stamped.data = [x.2] := by
  have hone := (hperm.filter fun p => p.1 == x.1).map Prod.snd
  rw [filter_eq_singleton hnodup hx, List.map_singleton] at hone
  rw [map_data_arrivals, List.perm_singleton.1 hone]

theorem length_arrivals_once (hid : id ∈ rows.map Prod.fst) : (arrivals id pushes).length = 1 := by
  obtain ⟨x, hx, rfl⟩ := List.mem_map.1 hid
  rw [← List.length_map Stamped.data, map_data_arrivals_once hnodup hperm hx,
    List.length_singleton]

theorem map_data_row_once :
    (row (rows.map Prod.fst) pushes 0).map Stamped.data = rows.map Prod.snd := by
  rw [row, List.map_filterMap, List.filterMap_map, ← List.filterMap_eq_map]
  refine List.filterMap_congr fun x hx => ?_
  rw [Function.comp_apply, ← List.getElem?_map, map_data_arrivals_once hnodup hperm hx]
  rfl

/-- **If each logger has one entry, the last of them completes the only row**, whatever their order:
nothing comes out before, and then all bytes in the order of the loggers. -/
theorem pushAll_once (hrows : rows ≠ []) :
    ∃ last, ((ofIds (rows.map Prod.fst)).pushAll pushes).1 =
        List.replicate (rows.length - 1) none ++ [some last] ∧
      last.data = (rows.map Prod.snd).flatten := by
  have hlength (id : UInt8) (hid : id ∈ rows.map Prod.fst) : (arrivals id pushes).length = 1 :=
    length_arrivals_once hnodup hperm hid
  have hrow := map_data_row_once hnodup hperm
  have hcount : pushes.length = rows.length := by rw [← hperm.length_eq, List.length_map]
  have hids : rows.map Prod.fst ≠ [] := by simpa using hrows
  rcases List.eq_nil_or_concat pushes with rfl | ⟨before, ⟨id, e⟩, hpushes⟩
  · exact absurd (List.length_eq_zero_iff.1 hcount.symm) hrows
  rw [List.concat_eq_append] at hpushes
  subst hpushes
  -- the logger of the last entry had none before, and now they all have one
  have hid : id ∈ rows.map Prod.fst := by
    have hmem := (hperm.map Prod.fst).subset (a := id) (by simp [untimed])
    exact hmem
  have hbefore : fewest (rows.map Prod.fst) before = 0 := by
    have hlast := hlength id hid
    rw [arrivals_concat_self, List.length_append, List.length_singleton] at hlast
    have : _ ≤ (arrivals id before).length := fewest_le hid
    omega
  have hall : 0 < fewest (rows.map Prod.fst) (before ++ [(id, e)]) :=
    (lt_fewest_iff hids).2 fun other hother => by
      rw [hlength other hother]
      exact Nat.one_pos
  have hnone : fewest (rows.map Prod.fst) ([] ++ before) = fewest (rows.map Prod.fst) [] :=
    hbefore.trans (Nat.le_zero.1 (hbefore ▸ fewest_append _ [] before)).symm
  have hwaiting := pushAll_waiting hnodup hnone
  rw [holding_nil, List.nil_append] at hwaiting
  rw [pushAll_concat, hwaiting, push_holding hnodup, if_pos (hbefore.symm ▸ hall), hbefore]
  have hcount' : before.length = rows.length - 1 := by
    rw [← hcount, List.length_append, List.length_singleton, Nat.add_sub_cancel]
  have hjoin := map_data_join (row (rows.map Prod.fst) (before ++ [(id, e)]) 0)
  rw [hrow, if_neg fun hnil => hrows (by simpa [hnil] using hrow.symm)] at hjoin
  obtain ⟨last, hlast, hdata⟩ := Option.map_eq_some_iff.1 hjoin
  exact ⟨last, by rw [hlast, hcount'], hdata⟩

end

end SignalRoute.MergeQueue
