import Mathlib.Data.List.Induction
import Mathlib.Data.List.Nodup
import Mathlib.Data.List.Perm.Subperm
import SignalRoute.IdTable

/-!
# Tables that hand out their lowest free id

A board answers a creation with the lowest id that is free in its table.
`Allocated count t news t'` says that `t'` came about from `t` by such creations, and `news` lists
the ids that were handed out, with what was stored under them, oldest first.

* What was handed out was free before and is stored now (`Allocated.not_contains`,
  `Allocated.find?_of_mem`); nothing else has changed (`Allocated.find?_of_not_mem`).
* `Allocated.foldl_erase`: taking out what was handed out, in the order in which it was handed out,
  gives back the table as it was, whatever ids were taken before.
* `Allocated.length_le`: no more can be handed out than was free.
* `Allocated.ids_of_empty`: an empty table hands out 0, 1, 2 and so on.

Tables are compared as they are, with their order; two tables with the same ids keep having the same
ids when both are changed in the same way (`ids_insert_congr`, `ids_erase`).

Removals need not come in the opposite order of the creations, since a removal filters the entries
and filters commute.  So all that a rollback must get right is the set of the ids.
-/

set_option autoImplicit false

namespace SignalRoute
namespace IdTable

variable {α β : Type}

/-! ## Ids of a table

What is stored does not matter to most questions: which ids are in use, whether one is free, whether
two tables have the same.  These lemmas go from entries to ids.
-/

theorem findIn_eq_none_iff (id : UInt8) (l : List (UInt8 × α)) :
    findIn id l = none ↔ id ∉ l.map Prod.fst := by
  induction l with
  | nil => simp [findIn]
  | cons e rest ih =>
    rw [findIn, List.map_cons, List.mem_cons, not_or]
    split
    · rename_i h
      simp [h]
    · rename_i h
      rw [ih]
      exact ⟨fun h' => ⟨fun he => h he.symm, h'⟩, fun h' => h'.2⟩

theorem contains_iff (t : IdTable α) (id : UInt8) : t.contains id = true ↔ id ∈ t.ids := by
  rw [contains, ← not_iff_not, Bool.not_eq_true, Option.isSome_eq_false_iff,
    Option.isNone_iff_eq_none]
  exact findIn_eq_none_iff id t.entries

theorem contains_eq_false_iff (t : IdTable α) (id : UInt8) :
    t.contains id = false ↔ id ∉ t.ids := by
  rw [← contains_iff, Bool.not_eq_true]

theorem mem_entries_of_find? {t : IdTable α} {id : UInt8} {a : α} (h : t.find? id = some a) :
    (id, a) ∈ t.entries := by
  obtain ⟨l⟩ := t
  rw [find?] at h
  dsimp only at h ⊢
  induction l with
  | nil => cases h
  | cons e rest ih =>
    rw [findIn] at h
    split at h
    · rename_i hid
      cases h
      exact hid ▸ List.mem_cons_self
    · exact List.mem_cons_of_mem _ (ih h)

theorem findIn_map (id j : UInt8) (f : α → α) (l : List (UInt8 × α)) :
    findIn j (l.map fun e => if e.1 = id then (e.1, f e.2) else e) =
      (findIn j l).map fun a => if j = id then f a else a := by
  induction l with
  | nil => rfl
  | cons e rest ih => grind [findIn]

theorem find?_modify (t : IdTable α) (id j : UInt8) (f : α → α) :
    (t.modify id f).find? j = (t.find? j).map fun a => if j = id then f a else a :=
  findIn_map id j f t.entries

theorem ids_erase (t : IdTable α) (id : UInt8) : (t.erase id).ids = t.ids.filter (· != id) := by
  rw [ids, erase, ids, List.filter_map]
  rfl

theorem contains_insert (t : IdTable α) (id j : UInt8) (a : α) :
    (t.insert id a).contains j = (j == id || t.contains j) := by
  rw [contains, find?_insert, contains]
  by_cases h : j = id <;> simp [h]

/-- Tables with the same ids have the same ids after an insertion. -/
theorem ids_insert_congr {t : IdTable α} {u : IdTable β} (h : t.ids = u.ids) (id : UInt8) (a : α)
    (b : β) : (t.insert id a).ids = (u.insert id b).ids := by
  obtain ⟨l⟩ := t
  obtain ⟨m⟩ := u
  simp only [ids, insert] at h ⊢
  induction l generalizing m with
  | nil =>
    cases m with
    | nil => rfl
    | cons e rest => cases h
  | cons e rest ih =>
    cases m with
    | nil => cases h
    | cons e' rest' =>
      obtain ⟨k, x⟩ := e
      obtain ⟨k', x'⟩ := e'
      simp only [List.map_cons, List.cons.injEq] at h
      obtain ⟨rfl, h⟩ := h
      simp only [insertIn]
      split
      · simp [h]
      · split
        · simp [h]
        · simp [ih rest' h]

/-! ## Putting in

Two tables with the same ids have the same ids again if the same ids are put into both, whatever is
stored with them.  This is how a table of the host is compared with one of the board.
-/

/-- The table with entries put in, one after the other. -/
def insertAll (t : IdTable α) (news : List (UInt8 × α)) : IdTable α :=
  news.foldl (fun t e => t.insert e.1 e.2) t

theorem insertAll_concat (t : IdTable α) (news : List (UInt8 × α)) (e : UInt8 × α) :
    t.insertAll (news ++ [e]) = (t.insertAll news).insert e.1 e.2 := by
  rw [insertAll, List.foldl_append]
  rfl

theorem ids_insertAll_congr {t : IdTable α} {u : IdTable β} (h : t.ids = u.ids)
    {xs : List (UInt8 × α)} {ys : List (UInt8 × β)} (hkeys : xs.map Prod.fst = ys.map Prod.fst) :
    (t.insertAll xs).ids = (u.insertAll ys).ids := by
  induction xs generalizing t u ys with
  | nil =>
    cases ys with
    | nil => exact h
    | cons y ys => cases hkeys
  | cons x xs ih =>
    cases ys with
    | nil => cases hkeys
    | cons y ys =>
      rw [List.map_cons, List.map_cons, List.cons.injEq] at hkeys
      have hfirst : (t.insert x.1 x.2).ids = (u.insert y.1 y.2).ids := by
        rw [hkeys.1]
        exact ids_insert_congr h y.1 x.2 y.2
      exact ih hfirst hkeys.2

theorem mem_insertIn {id : UInt8} {a : α} {l : List (UInt8 × α)} {x : UInt8 × α}
    (hx : x ∈ insertIn id a l) : x = (id, a) ∨ x ∈ l := by
  induction l with
  | nil => exact .inl (List.mem_singleton.1 hx)
  | cons e rest ih => grind [insertIn]

/-- What is in a table was put in, or it was there before. -/
theorem mem_insertAll {t : IdTable α} {news : List (UInt8 × α)} {x : UInt8 × α}
    (hx : x ∈ (t.insertAll news).entries) : x ∈ news ∨ x ∈ t.entries := by
  induction news using List.reverseRecOn with
  | nil => exact .inr hx
  | append_singleton news e ih =>
    rw [insertAll_concat] at hx
    rcases mem_insertIn hx with rfl | hx
    · exact .inl (List.mem_append_right _ List.mem_cons_self)
    · exact (ih hx).imp_left (List.mem_append_left _)

/-! ## Taking out

Several ids are taken out one after the other, and the result is one filter.  That is all that a
rollback or a teardown leaves to be said about tables.
-/

theorem erase_of_find?_eq_none {t : IdTable α} {id : UInt8} (h : t.find? id = none) :
    t.erase id = t := by
  obtain ⟨l⟩ := t
  have hl := (findIn_eq_none_iff id l).1 h
  rw [erase, List.filter_eq_self.2]
  rintro ⟨k, a⟩ hmem
  have hne : k ≠ id := by
    rintro rfl
    exact hl (List.mem_map_of_mem hmem)
  simpa using hne

theorem entries_foldl_erase (out : List UInt8) (t : IdTable α) :
    (out.foldl erase t).entries = t.entries.filter fun e => !out.contains e.1 := by
  induction out generalizing t with
  | nil => simp
  | cons id rest ih =>
    rw [List.foldl_cons, ih, erase, List.filter_filter]
    refine List.filter_congr fun e _ => ?_
    rw [List.contains_cons, Bool.not_or, Bool.and_comm]
    rfl

theorem ids_foldl_erase (out : List UInt8) (t : IdTable α) :
    (out.foldl erase t).ids = t.ids.filter fun id => !out.contains id := by
  rw [ids, entries_foldl_erase, ids, List.filter_map]
  rfl

theorem find?_foldl_erase (out : List UInt8) (t : IdTable α) (id : UInt8) :
    (out.foldl erase t).find? id = if id ∈ out then none else t.find? id := by
  induction out generalizing t with
  | nil => rfl
  | cons j rest ih =>
    rw [List.foldl_cons, ih, find?_erase]
    by_cases hj : id = j <;> by_cases hr : id ∈ rest <;> simp [hj, hr]

/-- The ids that are there when they are taken out one after the other. -/
def found (t : IdTable α) : List UInt8 → List UInt8
  | [] => []
  | id :: rest =>
    if t.contains id then id :: (t.erase id).found rest else (t.erase id).found rest

theorem mem_found (t : IdTable α) (out : List UInt8) (j : UInt8) :
    j ∈ t.found out ↔ j ∈ out ∧ j ∈ t.ids := by
  induction out generalizing t with
  | nil => simp [found]
  | cons id rest ih =>
    have hrest := ih (t.erase id)
    rw [ids_erase, List.mem_filter, bne_iff_ne] at hrest
    rw [found, List.mem_cons]
    split
    · rename_i hid
      rw [contains_iff] at hid
      rw [List.mem_cons, hrest]
      by_cases hj : j = id
      · simp [hj, hid]
      · simp [hj]
    · rename_i hid
      rw [contains_iff] at hid
      rw [hrest]
      by_cases hj : j = id
      · simp [hj, hid]
      · simp [hj]

/-- Taking out what is there is taking out everything. -/
theorem foldl_erase_found {t : IdTable α} {u : IdTable β} (h : t.ids = u.ids) (out : List UInt8) :
    (t.found out).foldl erase u = out.foldl erase u := by
  have hentries : ((t.found out).foldl erase u).entries = (out.foldl erase u).entries := by
    rw [entries_foldl_erase, entries_foldl_erase]
    refine List.filter_congr fun e he => ?_
    have hid : e.1 ∈ t.ids := h ▸ List.mem_map_of_mem he
    rw [Bool.eq_iff_iff, Bool.not_eq_true', Bool.not_eq_true', ← Bool.not_eq_true,
      ← Bool.not_eq_true, List.contains_iff_mem, List.contains_iff_mem, mem_found]
    simp [hid]
  exact congrArg IdTable.mk hentries

theorem ids_foldl_erase_found {t : IdTable α} {u : IdTable β} (h : t.ids = u.ids)
    (out : List UInt8) : ((t.found out).foldl erase u).ids = (out.foldl erase t).ids := by
  rw [foldl_erase_found h, ids_foldl_erase, ids_foldl_erase, h]

/-- An entry that is filtered out may as well not have been put in. -/
theorem filter_insertIn {id : UInt8} {a : α} {l : List (UInt8 × α)} {p : UInt8 → Bool}
    (hid : p id = false) (hl : id ∉ l.map Prod.fst) :
    (insertIn id a l).filter (fun e => p e.1) = l.filter fun e => p e.1 := by
  induction l with
  | nil => simp [insertIn, hid]
  | cons e rest ih =>
    obtain ⟨k, b⟩ := e
    simp only [List.map_cons, List.mem_cons, not_or] at hl
    rw [insertIn, if_neg (fun h => hl.1 h.symm)]
    split
    · rw [List.filter_cons_of_neg (by simp [hid])]
    · rw [List.filter_cons, List.filter_cons, ih hl.2]

theorem perm_insertIn {id : UInt8} (a : α) {l : List (UInt8 × α)} (hl : id ∉ l.map Prod.fst) :
    ((insertIn id a l).map Prod.fst).Perm (id :: l.map Prod.fst) := by
  induction l with
  | nil => exact .refl _
  | cons e rest ih =>
    obtain ⟨k, b⟩ := e
    simp only [List.map_cons, List.mem_cons, not_or] at hl
    rw [insertIn, if_neg (fun h => hl.1 h.symm)]
    split
    · exact .refl _
    · exact ((ih hl.2).cons k).trans (.swap id k _)

/-! ## The lowest free id

Which id is the lowest free one depends on the ids of the table alone, so the table of the board and
that of the host, which store different things, hand out the same ids as long as they have the same.
-/

/-- The ids that are not taken, of the first `count`. -/
def freeIds (t : IdTable α) (count : Nat) : List UInt8 :=
  ((List.range count).map UInt8.ofNat).filter fun id => !t.contains id

theorem freeId?_eq_head? (t : IdTable α) (count : Nat) :
    t.freeId? count = (t.freeIds count).head? := by
  rw [freeId?, freeIds, List.head?_filter]

theorem freeId?_eq_some_iff {t : IdTable α} {count : Nat} {id : UInt8} :
    t.freeId? count = some id ↔
      ∃ i < count, id = UInt8.ofNat i ∧ t.contains id = false ∧
        ∀ j < i, t.contains (UInt8.ofNat j) = true := by
  rw [freeId?, List.find?_map, Option.map_eq_some_iff]
  constructor
  · rintro ⟨i, hi, rfl⟩
    rw [List.find?_range_eq_some] at hi
    obtain ⟨hfree, hlt, hbefore⟩ := hi
    exact ⟨i, List.mem_range.1 hlt, rfl, by simpa using hfree, by simpa using hbefore⟩
  · rintro ⟨i, hlt, rfl, hfree, hbefore⟩
    refine ⟨i, ?_, rfl⟩
    rw [List.find?_range_eq_some]
    exact ⟨by simpa using hfree, List.mem_range.2 hlt, by simpa using hbefore⟩

theorem freeId?_congr {t : IdTable α} {u : IdTable β} (h : t.ids = u.ids) (count : Nat) :
    t.freeId? count = u.freeId? count := by
  have hcontains : t.contains = u.contains := by
    funext id
    rw [Bool.eq_iff_iff, contains_iff, contains_iff, h]
  rw [freeId?, freeId?, hcontains]

theorem mem_freeIds_of_freeId? {t : IdTable α} {count : Nat} {id : UInt8}
    (h : t.freeId? count = some id) : id ∈ t.freeIds count := by
  rw [freeId?_eq_head?] at h
  exact List.mem_of_head? h

theorem length_freeIds_le (t : IdTable α) (count : Nat) : (t.freeIds count).length ≤ count := by
  refine Nat.le_trans (List.length_filter_le _ _) (Nat.le_of_eq ?_)
  rw [List.length_map, List.length_range]

theorem mem_freeIds {t : IdTable α} {count : Nat} {id : UInt8} :
    id ∈ t.freeIds count ↔ id ∈ (List.range count).map UInt8.ofNat ∧ t.contains id = false := by
  rw [freeIds, List.mem_filter, Bool.not_eq_true']

/-! ## Creations

`Allocated` is a relation and not a function, because whoever creates something decides what is
stored, and other things may happen between two creations as long as the table stays.  Its induction
is over the last creation.
-/

/-- `t'` came about from `t` by creations that were answered with the lowest of `count` ids that was
free; `news` is what was created, oldest first. -/
inductive Allocated (count : Nat) (t : IdTable α) : List (UInt8 × α) → IdTable α → Prop
  | start : Allocated count t [] t
  | create {news : List (UInt8 × α)} {t' : IdTable α} {id : UInt8} (a : α)
      (h : Allocated count t news t') (free : t'.freeId? count = some id) :
      Allocated count t (news ++ [(id, a)]) (t'.insert id a)

namespace Allocated

variable {count : Nat} {t t' : IdTable α} {news : List (UInt8 × α)}

theorem contains_iff (h : Allocated count t news t') (id : UInt8) :
    t'.contains id = true ↔ t.contains id = true ∨ id ∈ news.map Prod.fst := by
  induction h with
  | start => simp
  | create a _ _ ih =>
    rw [contains_insert, Bool.or_eq_true, ih, beq_iff_eq]
    simp only [List.map_append, List.map_cons, List.map_nil, List.mem_append, List.mem_singleton]
    tauto

/-- What was handed out was free. -/
theorem not_contains (h : Allocated count t news t') {id : UInt8} (hid : id ∈ news.map Prod.fst) :
    t.contains id = false := by
  induction h with
  | start => simp at hid
  | create a h free ih =>
    rw [List.map_append, List.mem_append] at hid
    rcases hid with hid | hid
    · exact ih hid
    · obtain ⟨-, -, -, hfree, -⟩ := freeId?_eq_some_iff.1 free
      rw [List.map_singleton, List.mem_singleton] at hid
      rw [← Bool.not_eq_true, hid]
      intro hold
      rw [(h.contains_iff _).2 (.inl hold)] at hfree
      cases hfree

theorem nodup (h : Allocated count t news t') : (news.map Prod.fst).Nodup := by
  induction h with
  | start => exact List.nodup_nil
  | create a h free ih =>
    obtain ⟨-, -, -, hfree, -⟩ := freeId?_eq_some_iff.1 free
    rw [List.map_append, List.map_singleton]
    refine ih.append (List.nodup_singleton _) ?_
    rw [List.disjoint_singleton]
    intro hmem
    rw [(h.contains_iff _).2 (.inr hmem)] at hfree
    cases hfree

theorem find?_of_not_mem (h : Allocated count t news t') {id : UInt8}
    (hid : id ∉ news.map Prod.fst) : t'.find? id = t.find? id := by
  induction h with
  | start => rfl
  | create a _ _ ih =>
    rw [List.map_append, List.map_singleton, List.mem_append, List.mem_singleton, not_or] at hid
    rw [find?_insert, if_neg hid.2, ih hid.1]

/-- What was handed out is stored. -/
theorem find?_of_mem (h : Allocated count t news t') {id : UInt8} {a : α} (ha : (id, a) ∈ news) :
    t'.find? id = some a := by
  induction h with
  | start => cases ha
  | @create news t' j b h free ih =>
    rw [find?_insert]
    rcases List.mem_append.1 ha with hold | hnew
    · have hne : id ≠ j := by
        rintro rfl
        obtain ⟨-, -, -, hfree, -⟩ := freeId?_eq_some_iff.1 free
        rw [(h.contains_iff _).2 (.inr (List.mem_map_of_mem hold))] at hfree
        cases hfree
      rw [if_neg hne, ih hold]
    · cases List.mem_singleton.1 hnew
      rw [if_pos rfl]

/-- What was handed out was put in. -/
theorem eq_insertAll (h : Allocated count t news t') : t' = t.insertAll news := by
  induction h with
  | start => rfl
  | create a _ _ ih => rw [insertAll_concat, ih]

/-- A table with the same ids hands out the same ids, whatever is stored under them. -/
theorem transfer (h : Allocated count t news t') {u : IdTable β} (hids : t.ids = u.ids)
    {others : List (UInt8 × β)} (hothers : news.map Prod.fst = others.map Prod.fst) :
    Allocated count u others (u.insertAll others) := by
  induction h generalizing others with
  | start =>
    obtain rfl := List.map_eq_nil_iff.1 hothers.symm
    exact .start
  | @create news t' id a h free ih =>
    rw [List.map_append] at hothers
    obtain ⟨before, last, rfl, hbefore, hlast⟩ := List.map_eq_append_iff.1 hothers.symm
    obtain ⟨x, rfl, rfl⟩ := List.map_eq_singleton_iff.1 hlast
    have hnow : t'.ids = (u.insertAll before).ids := by
      rw [h.eq_insertAll]
      exact ids_insertAll_congr hids hbefore.symm
    rw [insertAll_concat]
    exact .create x.2 (ih hbefore.symm) (freeId?_congr hnow count ▸ free)

/-- **Taking out what was handed out gives back the table as it was.** -/
theorem foldl_erase (h : Allocated count t news t') :
    (news.map Prod.fst).foldl erase t' = t := by
  suffices he : t'.entries.filter (fun e => !(news.map Prod.fst).contains e.1) = t.entries by
    have := entries_foldl_erase (news.map Prod.fst) t'
    rw [he] at this
    cases t
    exact congrArg IdTable.mk this
  induction h with
  | start => simp
  | @create news t' id a h free ih =>
    obtain ⟨-, -, -, hfree, -⟩ := freeId?_eq_some_iff.1 free
    have hnew := (contains_eq_false_iff t' id).1 hfree
    have hold : id ∉ t.entries.map Prod.fst := by
      rw [← Bool.not_eq_true, h.contains_iff, not_or, Bool.not_eq_true] at hfree
      exact (contains_eq_false_iff t id).1 hfree.1
    rw [insert, filter_insertIn (p := fun j => !((news ++ [(id, a)]).map Prod.fst).contains j)
      (by simp) hnew]
    -- what is left is to filter by the older ids first, and then by the new one, which is nowhere
    calc t'.entries.filter (fun e => !((news ++ [(id, a)]).map Prod.fst).contains e.1)
        = (t'.entries.filter fun e => !(news.map Prod.fst).contains e.1).filter
            fun e => e.1 != id := by
          rw [List.filter_filter]
          refine List.filter_congr fun e _ => ?_
          rw [Bool.eq_iff_iff]
          simp [not_or, and_comm]
      _ = t.entries.filter fun e => e.1 != id := by rw [ih]
      _ = t.entries := by
          rw [List.filter_eq_self]
          rintro ⟨j, b⟩ hmem
          have : j ≠ id := by
            rintro rfl
            exact hold (List.mem_map_of_mem hmem)
          simpa using this

/-- What was handed out is one of the first `count` ids. -/
theorem mem_range (h : Allocated count t news t') {id : UInt8} (hid : id ∈ news.map Prod.fst) :
    id ∈ (List.range count).map UInt8.ofNat := by
  induction h with
  | start => simp at hid
  | create a h free ih =>
    rw [List.map_append, List.mem_append] at hid
    rcases hid with hid | hid
    · exact ih hid
    · rw [List.map_singleton, List.mem_singleton] at hid
      rw [hid]
      exact (mem_freeIds.1 (mem_freeIds_of_freeId? free)).1

/-- No more can be handed out than was free. -/
theorem length_le (h : Allocated count t news t') : news.length ≤ (t.freeIds count).length := by
  have hsub : news.map Prod.fst ⊆ t.freeIds count := fun id hid =>
    mem_freeIds.2 ⟨h.mem_range hid, h.not_contains hid⟩
  have := (h.nodup.subperm hsub).length_le
  rwa [List.length_map] at this

/-- The ids of the table are those that it had and those that it handed out. -/
theorem ids_perm (h : Allocated count t news t') :
    t'.ids.Perm (t.ids ++ news.map Prod.fst) := by
  induction h with
  | start => simp
  | @create news t' id a h free ih =>
    obtain ⟨-, -, -, hfree, -⟩ := freeId?_eq_some_iff.1 free
    have hnew := (contains_eq_false_iff t' id).1 hfree
    rw [List.map_append, List.map_singleton, ← List.append_assoc]
    exact (perm_insertIn a hnew).trans ((ih.cons id).trans (List.perm_append_singleton id _).symm)

theorem ofNat_not_mem_range {n : Nat} (h : n < 256) :
    UInt8.ofNat n ∉ (List.range n).map UInt8.ofNat := by
  intro hmem
  obtain ⟨j, hj, heq⟩ := List.mem_map.1 hmem
  rw [List.mem_range] at hj
  have := congrArg UInt8.toNat heq
  rw [UInt8.toNat_ofNat_of_lt' (Nat.lt_trans hj h), UInt8.toNat_ofNat_of_lt' h] at this
  omega

/-- An empty table hands out its ids from the first one on. -/
theorem ids_of_empty (h : Allocated count t news t') (hempty : t = empty) (hcount : count ≤ 256) :
    news.map Prod.fst = (List.range news.length).map UInt8.ofNat := by
  induction h with
  | start => rfl
  | @create news t' id a h free ih =>
    obtain ⟨i, hlt, hi, hfree, hbefore⟩ := freeId?_eq_some_iff.1 free
    have hmem (j : UInt8) :
        t'.contains j = true ↔ j ∈ (List.range news.length).map UInt8.ofNat := by
      rw [h.contains_iff, ← ih, hempty, contains, find?_empty]
      simp
    have hlength : news.length < count := by
      have := Nat.le_trans (h.create a free).length_le (t.length_freeIds_le count)
      rwa [List.length_append, List.length_singleton] at this
    -- no id below the number of those handed out is free, and that number itself is
    have hge : news.length ≤ i := by
      by_contra hlow
      have := (hmem (UInt8.ofNat i)).2 (List.mem_map_of_mem (List.mem_range.2 (by omega)))
      rw [← hi, hfree] at this
      cases this
    have hle : i ≤ news.length := by
      by_contra hhigh
      exact ofNat_not_mem_range (Nat.lt_of_lt_of_le hlength hcount)
        ((hmem _).1 (hbefore news.length (Nat.lt_of_not_le hhigh)))
    rw [List.map_append, ih, List.length_append, List.length_singleton, List.range_succ,
      List.map_append, hi, Nat.le_antisymm hle hge]
    rfl

/-- The id that an empty table hands out next is not taken. -/
theorem find?_next_of_empty (h : Allocated count t news t') (hempty : t = empty)
    (hcount : count ≤ 256) (hmore : news.length < 256) :
    t'.find? (UInt8.ofNat news.length) = none := by
  have hnot : UInt8.ofNat news.length ∉ news.map Prod.fst := by
    rw [h.ids_of_empty hempty hcount]
    exact ofNat_not_mem_range hmore
  rw [h.find?_of_not_mem hnot, hempty, find?_empty]

end Allocated
end IdTable
end SignalRoute
