import Mathlib.Data.List.Forall2
import Mathlib.Data.List.Nodup
import Mathlib.Data.List.Perm.Subperm

/-!
# Lists with gaps, and lists side by side

What the theory needs of lists alone, and the library does not have.

* `without places l` is `l` without the elements at some places.  A record of what was taken out of a
  sequence is kept as places and not as elements, because the same element may occur more than once:
  of two equal frames one can be a reply and the other one not.  New elements go to the end, so there
  are just two cases, that the last one stays (`without_append`) and that it goes (`without_concat`).
* `forall₂_of_map_eq` and `exists_pairs_of_map_snd` are for lists that were made of one another, as
  the rows of a table are of what was planned: an equation between their images says which elements
  belong together.
* `mem_takeWhile_of_ascending` and `length_le_of_nodup` are about the ids of a table, which come in
  ascending order, and of which there are 256.
-/

set_option autoImplicit false

namespace SignalRoute

variable {α β γ : Type}

/-! ## Lists without some places -/

/-- What is left of a list without the elements at some places. -/
def without (places : List Nat) (l : List α) : List α :=
  (l.zipIdx.filter fun x => !places.contains x.2).map Prod.fst

/-- What is behind all of the places stays. -/
theorem without_append {places : List Nat} {l : List α} (h : ∀ i ∈ places, i < l.length)
    (m : List α) : without places (l ++ m) = without places l ++ m := by
  have hlater : (m.zipIdx (0 + l.length)).filter (fun x => !places.contains x.2) =
      m.zipIdx (0 + l.length) := by
    rw [List.filter_eq_self]
    intro x hx
    rw [Bool.not_eq_true', ← Bool.not_eq_true, List.contains_iff_mem]
    intro hmem
    have hge := (List.mem_zipIdx hx).1
    have hlt := h x.2 hmem
    omega
  rw [without, List.zipIdx_append, List.filter_append, hlater, List.map_append,
    List.zipIdx_map_fst, without]

/-- A list that is one longer, without its last place. -/
theorem without_concat (places : List Nat) (l : List α) (a : α) :
    without (places ++ [l.length]) (l ++ [a]) = without places l := by
  have hsame : l.zipIdx.filter (fun x => !(places ++ [l.length]).contains x.2) =
      l.zipIdx.filter fun x => !places.contains x.2 := by
    refine List.filter_congr fun x hx => ?_
    have hlt := List.snd_lt_of_mem_zipIdx hx
    have hne : x.2 ≠ l.length := by omega
    rw [Bool.not_inj_iff, Bool.eq_iff_iff, List.contains_iff_mem, List.contains_iff_mem,
      List.mem_append, List.mem_singleton]
    exact or_iff_left hne
  rw [without, List.zipIdx_append, List.filter_append, hsame]
  simp [without]

/-! ## Lists side by side -/

/-- Lists with the same image have elements with the same image side by side. -/
theorem forall₂_of_map_eq {f : α → γ} {g : β → γ} {R : α → β → Prop} {xs : List α} {ys : List β}
    (h : xs.map f = ys.map g) (hR : ∀ x ∈ xs, ∀ y ∈ ys, f x = g y → R x y) :
    List.Forall₂ R xs ys := by
  have heq : List.Forall₂ (fun x y => f x = g y) xs ys := by
    rw [← List.forall₂_map_left_iff (R := fun z y => z = g y), ← List.forall₂_map_right_iff,
      List.forall₂_eq_eq_eq]
    exact h
  obtain ⟨hlength, hall⟩ := List.forall₂_iff_zip.1 heq
  refine List.forall₂_iff_zip.2 ⟨hlength, fun {x y} hxy => ?_⟩
  obtain ⟨hx, hy⟩ := List.of_mem_zip hxy
  exact hR x hx y hy (hall hxy)

theorem exists_of_mem_forall₂ {R : α → β → Prop} {l : List α} {m : List β}
    (h : List.Forall₂ R l m) {a : α} (ha : a ∈ l) : ∃ b ∈ m, R a b := by
  induction h with
  | nil => cases ha
  | @cons x y l m hxy _ ih =>
    rcases List.mem_cons.1 ha with rfl | hlater
    · exact ⟨y, List.mem_cons_self, hxy⟩
    · obtain ⟨b, hb, hab⟩ := ih hlater
      exact ⟨b, List.mem_cons_of_mem _ hb, hab⟩

/-- Rows whose contents are computed from a list are computed from pairs. -/
theorem exists_pairs_of_map_snd {rows : List (α × β)} {l : List γ} {f : γ → β}
    (h : rows.map Prod.snd = l.map f) :
    ∃ pairs : List (α × γ), rows = pairs.map (fun e => (e.1, f e.2)) ∧ pairs.map Prod.snd = l := by
  induction rows generalizing l with
  | nil => exact ⟨[], rfl, (List.map_eq_nil_iff.1 h.symm).symm⟩
  | cons row rows ih =>
    obtain ⟨a, rest, rfl, ha, hrest⟩ := List.map_eq_cons_iff.1 h.symm
    obtain ⟨pairs, rfl, rfl⟩ := ih hrest.symm
    exact ⟨(row.1, a) :: pairs, by rw [List.map_cons, ha], rfl⟩

/-! ## Lists of ids -/

/-- Of a list in ascending order, what holds up to an entry. -/
theorem mem_takeWhile_of_ascending {ids : List UInt8} (hids : ids.Pairwise (· < ·))
    {p : UInt8 → Bool} {id : UInt8} :
    id ∈ ids.takeWhile p ↔ id ∈ ids ∧ p id = true ∧ ∀ j ∈ ids, j < id → p j = true := by
  induction ids with
  | nil => simp
  | cons first rest ih =>
    obtain ⟨hfirst, hrest⟩ := List.pairwise_cons.1 hids
    rw [List.takeWhile_cons]
    split
    · rename_i hp
      rw [List.mem_cons, List.mem_cons, List.forall_mem_cons, ih hrest]
      constructor
      · rintro (rfl | ⟨hmem, hid, hbefore⟩)
        · exact ⟨.inl rfl, hp, fun _ => hp,
            fun j hj hlt => absurd hlt (UInt8.lt_asymm (hfirst j hj))⟩
        · exact ⟨.inr hmem, hid, fun _ => hp, hbefore⟩
      · rintro ⟨rfl | hmem, hid, -, hbefore⟩
        · exact .inl rfl
        · exact .inr ⟨hmem, hid, hbefore⟩
    · rename_i hp
      refine ⟨fun h => (nomatch h), fun ⟨hmem, hid, hbefore⟩ => ?_⟩
      rcases List.mem_cons.1 hmem with rfl | hlater
      · exact absurd hid hp
      · exact absurd (hbefore first List.mem_cons_self (hfirst id hlater)) hp

/-- There are 256 ids. -/
theorem length_le_of_nodup {ids : List UInt8} (h : ids.Nodup) : ids.length ≤ 256 := by
  have hnodup : (ids.map UInt8.toNat).Nodup := h.map fun _ _ => UInt8.toNat_inj.1
  have hsub : ids.map UInt8.toNat ⊆ List.range 256 := fun n hn => by
    obtain ⟨id, -, rfl⟩ := List.mem_map.1 hn
    exact List.mem_range.2 id.toNat_lt
  have := (hnodup.subperm hsub).length_le
  rwa [List.length_map, List.length_range] at this

end SignalRoute
