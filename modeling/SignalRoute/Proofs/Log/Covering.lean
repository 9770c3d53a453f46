import SignalRoute.Proofs.Log.Asking
import SignalRoute.Proofs.Log.Grouping

/-!
# What grouped loggers cover

Whatever the table of loggers holds, grouping cuts the list of loggers into pieces, one for each
range (`groupLoggers_covers`).  The loggers of a piece read one address, each starts where the ones
before it end, and only full entries have others behind them.

Ends of ranges are compared as bytes.  A byte range starts below 32 and has at most eight bytes, and
each that is joined starts where the range ends; so a range ends below 40, and bytes will do.

The board does not check that loggers fit together, and a table may hold loggers of several routes,
of a signal twice, or of ranges that overlap.  Grouping is still a partition, because it goes by the
list and decides each time between going on and starting over.
-/

set_option autoImplicit false

namespace SignalRoute

/-- How many bytes loggers have together. -/
def totalLength (loggers : List LoggerSource) : Nat := (loggers.map fun s => s.length.toNat).sum

/-- Loggers of one address, the first of which starts at `offset` and each other where the ones
before it end, at a multiple of four bytes behind `offset`. -/
structure Contiguous (a : Address) (offset : UInt8) (loggers : List LoggerSource) : Prop where
  address : ∀ s ∈ loggers, s.address = a
  starts : ∀ before s after, loggers = before ++ s :: after →
    s.offset.toNat = offset.toNat + totalLength before ∧
      totalLength before % logEntrySize = 0

namespace LoggedRange

/-- Loggers that fill a range. -/
structure Covers (r : LoggedRange) (loggers : List LoggerSource) : Prop where
  ids : r.ids = loggers.map LoggerSource.id
  contiguous : Contiguous r.address r.offset loggers
  length : r.length.toNat = totalLength loggers
  nonempty : loggers ≠ []
  fits : r.offset.toNat + r.length.toNat < 40

end LoggedRange

/-- A byte range that an entry of a table can name. -/
def LoggerSource.Named (s : LoggerSource) : Prop := s.offset.toNat < 32 ∧ s.length.toNat ≤ 8

theorem SimulatedBoard.named_of_logger? {b : SimulatedBoard} {id : UInt8} {s : LoggerSource}
    (h : b.logger? id = some s) : s.Named := by
  have hrange : ∀ packed : UInt8,
      (unpackRange packed).2.toNat < 32 ∧ (unpackRange packed).1.toNat ≤ 8 :=
    forall_byte (by decide +kernel)
  rw [logger?] at h
  split at h
  · cases h
    exact hrange _
  · cases h

variable {s : LoggerSource} {r : LoggedRange} {part sources : List LoggerSource}

theorem totalLength_concat (part : List LoggerSource) (s : LoggerSource) :
    totalLength (part ++ [s]) = totalLength part + s.length.toNat := by
  simp [totalLength]

theorem Contiguous.nil (a : Address) (offset : UInt8) : Contiguous a offset [] where
  address := List.forall_mem_nil _
  starts before s after h := by simp at h

/-- One logger more, where the others end. -/
theorem Contiguous.concat {a : Address} {offset : UInt8} (h : Contiguous a offset part)
    (haddress : s.address = a) (hstart : s.offset.toNat = offset.toNat + totalLength part)
    (hfull : totalLength part % logEntrySize = 0) : Contiguous a offset (part ++ [s]) where
  address := List.forall_mem_append.2 ⟨h.address, List.forall_mem_singleton.2 haddress⟩
  starts before t after hsplit := by
    rcases List.eq_nil_or_concat after with rfl | ⟨others, last, rfl⟩
    · obtain ⟨rfl, hlast⟩ := List.append_inj' hsplit rfl
      cases hlast
      exact ⟨hstart, hfull⟩
    · rw [List.concat_eq_append, ← List.cons_append, ← List.append_assoc] at hsplit
      exact h.starts before t others (List.append_inj' hsplit rfl).1

namespace LoggedRange

theorem covers_ofSource (hs : s.Named) : (ofSource s).Covers [s] where
  ids := rfl
  contiguous := (Contiguous.nil _ _).concat rfl rfl rfl
  length := by simp [totalLength, ofSource]
  nonempty := List.cons_ne_nil _ _
  fits := by
    obtain ⟨hoffset, hlength⟩ := hs
    show s.offset.toNat + s.length.toNat < 40
    omega

/-- A logger that goes on where a range ends is joined to it. -/
theorem Covers.extend (h : r.Covers part) (hs : s.Named) (hnext : r.continuedBy s = true) :
    (r.extend s).Covers (part ++ [s]) := by
  obtain ⟨hoffset, hlength⟩ := hs
  have hfits := h.fits
  simp only [continuedBy, Bool.and_eq_true, beq_iff_eq] at hnext
  obtain ⟨⟨haddress, hfull⟩, hend⟩ := hnext
  -- the end of the range is where the logger starts, which is below 32
  have hstart : s.offset.toNat = r.offset.toNat + r.length.toNat := by
    rw [← hend, UInt8.toNat_add, Nat.mod_eq_of_lt (by omega)]
  have hsum : (r.length + s.length).toNat = r.length.toNat + s.length.toNat := by
    rw [UInt8.toNat_add, Nat.mod_eq_of_lt (by omega)]
  refine ⟨?_, h.contiguous.concat haddress.symm (by rw [← h.length]; exact hstart)
    (by rw [← h.length]; exact hfull), ?_, by simp, ?_⟩
  · rw [LoggedRange.extend, h.ids, List.map_append, List.map_singleton]
  · rw [LoggedRange.extend, hsum, totalLength_concat, h.length]
  · rw [LoggedRange.extend, hsum]
    show r.offset.toNat + _ < 40
    omega

end LoggedRange

theorem groupFrom_covers (h : r.Covers part) (hsources : ∀ s ∈ sources, s.Named) :
    ∃ parts, parts.flatten = part ++ sources ∧
      List.Forall₂ LoggedRange.Covers (groupFrom r sources) parts := by
  induction sources generalizing r part with
  | nil => exact ⟨[part], by simp, .cons h .nil⟩
  | cons s rest ih =>
    obtain ⟨hs, hrest⟩ := List.forall_mem_cons.1 hsources
    rw [groupFrom]
    split
    · obtain ⟨parts, hparts, hcovers⟩ := ih (h.extend hs ‹_›) hrest
      exact ⟨parts, by rw [hparts, List.append_assoc]; rfl, hcovers⟩
    · obtain ⟨parts, hparts, hcovers⟩ := ih (LoggedRange.covers_ofSource hs) hrest
      exact ⟨part :: parts, by rw [List.flatten_cons, hparts]; rfl, .cons h hcovers⟩

/-- **Grouping cuts loggers into contiguous pieces**, and neither drops nor moves any. -/
theorem groupLoggers_covers (hsources : ∀ s ∈ sources, s.Named) :
    ∃ parts, parts.flatten = sources ∧
      List.Forall₂ LoggedRange.Covers (groupLoggers sources) parts := by
  cases sources with
  | nil => exact ⟨[], rfl, .nil⟩
  | cons s rest =>
    obtain ⟨hs, hrest⟩ := List.forall_mem_cons.1 hsources
    exact groupFrom_covers (LoggedRange.covers_ofSource hs) hrest

/-- The ids of the ranges are those of the loggers, in their order. -/
theorem ids_groupLoggers (hsources : ∀ s ∈ sources, s.Named) :
    ((groupLoggers sources).map LoggedRange.ids).flatten = sources.map LoggerSource.id := by
  obtain ⟨parts, hparts, hcovers⟩ := groupLoggers_covers hsources
  have hids : List.Forall₂ (· = ·) ((groupLoggers sources).map LoggedRange.ids)
      (parts.map (List.map LoggerSource.id)) :=
    List.forall₂_map_left_iff.2 (List.forall₂_map_right_iff.2 (hcovers.imp fun _ _ h => h.ids))
  rw [List.forall₂_eq_eq_eq] at hids
  rw [hids, ← List.map_flatten, hparts]

/-- A range is covered by some of the loggers. -/
theorem exists_part_of_mem (hsources : ∀ s ∈ sources, s.Named) (hr : r ∈ groupLoggers sources) :
    ∃ part, r.Covers part ∧ ∀ s ∈ part, s ∈ sources := by
  obtain ⟨parts, hparts, hcovers⟩ := groupLoggers_covers hsources
  obtain ⟨part, hpart, hr⟩ := exists_of_mem_forall₂ hcovers hr
  exact ⟨part, hr, fun s hs => hparts ▸ List.mem_flatten.2 ⟨part, hpart, hs⟩⟩

/-- Each logger is in a range of its own address. -/
theorem exists_range_of_mem (hsources : ∀ s ∈ sources, s.Named) (hs : s ∈ sources) :
    ∃ r ∈ groupLoggers sources, r.address = s.address := by
  obtain ⟨parts, hparts, hcovers⟩ := groupLoggers_covers hsources
  rw [← hparts, List.mem_flatten] at hs
  obtain ⟨part, hpart, hs⟩ := hs
  obtain ⟨r, hr, hcovered⟩ := exists_of_mem_forall₂ hcovers.flip hpart
  exact ⟨r, hr, (hcovered.contiguous.address s hs).symm⟩

end SignalRoute
