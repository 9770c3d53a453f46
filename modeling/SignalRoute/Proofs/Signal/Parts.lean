import SignalRoute.Log.Anonymous
import SignalRoute.Proofs.Signal.Copies
import SignalRoute.Proofs.Signal.Layout

/-!
# The channels of a vector

The parts of a vector are its channels, each with the address and the processor of the vector.  A
vector of several channels has no channel that lies where all of it lies, and no two channels that
lie at the same place; so a byte range that the vector or one of its channels fills tells which one
it is (`select_self`, `select_of_mem_parts`).

These lemmas are about reading tables back.  The board stores a byte range and nothing else of what
a log or a reaction reads, and `Signal.select` looks for it: first whether the whole signal fills
the range, then for the first part that does.  A vector of one channel would answer for it, and two
channels at one place would answer for each other.  `Signal.Tame` rules out both.
-/

set_option autoImplicit false

namespace SignalRoute

def SignalKind.isVector : SignalKind → Bool
  | .vector _ => true
  | _ => false

namespace Signal

/-- The signal reduced to channel `k`. -/
def channelPart (s : Signal) (scale : Float32) (shape : Shape) (k : Nat) : Signal :=
  { s with shape := shape, kind := .float scale, parts := [], index := some k }

theorem mem_channelParts {s t : Signal} :
    t ∈ s.channelParts ↔ ∃ scale shape k, s.kind = .vector scale ∧
      s.shape.channel? k = some shape ∧ t = s.channelPart scale shape k := by
  rw [channelParts]
  split
  · rename_i scale hkind
    simp only [List.mem_filterMap, List.mem_range, Option.map_eq_some_iff]
    constructor
    · rintro ⟨k, -, shape, hshape, rfl⟩
      exact ⟨scale, shape, k, hkind, hshape, rfl⟩
    · rintro ⟨scale', shape, k, hkind', hshape, rfl⟩
      obtain ⟨size, hsize, -⟩ := Shape.channel?_eq_some hshape
      rw [hkind] at hkind'
      cases hkind'
      exact ⟨k, (List.getElem?_eq_some_iff.1 hsize).1, shape, hshape, rfl⟩
  · rename_i hkind
    constructor
    · intro ht
      cases ht
    · rintro ⟨scale, shape, k, hkind', -⟩
      exact absurd hkind' (hkind scale)

/-! ## Changed copies of channels

Making channels and changing a copy commute, so the channels of a resolved vector are the resolved
channels.
-/

theorem withId_channelPart (id : UInt8) (s : Signal) (scale : Float32) (shape : Shape) (k : Nat) :
    (s.channelPart scale shape k).withId id = (s.withId id).channelPart scale shape k := by
  cases s; rfl

theorem withInput_channelPart (s feed : Signal) (scale : Float32) (shape : Shape) (k : Nat) :
    (s.channelPart scale shape k).withInput feed =
      (s.withInput feed).channelPart scale shape k := by
  cases s; rfl

/-- A change that goes down to the channels changes the list of them. -/
theorem channelParts_map {f : Signal → Signal} {s : Signal} (hkind : (f s).kind = s.kind)
    (hshape : (f s).shape = s.shape)
    (hpart : ∀ scale shape k, f (s.channelPart scale shape k) = (f s).channelPart scale shape k) :
    (f s).channelParts = s.channelParts.map f := by
  rw [channelParts, hkind, channelParts]
  split
  · rw [hshape, List.map_filterMap]
    refine List.filterMap_congr fun k _ => ?_
    rw [Option.map_map]
    exact congrArg (fun f => Option.map f (s.shape.channel? k))
      (funext fun shape => (hpart _ shape k).symm)
  · rfl

theorem channelParts_withId (id : UInt8) (s : Signal) :
    (s.withId id).channelParts = s.channelParts.map (withId id) :=
  channelParts_map (s.kind_withId id) (s.shape_withId id) (withId_channelPart id s)

theorem channelParts_withInput (s feed : Signal) :
    (s.withInput feed).channelParts = s.channelParts.map fun t => t.withInput feed :=
  channelParts_map (f := fun t => t.withInput feed) (s.kind_withInput feed)
    (s.shape_withInput feed) (s.withInput_channelPart feed)

theorem resolve_channelPart (s : Signal) (stage : Option Nat) (placed : List Placed)
    (scale : Float32) (shape : Shape) (k : Nat) :
    (⟨s.channelPart scale shape k, stage⟩ : Cursor).resolve placed =
      ((⟨s, stage⟩ : Cursor).resolve placed).channelPart scale shape k := by
  simp only [Cursor.resolve]
  split
  · rw [withId_channelPart, withInput_channelPart]
  · rfl

/-! ## Tame signals

Fused and accounted signals have parts as well, which can be of any kind and lie anywhere in it.
Nothing is said of those.
-/

/-- A signal of a tame shape.  A vector has several channels, and these are its parts. -/
structure Tame (s : Signal) : Prop where
  shape : s.shape.Tame
  vector : s.kind.isVector = true → 2 ≤ s.shape.channels ∧ s.parts = s.channelParts

namespace Tame

variable {s t : Signal}

/-- A part of a vector is one of its channels. -/
theorem part_eq (h : s.Tame) (hv : s.kind.isVector = true) (ht : t ∈ s.parts) :
    ∃ scale shape k, s.kind = .vector scale ∧ s.shape.channel? k = some shape ∧
      t = s.channelPart scale shape k := by
  rwa [(h.vector hv).2, mem_channelParts] at ht

theorem part (h : s.Tame) (hv : s.kind.isVector = true) (ht : t ∈ s.parts) : t.Tame := by
  obtain ⟨scale, shape, k, -, hshape, rfl⟩ := h.part_eq hv ht
  refine ⟨h.shape.channel hshape, fun hv => ?_⟩
  cases hv

/-- A change that goes down to the parts, and keeps kind and shape, keeps a signal tame. -/
theorem map {f : Signal → Signal} (h : s.Tame) (hkind : (f s).kind = s.kind)
    (hshape : (f s).shape = s.shape) (hparts : (f s).parts = s.parts.map f)
    (hchannels : (f s).channelParts = s.channelParts.map f) : (f s).Tame := by
  refine ⟨hshape ▸ h.shape, fun hv => ?_⟩
  rw [hkind] at hv
  obtain ⟨hmany, hown⟩ := h.vector hv
  rw [hshape, hparts, hchannels, hown]
  exact ⟨hmany, rfl⟩

theorem withId (h : s.Tame) (id : UInt8) : (s.withId id).Tame :=
  h.map (s.kind_withId id) (s.shape_withId id) (s.parts_withId id) (channelParts_withId id s)

theorem withInput (h : s.Tame) (feed : Signal) : (s.withInput feed).Tame :=
  h.map (f := fun t => t.withInput feed) (s.kind_withInput feed) (s.shape_withInput feed)
    (s.parts_withInput feed) (channelParts_withInput s feed)

theorem resolve {c : Cursor} (h : c.signal.Tame) (placed : List Placed) :
    (c.resolve placed).Tame := by
  rw [Cursor.resolve]
  split
  · exact (h.withId _).withInput _
  · exact h

end Tame

/-! ## Pieces

A log of a whole signal and a log of one channel of a vector are read back alike, and this is what
they have in common.  A channel has no channels, so a piece of a piece is a piece.
-/

/-- A signal, or a channel of it if it is a vector. -/
def IsPieceOf (t s : Signal) : Prop := t = s ∨ s.kind.isVector = true ∧ t ∈ s.parts

theorem Tame.address_piece {s t : Signal} (h : s.Tame) (ht : t.IsPieceOf s) :
    t.address = s.address := by
  rcases ht with rfl | ⟨hv, ht⟩
  · rfl
  · obtain ⟨scale, shape, k, -, -, rfl⟩ := h.part_eq hv ht
    rfl

/-- A piece of a channel on the board is a piece of the vector. -/
theorem Tame.isPieceOf_resolve {c : Cursor} {part t : Signal} (h : c.signal.Tame)
    (hv : c.signal.kind.isVector = true) (hpart : part ∈ c.signal.parts) {placed : List Placed}
    (ht : t.IsPieceOf ((⟨part, c.stage⟩ : Cursor).resolve placed)) :
    t.IsPieceOf (c.resolve placed) := by
  obtain ⟨scale, shape, k, hkind, hshape, rfl⟩ := h.part_eq hv hpart
  have hv' : (c.resolve placed).kind.isVector = true := by rwa [c.kind_resolve]
  rw [resolve_channelPart] at ht
  rcases ht with rfl | ⟨hnot, -⟩
  · refine .inr ⟨hv', ?_⟩
    rw [((h.resolve placed).vector hv').2, mem_channelParts, c.kind_resolve, c.shape_resolve]
    exact ⟨scale, shape, k, hkind, hshape, rfl⟩
  · -- a channel is no vector
    cases hnot

/-! ## Selecting

The search returns the first part that fills the range.  It is the one that was meant because
channels with bytes do not begin at the same place (`Shape.Tame.channel_inj`), and the vector does
not answer before its channels because it is longer than each (`Shape.Tame.bytes_channel_lt`).
-/

theorem fills_iff {s : Signal} {offset length : UInt8} :
    s.fills offset length = true ↔ s.shape.offset = offset ∧ s.shape.unitLength = length := by
  rw [fills, Bool.and_eq_true, beq_iff_eq, beq_iff_eq]

theorem select_self (s : Signal) : s.select s.shape.offset s.shape.unitLength = s := by
  rw [select, if_pos (fills_iff.2 ⟨rfl, rfl⟩)]

/-- The byte range of a channel selects the channel. -/
theorem Tame.select_of_mem_parts {s t : Signal} (h : s.Tame) (hv : s.kind.isVector = true)
    (ht : t ∈ s.parts) : s.select t.shape.offset t.shape.unitLength = t := by
  obtain ⟨scale, shape, k, hkind, hshape, heq⟩ := h.part_eq hv ht
  have hwhole : s.fills t.shape.offset t.shape.unitLength ≠ true := by
    intro hfills
    obtain ⟨-, hlength⟩ := fills_iff.1 hfills
    have htame := h.part hv ht
    have hbytes := congrArg UInt8.toNat hlength
    rw [h.shape.toNat_unitLength, htame.shape.toNat_unitLength, heq] at hbytes
    have := h.shape.bytes_channel_lt (h.vector hv).1 hshape
    simp only [channelPart] at hbytes
    omega
  have hfind : s.parts.find? (fills t.shape.offset t.shape.unitLength) = some t := by
    cases hfound : s.parts.find? (fills t.shape.offset t.shape.unitLength) with
    | none =>
      rw [List.find?_eq_none] at hfound
      exact absurd (fills_iff.2 ⟨rfl, rfl⟩) (hfound t ht)
    | some t' =>
      have hfills := fills_iff.1 (List.find?_some hfound)
      obtain ⟨scale', shape', k', hkind', hshape', heq'⟩ :=
        h.part_eq hv (List.mem_of_find?_eq_some hfound)
      have hsame : k' = k := by
        refine h.shape.channel_inj hshape' hshape ?_
        rw [heq, heq'] at hfills
        exact hfills.1
      rw [hkind] at hkind'
      cases hkind'
      rw [hsame, hshape] at hshape'
      cases hshape'
      rw [heq, heq', hsame]
  rw [select, if_neg hwhole, hfind]

end Signal

/-! ## Built-in sensors

The catalog of a board has nine sensors, but these have only two layouts: three signed words, and one
number.  What is proved of all of them is proved of the two.
-/

/-- A built-in sensor is a root with channels of two bytes, or with one of up to four that is no
vector. -/
theorem Catalog.standard_cases {root : Signal}
    (h : root ∈ standard.producers.map Producer.signal) :
    ∃ address shape kind, root = .root address shape kind ∧
      (shape = ⟨List.replicate 3 2, 1, 0, true⟩ ∨
        ∃ size signed, 1 ≤ size ∧ size ≤ 4 ∧ shape = .scalar size signed ∧
          kind.isVector = false) := by
  simp only [standard, List.map_cons, List.map_nil, List.mem_cons, List.not_mem_nil, or_false] at h
  rcases h with rfl | rfl | rfl | rfl | rfl | rfl | rfl | rfl | rfl
  all_goals
    refine ⟨_, _, _, rfl, ?_⟩
    first
    | exact .inl rfl
    | exact .inr ⟨_, _, by decide, by decide, rfl, rfl⟩

end SignalRoute
