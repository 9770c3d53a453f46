import SignalRoute.Proofs.Signal.Regular
import SignalRoute.Route.Draft

/-!
# Signals within signals

What a fuser joins and what an accounter puts together are signals of their own, the parts of the
output, and these can have parts again.  A signal is nested if all that is read of it lies within
its first sample: its parts do, and so do theirs.  Only the channels of a vector need not, because
a vector is read without them.

Nested signals stay so when they are moved (`Signal.Nested.atOffset`), and `infer_nested`: what a
processor puts out is nested, as long as the parts of an accounter or a fuser fit in one
notification.

The two constructors are the two ways in which `decode` goes.  A signal that is flat is read as it
is, whatever parts it has, and these have no parts themselves.  A signal that is joined is read by
its parts, which are nested in turn and lie within.  Then it has one sample: the copies of a signal
leave the parts where they are, so several samples of joined parts would all be read from the first.

Moving needs room below and above.  An offset is a byte, and `movedOffset` wraps; if neither end of
the signal leaves the bytes then no part does, since the parts lie between them (`Within.moved`).
So one check of the whole is enough, and the induction hands it on.
-/

set_option autoImplicit false

namespace SignalRoute

/-- Is a signal of this kind read by its parts? -/
def SignalKind.readsParts : SignalKind → Bool
  | .fused | .accounted => true
  | _ => false

namespace Signal

/-- All bytes of `t` are bytes of the first sample of `s`. -/
structure Within (t s : Signal) : Prop where
  start : s.shape.offset.toNat ≤ t.shape.offset.toNat
  stop : t.shape.offset.toNat + t.shape.length.toNat ≤
    s.shape.offset.toNat + s.shape.length.toNat

/-- All that is read of the signal lies within its first sample, or within each sample if there are
several of them. -/
inductive Nested : Signal → Prop
  /-- A signal that is read without its parts. -/
  | flat {s : Signal} (kind : s.kind.readsParts = true → s.parts = [])
      (leaves : ∀ t ∈ s.parts, t.parts = []) : Nested s
  /-- One sample that is read by its parts. -/
  | joined {s : Signal} (copies : s.shape.copies ≤ 1) (within : ∀ t ∈ s.parts, t.Within s)
      (parts : ∀ t ∈ s.parts, Nested t) : Nested s

theorem toNat_movedOffset {offset : UInt8} {distance : Int}
    (hlow : 0 ≤ (offset.toNat : Int) + distance) (hhigh : (offset.toNat : Int) + distance ≤ 255) :
    ((movedOffset offset distance).toNat : Int) = offset.toNat + distance := by
  rw [movedOffset, UInt8.toNat_ofNat', Nat.mod_eq_of_lt (by omega)]
  omega

/-- A part of a moved signal keeps its place in it. -/
theorem Within.moved {s t : Signal} (h : t.Within s) {distance : Int}
    (hlow : 0 ≤ (s.shape.offset.toNat : Int) + distance)
    (hhigh : (s.shape.offset.toNat : Int) + distance + s.shape.length.toNat ≤ 255) :
    (t.shifted distance).Within (s.shifted distance) := by
  obtain ⟨hstart, hstop⟩ := h
  have hs := toNat_movedOffset hlow (by omega)
  have ht := @toNat_movedOffset t.shape.offset distance (by omega) (by omega)
  constructor
  · rw [shape_shifted, shape_shifted]
    dsimp only
    omega
  · rw [shape_shifted, shape_shifted]
    show (movedOffset t.shape.offset distance).toNat + t.shape.length.toNat ≤
      (movedOffset s.shape.offset distance).toNat + s.shape.length.toNat
    omega

/-- A change that leaves shapes alone leaves parts where they are. -/
theorem Within.map {s t : Signal} {f : Signal → Signal} (hshape : ∀ s, (f s).shape = s.shape)
    (h : t.Within s) : (f t).Within (f s) := by
  constructor
  · rw [hshape, hshape]
    exact h.start
  · rw [hshape, hshape]
    exact h.stop

namespace Nested

variable {s t : Signal}

theorem of_no_parts (h : s.parts = []) : s.Nested :=
  .flat (fun _ => h) fun t ht => by
    rw [h] at ht
    cases ht

theorem part (h : s.Nested) (ht : t ∈ s.parts) : t.Nested := by
  cases h with
  | flat kind leaves => exact of_no_parts (leaves t ht)
  | joined copies within parts => exact parts t ht

/-- A signal whose parts are the channels of a vector, or that has none. -/
theorem withChannels (s : Signal) : s.withChannels.Nested := by
  refine .flat (fun hkind => ?_) fun t ht => ?_
  · show s.channelParts = []
    rw [channelParts]
    split
    · rename_i scale hscale
      have hvector : s.kind.readsParts = true := hkind
      rw [hscale] at hvector
      cases hvector
    · rfl
  · obtain ⟨scale, shape, k, -, -, rfl⟩ := mem_channelParts.1 ht
    rfl

/-! ## Changed copies

A copy with another id or input keeps kinds and shapes, and then all of this (`Nested.map`).  A
shifted copy has other offsets, and needs the room.
-/

/-- A change that goes down to the parts and leaves kinds and shapes alone. -/
theorem map {f : Signal → Signal} (hkind : ∀ s, (f s).kind = s.kind)
    (hshape : ∀ s, (f s).shape = s.shape) (hparts : ∀ s, (f s).parts = s.parts.map f)
    (h : s.Nested) : (f s).Nested := by
  induction h with
  | @flat s kind leaves =>
    refine .flat (fun hk => ?_) fun t ht => ?_
    · rw [hparts, kind (hkind s ▸ hk), List.map_nil]
    · rw [hparts] at ht
      obtain ⟨u, hu, rfl⟩ := List.mem_map.1 ht
      rw [hparts, leaves u hu, List.map_nil]
  | @joined s copies within _ ih =>
    refine .joined (hshape s ▸ copies) (fun t ht => ?_) fun t ht => ?_
    all_goals
      rw [hparts] at ht
      obtain ⟨u, hu, rfl⟩ := List.mem_map.1 ht
    · exact (within u hu).map hshape
    · exact ih u hu

theorem withId (h : s.Nested) (id : UInt8) : (s.withId id).Nested :=
  h.map (kind_withId · id) (shape_withId · id) (parts_withId · id)

theorem withInput (h : s.Nested) (feed : Signal) : (s.withInput feed).Nested :=
  h.map (f := fun t => t.withInput feed) (kind_withInput · feed) (shape_withInput · feed)
    (parts_withInput · feed)

theorem resolve {c : Cursor} (h : c.signal.Nested) (placed : List Placed) :
    (c.resolve placed).Nested := by
  rw [Cursor.resolve]
  split
  · exact (h.withId _).withInput _
  · exact h

/-- The offsets of a signal and of all its parts move by the same distance, if the signal stays
among the bytes that an offset counts. -/
theorem shifted (h : s.Nested) {distance : Int} (hlow : 0 ≤ (s.shape.offset.toNat : Int) + distance)
    (hhigh : (s.shape.offset.toNat : Int) + distance + s.shape.length.toNat ≤ 255) :
    (s.shifted distance).Nested := by
  induction h with
  | @flat s kind leaves =>
    refine .flat (fun hk => ?_) fun t ht => ?_
    · rw [parts_shifted, kind (kind_shifted s distance ▸ hk), List.map_nil]
    · rw [parts_shifted] at ht
      obtain ⟨u, hu, rfl⟩ := List.mem_map.1 ht
      rw [parts_shifted, leaves u hu, List.map_nil]
  | @joined s copies within _ ih =>
    refine .joined (by rwa [shape_shifted]) (fun t ht => ?_) fun t ht => ?_
    all_goals
      rw [parts_shifted] at ht
      obtain ⟨u, hu, rfl⟩ := List.mem_map.1 ht
      obtain ⟨hstart, hstop⟩ := within u hu
    · exact (within u hu).moved hlow hhigh
    · exact ih u hu (by omega) (by omega)

theorem atOffset (h : s.Nested) {offset : UInt8}
    (hfits : offset.toNat + s.shape.length.toNat ≤ 255) : (s.atOffset offset).Nested :=
  h.shifted (by omega) (by omega)

end Nested
end Signal

theorem Catalog.nested_standard {root : Signal}
    (h : root ∈ standard.producers.map Producer.signal) : root.Nested := by
  obtain ⟨address, shape, kind, rfl, -⟩ := standard_cases h
  exact .withChannels _

/-! ## What processors put out

`stacked` puts signals behind each other with an addition that stops at 255.  Under the check of a
fuser it never does, so the offsets are the sums that they look like (`toNat_stacked`), and
`stacked_keeps` carries any property over that is kept by moving within the limit: nested, enclosing
and well-formed signals all go through it.  What is kept by every move, as to be regular or to fit,
needs no limit (`exists_of_mem_stacked`).
-/

/-- An output and a state that are nested. -/
structure Inferred.Nested (i : Inferred) : Prop where
  output : i.output.Nested
  state : ∀ s, i.state = some s → s.Nested

theorem Inferred.nested_emitting (s : Signal) (p : Processor) (shape : Shape) (kind : SignalKind) :
    (emitting s p shape kind).Nested :=
  ⟨.withChannels _, fun _ hs => nomatch hs⟩

theorem Inferred.nested_keeping (s : Signal) (p : Processor) (shape shape' : Shape)
    (kind kind' : SignalKind) :
    Inferred.Nested ⟨notifies s p shape kind, some (keeps s p shape' kind')⟩ := by
  refine ⟨.withChannels _, fun t ht => ?_⟩
  cases ht
  exact .withChannels _

/-- Where the signals behind each other end. -/
theorem toNat_stacked {fused : List Signal} {offset : UInt8}
    (hfits : offset.toNat + sumCounts (fused.map fun s => s.shape.length.toNat) ≤ 255) :
    (stacked offset fused).2.toNat =
      offset.toNat + sumCounts (fused.map fun s => s.shape.length.toNat) := by
  induction fused generalizing offset with
  | nil => rfl
  | cons s rest ih =>
    rw [List.map_cons, sumCounts] at hfits ⊢
    have hnext := toNat_satAdd (a := offset) (b := s.shape.length) (by omega)
    show (stacked (satAdd offset s.shape.length) rest).2.toNat = _
    rw [ih (by omega), hnext, Nat.add_assoc]

/-- The signals behind each other lie where they were put. -/
theorem stacked_stop_le {fused : List Signal} {offset : UInt8}
    (hfits : offset.toNat + sumCounts (fused.map fun s => s.shape.length.toNat) ≤ 255) :
    ∀ t ∈ (stacked offset fused).1, t.shape.offset.toNat + t.shape.length.toNat ≤
      offset.toNat + sumCounts (fused.map fun s => s.shape.length.toNat) := by
  induction fused generalizing offset with
  | nil => exact fun t ht => nomatch ht
  | cons s rest ih =>
    rw [List.map_cons, sumCounts] at hfits ⊢
    have hnext := toNat_satAdd (a := offset) (b := s.shape.length) (by omega)
    intro t ht
    rcases List.mem_cons.1 ht with rfl | ht
    · rw [s.shape_atOffset]
      show offset.toNat + s.shape.length.toNat ≤ _
      omega
    · have := ih (by omega) t ht
      omega

/-- What signals keep that are moved within so many bytes is kept by signals behind each other. -/
theorem stacked_keeps {good : Signal → Prop} {limit : Nat} (hlimit : limit ≤ 255)
    (hmoved : ∀ s, good s → ∀ offset : UInt8, offset.toNat + s.shape.length.toNat ≤ limit →
      good (s.atOffset offset))
    {fused : List Signal} (h : ∀ s ∈ fused, good s) {offset : UInt8}
    (hfits : offset.toNat + sumCounts (fused.map fun s => s.shape.length.toNat) ≤ limit) :
    ∀ t ∈ (stacked offset fused).1, good t := by
  induction fused generalizing offset with
  | nil => exact fun t ht => nomatch ht
  | cons s rest ih =>
    rw [List.map_cons, sumCounts] at hfits
    have hnext := toNat_satAdd (a := offset) (b := s.shape.length) (by omega)
    intro t ht
    rcases List.mem_cons.1 ht with rfl | ht
    · exact hmoved s (h s List.mem_cons_self) offset (by omega)
    · exact ih (fun u hu => h u (List.mem_cons_of_mem _ hu)) (by omega) t ht

/-- The lead is at the start, and the data behind it. -/
theorem Signal.within_accounted {s o lead : Signal} {size : UInt8}
    (ho : o.shape = ⟨[size, s.shape.length], 1, 0, false⟩) (hlead : lead.shape = .scalar size false)
    (hfits : size.toNat + s.shape.length.toNat ≤ 255) :
    ∀ t ∈ [lead, s.atOffset size], t.Within o := by
  have hlength : o.shape.length.toNat = size.toNat + s.shape.length.toNat := by
    rw [ho, Shape.length, sumBytes, sumBytes, sumBytes, UInt8.add_zero, UInt8.toNat_add,
      Nat.mod_eq_of_lt (by omega)]
  have hstart : o.shape.offset.toNat = 0 := by
    rw [ho]
    rfl
  intro t ht
  refine ⟨hstart ▸ Nat.zero_le _, ?_⟩
  rw [hstart, hlength]
  rcases List.mem_cons.1 ht with rfl | ht
  · rw [hlead]
    show 0 + (size + 0).toNat ≤ _
    rw [UInt8.add_zero]
    omega
  · rw [List.mem_singleton.1 ht, s.shape_atOffset]
    show size.toNat + s.shape.length.toNat ≤ _
    omega

/-- The data are at the start, and the buffers behind them. -/
theorem Signal.within_fused {s o : Signal} {fused : List Signal}
    (ho : o.shape = ⟨[(stacked s.shape.length fused).2], 1, 0, false⟩)
    (hfits : Drafting.fusedWidth s fused ≤ 255) :
    ∀ t ∈ s.atOffset 0 :: (stacked s.shape.length fused).1, t.Within o := by
  have hlength : o.shape.length.toNat =
      s.shape.length.toNat + sumCounts (fused.map fun s => s.shape.length.toNat) := by
    rw [ho, Shape.length, sumBytes, sumBytes, UInt8.add_zero, toNat_stacked hfits]
  have hstart : o.shape.offset.toNat = 0 := by
    rw [ho]
    rfl
  intro t ht
  refine ⟨hstart ▸ Nat.zero_le _, ?_⟩
  rw [hstart, hlength, Nat.zero_add]
  rcases List.mem_cons.1 ht with rfl | ht
  · rw [s.shape_atOffset]
    show 0 + s.shape.length.toNat ≤ _
    omega
  · exact stacked_stop_le hfits t ht

/-- What the processor joins fits in one notification. -/
def Processor.HasRoom (p : Processor) (s : Signal) (fused : List Signal) : Prop :=
  match p with
  | .accounter c => c.size.toNat + s.shape.length.toNat ≤ maxPayload
  | .fuser _ => Drafting.fusedWidth s fused ≤ maxPayload
  | _ => True

/-- **What a processor puts out is nested**, if it comes from nested signals that it has room
for. -/
theorem infer_nested {s : Signal} {p : Processor} {fused : List Signal} {i : Inferred}
    (h : infer s p fused = .ok i) (hs : s.Nested) (hfused : ∀ t ∈ fused, t.Nested)
    (hroom : p.HasRoom s fused) : i.Nested := by
  cases infer_made h with
  | emitting hp => exact Inferred.nested_emitting _ _ _ _
  | keeping hp hstate => exact Inferred.nested_keeping _ _ _ _ _ _
  | @accounted c =>
    have hfits : c.size.toNat + s.shape.length.toNat ≤ 255 := Nat.le_trans hroom (by decide)
    refine ⟨.joined (UInt8.le_refl 1) (Signal.within_accounted rfl rfl hfits) fun t ht => ?_,
      fun t ht => nomatch ht⟩
    rcases List.mem_cons.1 ht with rfl | ht
    · exact .withChannels _
    · rw [List.mem_singleton.1 ht]
      exact hs.atOffset hfits
  | fused =>
    have hfits : Drafting.fusedWidth s fused ≤ 255 := Nat.le_trans hroom (by decide)
    refine ⟨.joined (UInt8.le_refl 1) (Signal.within_fused rfl hfits) fun t ht => ?_,
      fun t ht => nomatch ht⟩
    rcases List.mem_cons.1 ht with rfl | ht
    · refine hs.atOffset ?_
      show 0 + s.shape.length.toNat ≤ 255
      rw [Nat.zero_add]
      exact Nat.le_trans (Nat.le_add_right _ _) hfits
    · exact stacked_keeps (Nat.le_refl _) (fun u hu _ => hu.atOffset) hfused hfits t ht

end SignalRoute
