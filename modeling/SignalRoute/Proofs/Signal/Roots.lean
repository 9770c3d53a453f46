import SignalRoute.Proofs.Signal.Parts

/-!
# Which root is found

A look-up in the catalog goes through the producers at an address in the order in which they were
registered, and stops at the first that fills the byte range.  What it finds does not depend on that
order: a producer if there is one that fills the range, else a channel if there is one that does,
else plain bytes (`Catalog.findRoot_answers`).

Whether it is exactly what was asked for depends on the answer (`Catalog.findRoot_exact_iff`).  The
offset and the width of a sample always are.  A producer is given the id that was asked for, but a
channel keeps the id of its producer, and a producer of several samples fills the range with one of
them and brings the others along.  So the width that finds such a producer is not the width of all
that it puts out; asked for by the latter, it is not found, and plain bytes stand in for it
(`Catalog.findRoot_packed`).

The order of registration is kept out of the statements by `Catalog.Answers`, which names everything
that an answer may be: of several producers that fill a range, any one, though the look-up stops at
the first.
-/

set_option autoImplicit false

namespace SignalRoute

/-! ## Answers -/

namespace RootMatch

def isWhole : RootMatch → Bool
  | whole _ => true
  | _ => false

def isPart : RootMatch → Bool
  | part _ => true
  | _ => false

def isPlaceholder : RootMatch → Bool
  | placeholder _ => true
  | _ => false

end RootMatch

namespace Catalog

/-- The signals of the producers that can stand behind an address, oldest first. -/
def signalsAt (c : Catalog) (a : Address) : List Signal :=
  (c.producers.map Producer.signal).filter fun s => compatible s.address a

/-- One sample of a producer at an address fills a byte range.  Further samples behind it do not
count: a producer that packs three samples of two bytes fills two bytes, not six. -/
def HasWhole (c : Catalog) (a : Address) (offset length : UInt8) : Prop :=
  ∃ s ∈ c.signalsAt a, covers offset length s = true

/-- A channel of a producer at an address fills a byte range. -/
def HasPart (c : Catalog) (a : Address) (offset length : UInt8) : Prop :=
  ∃ s ∈ c.signalsAt a, ∃ t ∈ s.parts, covers offset length t = true

/-- What can be found at an address.  Of several producers, or several channels, it may be any. -/
inductive Answers (c : Catalog) (a : Address) (offset length : UInt8) : RootMatch → Prop
  | whole {s : Signal} (hs : s ∈ c.signalsAt a) (hcovers : covers offset length s = true) :
      Answers c a offset length (.whole (s.withId a.id))
  | part (hwhole : ¬c.HasWhole a offset length) {s t : Signal} (hs : s ∈ c.signalsAt a)
      (ht : t ∈ s.parts) (hcovers : covers offset length t = true) :
      Answers c a offset length (.part t)
  | placeholder (hwhole : ¬c.HasWhole a offset length) (hpart : ¬c.HasPart a offset length) :
      Answers c a offset length (.placeholder (.root a ⟨[length], 1, offset, false⟩ .bytes))

variable {c : Catalog} {a : Address} {offset length : UInt8}

/-- **A look-up finds what can be found**, whatever the order of the producers. -/
theorem findRoot_answers (c : Catalog) (a : Address) (offset length : UInt8) :
    c.Answers a offset length (c.findRoot a offset length) := by
  rw [findRoot, ← signalsAt]
  cases hwhole : (c.signalsAt a).find? (covers offset length) with
  | some s => exact .whole (List.mem_of_find?_eq_some hwhole) (List.find?_some hwhole)
  | none =>
    have hnone : ¬c.HasWhole a offset length := fun ⟨s, hs, hcovers⟩ =>
      List.find?_eq_none.1 hwhole s hs hcovers
    cases hpart : (c.signalsAt a).findSome? fun s => s.parts.find? (covers offset length) with
    | some t =>
      obtain ⟨s, hs, ht⟩ := List.exists_of_findSome?_eq_some hpart
      exact .part hnone hs (List.mem_of_find?_eq_some ht) (List.find?_some ht)
    | none =>
      refine .placeholder hnone fun ⟨s, hs, t, ht, hcovers⟩ => ?_
      exact List.find?_eq_none.1 (List.findSome?_eq_none_iff.1 hpart s hs) t ht hcovers

theorem compatible_iff {a address : Address} :
    compatible a address = true ↔
      a.module = address.module ∧ a.register = address.register ∧
        (a.id = noId ∨ a.id = address.id) := by
  simp [compatible, Address.hasId, and_assoc]

/-- An address that is compatible with another is that other one, unless it has no id. -/
theorem eq_iff_of_compatible {a address : Address} (h : compatible a address = true) :
    a = address ↔ ¬(a.hasId = false ∧ address.hasId = true) := by
  obtain ⟨hmodule, hregister, hid⟩ := compatible_iff.1 h
  obtain ⟨module, register, id⟩ := a
  obtain ⟨module', register', id'⟩ := address
  simp only [Address.hasId, bne_eq_false_iff_eq, bne_iff_ne, Address.mk.injEq] at *
  grind

theorem compatible_of_mem {s : Signal} (h : s ∈ c.signalsAt a) :
    compatible s.address a = true := (List.mem_filter.1 h).2

theorem covers_iff {s : Signal} :
    covers offset length s = true ↔ s.shape.offset = offset ∧ s.shape.length = length := by
  simp [covers]

/-! ## Registered roots -/

/-- The catalogs that registrations of roots lead to. -/
inductive Registered : Catalog → Prop
  | empty : Registered .empty
  | register {c : Catalog} (hc : Registered c) (name : String) (address : Address) (shape : Shape)
      (kind : SignalKind) : Registered (c.register name (.root address shape kind))

/-- Roots with names of their own can be registered, one after the other. -/
theorem registered_of_roots {producers : List Producer}
    (hnames : (producers.map Producer.name).Nodup)
    (hroots : ∀ p ∈ producers, ∃ address shape kind, p.signal = .root address shape kind) :
    Registered ⟨producers⟩ := by
  induction producers using List.reverseRecOn with
  | nil => exact .empty
  | append_singleton before p ih =>
    rw [List.map_append, List.map_singleton, List.nodup_append] at hnames
    obtain ⟨hbefore, -, hfresh⟩ := hnames
    obtain ⟨address, shape, kind, hp⟩ :=
      hroots p (List.mem_append_right _ (List.mem_singleton_self p))
    have hregistered := ih hbefore fun q hq => hroots q (List.mem_append_left _ hq)
    -- nothing has the name, so nothing is replaced
    have hkept : before.filter (fun q => q.name != p.name) = before := by
      refine List.filter_eq_self.2 fun q hq => bne_iff_ne.2 ?_
      exact hfresh q.name (List.mem_map_of_mem hq) p.name (List.mem_singleton_self _)
    have hnext := hregistered.register p.name address shape kind
    rwa [Catalog.register, hkept, ← hp] at hnext

/-- The built-in sensors are registered roots. -/
theorem registered_standard : Registered standard := by
  refine registered_of_roots (by decide) fun p hp => ?_
  obtain ⟨address, shape, kind, hroot, -⟩ := standard_cases (List.mem_map_of_mem hp)
  exact ⟨address, shape, kind, hroot⟩

/-- What is registered are roots. -/
theorem Registered.exists_root (hc : c.Registered) {s : Signal}
    (hs : s ∈ c.producers.map Producer.signal) :
    ∃ address shape kind, s = .root address shape kind := by
  induction hc with
  | empty => cases hs
  | @register c hc name address shape kind ih =>
    obtain ⟨p, hp, rfl⟩ := List.mem_map.1 hs
    rcases List.mem_append.1 hp with hold | hnew
    · exact ih (List.mem_map_of_mem (List.mem_of_mem_filter hold))
    · rw [List.mem_singleton.1 hnew]
      exact ⟨address, shape, kind, rfl⟩

/-- Parts of a root are its channels: they have its address, and one sample each. -/
theorem address_of_mem_parts_root {address : Address} {shape : Shape} {kind : SignalKind}
    {t : Signal} (ht : t ∈ (Signal.root address shape kind).parts) :
    t.address = address ∧ t.shape.copies = 1 := by
  change t ∈ Signal.channelParts _ at ht
  obtain ⟨scale, channel, k, -, hchannel, rfl⟩ := Signal.mem_channelParts.1 ht
  obtain ⟨size, -, rfl⟩ := Shape.channel?_eq_some hchannel
  exact ⟨rfl, rfl⟩

/-- Samples of no width take no room, and beyond 255 bytes nothing is counted. -/
theorem satMul_eq_left_iff {m n : UInt8} :
    satMul m n = m ↔ n = 1 ∨ m = 0 ∨ m = 255 ∧ n ≠ 0 := by
  have hm := m.toNat_lt
  have hproduct : (satMul m n).toNat = min 255 (m.toNat * n.toNat) := by
    rw [satMul]
    split
    · rw [UInt8.toNat_mul, Nat.mod_eq_of_lt ‹_›]
      omega
    · simp only [UInt8.reduceToNat]
      omega
  have hone : n = 1 ↔ n.toNat = 1 := by simp [← UInt8.toNat_inj]
  have hzero : n = 0 ↔ n.toNat = 0 := by simp [← UInt8.toNat_inj]
  rw [← UInt8.toNat_inj, hproduct, hone, ne_eq, hzero]
  simp only [← UInt8.toNat_inj, UInt8.toNat_zero, UInt8.reduceToNat]
  -- two samples or more are wider than one, unless one is nothing or everything
  rcases n.toNat with _ | _ | more
  · omega
  · omega
  · rcases m.toNat.eq_zero_or_pos with hm | hm
    · simp [hm]
    · rw [Nat.mul_succ, Nat.mul_succ]
      omega

/-! ## How exact an answer is -/

namespace Answers

variable {found : RootMatch}

/-- Which kind of answer there is depends only on what there is to find. -/
theorem kinds (h : c.Answers a offset length found) :
    (found.isWhole = true ↔ c.HasWhole a offset length) ∧
      (found.isPart = true ↔ ¬c.HasWhole a offset length ∧ c.HasPart a offset length) ∧
      (found.isPlaceholder = true ↔
        ¬c.HasWhole a offset length ∧ ¬c.HasPart a offset length) := by
  cases h with
  | @whole s hs hcovers =>
    have hwhole : c.HasWhole a offset length := ⟨s, hs, hcovers⟩
    simp [RootMatch.isWhole, RootMatch.isPart, RootMatch.isPlaceholder, hwhole]
  | @part hwhole s t hs ht hcovers =>
    have hpart : c.HasPart a offset length := ⟨s, hs, t, ht, hcovers⟩
    simp [RootMatch.isWhole, RootMatch.isPart, RootMatch.isPlaceholder, hwhole, hpart]
  | placeholder hwhole hpart =>
    simp [RootMatch.isWhole, RootMatch.isPart, RootMatch.isPlaceholder, hwhole, hpart]

theorem range (h : c.Answers a offset length found) :
    found.signal.shape.offset = offset ∧ found.signal.shape.length = length := by
  cases h with
  | @whole s hs hcovers =>
    rw [RootMatch.signal, Signal.shape_withId]
    exact covers_iff.1 hcovers
  | part hwhole hs ht hcovers => exact covers_iff.1 hcovers
  | placeholder hwhole hpart => exact ⟨rfl, UInt8.add_zero length⟩

/-- A channel of what was registered is at the address of its producer, which has one that is
compatible with what was asked for. -/
theorem address_of_part (hc : c.Registered) {s t : Signal} (hs : s ∈ c.signalsAt a)
    (ht : t ∈ s.parts) : compatible t.address a = true ∧ t.shape.copies = 1 := by
  obtain ⟨address, shape, kind, rfl⟩ := hc.exists_root (List.mem_of_mem_filter hs)
  obtain ⟨haddress, hcopies⟩ := address_of_mem_parts_root ht
  exact ⟨haddress ▸ compatible_of_mem hs, hcopies⟩

/-- A producer that is found is given the id that was asked for. -/
theorem address_of_whole {s : Signal} (hs : s ∈ c.signalsAt a) : (s.withId a.id).address = a := by
  obtain ⟨hmodule, hregister, -⟩ := compatible_iff.1 (compatible_of_mem hs)
  rw [Signal.address_withId, Address.withId, hmodule, hregister]

theorem register (h : c.Answers a offset length found) (hc : c.Registered) :
    found.signal.address.module = a.module ∧ found.signal.address.register = a.register := by
  cases h with
  | whole hs hcovers =>
    rw [RootMatch.signal, address_of_whole hs]
    exact ⟨rfl, rfl⟩
  | part hwhole hs ht hcovers =>
    obtain ⟨hmodule, hregister, -⟩ := compatible_iff.1 (address_of_part hc hs ht).1
    exact ⟨hmodule, hregister⟩
  | placeholder hwhole hpart => exact ⟨rfl, rfl⟩

theorem address_eq_iff (h : c.Answers a offset length found) (hc : c.Registered) :
    found.signal.address = a ↔
      ¬(found.isPart = true ∧ found.signal.address.hasId = false ∧ a.hasId = true) := by
  cases h with
  | whole hs hcovers =>
    exact ⟨fun _ hpart => Bool.false_ne_true hpart.1, fun _ => address_of_whole hs⟩
  | part hwhole hs ht hcovers =>
    -- a compatible producer has the id that was asked for, or none
    have hexact := eq_iff_of_compatible (address_of_part hc hs ht).1
    simpa [RootMatch.signal, RootMatch.isPart] using hexact
  | placeholder hwhole hpart => exact ⟨fun _ hpart => Bool.false_ne_true hpart.1, fun _ => rfl⟩

theorem isWhole_of_copies (h : c.Answers a offset length found) (hc : c.Registered) :
    found.signal.shape.copies ≠ 1 → found.isWhole = true := by
  cases h with
  | whole hs hcovers => exact fun _ => rfl
  | part hwhole hs ht hcovers => exact fun hmany => absurd (address_of_part hc hs ht).2 hmany
  | placeholder hwhole hpart => exact fun hmany => absurd rfl hmany

end Answers

/-- **A look-up is exact**, but for the id of a channel and the samples of a producer.  Whatever
roots were registered, in whatever order: it finds a producer if one sample of it fills the range,
else a channel if one does, and else it makes plain bytes up.  What it finds has the module, the
register, the offset and the width of a sample that were asked for.  Its address is the one that was
asked for unless it is a channel of a producer without an id, asked for by an id.  Its bytes are as
many as were asked for unless it holds several samples, and then it is a producer. -/
theorem findRoot_exact_iff (hc : c.Registered) (a : Address) (offset length : UInt8) :
    let found := c.findRoot a offset length
    (found.isWhole = true ↔ c.HasWhole a offset length) ∧
      (found.isPart = true ↔ ¬c.HasWhole a offset length ∧ c.HasPart a offset length) ∧
      (found.isPlaceholder = true ↔
        ¬c.HasWhole a offset length ∧ ¬c.HasPart a offset length) ∧
      found.signal.shape.offset = offset ∧ found.signal.shape.length = length ∧
      found.signal.address.module = a.module ∧ found.signal.address.register = a.register ∧
      (found.signal.address = a ↔
        ¬(found.isPart = true ∧ found.signal.address.hasId = false ∧ a.hasId = true)) ∧
      (found.signal.shape.unitLength = length ↔
        found.signal.shape.copies = 1 ∨ length = 0 ∨
          length = 255 ∧ found.signal.shape.copies ≠ 0) ∧
      (found.signal.shape.copies ≠ 1 → found.isWhole = true) := by
  intro found
  have hanswer : c.Answers a offset length found := c.findRoot_answers a offset length
  obtain ⟨hwhole, hpart, hplaceholder⟩ := hanswer.kinds
  obtain ⟨hoffset, hlength⟩ := hanswer.range
  obtain ⟨hmodule, hregister⟩ := hanswer.register hc
  refine ⟨hwhole, hpart, hplaceholder, hoffset, hlength, hmodule, hregister,
    hanswer.address_eq_iff hc, ?_, hanswer.isWhole_of_copies hc⟩
  rw [Shape.unitLength, hlength, satMul_eq_left_iff]

/-- **All samples of a producer together are not found.**  One that packs several samples, and is the
only one at its address, is not what a look-up for the width of them all finds: that is measured
against one sample, which is narrower, and so are the channels. -/
theorem findRoot_packed {address : Address} {shape : Shape} {kind : SignalKind}
    (hat : c.signalsAt a = [.root address shape kind])
    (hsizes : ∀ n ∈ shape.sizes, n ≤ shape.length) (hpacked : shape.length < shape.unitLength) :
    c.findRoot a shape.offset shape.unitLength =
      .placeholder (.root a ⟨[shape.unitLength], 1, shape.offset, false⟩ .bytes) := by
  have hanswer := c.findRoot_answers a shape.offset shape.unitLength
  cases hfound : c.findRoot a shape.offset shape.unitLength <;> rw [hfound] at hanswer
  · cases hanswer with
    | whole hs hcovers =>
      rw [hat] at hs
      rw [List.mem_singleton.1 hs] at hcovers
      exact absurd (covers_iff.1 hcovers).2 (UInt8.ne_of_lt hpacked)
  · cases hanswer with
    | part hwhole hs ht hcovers =>
      rw [hat] at hs
      rw [List.mem_singleton.1 hs] at ht
      change _ ∈ Signal.channelParts _ at ht
      obtain ⟨scale, channel, k, -, hchannel, rfl⟩ := Signal.mem_channelParts.1 ht
      obtain ⟨size, hsize, rfl⟩ := Shape.channel?_eq_some hchannel
      have hwidth : size + 0 = shape.unitLength := (covers_iff.1 hcovers).2
      rw [UInt8.add_zero] at hwidth
      have hle : size ≤ shape.length := hsizes size (List.mem_of_getElem? hsize)
      exact absurd (UInt8.lt_of_le_of_lt hle hpacked) (hwidth ▸ UInt8.lt_irrefl _)
  · cases hanswer with
    | placeholder hwhole hpart => rfl

/-- Three samples of two bytes are found by the width of one, and not by the width of all. -/
example :
    let packed := empty.register "packed" (.root ⟨0x20, 0x01, noId⟩ ⟨[2], 3, 0, false⟩ .integer)
    (packed.findRoot ⟨0x20, 0x01, noId⟩ 0 2).isWhole = true ∧
      (packed.findRoot ⟨0x20, 0x01, noId⟩ 0 6).isPlaceholder = true := ⟨rfl, rfl⟩

/-- A sensor of three words, and behind it a producer of its first word for instance 0 alone. -/
def lateral : Catalog :=
  (empty.register "motion" (triple Module.accelerometer 0x04 16384)).register "lateral"
    (.root ⟨Module.accelerometer, 0x04, 0⟩ (.scalar 2 true) .integer)

/-- Instance 0 has a producer of its own, though the channel was registered first; for instance 5
only the channel is left, and it has no id. -/
theorem findRoot_exact_iff_lateral :
    lateral.Registered ∧
      ((lateral.findRoot ⟨Module.accelerometer, 0x04, 0⟩ 0 2).isWhole = true ∧
        (lateral.findRoot ⟨Module.accelerometer, 0x04, 0⟩ 0 2).signal.address =
          ⟨Module.accelerometer, 0x04, 0⟩) ∧
      (lateral.findRoot ⟨Module.accelerometer, 0x04, 5⟩ 0 2).isPart = true ∧
        (lateral.findRoot ⟨Module.accelerometer, 0x04, 5⟩ 0 2).signal.address ≠
          ⟨Module.accelerometer, 0x04, 5⟩ := by
  have hregistered : lateral.Registered := (Registered.empty.register _ _ _ _).register _ _ _ _
  obtain ⟨hwhole, -, -, -, -, -, -, haddress, -⟩ :=
    findRoot_exact_iff hregistered ⟨Module.accelerometer, 0x04, 0⟩ 0 2
  obtain ⟨-, -, -, -, -, -, -, hanonymous, -⟩ :=
    findRoot_exact_iff hregistered ⟨Module.accelerometer, 0x04, 5⟩ 0 2
  refine ⟨hregistered, ⟨hwhole.2 ?_, haddress.2 ?_⟩, rfl, fun h => hanonymous.1 h ?_⟩
  · exact ⟨.root ⟨Module.accelerometer, 0x04, 0⟩ (.scalar 2 true) .integer,
      List.mem_of_getLast? rfl, rfl⟩
  · exact fun h => Bool.false_ne_true h.1
  · exact ⟨rfl, rfl, rfl⟩

/-- The first word of the acceleration is a channel without an id, also if it was asked for as that
of instance 0. -/
theorem findRoot_loses_id :
    standard.Registered ∧
      (standard.findRoot ⟨Module.accelerometer, 0x04, 0⟩ 0 2).isPart = true ∧
      (standard.findRoot ⟨Module.accelerometer, 0x04, 0⟩ 0 2).signal.address =
        ⟨Module.accelerometer, 0x04, noId⟩ ∧
      (⟨Module.accelerometer, 0x04, noId⟩ : Address) ≠ ⟨Module.accelerometer, 0x04, 0⟩ :=
  ⟨registered_standard, rfl, rfl, by decide⟩

end Catalog
end SignalRoute
