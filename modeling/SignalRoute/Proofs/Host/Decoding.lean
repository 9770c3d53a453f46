import SignalRoute.Proofs.Host.Derivation
import SignalRoute.Proofs.Route.Enclosing
import SignalRoute.Proofs.Signal.Decoding

/-!
# Only short payloads cannot be read

Every signal that a draft leads to is derived from the built-in sensors, wherever the history of the
host leads (`Host.Drafts.derived`).  So it encloses its parts, and `Host.decodes_iff_covered`: a
payload can be read exactly if it reaches to the end of the last sample.

It is an equivalence, and a host knows where the last sample ends before a payload comes in.
Nothing but the length counts, and not the values of the bytes.  That no part reaches out of its
signal, and that no place of a sample wraps, is proved along with it; without it the end of the last
sample would mean nothing.
-/

set_option autoImplicit false

namespace SignalRoute

namespace Host

variable {h : Host}

/-- **Only short payloads cannot be read.**  For every signal that a draft leads to, wherever the
history of the host leads: no part of it reaches out of the signal that it is a part of, to any
depth, and no sum of offsets and widths wraps.  A payload can be read exactly if the signal has no
data or if the payload holds all its samples, and then there is one reading for each.  Otherwise the
fault says that the payload is short. -/
theorem decodes_iff_covered (hh : h.Reached) {s : Signal} (hs : h.Drafts s) :
    s.Encloses Shape.Exact ∧ ∀ raw : Bytes,
      ((∃ readings, s.decodeAll raw = .ok readings) ↔ s.shape.length = 0 ∨
        s.shape.offset.toNat + s.shape.length.toNat * max s.shape.copies.toNat 1 ≤ raw.length) ∧
      (∀ readings, s.decodeAll raw = .ok readings →
        readings.length = max s.shape.copies.toNat 1) ∧
      ∀ fault, s.decodeAll raw = .error fault →
        ∃ stop, raw.length < stop ∧
          stop ≤ s.shape.offset.toNat + s.shape.length.toNat * max s.shape.copies.toNat 1 ∧
          fault = .shortPayload stop raw.length := by
  have hexact := (hs.derived hh).encloses.mono fun _ hshape => hshape.exact
  exact ⟨hexact, fun raw => ⟨hexact.decodeAll_isOk_iff, fun _ => Signal.length_of_decodeAll,
    fun _ => hexact.decodeAll_error⟩⟩

/-- Behind a count, an acceleration with the last temperature behind it. -/
def behindCount : Except Fault Cursor :=
  (Step.run ⟨Catalog.triple Module.accelerometer 0x04 16384, none⟩
    [.fuse ["last"], .account .count, .split, .index 1] keepingTemperature.draft).1

/-- A count, an acceleration and a temperature. -/
def countAndData : Bytes := [5, 0, 0, 0, 0x00, 0x40, 0x00, 0xc0, 0x00, 0x20, 0x90, 0x01]

theorem decodes_iff_covered_behindCount :
    ∃ c, behindCount = .ok c ∧ keepingTemperature.Reached ∧ keepingTemperature.Drafts c.signal ∧
      c.signal.shape = ⟨[8], 1, 4, false⟩ ∧
      (∃ r, c.signal.decodeAll countAndData = .ok [r]) ∧
      c.signal.decodeAll (countAndData.take 11) = .error (.shortPayload 12 11) := by
  have hshape : behindCount.toOption.map (fun c => c.signal.shape) =
      some ⟨[8], 1, 4, false⟩ := by decide +kernel
  obtain ⟨c, hc, hshape⟩ := Option.map_eq_some_iff.1 hshape
  have hcursor : behindCount = .ok c := eq_ok_of_toOption hc
  have hreached : keepingTemperature.Reached := .built (.start rfl rfl) _ _
  have hdrafts : keepingTemperature.Drafts c.signal :=
    @Drafts.cursor _ [] "acceleration" _ _ c (List.forall_mem_nil _) rfl hcursor
  obtain ⟨-, hread⟩ := decodes_iff_covered hreached hdrafts
  rw [hshape] at hread
  refine ⟨c, hcursor, hreached, hdrafts, hshape, ?_, ?_⟩
  · obtain ⟨hcovered, hcount, -⟩ := hread countAndData
    obtain ⟨readings, hreadings⟩ := hcovered.2 (.inr (by decide))
    obtain ⟨r, rfl⟩ := List.length_eq_one_iff.1 (hcount readings hreadings)
    exact ⟨r, hreadings⟩
  · obtain ⟨hcovered, -, hfault⟩ := hread (countAndData.take 11)
    cases hdecoded : c.signal.decodeAll (countAndData.take 11) with
    | ok readings => exact absurd (hcovered.1 ⟨readings, hdecoded⟩) (by decide)
    | error fault =>
      obtain ⟨stop, hshort, hreach, rfl⟩ := hfault fault hdecoded
      obtain rfl : stop = 12 := Nat.le_antisymm hreach hshort
      rfl

end Host
end SignalRoute
