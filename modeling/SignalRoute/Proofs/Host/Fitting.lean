import SignalRoute.Proofs.Host.Derivation
import SignalRoute.Proofs.Route.Fitting

/-!
# Which outputs have room in a notification

Wherever a host is, the outputs of its drafts have room in one notification but for those of stages
that make the channels of packed samples wider, and of stages behind these that keep the width
(`Host.outputs_fit_iff`).

Which stages these are is told by the shape that they read and by their configuration
(`Processor.Outgrows`).  Packers, accounters and fusers check the room that they need.  But a packed
signal has several samples for every stage behind it, and a stage that widens the channels widens
those of all samples, and asks nobody.

No output of a draft is longer than four notifications, and so no length of its shape wraps.
-/

set_option autoImplicit false

namespace SignalRoute
namespace Host

variable {h : Host} {expressions : List (Signal × List Step)}

/-- A draft begins with signals that fit if such are kept under names. -/
theorem draft_fits (hknown : ∀ k ∈ h.draft.known, ∀ s, k.state = some s → s.Fits) {c : Cursor}
    (hc : c.signal.Fits) : h.draft.All Signal.Fits c where
  known := hknown
  outputs := List.forall_mem_nil _
  states := List.forall_mem_nil _
  branches := List.forall_mem_nil _
  logs := List.forall_mem_nil _
  cursor := hc

/-- **Which outputs have no room in a notification.**  Wherever a history of the host leads, and
whatever expressions are applied there to one draft, each from a built-in sensor on, no output is
longer than four notifications.  It is longer than one exactly if the stage makes the channels that
it reads too wide, or if it keeps the width of an input that is longer itself.  If all fits that is
kept under names, then all outputs do exactly if no stage makes channels too wide. -/
theorem outputs_fit_iff (hh : h.Reached)
    (hroots : ∀ e ∈ expressions, ∃ producer, Catalog.standard.get? producer = some e.1) :
    (∀ stage ∈ (h.draft.build expressions).plan.stages,
      stage.output.shape.unitLength.toNat ≤ 4 * maxPayload ∧
      (maxPayload < stage.output.shape.unitLength.toNat ↔
        stage.processor.Outgrows stage.source.signal.shape ∨
          (stage.processor.keepsWidth = true ∧
            maxPayload < stage.source.signal.shape.unitLength.toNat))) ∧
    ((∀ k ∈ h.draft.known, ∀ s, k.state = some s → s.Fits) →
      ((∀ stage ∈ (h.draft.build expressions).plan.stages,
          stage.output.shape.unitLength.toNat ≤ maxPayload) ↔
        ¬(h.draft.build expressions).Outgrown)) := by
  obtain ⟨next, hderives⟩ := draft_build_derives hh hroots
  have hlong : ∀ stage ∈ (h.draft.build expressions).plan.stages,
      (maxPayload < stage.output.shape.unitLength.toNat ↔
        stage.processor.Outgrows stage.source.signal.shape ∨
          (stage.processor.keepsWidth = true ∧
            maxPayload < stage.source.signal.shape.unitLength.toNat)) := by
    intro stage hstage
    obtain ⟨hsource, d, buffers, i, hemits, -, hi, hout⟩ := draft_build_emitted hh hroots stage hstage
    rw [← hout]
    exact hemits.outgrows_iff hsource.encloses.shape hi
  refine ⟨fun stage hstage => ⟨?_, hlong stage hstage⟩, fun hknown => ⟨?_, fun hnone => ?_⟩⟩
  · have hcompact := (hderives.outputs stage hstage).encloses.shape
    rw [hcompact.toNat_unitLength]
    exact hcompact.bytes_le
  · rintro hfits ⟨stage, hstage, houtgrows⟩
    exact Nat.not_lt.2 (hfits stage hstage) ((hlong stage hstage).2 (.inl houtgrows))
  · have hstandard : ∀ e ∈ expressions, e.1.Derived ∧ e.1.Fits := by
      intro e he
      obtain ⟨producer, hget⟩ := hroots e he
      exact ⟨Catalog.derived_of_get? hget, Catalog.fits_standard (Catalog.mem_of_get? hget)⟩
    -- each expression starts at a signal of its own, so any will do for the draft
    have hany : Catalog.standard.get? "switch" = some _ := rfl
    have hstart := draft_derives hh (Catalog.derived_of_get? hany)
    have hfits := draft_fits hknown (c := ⟨_, none⟩) (Catalog.fits_standard (Catalog.mem_of_get? hany))
    rcases hstart.outgrown_or_fits hfits hstandard with hsome | ⟨last, hall⟩
    · exact absurd hsome hnone
    · exact fun stage hstage => (hall.outputs stage hstage).samples

/-- Accelerations, two of them in one payload, and the pairs held back by one. -/
def delayedPairs : List (Signal × List Step) :=
  [(Catalog.triple Module.accelerometer 0x04 16384, [.pack 2, .delay 1])]

theorem outputs_fit_iff_pairs :
    ¬(Session.fresh.host.draft.build delayedPairs).Outgrown ∧
      ∀ stage ∈ (Session.fresh.host.draft.build delayedPairs).plan.stages,
        stage.output.shape.unitLength.toNat ≤ maxPayload := by
  have hget : Catalog.standard.get? "acceleration" = some _ := rfl
  have hroots := roots_singleton hget [.pack 2, .delay 1]
  have hprocessors : (Session.fresh.host.draft.build delayedPairs).plan.stages.map
      PlannedStage.processor = [.packer ⟨6, 2⟩, .delay ⟨6, 1, true⟩] := rfl
  have hnarrow : ∀ p ∈ [Processor.packer ⟨6, 2⟩, .delay ⟨6, 1, true⟩],
      p.channelWidth? = none := by decide
  have hnone : ¬(Session.fresh.host.draft.build delayedPairs).Outgrown := by
    rintro ⟨stage, hstage, n, hn, -⟩
    have hmem := List.mem_map_of_mem (f := PlannedStage.processor) hstage
    cases (hnarrow _ (hprocessors ▸ hmem)).symm.trans hn
  have hknown : Session.fresh.host.draft.known = [] := rfl
  refine ⟨hnone, ((outputs_fit_iff (.start rfl rfl) hroots).2 ?_).2 hnone⟩
  rw [hknown]
  exact List.forall_mem_nil _

/-- Seventeen presses of the switch have room in one notification, and not with one added to each,
which makes them four times as wide. -/
theorem not_fit_packedSwitch :
    ∃ p stage, Session.fresh.host.plan "switch" (fun c => Step.run c [.pack 17, .map .add 1]) = .ok p ∧
      p.stages[1]? = some stage ∧ stage.output.shape.unitLength = 68 ∧
      maxPayload < stage.output.shape.unitLength.toNat :=
  ⟨_, _, rfl, rfl, rfl, by decide⟩

end Host
end SignalRoute
