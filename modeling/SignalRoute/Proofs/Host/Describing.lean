import SignalRoute.Proofs.Host.Derivation
import SignalRoute.Proofs.Link.Traffic
import SignalRoute.Proofs.Route.Enclosing

/-!
# How creations describe what is read

The command that creates a processor has one byte for the bytes that are read: five bits for where
they begin and three for how many there are.  Signals of drafts lie within one notification, so
where they begin always fits.  How many there are need not: delays, packers, accounters and buffers
are put behind signals of up to a notification, and what is longer than eight bytes is described as
eight (`Host.created_range_iff`).

The board is told twice where its data are, by the field in the command and by the width in the
configuration, and it reads what the field says.  Both numbers come from one shape.  A byte range of
more than eight bytes does not fit in the field, and `packRange` puts the largest length that does,
without a word; so the statement is about `min`, and for each stage it says exactly whether the
board was told the truth.
-/

set_option autoImplicit false

namespace SignalRoute

/-- What is packed of a compact shape. -/
theorem Shape.Compact.unpackRange_packRange {s : Shape} (h : s.Compact)
    (hdata : s.isEmpty = false) :
    unpackRange (packRange s.unitLength s.offset) = (min s.unitLength 8, s.offset) := by
  have hfits : s.offset.toNat + s.width ≤ 17 := h.fits
  exact unpackRange_packRange_min (h.toRegular.unitLength_pos hdata) (by omega)

namespace Programming

theorem link_create (command : Bytes) (key : ReplyKey) (what : String) (site : Site) :
    (create command key what site).2.link = (Link.request command key what site.link).2 := by
  rcases hrequest : Link.request command key what site.link with ⟨fault | reply, l⟩
  · rw [create, bind_apply_error (onLink_of_error hrequest)]
  · rw [create, bind_apply_ok (onLink_of_ok hrequest)]
    cases replyId reply what <;> rfl

/-- The creation of a stage is sent, whatever comes of it. -/
theorem sent_createStage {site : Site} (hconnected : site.link.connected = true)
    (stage : PlannedStage) :
    (createStage stage site).2.link.transport.sent = site.link.transport.sent ++
      [createCommand (stage.source.resolve site.placed) (settle stage site.placed)] := by
  rw [createStage, get_bind_apply, bind_apply, ← Link.sent_request hconnected, ← link_create]
  split
  · rename_i hcreate
    rw [hcreate]
    rfl
  · rename_i hcreate
    rw [hcreate]

end Programming

namespace Host

variable {h : Host} {expressions : List (Signal × List Step)} {stage : PlannedStage} {site : Site}

/-- **What a creation says about the bytes that are read.**  Wherever a history of the host leads,
and whatever expressions are applied there to one draft, each from a built-in sensor on: the command
that creates a stage behind a signal with data says where the signal begins, and how long it is up to
eight bytes.  So it describes the signal exactly if that has no more. -/
theorem created_range_iff (hh : h.Reached)
    (hroots : ∀ e ∈ expressions, ∃ producer, Catalog.standard.get? producer = some e.1)
    (hstage : stage ∈ (h.draft.build expressions).plan.stages)
    (hdata : stage.source.signal.shape.isEmpty = false)
    (hconnected : site.link.connected = true) :
    ∃ command packed,
      (Programming.createStage stage site).2.link.transport.sent =
        site.link.transport.sent ++ [command] ∧
      command[5]? = some packed ∧
      unpackRange packed =
        (min stage.source.signal.shape.unitLength 8, stage.source.signal.shape.offset) ∧
      (unpackRange packed =
          (stage.source.signal.shape.unitLength, stage.source.signal.shape.offset) ↔
        stage.source.signal.shape.unitLength ≤ 8) := by
  have hcompact := (draft_build_emitted hh hroots stage hstage).source.encloses.shape
  have hrange : unpackRange (packedSource (stage.source.resolve site.placed)) =
      (min stage.source.signal.shape.unitLength 8, stage.source.signal.shape.offset) := by
    rw [packedSource, Cursor.shape_resolve]
    exact hcompact.unpackRange_packRange hdata
  have hmin : ∀ n : UInt8, min n 8 = n ↔ n ≤ 8 := forall_byte (by decide +kernel)
  refine ⟨_, _, Programming.sent_createStage hconnected stage, rfl, hrange, ?_⟩
  rw [hrange, Prod.mk.injEq, and_iff_left rfl, hmin]

/-- Accelerations, each held back by one, and two of them in one payload. -/
def pairing : List (Signal × List Step) :=
  [(Catalog.triple Module.accelerometer 0x04 16384, [.delay 1, .pack 2])]

theorem created_range_iff_pairs :
    ∃ stage ∈ (Session.fresh.host.draft.build pairing).plan.stages, ∃ site command packed,
      (Programming.createStage stage site).2.link.transport.sent = [command] ∧
      command[5]? = some packed ∧ unpackRange packed = (6, 0) := by
  have hget : Catalog.standard.get? "acceleration" = some _ := rfl
  have hroots := roots_singleton hget [.delay 1, .pack 2]
  obtain ⟨stage, hstage, hshape⟩ :
      ∃ stage ∈ (Session.fresh.host.draft.build pairing).plan.stages,
        stage.source.signal.shape = ⟨[2, 2, 2], 1, 0, true⟩ := ⟨_, List.mem_cons_self, rfl⟩
  let site : Site := ⟨Session.fresh.host.station.link, [], [], []⟩
  have hconnected : site.link.connected = true := rfl
  obtain ⟨command, packed, hsent, hpacked, hrange, -⟩ :=
    created_range_iff (.start rfl rfl) hroots hstage (by rw [hshape]; rfl) hconnected
  rw [hshape] at hrange
  exact ⟨stage, hstage, site, command, packed, hsent, hpacked, hrange⟩

/-- Pairs of accelerations have twelve bytes, and the delay behind them is created for eight. -/
theorem not_described_pairs :
    ∃ p stage,
      Session.fresh.host.plan "acceleration" (fun c => Step.run c [.pack 2, .delay 1]) = .ok p ∧
      p.stages[1]? = some stage ∧ stage.source.signal.shape.unitLength = 12 ∧
      (buildRoute "acceleration" (fun c => Step.run c [.pack 2, .delay 1])
        Session.fresh.host).2.station.link.transport.sent[1]? =
          some [0x09, 0x02, 0x09, 0x03, 0x00, 0xe0, 0x0a, 0x05, 0x01] ∧
      unpackRange 0xe0 = (8, 0) :=
  ⟨_, _, rfl, rfl, rfl, by decide +kernel, rfl⟩

end Host
end SignalRoute
