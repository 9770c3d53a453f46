import SignalRoute.Proofs.Host.Derivation
import SignalRoute.Proofs.Log.Recording
import SignalRoute.Proofs.Route.Nesting

/-!
# Logging loses nothing

Every signal that a route logs is nested, wherever the history of the host leads (`Host.plan_nests`).
So `Host.logged_lossless`: when each logger of a signal has recorded its bytes of a payload and the
records have been merged, in whatever order they come, the readings are those of the payload.

The log of a signal takes a long way.  The board cuts the bytes of the signal out of a payload, in
chunks of four at most, with a logger for each; the entries of different loggers may come in any
order; a queue joins them again when each logger has contributed one; and the result is read from
offset 0.  That the readings are those of the payload takes three facts: the chunks cover the signal
(`Proofs.Log.Covering`), the queue joins them in their own order (`Proofs.Log.Merging`), and a
signal reads the same elsewhere (`Proofs.Signal.Moving`).

The limit of 32 bytes is that of the chunks: an offset has five bits.
-/

set_option autoImplicit false

namespace SignalRoute

namespace Host

variable {h : Host} {producer : String} {steps : List Step} {p : Plan}

/-- **Every signal that a route logs is nested.** -/
theorem plan_nests (hh : h.Reached) (hplan : h.plan producer (fun c => Step.run c steps) = .ok p) :
    ∀ c ∈ p.logs, c.signal.Nested := by
  obtain ⟨next, d, rfl, hderives⟩ := plan_derives hh hplan
  exact hderives.nests.logs

/-- **Logging a signal and merging it back loses nothing.**  For every signal of a built-in sensor
on that a route logs, wherever the history of the host leads and whatever has been created before:
let `triggers` be what is sent to log it, for loggers with different ids, and let all its bytes lie
within what an offset of five bits reaches.  If for each trigger the board records the bytes of a
payload that the trigger names, then the records can be pushed in any order.  Only the last one
brings something out, and that, read from offset 0 on, has the readings of the payload. -/
theorem logged_lossless (hh : h.Reached)
    (hplan : h.plan producer (fun c => Step.run c steps) = .ok p) {c : Cursor} (hc : c ∈ p.logs)
    {site site' : Site} {ids : List UInt8}
    (hcreate : Programming.createLog c site = (.ok ids, site')) (hids : ids.Nodup)
    (hfits : (c.resolve site.placed).shape.offset.toNat +
      (c.resolve site.placed).shape.unitLength.toNat ≤ 32) :
    ∃ triggers, site'.link.transport.sent = site.link.transport.sent ++ triggers ∧
      triggers.length = ids.length ∧
      ∀ payload : Bytes, (c.resolve site.placed).shape.offset.toNat +
          (c.resolve site.placed).shape.unitLength.toNat ≤ payload.length →
        ∀ pushes : List (UInt8 × Stamped),
          (pushes.map MergeQueue.untimed).Perm (ids.zip (triggers.map (recorded payload))) →
          ∃ last readings,
            ((MergeQueue.ofIds ids).pushAll pushes).1 =
              List.replicate (ids.length - 1) none ++ [some last] ∧
            (c.resolve site.placed).decodeAll payload = .ok readings ∧
            ((c.resolve site.placed).atOffset 0).decodeAll last.data = .ok readings := by
  obtain ⟨hsent, hlength⟩ := Programming.createLog_sent hcreate
  refine ⟨_, hsent, hlength.symm, fun payload hpayload pushes hperm => ?_⟩
  have hnested := (plan_nests hh hplan c hc).resolve site.placed
  have hfilled := (plan_sound hh.sound.1 hh.sound.2 hplan).2 c hc
  have hshape := c.shape_resolve site.placed
  have hcopies : 1 ≤ (c.resolve site.placed).shape.copies := by
    rw [hshape]
    exact hfilled.regular.shape.copies hfilled.data
  obtain ⟨readings, hread, hmerged⟩ := hnested.decodeAll_recorded hcopies hfits hpayload
  have hkeys : (ids.zip ((c.resolve site.placed).triggers.map (recorded payload))).map Prod.fst =
      ids := List.map_fst_zip (by rw [List.length_map]; exact hlength.le)
  have hbytes : (ids.zip ((c.resolve site.placed).triggers.map (recorded payload))).map Prod.snd =
      (c.resolve site.placed).triggers.map (recorded payload) :=
    List.map_snd_zip (by rw [List.length_map]; exact hlength.ge)
  -- there are bytes to log, so there is a trigger
  have hsome : ids.zip ((c.resolve site.placed).triggers.map (recorded payload)) ≠ [] := by
    have hsome := Signal.triggers_ne_nil (s := c.resolve site.placed)
      (hshape ▸ hfilled.regular.shape.unitLength_pos hfilled.data)
    intro hnone
    rw [hnone, List.map_nil] at hbytes
    exact hsome (List.map_eq_nil_iff.1 hbytes.symm)
  obtain ⟨last, hout, hdata⟩ := MergeQueue.pushAll_once (hkeys.symm ▸ hids) hperm hsome
  rw [hkeys, List.length_zip, List.length_map, ← hlength, Nat.min_self] at hout
  rw [hbytes] at hdata
  exact ⟨last, readings, hout, hread, hdata ▸ hmerged⟩

/-- A route that logs accelerations with the last temperature behind them, all of it counted. -/
def counting : Except Fault Plan :=
  keepingTemperature.plan "acceleration" fun c =>
    Step.run c [.fuse ["last"], .account .count, .log]

/-- The processors of the route are on the board. -/
def countingSite : Site :=
  let site : Site := ⟨keepingTemperature.station.link, [], [], []⟩
  match counting with
  | .ok p => (p.stages.forM Programming.createStage site).2
  | .error _ => site

def countingLog : Option Cursor := counting.toOption.bind fun p => p.logs.head?

/-- A count, an acceleration and a temperature. -/
def countedPayload : Bytes := [5, 0, 0, 0, 0x00, 0x40, 0x00, 0xc0, 0x00, 0x20, 0x90, 0x01]

/-- The records of the payload, the last one first. -/
def countedPushes : List (UInt8 × Stamped) :=
  [(2, ⟨default, [0x00, 0x20, 0x90, 0x01]⟩), (0, ⟨default, [5, 0, 0, 0]⟩),
    (1, ⟨default, [0x00, 0x40, 0x00, 0xc0]⟩)]

theorem logged_lossless_counting :
    ∃ c last readings, countingLog = some c ∧
      ((MergeQueue.ofIds [0, 1, 2]).pushAll countedPushes).1 = [none, none, some last] ∧
      (c.resolve countingSite.placed).decodeAll countedPayload = .ok readings ∧
      ((c.resolve countingSite.placed).atOffset 0).decodeAll last.data = .ok readings := by
  have hsome : countingLog.isSome = true := by decide +kernel
  have hids : countingLog.map (fun c => (Programming.createLog c countingSite).1.toOption) =
      some (some [0, 1, 2]) := by decide +kernel
  have hsent : countingLog.map
      (fun c => (Programming.createLog c countingSite).2.link.transport.sent) =
        some (countingSite.link.transport.sent ++ [[0x0b, 0x02, 0x09, 0x03, 0x02, 0x60],
          [0x0b, 0x02, 0x09, 0x03, 0x02, 0x64], [0x0b, 0x02, 0x09, 0x03, 0x02, 0x68]]) := by
    decide +kernel
  have hplace : countingLog.map (fun c => (c.resolve countingSite.placed).shape) =
      some ⟨[4, 8], 1, 0, false⟩ := by decide +kernel
  obtain ⟨c, hc⟩ := Option.isSome_iff_exists.1 hsome
  obtain ⟨p, hp, hlog⟩ := Option.bind_eq_some_iff.1 hc
  have hplan : counting = .ok p := by
    cases hcounting : counting with
    | error fault =>
      rw [hcounting] at hp
      cases hp
    | ok p' =>
      rw [hcounting] at hp
      cases hp
      rfl
  rw [hc, Option.map_some, Option.some.injEq] at hids hsent hplace
  rcases hcreate : Programming.createLog c countingSite with ⟨fault | ids, site⟩
  · rw [hcreate] at hids
    cases hids
  rw [hcreate] at hids hsent
  cases hids
  obtain ⟨triggers, htriggers, -, hmerge⟩ := logged_lossless
    (.built (.start rfl rfl) _ _) hplan (List.mem_of_mem_head? hlog) hcreate (by decide)
    (by rw [hplace]; decide)
  obtain rfl := List.append_cancel_left (htriggers.symm.trans hsent)
  obtain ⟨last, readings, hout, hread, hmerged⟩ := hmerge countedPayload
    (by rw [hplace]; decide) countedPushes (by decide)
  exact ⟨c, last, readings, hc, hout, hread, hmerged⟩

end Host
end SignalRoute
