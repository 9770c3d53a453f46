import SignalRoute.Proofs.Link.Traffic
import SignalRoute.Proofs.Log.Grouping
import SignalRoute.Proofs.Log.Merging
import SignalRoute.Proofs.Signal.Moving

/-!
# What the loggers of a signal record

To log a signal, `createLog` sends one trigger for every four bytes of it, and nothing else
(`Programming.createLog_sent`).  Each trigger makes the board record the bytes that its last byte
names.  The records in the order of the triggers are the bytes of the signal and some padding
(`Signal.flatten_recorded`), so that they hold what is read of the signal, from offset 0 on.

`recorded` is how the board cuts a payload for one of its loggers, as far as it matters here, and is
the only thing in this library that a board does to data.  It is a function of the trigger's bytes,
so that what was asked for and what was meant are compared on the wire.
-/

set_option autoImplicit false

namespace SignalRoute

/-! ## Triggers -/

/-- The commands that create the loggers of a signal. -/
def Signal.triggers (s : Signal) : List Bytes :=
  s.logChunks.map fun chunk => logCommand s.address chunk.2 (s.shape.offset + chunk.1)

theorem Signal.triggers_ne_nil {s : Signal} (h : 0 < s.shape.unitLength.toNat) :
    s.triggers ≠ [] := by
  obtain ⟨n, hn⟩ := Nat.exists_eq_succ_of_ne_zero (Nat.ne_of_gt h)
  rw [triggers, Signal.logChunks, hn, SignalRoute.logChunks, if_pos n.succ_pos]
  exact List.cons_ne_nil _ _

namespace Programming

theorem sent_of_create {command : Bytes} {key : ReplyKey} {what : String} {id : UInt8}
    {site site' : Site} (h : create command key what site = (.ok id, site')) :
    site'.link.transport.sent = site.link.transport.sent ++ [command] ∧
      site'.placed = site.placed := by
  obtain ⟨reply, after, hrequest, h⟩ := bind_apply_eq_ok.1 h
  rw [onLink] at hrequest
  rcases hreply : Link.request command key what site.link with ⟨fault | reply', link⟩
  · rw [hreply] at hrequest
    cases hrequest
  · rw [hreply] at hrequest
    cases hrequest
    cases hid : replyId reply what with
    | error fault =>
      rw [hid] at h
      cases h
    | ok id' =>
      rw [hid] at h
      cases h
      exact ⟨Link.sent_of_request hreply, rfl⟩

theorem createLoggers_sent (s : Signal) (chunks : List (UInt8 × UInt8)) (before : List Bytes) :
    Leads (fun site => site.link.transport.sent = before) (chunks.mapM (createLogger s))
      (fun ids site => site.link.transport.sent = before ++ chunks.map (fun chunk =>
        logCommand s.address chunk.2 (s.shape.offset + chunk.1)) ∧ ids.length = chunks.length)
      (fun _ _ => True) := by
  refine (Leads.mapM (fun done ids site => site.link.transport.sent = before ++
    done.map (fun chunk => logCommand s.address chunk.2 (s.shape.offset + chunk.1)) ∧
      ids.length = done.length) chunks ?_).weaken
        (fun site hs => ⟨by rw [hs, List.map_nil, List.append_nil], rfl⟩) (fun _ _ hs => hs)
        (fun _ _ hs => hs)
  rintro done ids chunk rest - site ⟨hsent, hlength⟩
  rcases hcreate : createLogger s chunk site with ⟨fault | id, site'⟩
  · trivial
  · obtain ⟨id', after, hid, hmodify⟩ := bind_apply_eq_ok.1 hcreate
    cases hmodify
    refine ⟨?_, by rw [List.length_append, List.length_append, hlength]; rfl⟩
    show after.link.transport.sent = _
    rw [(sent_of_create hid).1, hsent, List.map_append, List.append_assoc]
    rfl

/-- **To log a signal is to send its triggers.** -/
theorem createLog_sent {c : Cursor} {ids : List UInt8} {site site' : Site}
    (h : createLog c site = (.ok ids, site')) :
    site'.link.transport.sent = site.link.transport.sent ++ (c.resolve site.placed).triggers ∧
      ids.length = (c.resolve site.placed).triggers.length := by
  rw [createLog, get_bind_apply] at h
  rw [Signal.triggers, List.length_map]
  exact (createLoggers_sent _ _ _).ok rfl h

end Programming

/-! ## Records

A signal that reaches beyond the bytes that an offset of five bits can name is not recorded as it
was meant.  The hypothesis about the end of the signal is what excludes it.
-/

/-- What the board records of a payload for a log trigger: the bytes that the last byte of the
trigger names, and zeros up to the width of an entry. -/
def recorded (payload trigger : Bytes) : Bytes :=
  let range := unpackRange (trigger.getLastD 0)
  let bytes := (payload.drop range.2.toNat).take range.1.toNat
  bytes ++ List.replicate (logEntrySize - bytes.length) 0

variable {s : Signal} {payload : Bytes} {length start fuel : Nat}

/-- A chunk of a signal that lies within what an offset of five bits reaches. -/
theorem recorded_logCommand (a : Address) {offset : UInt8} (hstart : start < length)
    (hfits : offset.toNat + length ≤ 32) (hpayload : offset.toNat + length ≤ payload.length) :
    recorded payload (logCommand a (UInt8.ofNat (min (length - start) logEntrySize))
        (offset + UInt8.ofNat start)) =
      (payload.drop (offset.toNat + start)).take (min (length - start) logEntrySize) ++
        List.replicate (logEntrySize - (length - start)) 0 := by
  have hwidth : (UInt8.ofNat (min (length - start) logEntrySize)).toNat =
      min (length - start) logEntrySize := by
    rw [UInt8.toNat_ofNat', logEntrySize, Nat.mod_eq_of_lt (by omega)]
  have hoffset : (offset + UInt8.ofNat start).toNat = offset.toNat + start := by
    rw [UInt8.toNat_add, UInt8.toNat_ofNat', Nat.mod_eq_of_lt (a := start) (by omega),
      Nat.mod_eq_of_lt (by omega)]
  have hrange := @unpackRange_packRange (UInt8.ofNat (min (length - start) logEntrySize))
    (offset + UInt8.ofNat start) (by rw [hwidth, logEntrySize]; omega)
    (by rw [hwidth, logEntrySize]; omega) (by rw [hoffset]; omega)
  have hpadding : logEntrySize - min (min (length - start) logEntrySize)
      (payload.length - (offset.toNat + start)) = logEntrySize - (length - start) := by
    rw [logEntrySize]
    omega
  have hlast : (logCommand a (UInt8.ofNat (min (length - start) logEntrySize))
      (offset + UInt8.ofNat start)).getLastD 0 =
        packRange (UInt8.ofNat (min (length - start) logEntrySize))
          (offset + UInt8.ofNat start) := rfl
  rw [recorded, hlast, hrange]
  dsimp only
  rw [hwidth, hoffset, List.length_take, List.length_drop, hpadding]

/-- The records of the chunks from `start` on. -/
theorem flatten_recorded_chunks (a : Address) {offset : UInt8} (hfits : offset.toNat + length ≤ 32)
    (hpayload : offset.toNat + length ≤ payload.length) (hfuel : length ≤ start + fuel) :
    ∃ padding, ((logChunks fuel start length).map fun chunk =>
        recorded payload (logCommand a chunk.2 (offset + chunk.1))).flatten =
      (payload.drop (offset.toNat + start)).take (length - start) ++ padding := by
  induction fuel generalizing start with
  | zero => exact ⟨[], by rw [Nat.sub_eq_zero_of_le (show length ≤ start from hfuel)]; rfl⟩
  | succ fuel ih =>
    rw [logChunks]
    split
    · rename_i hstart
      obtain ⟨padding, hrest⟩ := @ih (start + logEntrySize) (by rw [logEntrySize]; omega)
      rw [List.map_cons, List.flatten_cons, recorded_logCommand a hstart hfits hpayload, hrest]
      by_cases hlast : length - start ≤ logEntrySize
      · refine ⟨List.replicate (logEntrySize - (length - start)) 0 ++ padding, ?_⟩
        rw [Nat.min_eq_left hlast, Nat.sub_eq_zero_of_le (m := start + logEntrySize) (by omega),
          List.take_zero, List.nil_append, List.append_assoc]
      · have hdrop : payload.drop (offset.toNat + (start + logEntrySize)) =
            (payload.drop (offset.toNat + start)).drop logEntrySize := by
          rw [List.drop_drop, Nat.add_assoc]
        have hsum : logEntrySize + (length - (start + logEntrySize)) = length - start := by omega
        refine ⟨padding, ?_⟩
        rw [Nat.min_eq_right (by omega), Nat.sub_eq_zero_of_le (m := length - start) (by omega),
          List.replicate_zero, List.append_nil, hdrop, ← List.append_assoc, ← List.take_add, hsum]
    · exact ⟨[], by rw [Nat.sub_eq_zero_of_le (by omega)]; rfl⟩

/-- **The records of a signal are its bytes**, and some padding. -/
theorem Signal.flatten_recorded
    (hfits : s.shape.offset.toNat + s.shape.unitLength.toNat ≤ 32)
    (hpayload : s.shape.offset.toNat + s.shape.unitLength.toNat ≤ payload.length) :
    ∃ padding, (s.triggers.map (recorded payload)).flatten =
      (payload.drop s.shape.offset.toNat).take s.shape.unitLength.toNat ++ padding := by
  rw [triggers, List.map_map]
  exact flatten_recorded_chunks s.address hfits hpayload (Nat.le_add_left _ _)

/-- What is read of a logged signal can be read of its records. -/
theorem Signal.Nested.decodeAll_recorded (h : s.Nested) (hcopies : 1 ≤ s.shape.copies)
    (hfits : s.shape.offset.toNat + s.shape.unitLength.toNat ≤ 32)
    (hpayload : s.shape.offset.toNat + s.shape.unitLength.toNat ≤ payload.length) :
    ∃ readings, s.decodeAll payload = .ok readings ∧
      (s.atOffset 0).decodeAll (s.triggers.map (recorded payload)).flatten = .ok readings := by
  obtain ⟨padding, hrecords⟩ := s.flatten_recorded hfits hpayload
  have hlength : ((payload.drop s.shape.offset.toNat).take s.shape.unitLength.toNat).length =
      s.shape.unitLength.toNat := by
    rw [List.length_take, List.length_drop]
    omega
  refine h.decodeAll_atOffset hcopies hfits ⟨hpayload, ?_, ?_⟩
  · rw [hrecords, List.length_append, hlength]
    omega
  · rw [hrecords, List.drop_zero, List.take_left' hlength]

end SignalRoute
