import SignalRoute.Proofs.Graph.Consumers
import SignalRoute.Proofs.Graph.Tables
import SignalRoute.Proofs.Signal.Decoding

/-!
# What becomes of a record

A record is handled in one go, and then it has one of six fates.  Four of them account for it: it
was delivered before, or its entry waits in the queue of its consumer, or it completes a row whose
samples are delivered, or it is reported.  In the other two it is lost: the row that it completes
cannot be decoded, or the calendar does not have its time.

* `MergeQueue.push_cases` says where an entry goes.  No entry is lost in a queue: what waited and
  the new entry are what waits and what comes out.  It takes a queue in which an entry is missing
  (`MergeQueue.Waits`), as is so behind every push; then a row that comes out has the new entry.
* `Reconciler.Deals` says what each fate is: what the record finds, and all that it changes.
* `Reconciler.existsUnique_fate`: a record has exactly one fate.
* `Reconciler.orderly_handle`: the consumers stay orderly, so that the next record can be accounted
  for, and the data of those that read what they get are never lost (`Reconciler.Deals.found`).

`Reconciler.Deals` repeats in full what is found and what is changed, although the function could be
unfolded in its place.  That the fates exclude each other is a theorem only because each of them is
described by itself, without the order in which the function asks.

Orderly consumers are those that routes and surveys enter, and they stay orderly for as long as
records are whole.  What a survey found on the board may still be undecodable, since its signal was
guessed from what somebody else has configured.
-/

set_option autoImplicit false

namespace SignalRoute

/-! ## Entries of a queue -/

namespace MergeQueue

/-- The entries that wait in some lanes. -/
def laneEntries (lanes : List Lane) : List Stamped := lanes.flatMap Lane.waiting

/-- All entries that wait. -/
def entries (q : MergeQueue) : List Stamped := laneEntries q.lanes

/-- An entry is missing, if there are loggers at all. -/
def Waits (q : MergeQueue) : Prop := q.lanes = [] ∨ ∃ lane ∈ q.lanes, lane.waiting = []

/-- An entry is added to a queue, and another one is still missing. -/
structure Keeps (q : MergeQueue) (id : UInt8) (entry : Stamped) (q' : MergeQueue) : Prop where
  push : q.push id entry = (none, q')
  ids : q'.ids = q.ids
  waits : q'.Waits
  entries : (entry :: q.entries).Perm q'.entries

/-- An entry completes a row, which is joined and taken out: it has one entry of each logger, the
new one among them. -/
structure Completes (q : MergeQueue) (id : UInt8) (entry : Stamped) (row : List Stamped)
    (joined : Stamped) (q' : MergeQueue) : Prop where
  push : q.push id entry = (some joined, q')
  ids : q'.ids = q.ids
  waits : q'.Waits
  own : entry ∈ row
  width : row.length = q.ids.length
  joins : join row = some joined
  entries : (entry :: q.entries).Perm (row ++ q'.entries)

variable {id : UInt8} {entry : Stamped} {lanes : List Lane} {row : List Stamped} {q : MergeQueue}

theorem waits_ofIds (ids : List UInt8) : (ofIds ids).Waits := by
  cases ids with
  | nil => exact .inl rfl
  | cons id rest => exact .inr ⟨_, List.mem_cons_self, rfl⟩

theorem entries_ofIds (ids : List UInt8) : (ofIds ids).entries = [] := by
  rw [entries, laneEntries, ofIds, List.flatMap_map, List.flatMap_eq_nil_iff]
  exact fun _ _ => rfl

theorem map_id_enqueue (id : UInt8) (entry : Stamped) (lanes : List Lane) :
    (enqueue id entry lanes).map Lane.id = lanes.map Lane.id := by
  induction lanes with
  | nil => rfl
  | cons lane rest ih =>
    rw [enqueue]
    split
    · rfl
    · rw [List.map_cons, ih, List.map_cons]

theorem entries_enqueue (h : id ∈ lanes.map Lane.id) :
    (entry :: laneEntries lanes).Perm (laneEntries (enqueue id entry lanes)) := by
  induction lanes with
  | nil => cases h
  | cons lane rest ih =>
    rw [enqueue]
    split
    · show List.Perm _ ((lane.waiting ++ [entry]) ++ laneEntries rest)
      rw [List.append_assoc]
      exact List.perm_middle.symm
    · rename_i hne
      have hrest := ih ((List.mem_cons.1 h).resolve_left fun heq => hne heq.symm)
      exact (List.perm_middle.symm).trans (hrest.append_left lane.waiting)

theorem map_id_tails (lanes : List Lane) : (tails lanes).map Lane.id = lanes.map Lane.id := by
  rw [tails, List.map_map]
  rfl

/-- The heads of all lanes are one entry each, and the rest stays. -/
theorem heads?_eq_some (h : heads? lanes = some row) :
    row.length = lanes.length ∧ (laneEntries lanes).Perm (row ++ laneEntries (tails lanes)) := by
  induction lanes generalizing row with
  | nil =>
    cases h
    exact ⟨rfl, .refl _⟩
  | cons lane rest ih =>
    rw [heads?] at h
    split at h
    · rename_i first behind others hwaiting hothers
      cases h
      obtain ⟨hlength, hperm⟩ := ih hothers
      refine ⟨congrArg (· + 1) hlength, ?_⟩
      show List.Perm (lane.waiting ++ laneEntries rest)
        (first :: others ++ (lane.waiting.tail ++ laneEntries (tails rest)))
      rw [hwaiting]
      refine List.Perm.cons first ?_
      refine (hperm.append_left behind).trans ?_
      exact List.perm_append_comm_assoc _ _ _
    · cases h

/-- Lanes without heads are not all filled. -/
theorem exists_of_heads?_eq_none (h : heads? lanes = none) : ∃ lane ∈ lanes, lane.waiting = [] := by
  induction lanes with
  | nil => cases h
  | cons lane rest ih =>
    cases hwaiting : lane.waiting with
    | nil => exact ⟨lane, List.mem_cons_self, hwaiting⟩
    | cons first behind =>
      rw [heads?, hwaiting] at h
      cases hrest : heads? rest with
      | none =>
        obtain ⟨other, hother, hempty⟩ := ih hrest
        exact ⟨other, List.mem_cons_of_mem _ hother, hempty⟩
      | some others =>
        rw [hrest] at h
        cases h

theorem ne_nil_of_heads?_eq_some (h : heads? lanes = some row) :
    ∀ lane ∈ lanes, lane.waiting ≠ [] := by
  induction lanes generalizing row with
  | nil => exact List.forall_mem_nil _
  | cons lane rest ih =>
    rw [heads?] at h
    split at h
    · rename_i first behind others hwaiting hothers
      refine List.forall_mem_cons.2 ⟨fun hempty => ?_, ih hothers⟩
      rw [hwaiting] at hempty
      cases hempty
    · cases h

/-- The entry that completes a row is the only one of its logger, so it is in the row and leaves its
lane empty. -/
theorem own_of_heads? (hempty : ∃ lane ∈ lanes, lane.waiting = [])
    (h : heads? (enqueue id entry lanes) = some row) :
    entry ∈ row ∧ ∃ lane ∈ tails (enqueue id entry lanes), lane.waiting = [] := by
  induction lanes generalizing row with
  | nil =>
    obtain ⟨lane, hlane, -⟩ := hempty
    cases hlane
  | cons lane rest ih =>
    rw [enqueue] at h ⊢
    split at h
    · rename_i hid
      rw [if_pos hid]
      -- the other lanes are all filled
      have hfilled := ne_nil_of_heads?_eq_some h
      obtain ⟨other, hother, hnone⟩ := hempty
      rcases List.mem_cons.1 hother with rfl | hrest
      · rw [heads?, hnone, List.nil_append] at h
        cases hothers : heads? rest with
        | none =>
          rw [hothers] at h
          cases h
        | some others =>
          rw [hothers] at h
          cases h
          refine ⟨List.mem_cons_self, _, List.mem_cons_self, ?_⟩
          show ((other.waiting ++ [entry]).tail) = []
          rw [hnone]
          rfl
      · exact absurd hnone (hfilled other (List.mem_cons_of_mem _ hrest))
    · rename_i hid
      rw [if_neg hid]
      have hfirst := ne_nil_of_heads?_eq_some h lane List.mem_cons_self
      obtain ⟨other, hother, hnone⟩ := hempty
      have hrest : other ∈ rest :=
        (List.mem_cons.1 hother).resolve_left fun heq => hfirst (heq ▸ hnone)
      rw [heads?] at h
      split at h
      · rename_i first behind others hwaiting hothers
        cases h
        obtain ⟨hown, left, hleft, hlast⟩ := ih ⟨other, hrest, hnone⟩ hothers
        exact ⟨List.mem_cons_of_mem _ hown, left, List.mem_cons_of_mem _ hleft, hlast⟩
      · cases h

/-- **An entry waits, or it completes a row.**  Either way no entry is lost, and the next one is
missing. -/
theorem push_cases (hq : q.Waits) (hid : q.contains id = true) (entry : Stamped) :
    (∃ q', q.Keeps id entry q') ∨ ∃ row joined q', q.Completes id entry row joined q' := by
  have hmem : id ∈ q.lanes.map Lane.id := List.contains_iff_mem.1 hid
  have hsome : ∃ lane ∈ q.lanes, lane.waiting = [] := by
    refine hq.resolve_left fun hnil => ?_
    rw [hnil] at hmem
    cases hmem
  have hids : (enqueue id entry q.lanes).map Lane.id = q.ids := map_id_enqueue id entry q.lanes
  have hadded : (entry :: q.entries).Perm (laneEntries (enqueue id entry q.lanes)) :=
    entries_enqueue hmem
  cases hheads : heads? (enqueue id entry q.lanes) with
  | none =>
    have hpush : q.push id entry = (none, ⟨enqueue id entry q.lanes⟩) := by
      rw [push, if_pos hid]
      dsimp only
      rw [hheads]
    exact .inl ⟨_, hpush, hids, .inr (exists_of_heads?_eq_none hheads), hadded⟩
  | some row =>
    obtain ⟨hlength, hperm⟩ := heads?_eq_some hheads
    obtain ⟨hown, hleft⟩ := own_of_heads? hsome hheads
    obtain ⟨joined, hjoined⟩ : ∃ joined, join row = some joined := by
      cases row with
      | nil => cases hown
      | cons first rest => exact ⟨_, rfl⟩
    have hpush : q.push id entry = (some joined, ⟨tails (enqueue id entry q.lanes)⟩) := by
      rw [push, if_pos hid]
      dsimp only
      rw [hheads, ← hjoined]
    refine .inr ⟨row, joined, _, hpush, (map_id_tails _).trans hids, .inr hleft, hown, ?_, hjoined,
      hadded.trans hperm⟩
    rw [hlength, ← hids, List.length_map]

/-- Entries of one width are joined into as many bytes as they have. -/
theorem length_join {joined : Stamped} {width : Nat} (h : join row = some joined)
    (hrow : ∀ x ∈ row, x.data.length = width) : joined.data.length = row.length * width := by
  have hdata : joined.data = row.flatMap Stamped.data := by
    cases row with
    | nil => cases h
    | cons first rest =>
      cases h
      rfl
  rw [hdata, List.length_flatMap, List.map_congr_left hrow, List.map_const', List.sum_replicate]
  rfl

end MergeQueue

/-! ## Orderly consumers -/

namespace LoggerEntry

/-- A consumer whose queue waits for whole entries.  Unless the host found its loggers on the board,
it can read what the queue puts out. -/
structure Orderly (e : LoggerEntry) : Prop where
  waits : e.merge.Waits
  full : ∀ x ∈ e.merge.entries, x.data.length = logEntrySize
  reads : e.route = .invalid ∨ ∀ raw : Bytes, raw.length = e.ids.length * logEntrySize →
    ∃ readings, e.signal.decodeAll raw = .ok readings

variable {e : LoggerEntry} {id : UInt8} {entry joined : Stamped} {row : List Stamped}
  {q' : MergeQueue}

/-- A consumer with an empty queue. -/
theorem orderly_ofIds {route : RouteId} {s : Signal} {ids : List UInt8} {mailbox : Nat}
    (hreads : route = .invalid ∨ ∀ raw : Bytes, raw.length = ids.length * logEntrySize →
      ∃ readings, s.decodeAll raw = .ok readings) :
    (LoggerEntry.mk route s (.ofIds ids) mailbox).Orderly where
  waits := MergeQueue.waits_ofIds ids
  full x hx := by
    rw [MergeQueue.entries_ofIds] at hx
    cases hx
  reads := by
    rwa [LoggerEntry.ids, MergeQueue.ids_ofIds]

theorem Orderly.withMerge (h : e.Orderly) (hids : q'.ids = e.merge.ids) (hwaits : q'.Waits)
    (hfull : ∀ x ∈ q'.entries, x.data.length = logEntrySize) :
    Orderly { e with merge := q' } where
  waits := hwaits
  full := hfull
  reads := by
    rw [LoggerEntry.ids, hids]
    exact h.reads

theorem Orderly.keeps (h : e.Orderly) (hentry : entry.data.length = logEntrySize)
    (hq : e.merge.Keeps id entry q') : Orderly { e with merge := q' } := by
  refine h.withMerge hq.ids hq.waits fun x hx => ?_
  rcases List.mem_cons.1 (hq.entries.symm.subset hx) with rfl | hold
  · exact hentry
  · exact h.full x hold

theorem Orderly.completes (h : e.Orderly) (hentry : entry.data.length = logEntrySize)
    (hq : e.merge.Completes id entry row joined q') :
    Orderly { e with merge := q' } ∧ joined.data.length = e.ids.length * logEntrySize := by
  have hall : ∀ x ∈ row ++ q'.entries, x.data.length = logEntrySize := by
    intro x hx
    rcases List.mem_cons.1 (hq.entries.symm.subset hx) with rfl | hold
    · exact hentry
    · exact h.full x hold
  refine ⟨h.withMerge hq.ids hq.waits fun x hx => hall x (List.mem_append_right _ hx), ?_⟩
  rw [MergeQueue.length_join hq.joins fun x hx => hall x (List.mem_append_left _ hx), hq.width]
  rfl

end LoggerEntry

/-- The consumers of the graph are orderly. -/
def Graph.Orderly (g : Graph) : Prop := ∀ e ∈ g.loggers, e.Orderly

theorem Graph.mem_of_logger? {g : Graph} {id : UInt8} {e : LoggerEntry}
    (h : g.logger? id = some e) : e ∈ g.loggers ∧ e.merge.contains id = true := by
  have hid := List.find?_some h
  exact ⟨List.mem_of_find?_eq_some h, hid⟩

/-- With another queue for one consumer, the others are as they were. -/
theorem Graph.Orderly.setMerge {g : Graph} (h : g.Orderly) {id : UInt8} {e : LoggerEntry}
    (he : g.logger? id = some e) {q : MergeQueue} (hq : LoggerEntry.Orderly { e with merge := q }) :
    (g.setMerge id q).Orderly := by
  obtain ⟨before, after, hloggers, hbefore⟩ :
      ∃ before after, g.loggers = before ++ e :: after ∧
        ∀ e' ∈ before, ¬e'.merge.contains id = true := by
    obtain ⟨-, before, after, hloggers, hbefore⟩ := List.find?_eq_some_iff_append.1 he
    exact ⟨before, after, hloggers, fun e' he' hid => by simpa [hid] using hbefore e' he'⟩
  intro e' he'
  rw [Graph.setMerge, hloggers, modifyOwner_append hbefore (mem_of_logger? he).2] at he'
  have hold : ∀ e' ∈ before ++ after, e'.Orderly := fun e' he' => by
    refine h e' (hloggers ▸ ?_)
    rw [List.mem_append] at he' ⊢
    exact he'.imp_right (List.mem_cons_of_mem e)
  rcases List.mem_append.1 he' with hin | hin
  · exact hold e' (List.mem_append_left _ hin)
  · rcases List.mem_cons.1 hin with rfl | hin
    · exact hq
    · exact hold e' (List.mem_append_right _ hin)

/-! ## Fates

The conditions of a fate are questions to the clock, the graph and the queue.  `Reconciler.fate`
asks them in the order in which a record meets them.
-/

/-- What may become of a record. -/
inductive Fate where
  /-- It was delivered before, and is passed over. -/
  | replayed
  /-- Its entry waits for those of other loggers. -/
  | queued
  /-- It completes a row, whose samples are delivered. -/
  | delivered
  /-- It is reported, because nobody knows its logger or nobody takes its samples any more. -/
  | reported
  /-- It completes a row that cannot be decoded. -/
  | undecodable
  /-- The calendar does not have its time. -/
  | untimed
deriving DecidableEq, Repr

/-- Does a fate account for a record? -/
def Fate.accounts : Fate → Bool
  | replayed | queued | delivered | reported => true
  | undecodable | untimed => false

/-- The clock does not give a time to entries that were delivered before, and to no others. -/
theorem TickClock.tell_cases (c : TickClock) (now : Instant) (record : LogRecord) :
    ((∃ mark, c.mark? record.reset = some mark ∧ record.tick ≤ mark) ∧
      (c.tell now record.reset record.tick).1 = .ok none) ∨
    (∃ time, (c.tell now record.reset record.tick).1 = .ok (some time)) ∨
    (c.tell now record.reset record.tick).1 = .error .overrun := by
  cases hreplay : c.isReplay record.reset record.tick with
  | true =>
    refine .inl ⟨?_, by rw [tell_of_replay hreplay]⟩
    rw [isReplay] at hreplay
    split at hreplay
    · rename_i mark hmark
      exact ⟨mark, hmark, of_decide_eq_true hreplay⟩
    · cases hreplay
  | false =>
    refine .inr ?_
    cases hok : (c.tell now record.reset record.tick).1.isOk with
    | false => exact .inr (tell_eq_overrun hok)
    | true =>
      have htimed := timed_tell hreplay hok
      cases htell : (c.tell now record.reset record.tick).1 with
      | error fault =>
        rw [htell] at hok
        cases hok
      | ok time =>
        cases time with
        | none =>
          rw [htell] at htimed
          cases htimed
        | some time => exact .inl ⟨time, rfl⟩

namespace Reconciler

variable (r : Reconciler) (now : Instant) (g : Graph) (record : LogRecord)

/-- The record has a time, and its entry comes to a consumer. -/
structure Brings (e : LoggerEntry) (entry : Stamped) : Prop where
  time : (r.clock.tell now record.reset record.tick).1 = .ok (some entry.time)
  data : entry.data = record.data
  consumer : g.logger? record.logId = some e

/-- The entry of the record completes a row of its consumer. -/
def Joins (e : LoggerEntry) (joined : Stamped) (q : MergeQueue) : Prop :=
  ∃ entry row, r.Brings now g record e entry ∧ e.merge.Completes record.logId entry row joined q

/-- What a record of each fate finds, and all that it does to the graph and to the report. -/
def Deals : Fate → Prop
  | .replayed =>
    (∃ mark, r.clock.mark? record.reset = some mark ∧ record.tick ≤ mark) ∧
      (r.handle now g record).graph = g ∧ (r.handle now g record).notices = []
  | .queued => ∃ e entry q, r.Brings now g record e entry ∧
      e.merge.Keeps record.logId entry q ∧
      (r.handle now g record).graph = g.setMerge record.logId q ∧
      (r.handle now g record).notices = []
  | .delivered => ∃ e joined q readings, r.Joins now g record e joined q ∧
      e.signal.decodeAll joined.data = .ok readings ∧ readings ≠ [] ∧
      g.mail.isOpen e.mailbox = true ∧
      (r.handle now g record).graph =
        { g.setMerge record.logId q with mail := (r.handle now g record).graph.mail } ∧
      (∀ i, (r.handle now g record).graph.mail.waiting i = if i = e.mailbox then
        g.mail.waiting i ++ readings.map (fun x => ⟨joined.time, x⟩) else g.mail.waiting i) ∧
      (r.handle now g record).notices = []
  | .reported =>
    (∃ time, (r.clock.tell now record.reset record.tick).1 = .ok (some time) ∧
      g.logger? record.logId = none ∧ (r.handle now g record).graph = g ∧
      (r.handle now g record).notices = [.unknown record.logId time record.data]) ∨
    ∃ e joined q readings, r.Joins now g record e joined q ∧
      e.signal.decodeAll joined.data = .ok readings ∧ g.mail.isOpen e.mailbox = false ∧
      (r.handle now g record).graph = g.setMerge record.logId q ∧
      (r.handle now g record).notices = [.unhandled record.logId joined.time joined.data]
  | .undecodable => ∃ e joined q fault, r.Joins now g record e joined q ∧
      e.signal.decodeAll joined.data = .error fault ∧
      (r.handle now g record).graph = g.setMerge record.logId q ∧
      (r.handle now g record).outcome = .error fault ∧ (r.handle now g record).notices = []
  | .untimed =>
    (r.clock.tell now record.reset record.tick).1 = .error .overrun ∧
      (r.handle now g record).graph = g ∧ (r.handle now g record).outcome = .error .overrun ∧
      (r.handle now g record).notices = []

/-- The fate of a record, by what it finds. -/
def fate : Fate :=
  match (r.clock.tell now record.reset record.tick).1 with
  | .error _ => .untimed
  | .ok none => .replayed
  | .ok (some time) =>
    match g.logger? record.logId with
    | none => .reported
    | some e =>
      match (e.merge.push record.logId ⟨time, record.data⟩).1 with
      | none => .queued
      | some joined =>
        match e.signal.decodeAll joined.data with
        | .error _ => .undecodable
        | .ok _ => if g.mail.isOpen e.mailbox then .delivered else .reported

variable {r now g record} {e : LoggerEntry} {entry joined : Stamped} {q : MergeQueue}

theorem Brings.entry_eq (h : r.Brings now g record e entry) :
    entry = ⟨entry.time, record.data⟩ := h.data ▸ rfl

/-- What is done with an entry that has to wait. -/
theorem Brings.handle_of_keeps (h : r.Brings now g record e entry)
    (hq : e.merge.Keeps record.logId entry q) :
    (r.handle now g record).graph = g.setMerge record.logId q ∧
      (r.handle now g record).notices = [] := by
  have hpush := hq.push
  rw [h.entry_eq] at hpush
  rw [handle]
  simp only [h.time, h.consumer, hpush]
  exact ⟨trivial, trivial⟩

/-- What is done with an entry that completes a row. -/
theorem Joins.handle_eq (h : r.Joins now g record e joined q) :
    r.handle now g record =
      deliver { r with clock := (r.clock.tell now record.reset record.tick).2 }
        (g.setMerge record.logId q) record.logId e joined := by
  obtain ⟨entry, row, hbrings, hq⟩ := h
  have hpush := hq.push
  rw [hbrings.entry_eq] at hpush
  rw [handle]
  simp only [hbrings.time, hbrings.consumer, hpush]

theorem Joins.fate_eq (h : r.Joins now g record e joined q) :
    r.fate now g record = match e.signal.decodeAll joined.data with
      | .error _ => .undecodable
      | .ok _ => if g.mail.isOpen e.mailbox then .delivered else .reported := by
  obtain ⟨entry, row, hbrings, hq⟩ := h
  have hpush := hq.push
  rw [hbrings.entry_eq] at hpush
  rw [fate]
  simp only [hbrings.time, hbrings.consumer, hpush]

/-- A row that is complete is delivered, or reported, or cannot be decoded. -/
theorem Joins.deals_fate (h : r.Joins now g record e joined q) :
    r.Deals now g record (r.fate now g record) := by
  rw [h.fate_eq]
  have hhandle := h.handle_eq
  cases hdecode : e.signal.decodeAll joined.data with
  | error fault =>
    rw [deliver, hdecode] at hhandle
    refine ⟨e, joined, q, fault, h, hdecode, ?_⟩
    rw [hhandle]
    exact ⟨rfl, rfl, rfl⟩
  | ok readings =>
    cases hopen : g.mail.isOpen e.mailbox with
    | false =>
      have hclosed : ¬(g.setMerge record.logId q).mail.isOpen e.mailbox = true :=
        Bool.eq_false_iff.1 hopen
      rw [deliver, hdecode] at hhandle
      dsimp only at hhandle
      rw [if_neg hclosed] at hhandle
      refine .inr ⟨e, joined, q, readings, h, hdecode, hopen, ?_⟩
      rw [hhandle]
      exact ⟨rfl, rfl⟩
    | true =>
      obtain ⟨hgraph, -, hnotices, -⟩ := Graph.deliver_eq
        { r with clock := (r.clock.tell now record.reset record.tick).2 }
        (g.setMerge record.logId q) record.logId e joined hopen
      rw [← hhandle] at hgraph hnotices
      have hsamples : e.signal.samples joined = readings.map fun x => ⟨joined.time, x⟩ := by
        rw [Signal.samples, hdecode]
      have hsome : readings ≠ [] := by
        intro hnil
        have hlength := Signal.length_of_decodeAll hdecode
        rw [hnil, List.length_nil] at hlength
        omega
      refine ⟨e, joined, q, readings, h, hdecode, hsome, hopen, ?_, fun i => ?_, hnotices⟩
      · rw [hgraph]
        exact Graph.post_eq _ _ _
      · have hwaiting := Graph.waiting_post (g.setMerge record.logId q) e.mailbox
          (e.signal.samples joined) i hopen
        rw [hgraph, hwaiting, hsamples]
        rfl

/-- A record has the fate of what it finds. -/
theorem deals_fate (hg : g.Orderly) : r.Deals now g record (r.fate now g record) := by
  rcases r.clock.tell_cases now record with ⟨hmark, htell⟩ | ⟨time, htell⟩ | htell
  · have hfate : r.fate now g record = .replayed := by
      rw [fate, htell]
    rw [hfate]
    refine ⟨hmark, ?_⟩
    rw [handle]
    simp only [htell]
    exact ⟨trivial, trivial⟩
  · cases hconsumer : g.logger? record.logId with
    | none =>
      have hfate : r.fate now g record = .reported := by
        rw [fate, htell]
        simp only [hconsumer]
      rw [hfate]
      refine .inl ⟨time, htell, hconsumer, ?_⟩
      rw [handle]
      simp only [htell, hconsumer]
      exact ⟨trivial, trivial⟩
    | some e =>
      have hbrings : r.Brings now g record e ⟨time, record.data⟩ := ⟨htell, rfl, hconsumer⟩
      obtain ⟨he, hid⟩ := Graph.mem_of_logger? hconsumer
      obtain ⟨q, hq⟩ | ⟨row, joined, q, hq⟩ :=
        MergeQueue.push_cases (hg e he).waits hid ⟨time, record.data⟩
      · have hfate : r.fate now g record = .queued := by
          rw [fate, htell]
          simp only [hconsumer, hq.push]
        rw [hfate]
        exact ⟨e, _, q, hbrings, hq, hbrings.handle_of_keeps hq⟩
      · exact Joins.deals_fate ⟨_, row, hbrings, hq⟩
  · have hfate : r.fate now g record = .untimed := by
      rw [fate, htell]
    rw [hfate]
    refine ⟨htell, ?_⟩
    rw [handle]
    simp only [htell]
    exact ⟨trivial, trivial, trivial⟩

/-- No two fates go together. -/
theorem Deals.fate_eq {f : Fate} (h : r.Deals now g record f) : r.fate now g record = f := by
  cases f with
  | replayed =>
    obtain ⟨⟨mark, hmark, htick⟩, -⟩ := h
    have hreplay : r.clock.isReplay record.reset record.tick = true := by
      rw [TickClock.isReplay, show r.clock.marks.find? record.reset = some mark from hmark]
      exact decide_eq_true htick
    rw [fate, TickClock.tell_of_replay hreplay]
  | queued =>
    obtain ⟨e, entry, q, hbrings, hq, -⟩ := h
    have hpush := hq.push
    rw [hbrings.entry_eq] at hpush
    rw [fate, hbrings.time]
    simp only [hbrings.consumer, hpush]
  | delivered =>
    obtain ⟨e, joined, q, readings, hjoins, hdecode, -, hopen, -⟩ := h
    rw [hjoins.fate_eq, hdecode]
    exact if_pos hopen
  | reported =>
    obtain ⟨time, htell, hconsumer, -⟩ | ⟨e, joined, q, readings, hjoins, hdecode, hclosed, -⟩ := h
    · rw [fate, htell]
      simp only [hconsumer]
    · rw [hjoins.fate_eq, hdecode]
      exact if_neg (Bool.eq_false_iff.1 hclosed)
  | undecodable =>
    obtain ⟨e, joined, q, fault, hjoins, hdecode, -⟩ := h
    rw [hjoins.fate_eq, hdecode]
  | untimed => rw [fate, h.1]

/-- **A record has exactly one fate.** -/
theorem existsUnique_fate (hg : g.Orderly) : ∃! f, r.Deals now g record f :=
  ⟨r.fate now g record, deals_fate hg, fun _ h => h.fate_eq.symm⟩

/-! ## From record to record -/

/-- What the row of a record comes to is as long as all its entries. -/
theorem Joins.orderly (h : r.Joins now g record e joined q) (hg : g.Orderly) (hfull : record.Full) :
    (g.setMerge record.logId q).Orderly ∧ joined.data.length = e.ids.length * logEntrySize := by
  obtain ⟨entry, row, hbrings, hq⟩ := h
  have he := hg e (Graph.mem_of_logger? hbrings.consumer).1
  obtain ⟨horderly, hlength⟩ := he.completes (hbrings.data ▸ hfull) hq
  exact ⟨hg.setMerge hbrings.consumer horderly, hlength⟩

/-- **The consumers stay orderly**, whatever becomes of the record. -/
theorem orderly_handle (hg : g.Orderly) (hfull : record.Full) :
    (r.handle now g record).graph.Orderly := by
  have hdeals : r.Deals now g record (r.fate now g record) := deals_fate hg
  cases hfate : r.fate now g record with
  | replayed =>
    rw [hfate] at hdeals
    rw [hdeals.2.1]
    exact hg
  | queued =>
    rw [hfate] at hdeals
    obtain ⟨e, entry, q, hbrings, hq, hgraph, -⟩ := hdeals
    have he := hg e (Graph.mem_of_logger? hbrings.consumer).1
    rw [hgraph]
    exact hg.setMerge hbrings.consumer (he.keeps (hbrings.data ▸ hfull) hq)
  | delivered =>
    rw [hfate] at hdeals
    obtain ⟨e, joined, q, readings, hjoins, -, -, -, hgraph, -⟩ := hdeals
    rw [hgraph]
    exact (hjoins.orderly hg hfull).1
  | reported =>
    rw [hfate] at hdeals
    obtain ⟨time, -, -, hgraph, -⟩ | ⟨e, joined, q, readings, hjoins, -, -, hgraph, -⟩ := hdeals
    · rw [hgraph]
      exact hg
    · rw [hgraph]
      exact (hjoins.orderly hg hfull).1
  | undecodable =>
    rw [hfate] at hdeals
    obtain ⟨e, joined, q, fault, hjoins, -, hgraph, -⟩ := hdeals
    rw [hgraph]
    exact (hjoins.orderly hg hfull).1
  | untimed =>
    rw [hfate] at hdeals
    rw [hdeals.2.1]
    exact hg

/-- **Only what the host found on the board cannot be decoded.** -/
theorem Deals.found (h : r.Deals now g record .undecodable) (hg : g.Orderly)
    (hfull : record.Full) : ∃ e, g.logger? record.logId = some e ∧ e.route = .invalid := by
  obtain ⟨e, joined, q, fault, hjoins, hdecode, -⟩ := h
  have hlength := (hjoins.orderly hg hfull).2
  obtain ⟨entry, row, hbrings, -⟩ := hjoins
  refine ⟨e, hbrings.consumer, ?_⟩
  refine (hg e (Graph.mem_of_logger? hbrings.consumer).1).reads.resolve_right fun hreads => ?_
  obtain ⟨readings, hok⟩ := hreads joined.data hlength
  rw [hdecode] at hok
  cases hok

end Reconciler
end SignalRoute
