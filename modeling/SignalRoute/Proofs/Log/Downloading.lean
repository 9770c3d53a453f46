import SignalRoute.Proofs.Board.Playback
import SignalRoute.Proofs.Graph.Consumers
import SignalRoute.Proofs.Link.Wired

/-!
# What a download does with the frames of a readout

A download in the middle of a readout has brought some records to their consumers, and more frames
are in the queue; this is `Download.Reading`.  Each frame takes such a download to the next one, and
so do the frames of a parcel (`Reading.parcel`) and of any number of parcels (`Reading.parcels`).
A record whose time the clock cannot tell ends the download with an error instead
(`Reading.parcels_overrun`).

`Reading` has two downloads, the one before the first frame and the present one, and relates the one
to the other by the list of records in between.  What has become of the graph is not repeated here;
it is what `Graph.Took` says of the same records.  The numbers of fuel are kept apart in `ReadsOn`,
where reading some frames uses up as many.
-/

set_option autoImplicit false

namespace SignalRoute

/-- Is this a progress notice? -/
def Notice.isProgress : Notice → Bool
  | .progress _ _ => true
  | _ => false

/-- What a report says of records. -/
def recordNotices (notices : List Notice) : List Notice := notices.filter fun n => !n.isProgress

theorem recordNotices_append (xs ys : List Notice) :
    recordNotices (xs ++ ys) = recordNotices xs ++ recordNotices ys := List.filter_append ..

theorem recordNotices_unknowns (g : Graph) (told : List (LogRecord × Instant)) :
    recordNotices (g.unknowns told) = g.unknowns told := by
  rw [recordNotices, List.filter_eq_self]
  intro n hn
  obtain ⟨x, -, rfl⟩ := List.mem_map.1 hn
  rfl

/-- A parcel that the host takes in its stride: whole records, counters that do not say that nothing
is left, and the ends of pages only if they can be confirmed. -/
structure Parcel.Sound (p : Parcel) (b : SimulatedBoard) : Prop where
  full : ∀ r ∈ p.records, r.Full
  left : ∀ n, p.left = some n → b.device.counted n ≠ 0
  page : p.page = true → b.device.extendedLogging = true ∧ b.connected = true

namespace Download

/-- The download is `d` with `records` brought to their consumers.  These are the consumers of `g`,
to which the records of `base` were brought before.  The link serves the board, up to the commands
that were sent, and `rest` is in the queue. -/
structure Reading (now : Instant) (g : Graph) (base : List (LogRecord × Instant)) (d : Download)
    (b : SimulatedBoard) (room : Nat) (records : List LogRecord) (rest : List LinkEvent)
    (d' : Download) : Prop where
  link : ∃ commands, d'.link.Serves { b with commands := commands } room
  queue : d'.link.queue = rest
  reconciler : d'.reconciler =
    { d.reconciler with clock := d.reconciler.clock.after now records }
  graph : g.Took (base ++ d.reconciler.clock.told now records) d'.graph
  notices : recordNotices d'.notices =
    recordNotices d.notices ++ g.unknowns (d.reconciler.clock.told now records)
  parked : d'.parked = d.parked

/-- Reading goes on from one download to the other, with `count` frames less. -/
def ReadsOn (now : Instant) (total : UInt32) (count : Nat) (d d' : Download) : Prop :=
  ∀ fuel, Downloading.readFrames now total (count + fuel) d =
    Downloading.readFrames now total fuel d'

theorem ReadsOn.refl {now : Instant} {total : UInt32} (d : Download) : ReadsOn now total 0 d d :=
  fun fuel => by rw [Nat.zero_add]

theorem ReadsOn.trans {now : Instant} {total : UInt32} {m n : Nat} {d₁ d₂ d₃ : Download}
    (h : ReadsOn now total m d₁ d₂) (h' : ReadsOn now total n d₂ d₃) :
    ReadsOn now total (m + n) d₁ d₃ := fun fuel => by rw [Nat.add_assoc, h, h']

/-- The download with the first event of its queue taken out. -/
def popped (d : Download) (rest : List LinkEvent) : Download :=
  { d with link := { d.link with queue := rest } }

variable {now : Instant} {total : UInt32} {g : Graph} {base : List (LogRecord × Instant)}
  {d d' d'' : Download} {b : SimulatedBoard} {room : Nat} {records : List LogRecord}
  {rest : List LinkEvent} {frame : Bytes}

open Downloading

theorem readFrames_frame (hbacklog : d.link.backlog = [])
    (hqueue : d.link.queue = .frame frame :: rest) (fuel : Nat) : readFrames now total (fuel + 1) d =
      (takeFrame now total frame >>= fun progress => match progress with
        | .done => (pure () : Downloading Unit)
        | .more => readFrames now total fuel) (d.popped rest) := by
  have hnext : onLink nextFrame d = (.ok frame, d.popped rest) := by
    have hrecv : Link.tryNext d.link = (.ok (some frame), { d.link with queue := rest }) := by
      simp only [Link.tryNext, Link.recv, hbacklog, hqueue]
    have hframe : nextFrame d.link = (.ok frame, { d.link with queue := rest }) := by
      rw [nextFrame, bind_apply_ok hrecv]
      rfl
    simp only [onLink, hframe]
    rfl
  rw [readFrames]
  exact bind_apply_ok hnext

theorem readsOn_of_more (hbacklog : d.link.backlog = [])
    (hqueue : d.link.queue = .frame frame :: rest)
    (htake : takeFrame now total frame (d.popped rest) = (.ok .more, d')) :
    ReadsOn now total 1 d d' := fun fuel => by
  rw [Nat.add_comm, readFrames_frame hbacklog hqueue, bind_apply_ok htake]

/-- A progress notice is noted, and ends the readout if nothing is left. -/
theorem takeFrame_progress {body : Bytes} {left : UInt32}
    (hleft : Reconciler.readCounter d.reconciler.device body = .ok left) :
    takeFrame now total (Module.logging :: LogReg.readoutProgress :: body) d =
      (.ok (if left = 0 then .done else .more),
        { d with notices := d.notices ++ [.progress left total] }) := by
  have hregister : LogReg.readoutProgress ≠ LogReg.readoutNotify := by decide
  rw [takeFrame, if_pos rfl, takeLogFrame, get_bind_apply, if_neg hregister, if_pos rfl, hleft]
  rfl

/-- A record whose time the calendar does not have is not brought anywhere. -/
theorem takeRecord_overrun {r : LogRecord} (hfull : r.Full)
    (hfails : (d.reconciler.clock.tell now r.wire.reset r.wire.tick).1.isOk = false) :
    ∃ d', Downloading.takeRecord now r.toBytes d = (.error .overrun, d') := by
  have houtcome : (d.reconciler.handle now d.graph r.wire).outcome = .error .overrun := by
    have htell := TickClock.tell_eq_overrun hfails
    rw [Reconciler.handle]
    simp only [htell]
  rw [Downloading.takeRecord, LogRecord.parse_toBytes hfull]
  dsimp only
  rw [get_bind_apply]
  generalize d.reconciler.handle now d.graph r.wire = handled at houtcome
  obtain ⟨outcome, reconciler, graph, notices⟩ := handled
  obtain rfl : outcome = .error .overrun := houtcome
  exact ⟨_, rfl⟩

/-! ## Frames

One lemma for each frame that a playback sends.  Each of them takes a frame off the queue and leaves
a download that reads the next one.
-/

namespace Reading

theorem backlog (h : Reading now g base d b room records rest d') : d'.link.backlog = [] := by
  obtain ⟨commands, hserves⟩ := h.link
  exact hserves.backlog

theorem popped {event : LinkEvent} (h : Reading now g base d b room records (event :: rest) d') :
    Reading now g base d b room records rest (d'.popped rest) := by
  obtain ⟨commands, hserves⟩ := h.link
  exact { h with link := ⟨commands, hserves.withQueue rest⟩, queue := rfl }

/-- A record is brought to its consumer. -/
theorem takeRecord (htuned : g.Tuned) (h : Reading now g base d b room records rest d')
    {r : LogRecord} (hfull : r.Full)
    (hok : ((d.reconciler.clock.after now records).tell now r.wire.reset r.wire.tick).1.isOk =
      true) :
    ∃ d'', Downloading.takeRecord now r.toBytes d' = (.ok (), d'') ∧
      Reading now g base d b room (records ++ [r.wire]) rest d'' := by
  have hclock : d'.reconciler.clock = d.reconciler.clock.after now records := by rw [h.reconciler]
  rw [← hclock] at hok
  obtain ⟨hgraph, hnotices, houtcome⟩ := h.graph.handle htuned hok
  have htold : d.reconciler.clock.told now (records ++ [r.wire]) =
      d.reconciler.clock.told now records ++
        TickClock.timed r.wire (d'.reconciler.clock.tell now r.wire.reset r.wire.tick).1 := by
    rw [TickClock.told_append, TickClock.told_singleton, hclock]
  have htake : Downloading.takeRecord now r.toBytes d' =
      (.ok (), { d' with
        reconciler := (d'.reconciler.handle now d'.graph r.wire).reconciler
        graph := (d'.reconciler.handle now d'.graph r.wire).graph
        notices := d'.notices ++ (d'.reconciler.handle now d'.graph r.wire).notices }) := by
    rw [Downloading.takeRecord, LogRecord.parse_toBytes hfull]
    dsimp only
    rw [get_bind_apply]
    generalize d'.reconciler.handle now d'.graph r.wire = handled at houtcome
    obtain ⟨outcome, reconciler, graph, notices⟩ := handled
    rcases outcome with fault | done
    · cases fault <;> first | exact absurd rfl houtcome | rfl
    · rfl
  refine ⟨_, htake, h.link, h.queue, ?_, ?_, ?_, h.parked⟩
  · show (d'.reconciler.handle now d'.graph r.wire).reconciler = _
    rw [Reconciler.reconciler_handle, TickClock.after_append, ← hclock, h.reconciler]
    rfl
  · rw [htold, ← List.append_assoc]
    exact hgraph
  · show recordNotices (d'.notices ++ (d'.reconciler.handle now d'.graph r.wire).notices) = _
    rw [recordNotices_append, h.notices, hnotices, recordNotices_unknowns, htold,
      Graph.unknowns_append, List.append_assoc]

/-- The records of a frame are brought to their consumers. -/
theorem takeRecords (htuned : g.Tuned) {rs : List LogRecord} (hfull : ∀ r ∈ rs, r.Full)
    (h : Reading now g base d b room records rest d')
    (hok : (d.reconciler.clock.after now records).tells now (rs.map LogRecord.wire) = true) :
    ∃ d'', (rs.map LogRecord.toBytes).forM (Downloading.takeRecord now) d' = (.ok (), d'') ∧
      Reading now g base d b room (records ++ rs.map LogRecord.wire) rest d'' := by
  induction rs generalizing records d' with
  | nil => exact ⟨d', rfl, by rw [List.map_nil, List.append_nil]; exact h⟩
  | cons r rs ih =>
    rw [List.map_cons, TickClock.tells, Bool.and_eq_true] at hok
    obtain ⟨d₁, htake, h₁⟩ := h.takeRecord htuned (hfull r List.mem_cons_self) hok.1
    have hrest : (d.reconciler.clock.after now (records ++ [r.wire])).tells now
        (rs.map LogRecord.wire) = true := by
      rw [TickClock.after_append]
      exact hok.2
    obtain ⟨d₂, htakes, h₂⟩ := ih (fun r' hr' => hfull r' (List.mem_cons_of_mem _ hr')) h₁ hrest
    refine ⟨d₂, ?_, ?_⟩
    · show (Downloading.takeRecord now r.toBytes >>= fun _ =>
        (rs.map LogRecord.toBytes).forM (Downloading.takeRecord now)) d' = _
      rw [bind_apply_ok htake, htakes]
    · rw [List.append_assoc] at h₂
      exact h₂

/-- A frame of records. -/
theorem recordFrame (htuned : g.Tuned) {rs : List LogRecord} (hfull : ∀ r ∈ rs, r.Full)
    (h : Reading now g base d b room records (SimulatedBoard.recordFrame rs :: rest) d')
    (hok : (d.reconciler.clock.after now records).tells now (rs.map LogRecord.wire) = true) :
    ∃ d'', ReadsOn now total 1 d' d'' ∧
      Reading now g base d b room (records ++ rs.map LogRecord.wire) rest d'' := by
  obtain ⟨d'', htakes, h''⟩ := h.popped.takeRecords htuned hfull hok
  refine ⟨d'', readsOn_of_more h.backlog h.queue ?_, h''⟩
  have hcut := LogRecord.cut_flatMap hfull
  show ((LogRecord.cut (rs.flatMap LogRecord.toBytes)).forM (Downloading.takeRecord now) >>=
    fun _ => (pure .more : Downloading Progress)) (d'.popped rest) = _
  rw [hcut, bind_apply_ok htakes]
  rfl

/-- A progress notice that says that something is left. -/
theorem progressFrame {n : Nat} (hn : b.device.counted n ≠ 0)
    (hdevice : d.reconciler.device = b.device)
    (h : Reading now g base d b room records
      (.frame (SimulatedBoard.progressFrame b.device n) :: rest) d') :
    ∃ d'', ReadsOn now total 1 d' d'' ∧ Reading now g base d b room records rest d'' := by
  have hdevice' : d'.reconciler.device = b.device := by
    rw [h.reconciler]
    exact hdevice
  have hleft : UInt32.ofNat (b.device.counted n) ≠ 0 := by
    intro heq
    have := congrArg UInt32.toNat heq
    rw [UInt32.toNat_ofNat', Nat.mod_eq_of_lt (b.device.counted_lt n)] at this
    exact hn this
  have hp := h.popped
  refine ⟨{ d'.popped rest with notices := (d'.popped rest).notices ++
    [.progress (UInt32.ofNat (b.device.counted n)) total] },
    readsOn_of_more h.backlog h.queue ?_, { hp with notices := ?_ }⟩
  · have hcounter : Reconciler.readCounter (d'.popped rest).reconciler.device
        (SimulatedBoard.counterBytes b.device n) = .ok (UInt32.ofNat (b.device.counted n)) := by
      rw [← Reconciler.readCounter_counterBytes, ← hdevice']
      rfl
    rw [SimulatedBoard.progressFrame, takeFrame_progress hcounter, if_neg hleft]
  · rw [recordNotices_append, hp.notices]
    exact List.append_nil _

/-- The end of a page, which is confirmed. -/
theorem pageFrame (hextended : b.device.extendedLogging = true)
    (hdevice : d.reconciler.device = b.device) (hlive : b.connected = true)
    (h : Reading now g base d b room records (.frame SimulatedBoard.pageFrame :: rest) d') :
    ∃ d'', ReadsOn now total 1 d' d'' ∧ Reading now g base d b room records rest d'' := by
  have hdevice' : d'.reconciler.device = b.device := by
    rw [h.reconciler]
    exact hdevice
  have hp := h.popped
  obtain ⟨commands, hserves⟩ := hp.link
  have hsend := hserves.send_silent hlive
    (SimulatedBoard.handle_pageConfirm { b with commands := commands })
  have hconfirmed : ((d'.popped rest).link.carried [Module.logging, LogReg.pageConfirm]
      (SimulatedBoard.heard { b with commands := commands }
        [Module.logging, LogReg.pageConfirm])).Serves
      { b with commands := commands ++ [[Module.logging, LogReg.pageConfirm]] } room :=
    hserves.carried _
  let confirmed : Download := { d'.popped rest with
    link := (d'.popped rest).link.carried [Module.logging, LogReg.pageConfirm]
      (SimulatedBoard.heard { b with commands := commands } [Module.logging, LogReg.pageConfirm]) }
  refine ⟨confirmed, readsOn_of_more h.backlog h.queue ?_,
    { hp with link := ⟨_, hconfirmed⟩, queue := rfl }⟩
  show ((if LogReg.pageCompleted = LogReg.pageCompleted ∧
      d'.reconciler.device.extendedLogging = true then do
        onLink (Link.send [Module.logging, LogReg.pageConfirm])
        return .more
      else do
        park SimulatedBoard.pageFrame
        return .more : Downloading Progress)) (d'.popped rest) = _
  rw [if_pos ⟨rfl, by rw [hdevice', hextended]⟩, bind_apply]
  simp only [onLink, hsend]
  rfl

/-! ## Parcels -/

theorem parcel (htuned : g.Tuned) (hdevice : d.reconciler.device = b.device) {p : Parcel}
    (hp : p.Sound b)
    (h : Reading now g base d b room records (SimulatedBoard.eventsOf b.device p ++ rest) d')
    (hok : (d.reconciler.clock.after now records).tells now (p.records.map LogRecord.wire) = true) :
    ∃ d'', ReadsOn now total (SimulatedBoard.eventsOf b.device p).length d' d'' ∧
      Reading now g base d b room (records ++ p.records.map LogRecord.wire) rest d'' := by
  obtain ⟨rs, left, page⟩ := p
  rw [SimulatedBoard.eventsOf, List.cons_append, List.append_assoc] at h
  obtain ⟨d₁, hreads₁, h₁⟩ := h.recordFrame htuned hp.full hok
  obtain ⟨d₂, hreads₂, h₂⟩ : ∃ d₂, ReadsOn now total
      (left.map fun n => LinkEvent.frame (SimulatedBoard.progressFrame b.device n)).toList.length
        d₁ d₂ ∧
      Reading now g base d b room (records ++ rs.map LogRecord.wire)
        ((if page then [.frame SimulatedBoard.pageFrame] else []) ++ rest) d₂ := by
    cases left with
    | none => exact ⟨d₁, .refl d₁, h₁⟩
    | some n => exact h₁.progressFrame (hp.left n rfl) hdevice
  obtain ⟨d₃, hreads₃, h₃⟩ : ∃ d₃, ReadsOn now total
      (if page then [LinkEvent.frame SimulatedBoard.pageFrame] else []).length d₂ d₃ ∧
      Reading now g base d b room (records ++ rs.map LogRecord.wire) rest d₃ := by
    cases page with
    | false => exact ⟨d₂, .refl d₂, h₂⟩
    | true =>
      obtain ⟨hextended, hlive⟩ := hp.page rfl
      exact h₂.pageFrame hextended hdevice hlive
  refine ⟨d₃, ?_, h₃⟩
  rw [SimulatedBoard.eventsOf, List.length_cons, List.length_append, Nat.add_comm]
  exact hreads₁.trans (hreads₂.trans hreads₃)

/-- The parcels of a readout. -/
theorem parcels (htuned : g.Tuned) (hdevice : d.reconciler.device = b.device) {ps : List Parcel}
    (hps : ∀ p ∈ ps, p.Sound b)
    (h : Reading now g base d b room records
      (ps.flatMap (SimulatedBoard.eventsOf b.device) ++ rest) d')
    (hok : (d.reconciler.clock.after now records).tells now
      ((ps.flatMap Parcel.records).map LogRecord.wire) = true) :
    ∃ d'', ReadsOn now total (ps.flatMap (SimulatedBoard.eventsOf b.device)).length d' d'' ∧
      Reading now g base d b room (records ++ (ps.flatMap Parcel.records).map LogRecord.wire) rest
        d'' := by
  induction ps generalizing records d' with
  | nil => exact ⟨d', .refl d', by rw [List.flatMap_nil, List.map_nil, List.append_nil]; exact h⟩
  | cons p ps ih =>
    rw [List.flatMap_cons, List.map_append, TickClock.tells_append, Bool.and_eq_true,
      ← TickClock.after_append] at hok
    rw [List.flatMap_cons, List.append_assoc] at h
    obtain ⟨d₁, hreads₁, h₁⟩ := h.parcel htuned hdevice (hps p List.mem_cons_self) hok.1
    obtain ⟨d₂, hreads₂, h₂⟩ := ih (fun p' hp' => hps p' (List.mem_cons_of_mem _ hp')) h₁ hok.2
    refine ⟨d₂, ?_, ?_⟩
    · rw [List.flatMap_cons, List.length_append]
      exact hreads₁.trans hreads₂
    · rw [List.flatMap_cons, List.map_append, ← List.append_assoc]
      exact h₂

/-! ## Times that cannot be told -/

/-- A record whose time the calendar does not have ends the frame that it is in. -/
theorem takeRecords_overrun (htuned : g.Tuned) {rs : List LogRecord} (hfull : ∀ r ∈ rs, r.Full)
    (h : Reading now g base d b room records rest d')
    (hfails : (d.reconciler.clock.after now records).tells now (rs.map LogRecord.wire) = false) :
    ∃ d'', (rs.map LogRecord.toBytes).forM (Downloading.takeRecord now) d' =
      (.error .overrun, d'') := by
  induction rs generalizing records d' with
  | nil => cases hfails
  | cons r rs ih =>
    have hfirst := hfull r List.mem_cons_self
    have hclock : d'.reconciler.clock = d.reconciler.clock.after now records := by rw [h.reconciler]
    have hforM : ((r :: rs).map LogRecord.toBytes).forM (Downloading.takeRecord now) d' =
      (Downloading.takeRecord now r.toBytes >>= fun _ =>
        (rs.map LogRecord.toBytes).forM (Downloading.takeRecord now)) d' := rfl
    rw [hforM]
    cases htell : ((d.reconciler.clock.after now records).tell now r.wire.reset
        r.wire.tick).1.isOk with
    | false =>
      rw [← hclock] at htell
      obtain ⟨d'', htake⟩ := takeRecord_overrun hfirst htell
      exact ⟨d'', bind_apply_error htake⟩
    | true =>
      rw [List.map_cons, TickClock.tells, htell, Bool.true_and] at hfails
      obtain ⟨d₁, htake, h₁⟩ := h.takeRecord htuned hfirst htell
      have hrest : (d.reconciler.clock.after now (records ++ [r.wire])).tells now
          (rs.map LogRecord.wire) = false := by
        rw [TickClock.after_append]
        exact hfails
      obtain ⟨d₂, htakes⟩ := ih (fun r' hr' => hfull r' (List.mem_cons_of_mem _ hr')) h₁ hrest
      exact ⟨d₂, (bind_apply_ok htake).trans htakes⟩

theorem recordFrame_overrun (htuned : g.Tuned) {rs : List LogRecord} (hfull : ∀ r ∈ rs, r.Full)
    (h : Reading now g base d b room records (SimulatedBoard.recordFrame rs :: rest) d')
    (hfails : (d.reconciler.clock.after now records).tells now (rs.map LogRecord.wire) = false)
    (fuel : Nat) : (readFrames now total (fuel + 1) d').1 = .error .overrun := by
  obtain ⟨d'', htakes⟩ := h.popped.takeRecords_overrun htuned hfull hfails
  have hcut := LogRecord.cut_flatMap hfull
  have htake : takeFrame now total (Module.logging :: LogReg.readoutNotify ::
      rs.flatMap LogRecord.toBytes) (d'.popped rest) = (.error .overrun, d'') := by
    show ((LogRecord.cut (rs.flatMap LogRecord.toBytes)).forM (Downloading.takeRecord now) >>=
      fun _ => (pure .more : Downloading Progress)) (d'.popped rest) = _
    rw [hcut, bind_apply_error htakes]
  rw [readFrames_frame h.backlog h.queue, bind_apply_error htake]

/-- A record whose time the calendar does not have ends the readout. -/
theorem parcels_overrun (htuned : g.Tuned) (hdevice : d.reconciler.device = b.device)
    {ps : List Parcel} (hps : ∀ p ∈ ps, p.Sound b)
    (h : Reading now g base d b room records
      (ps.flatMap (SimulatedBoard.eventsOf b.device) ++ rest) d')
    (hfails : (d.reconciler.clock.after now records).tells now
      ((ps.flatMap Parcel.records).map LogRecord.wire) = false) (fuel : Nat) :
    (readFrames now total ((ps.flatMap (SimulatedBoard.eventsOf b.device)).length + fuel) d').1 =
      .error .overrun := by
  induction ps generalizing records d' with
  | nil => cases hfails
  | cons p ps ih =>
    have hp := hps p List.mem_cons_self
    rw [List.flatMap_cons, List.append_assoc] at h
    rw [List.flatMap_cons, List.length_append, Nat.add_assoc]
    cases htell : (d.reconciler.clock.after now records).tells now
        (p.records.map LogRecord.wire) with
    | false =>
      rw [SimulatedBoard.eventsOf, List.cons_append] at h
      rw [SimulatedBoard.eventsOf, List.length_cons, Nat.add_right_comm]
      exact h.recordFrame_overrun htuned hp.full htell _
    | true =>
      rw [List.flatMap_cons, List.map_append, TickClock.tells_append, htell, Bool.true_and,
        ← TickClock.after_append] at hfails
      obtain ⟨d₁, hreads₁, h₁⟩ := h.parcel htuned hdevice hp htell
      rw [hreads₁]
      exact ih (fun p' hp' => hps p' (List.mem_cons_of_mem _ hp')) h₁ hfails

/-! ## The end -/

/-- The notice that nothing is left ends the readout. -/
theorem finish (total : UInt32) (hdevice : d.reconciler.device = b.device)
    (h : Reading now g base d b room records [.frame (SimulatedBoard.progressFrame b.device 0)] d')
    (fuel : Nat) :
    ∃ d'', readFrames now total (fuel + 1) d' = (.ok (), d'') ∧
      Reading now g base d b room records [] d'' ∧
      d''.notices.getLast? = some (.progress 0 total) := by
  have hdevice' : d'.reconciler.device = b.device := by
    rw [h.reconciler]
    exact hdevice
  have hp := h.popped
  let done : Download :=
    { d'.popped [] with notices := (d'.popped []).notices ++ [.progress 0 total] }
  have hcounter : Reconciler.readCounter (d'.popped []).reconciler.device
      (SimulatedBoard.counterBytes b.device 0) = .ok 0 := by
    rw [show (d'.popped []).reconciler.device = b.device from hdevice',
      Reconciler.readCounter_counterBytes, Device.counted, Nat.zero_mod]
    rfl
  have htake : takeFrame now total (SimulatedBoard.progressFrame b.device 0) (d'.popped []) =
      (.ok .done, done) := takeFrame_progress hcounter
  refine ⟨done, ?_, { hp with notices := ?_ }, List.getLast?_concat⟩
  · rw [readFrames_frame h.backlog h.queue, bind_apply_ok htake]
    rfl
  · rw [recordNotices_append, hp.notices]
    exact List.append_nil _

/-- A lost connection ends it too. -/
theorem lose (h : Reading now g base d b room records [.disconnected] d') (fuel : Nat) :
    readFrames now total (fuel + 1) d' =
      (.error (.connectionLost "transport disconnected"),
        { d' with link := { d'.link with queue := [], connected := false } }) := by
  have hrecv : Link.tryNext d'.link = (.error (.connectionLost "transport disconnected"),
      { d'.link with queue := [], connected := false }) := by
    simp only [Link.tryNext, Link.recv, h.backlog, h.queue]
  have hnext : onLink nextFrame d' = (.error (.connectionLost "transport disconnected"),
      { d' with link := { d'.link with queue := [], connected := false } }) := by
    have hframe : nextFrame d'.link = (.error (.connectionLost "transport disconnected"),
        { d'.link with queue := [], connected := false }) := by
      rw [nextFrame, bind_apply_error hrecv]
    simp only [onLink, hframe]
  rw [readFrames, bind_apply_error hnext]

end Reading
end Download
end SignalRoute
