import SignalRoute.Proofs.Host.Conservation

/-!
# An interrupted download is resumed

A playback is cut short behind some entries, the host reconnects, and the log is downloaded once
more.  The board sends all entries again, and the host passes over those up to the last tick that it
has seen of each reset.

`Host.download_resumed`: in the end every subscription has the readings that one download without
an interruption brings, if no entry behind the cut has the reset and the tick of one before it.
`Host.not_resumed_sameTick`: an entry that has is lost.

Which entries are passed over is decided by ticks and not by counting.  The board drops nothing
before a playback is complete, and starts from the oldest entry again; the host has the last tick of
each reset, and takes an entry with a tick up to that for one that it has seen.  If two entries have
the same tick and the cut falls between them, then it has not seen the second.

The field of `Resumable` that matters is `apart`: no entry behind the cut has the tick of one before
it.  The other fields say how boards count, what earlier downloads have seen, and that the calendar
has all times.
-/

set_option autoImplicit false

namespace SignalRoute

/-- A link that may have been lost is wired again. -/
theorem Link.Serves.reconnected {l : Link} {b : SimulatedBoard} {room : Nat}
    (h : Link.Serves { l with connected := true } b room) (hqueue : l.queue = [])
    (hroom : 0 < room) :
    (Link.reconnected { l with
      transport := l.transport.mapBoard SimulatedBoard.reconnect }).Wired b.reconnect where
  board := by
    show l.transport.board.map SimulatedBoard.reconnect = _
    rw [show l.transport.board = some b from h.board]
    rfl
  scripts := h.scripts
  queue := hqueue
  room := by
    show 0 < l.capacity
    rwa [show l.capacity = room from h.capacity]
  isOpen := h.isOpen
  connected := rfl
  live := rfl

/-- Every subscription of a route hears some consumer. -/
theorem Graph.Feeds.exists_consumer {g : Graph} {catalog : Catalog} {r : Route}
    {consumers : List LoggerEntry} (h : g.Feeds catalog r consumers) {sub : Subscription}
    (hsub : sub ∈ r.logs) : ∃ e ∈ g.loggers, e.mailbox = sub.mailbox := by
  obtain ⟨hthere, -, hhears⟩ := h
  generalize r.logs = logs at hhears hsub
  induction hhears with
  | nil => cases hsub
  | cons hfirst hrest ih =>
    rcases List.mem_cons.1 hsub with rfl | hsub
    · exact ⟨_, hthere.subset List.mem_cons_self, hfirst.mailbox⟩
    · exact ih ((List.sublist_cons_self _ _).trans hthere) hsub

namespace Host

/-- The host with its board told to cut a playback behind `n` entries. -/
def cutBehind (h : Host) (n : Nat) : Host := h.mapBoard fun b => { b with cutAfter := some n }

/-- The host once board and link are connected again. -/
def resumedAt (h : Host) (later : Instant) : Host :=
  { (h.mapBoard SimulatedBoard.reconnect).handleReconnect with now := later }

/-- The clock when the part of a log before the cut has been delivered. -/
def clockAtCut (h : Host) (b : SimulatedBoard) (n : Nat) : TickClock :=
  (h.reconciler.clock.after h.now ((b.early n).map LogRecord.wire)).thaw.markRollback

/-- A download that is cut behind `n` entries can be resumed. -/
structure Resumable (h : Host) (b : SimulatedBoard) (n : Nat) (later : Instant) : Prop where
  /-- Ticks do not get smaller within a reset. -/
  ascending : (b.log.map LogRecord.wire).Pairwise fun r r' => r.reset = r'.reset → r.tick ≤ r'.tick
  /-- Earlier downloads ended before these ticks. -/
  beyond : ∀ r ∈ b.log, ∀ last, h.reconciler.clock.lastTicks.find? r.wire.reset = some last →
    last < r.tick
  /-- No entry behind the cut has the tick of one before it. -/
  apart : ∀ r ∈ b.early n, ∀ r' ∈ b.offer.drop (SimulatedBoard.cutAt n),
    r.wire.reset = r'.wire.reset → r.tick ≠ r'.tick
  /-- No page ends before the cut. -/
  page : b.device.extendedLogging = true →
    b.pageEvery.any (SimulatedBoard.passes · 0 (SimulatedBoard.cutAt n)) = false
  /-- The calendar has the times of all entries. -/
  told : h.reconciler.clock.tells h.now (b.offer.map LogRecord.wire) = true
  toldLater : (h.clockAtCut b n).tells later (b.offer.map LogRecord.wire) = true

variable {h : Host} {s start : Session} {b : SimulatedBoard} {n : Nat} {later : Instant}

theorem Resumable.ahead (hresumable : h.Resumable b n later)
    (hunmarked : h.reconciler.clock.marks = .empty) :
    h.reconciler.clock.Ahead (b.offer.map LogRecord.wire) where
  ascending := hresumable.ascending.sublist ((List.take_sublist _ _).map LogRecord.wire)
  beyond r hr last hlast := by
    obtain ⟨r, hmem, rfl⟩ := List.mem_map.1 hr
    exact UInt32.le_of_lt (hresumable.beyond r (List.mem_of_mem_take hmem) last hlast)
  unmarked r _ := TickClock.isReplay_of_unmarked hunmarked r.reset r.tick

/-- The clock that has marked what came before the cut gives times to what comes behind it. -/
theorem Resumable.told_rest (hresumable : h.Resumable b n later)
    (hunmarked : h.reconciler.clock.marks = .empty) :
    ((h.clockAtCut b n).told later (b.offer.map LogRecord.wire)).map Prod.fst =
      (b.offer.drop (SimulatedBoard.cutAt n)).map LogRecord.wire := by
  have hahead := hresumable.ahead hunmarked
  have htell := hresumable.toldLater
  have hsplit : b.offer.map LogRecord.wire = (b.early n).map LogRecord.wire ++
      (b.offer.drop (SimulatedBoard.cutAt n)).map LogRecord.wire := by
    rw [SimulatedBoard.early, ← List.map_append, List.take_append_drop]
  rw [hsplit] at hahead htell ⊢
  have hlast : (h.clockAtCut b n).lastTicks =
      (h.reconciler.clock.after h.now ((b.early n).map LogRecord.wire)).lastTicks := rfl
  refine TickClock.told_resumed hahead ?_ ?_ hlast rfl htell
  · intro r hr r' hr' hreset
    have hle := (List.pairwise_append.1 hahead.ascending).2.2 r hr r' hr' hreset
    obtain ⟨r, hmem, rfl⟩ := List.mem_map.1 hr
    obtain ⟨r', hmem', rfl⟩ := List.mem_map.1 hr'
    exact UInt32.lt_of_le_of_ne hle (hresumable.apart r hmem r' hmem' hreset)
  · intro r hr last hlast
    obtain ⟨r, hmem, rfl⟩ := List.mem_map.1 hr
    exact hresumable.beyond r (List.mem_of_mem_take (List.mem_of_mem_drop hmem)) last hlast

/-- Subscriptions have received the same if their consumers were brought the same records. -/
theorem readings_eq (hheard : s.Heard) {g g' : Graph} {told told' : List (LogRecord × Instant)}
    (htook : s.host.station.graph.Took told g) (htook' : s.host.station.graph.Took told' g')
    (hsame : told.map Prod.fst = told'.map Prod.fst) :
    ∀ r ∈ s.routes, ∀ sub ∈ r.logs, (g.mail.waiting sub.mailbox).map Sample.reading =
      (g'.mail.waiting sub.mailbox).map Sample.reading := by
  intro r hr sub hsub
  obtain ⟨consumers, hfeeds⟩ := hheard.fed r hr
  obtain ⟨e, he, hmailbox⟩ := hfeeds.exists_consumer hsub
  rw [← hmailbox, htook.waiting e he, htook'.waiting e he, List.map_append, List.map_append,
    e.readings_samples hsame]

/-- After a download, however it ended, the next one may begin as soon as the host has
reconnected. -/
theorem ready_resumedAt (h : Host) (later : Instant) {g : Graph}
    {base : List (LogRecord × Instant)} {d : Download} {room : Nat}
    (hserves : Link.Serves { d.link with connected := true } b room) (hqueue : d.link.queue = [])
    (hroom : 0 < room) (hdevice : d.reconciler.device = b.device) (htuned : g.Tuned)
    (htook : g.Took base d.graph) (hfull : ∀ r ∈ b.log, r.Full) :
    ((h.after d).resumedAt later).outset.Ready g base b.reconnect where
  wired := hserves.reconnected hqueue hroom
  refuse := hserves.refuse
  backlog := hserves.backlog
  device := hdevice
  tuned := htuned
  took := htook
  parked := rfl
  full := hfull

/-- The log is downloaded with a cut behind `n` entries, and once more. -/
def downloadAgain (h : Host) (n : Nat) (later : Instant) :
    (Except Fault Unit × List Notice) × Host :=
  ((h.cutBehind n).downloadLog.2.resumedAt later).downloadLog

/-- What the second download brings comes to what the first has brought. -/
theorem downloadAgain_of {outcome : Except Fault Unit} {d : Download} {g : Graph}
    {base : List (LogRecord × Instant)} {back : SimulatedBoard}
    (hdownload : download h.now (h.cutBehind n).outset = (outcome, d))
    (hready : (((h.cutBehind n).after d).resumedAt later).outset.Ready g base back)
    (huncut : back.cutAfter = none)
    (hroom : (back.readout back.due.toNat
      (Downloading.progressInterval back.due d.reconciler.progressUpdates).toNat).1.length ≤
        d.link.capacity)
    (htell : d.reconciler.clock.tells later (back.offer.map LogRecord.wire) = true) :
    (h.downloadAgain n later).1.1 = .ok () ∧
      g.Took (base ++ d.reconciler.clock.told later (back.offer.map LogRecord.wire))
        (h.downloadAgain n later).2.station.graph := by
  have hwhole : ∀ m, back.cutAfter = some m → back.offer.length ≤ SimulatedBoard.cutAt m :=
    fun m hm => by rw [huncut] at hm; cases hm
  obtain ⟨d', commands, hdownload', -, -, hbrought, -⟩ :=
    Download.download_whole hready hwhole hroom htell
  have hagain : h.downloadAgain n later =
      ((.ok (), d'.notices), (((h.cutBehind n).after d).resumedAt later).after d') := by
    rw [downloadAgain, downloadLog_of hdownload]
    exact downloadLog_of hdownload'
  rw [hagain]
  exact ⟨rfl, hbrought.graph⟩

section

variable (hheard : s.Heard) (hpoised : h.Poised s b) (hfull : ∀ r ∈ b.log, r.Full)
  (huncut : b.cutAfter = none) (hresumable : h.Resumable b n later)
  (hroom : (b.readout b.due.toNat (h.outset.every b).toNat).1.length ≤ h.station.link.capacity)

include huncut hroom in
/-- With a cut, the channel has room all the more. -/
theorem room_cutBehind (n : Nat) :
    (SimulatedBoard.readout { b with cutAfter := some n } b.due.toNat
      (h.outset.every b).toNat).1.length ≤ h.station.link.capacity := by
  refine (SimulatedBoard.length_readout_cut_le n _).trans ?_
  rw [← huncut]
  exact hroom

include hpoised in
theorem poised_cutBehind (n : Nat) : (h.cutBehind n).Poised s { b with cutAfter := some n } :=
  hpoised.mapBoard hpoised.wired.live rfl

include hheard hpoised hfull huncut hresumable hroom in
/-- If the first download is cut short, the second brings what is missing. -/
theorem downloadAgain_short (hshort : SimulatedBoard.cutAt n < b.offer.length) :
    (h.downloadAgain n later).1.1 = .ok () ∧
      ∃ told, s.host.station.graph.Took told (h.downloadAgain n later).2.station.graph ∧
        told.map Prod.fst = b.offer.map LogRecord.wire := by
  have hsplit : (b.early n).map LogRecord.wire ++
      (b.offer.drop (SimulatedBoard.cutAt n)).map LogRecord.wire = b.offer.map LogRecord.wire := by
    rw [SimulatedBoard.early, ← List.map_append, List.take_append_drop]
  have htell := hresumable.told
  rw [← hsplit, TickClock.tells_append, Bool.and_eq_true] at htell
  obtain ⟨d, l, commands, hdownload, hserves, hlink, hreconciler, hbrought⟩ :=
    Download.download_short ((poised_cutBehind hpoised n).ready hheard hfull) rfl hshort
      (fun hextended => hresumable.page hextended) (room_cutBehind huncut hroom n) htell.1
  have hlost : Link.Serves { d.link with connected := true }
      { b with commands := commands, cutAfter := none, connected := false }
      h.station.link.capacity := by
    rw [hlink]
    exact { hserves with connected := rfl }
  have hready := ready_resumedAt (h.cutBehind n) later hlost (by rw [hlink])
    hpoised.wired.room (hbrought.device.trans hpoised.device) hheard.tuned hbrought.graph hfull
  have hclock : d.reconciler.clock = h.clockAtCut b n := by
    rw [hreconciler]
    rfl
  have hupdates : d.reconciler.progressUpdates = h.reconciler.progressUpdates := by
    rw [hreconciler]
    rfl
  -- The board plays back what it would have played back without the cut.
  have hagainRoom : (SimulatedBoard.readout
      { b with commands := commands, cutAfter := none, connected := true } b.due.toNat
      (Downloading.progressInterval b.due d.reconciler.progressUpdates).toNat).1.length ≤
        d.link.capacity := by
    rw [hupdates, show d.link.capacity = h.station.link.capacity from hlost.capacity,
      SimulatedBoard.readout_whole fun m hm => by cases hm]
    rw [SimulatedBoard.readout_whole fun m hm => by rw [huncut] at hm; cases hm] at hroom
    exact hroom
  have hagainTell : d.reconciler.clock.tells later (b.offer.map LogRecord.wire) = true :=
    hclock ▸ hresumable.toldLater
  obtain ⟨hok, htook⟩ := downloadAgain_of hdownload hready rfl hagainRoom hagainTell
  refine ⟨hok, _, htook, ?_⟩
  rw [List.nil_append, List.map_append, ← hsplit]
  congr 1
  · exact TickClock.told_of_unmarked hpoised.unmarked htell.1
  · rw [hclock]
    exact hresumable.told_rest hpoised.unmarked

include hheard hpoised hfull huncut hresumable hroom in
/-- If the first download is not cut short, it brings everything and the second nothing. -/
theorem downloadAgain_whole (hwhole : b.offer.length ≤ SimulatedBoard.cutAt n) :
    (h.downloadAgain n later).1.1 = .ok () ∧
      ∃ told, s.host.station.graph.Took told (h.downloadAgain n later).2.station.graph ∧
        told.map Prod.fst = b.offer.map LogRecord.wire := by
  obtain ⟨d, commands, hdownload, hserves, hqueue, hbrought, -⟩ := Download.download_whole
    ((poised_cutBehind hpoised n).ready hheard hfull) (fun m hm => by cases hm; exact hwhole)
    (room_cutBehind huncut hroom n) hresumable.told
  let back : SimulatedBoard := { b with
    commands := commands
    log := b.log.drop b.due.toNat
    cutAfter := none
    connected := true }
  have hready : (((h.cutBehind n).after d).resumedAt later).outset.Ready _ _ back :=
    ready_resumedAt (h.cutBehind n) later { hserves with connected := rfl } hqueue
      hpoised.wired.room (hbrought.device.trans hpoised.device) hheard.tuned hbrought.graph
      fun r hr => hfull r (List.mem_of_mem_drop hr)
  have hnone : back.due = 0 := SimulatedBoard.due_of_rest (b := b) rfl rfl
  have hoffer : back.offer = [] := by
    rw [SimulatedBoard.offer, hnone]
    rfl
  have hagainRoom : (back.readout back.due.toNat (Downloading.progressInterval back.due
      d.reconciler.progressUpdates).toNat).1.length ≤ d.link.capacity := by
    rw [hnone]
    exact hready.wired.room
  have hagainTell : d.reconciler.clock.tells later (back.offer.map LogRecord.wire) = true := by
    rw [hoffer]
    rfl
  obtain ⟨hok, htook⟩ := downloadAgain_of hdownload hready rfl hagainRoom hagainTell
  refine ⟨hok, _, htook, ?_⟩
  rw [hoffer, List.nil_append, List.map_nil, TickClock.told, List.append_nil]
  exact TickClock.told_of_unmarked hpoised.unmarked hresumable.told

end

/-- **An interrupted download is resumed without loss**: however many entries came in before the
cut, after the second download each subscription has the readings that one whole download brings. -/
theorem download_resumed (hstart : start.Begins)
    (hrun : Relation.ReflTransGen Session.Step start s) (hpoised : h.Poised s b)
    (hfull : ∀ r ∈ b.log, r.Full) (huncut : b.cutAfter = none) (hresumable : h.Resumable b n later)
    (hroom : (b.readout b.due.toNat (h.outset.every b).toNat).1.length ≤
      h.station.link.capacity) :
    h.downloadLog.1.1 = .ok () ∧ (h.downloadAgain n later).1.1 = .ok () ∧
      ∀ r ∈ s.routes, ∀ sub ∈ r.logs,
        ((h.downloadAgain n later).2.station.graph.mail.waiting sub.mailbox).map Sample.reading =
          (h.downloadLog.2.station.graph.mail.waiting sub.mailbox).map Sample.reading := by
  have hheard := Session.heard_of_run hstart hrun
  obtain ⟨hagain, told, htook, hrecords⟩ : (h.downloadAgain n later).1.1 = .ok () ∧
      ∃ told, s.host.station.graph.Took told (h.downloadAgain n later).2.station.graph ∧
        told.map Prod.fst = b.offer.map LogRecord.wire := by
    rcases Nat.lt_or_ge (SimulatedBoard.cutAt n) b.offer.length with hshort | hwhole
    · exact downloadAgain_short hheard hpoised hfull huncut hresumable hroom hshort
    · exact downloadAgain_whole hheard hpoised hfull huncut hresumable hroom hwhole
  obtain ⟨d, commands, hdownload, -, -, hbrought, -⟩ := Download.download_whole
    (hpoised.ready hheard hfull) (fun m hm => by rw [huncut] at hm; cases hm) hroom hresumable.told
  rw [downloadLog_of hdownload]
  refine ⟨rfl, hagain, readings_eq hheard htook hbrought.graph ?_⟩
  rw [List.nil_append, hrecords]
  exact (TickClock.told_of_unmarked hpoised.unmarked hresumable.told).symm

/-- Two accelerations and two states of the switch, in two resets. -/
def splitLog : List LogRecord :=
  [⟨1, 0, 10, [1, 0, 2, 0]⟩, ⟨0, 0, 10, [1, 0, 0, 0]⟩, ⟨2, 0, 11, [3, 0, 0, 0]⟩,
    ⟨1, 1, 4, [4, 0, 5, 0]⟩, ⟨0, 1, 4, [0, 0, 0, 0]⟩, ⟨2, 1, 5, [6, 0, 0, 0]⟩]

/-- A host that is to download them in pages of three. -/
def beforeSplit : Host := Session.twoLogs.facing splitLog (some 3) Session.usualSpan

/-- The cut falls between the entries of one acceleration. -/
theorem download_resumed_split :
    beforeSplit.downloadLog.1.1 = .ok () ∧ (beforeSplit.downloadAgain 1 1000000).1.1 = .ok () ∧
      ∀ r ∈ Session.twoLogs.routes, ∀ sub ∈ r.logs,
        ((beforeSplit.downloadAgain 1 1000000).2.station.graph.mail.waiting sub.mailbox).map
            Sample.reading =
          (beforeSplit.downloadLog.2.station.graph.mail.waiting sub.mailbox).map
            Sample.reading := by
  obtain ⟨b, hpoised, hlog, hfits, huncut, hroom, hascending, hapart, hpage, htold, htoldLater⟩ :=
    Session.poised_twoLogs splitLog (some 3) Session.usualSpan
      (fun b => (∀ r ∈ b.log, r.Fits) ∧ b.cutAfter = none ∧
        (b.readout b.due.toNat (beforeSplit.outset.every b).toNat).1.length ≤
          beforeSplit.station.link.capacity ∧
        ((b.log.map LogRecord.wire).Pairwise fun r r' => r.reset = r'.reset → r.tick ≤ r'.tick) ∧
        (∀ r ∈ b.early 1, ∀ r' ∈ b.offer.drop (SimulatedBoard.cutAt 1),
          r.wire.reset = r'.wire.reset → r.tick ≠ r'.tick) ∧
        b.pageEvery.any (SimulatedBoard.passes · 0 (SimulatedBoard.cutAt 1)) = false ∧
        beforeSplit.reconciler.clock.tells beforeSplit.now (b.offer.map LogRecord.wire) = true ∧
        (beforeSplit.clockAtCut b 1).tells 1000000 (b.offer.map LogRecord.wire) = true)
      (by decide +kernel)
  have hempty : beforeSplit.reconciler.clock.lastTicks = .empty := by
    rw [beforeSplit, Session.clock_facing, Session.clock_twoLogs]
    rfl
  have hresumable : beforeSplit.Resumable b 1 1000000 := by
    refine ⟨hascending, fun r hr last hlast => ?_, hapart, fun _ => hpage, htold, htoldLater⟩
    rw [hempty, IdTable.find?_empty] at hlast
    cases hlast
  exact download_resumed Session.fresh_begins Session.twoLogs_reached hpoised
    (fun r hr => (hfits r hr).full) huncut hresumable hroom

/-- Four states of the switch at one tick. -/
def sameTick : List LogRecord :=
  [⟨0, 0, 5, [1, 0, 0, 0]⟩, ⟨0, 0, 5, [0, 0, 0, 0]⟩, ⟨0, 0, 5, [1, 0, 0, 0]⟩,
    ⟨0, 0, 5, [0, 0, 0, 0]⟩]

/-- A host that is to download them. -/
def beforeSameTick : Host := Session.twoLogs.facing sameTick none Session.usualSpan

/-- **A cut between entries of one tick loses those behind it**: the resumed download takes them for
delivered. -/
theorem not_resumed_sameTick :
    Relation.ReflTransGen Session.Step Session.fresh Session.twoLogs ∧
      ∃ b, beforeSameTick.Poised Session.twoLogs b ∧ b.log = sameTick ∧
        ((b.log.map LogRecord.wire).Pairwise fun r r' => r.reset = r'.reset → r.tick ≤ r'.tick) ∧
        b.cutAfter = none ∧
        ∃ r ∈ Session.twoLogs.routes, ∃ sub ∈ r.logs,
          ((beforeSameTick.downloadAgain 2 1000000).2.station.graph.mail.waiting
              sub.mailbox).length = 2 ∧
            (beforeSameTick.downloadLog.2.station.graph.mail.waiting sub.mailbox).length = 4 := by
  obtain ⟨b, hpoised, hlog, hascending, huncut⟩ := Session.poised_twoLogs sameTick none
    Session.usualSpan (fun b => ((b.log.map LogRecord.wire).Pairwise fun r r' =>
      r.reset = r'.reset → r.tick ≤ r'.tick) ∧ b.cutAfter = none) (by decide +kernel)
  exact ⟨Session.twoLogs_reached, b, hpoised, hlog, hascending, huncut, by decide +kernel⟩

end Host
end SignalRoute
