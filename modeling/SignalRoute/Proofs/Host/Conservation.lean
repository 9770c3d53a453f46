import SignalRoute.Proofs.Host.Subscribers
import SignalRoute.Proofs.Log.Readout

/-!
# A download conserves the log

A host that has just begun to work with the log of its board (`Host.Poised`) downloads it.  If
nothing interrupts the playback, then nothing of the log is lost: `Host.downloadLog_conserves`.

* The download succeeds and the log is empty.
* Each consumer of a route has received the samples of its own entries, those of its loggers joined
  row by row.
* The entries without a consumer have been reported in their order, and at last that nothing is left.

All this holds exactly if the calendar has the times of the entries.  One that it does not have ends
the download, as in `Host.not_conserves_farApart`.

What is said of one download is put together from what is said of its steps.  `Proofs.Log.Readout`
follows it against the board, entry by entry; `Proofs.Host.Subscribers` says who hears whom; and the
clock says which entries it gives times to.  Here they meet on a host that a session has led to, and
the sum is taken: each entry is received or reported, in the order of the log.

The log is put on the board by hand, since how entries come about is the board's affair.  They may
be of any loggers, known or not, in any order, and of any number that the count of a board can say.
-/

set_option autoImplicit false

namespace SignalRoute

namespace Host

/-- The host with something done to its board. -/
def mapBoard (h : Host) (f : SimulatedBoard → SimulatedBoard) : Host :=
  h.mapLink fun l => { l with transport := l.transport.mapBoard f }

/-- What a download starts from. -/
def outset (h : Host) : Download := ⟨h.station.link, h.station.graph, h.reconciler, [], []⟩

/-- What a download leaves behind. -/
def after (h : Host) (d : Download) : Host :=
  { h with station := ⟨d.link, d.graph⟩, reconciler := d.reconciler }

/-- The host is wired to the board `b`, nothing is in between, no entry has been delivered before,
and its graph is that of the session.  Its clock and its settings may have changed since. -/
structure Poised (h : Host) (s : Session) (b : SimulatedBoard) : Prop where
  graph : h.station.graph = s.host.station.graph
  wired : h.station.link.Wired b
  refuse : h.station.link.transport.refuse = 0
  backlog : h.station.link.backlog = []
  device : h.reconciler.device = b.device
  unmarked : h.reconciler.clock.marks = .empty

variable {h : Host} {s start : Session} {b : SimulatedBoard}

theorem downloadLog_of {outcome : Except Fault Unit} {d : Download}
    (hdownload : download h.now h.outset = (outcome, d)) :
    h.downloadLog = ((outcome, d.notices), h.after d) := by
  show (((download h.now h.outset).1, (download h.now h.outset).2.notices),
    h.after (download h.now h.outset).2) = _
  rw [hdownload]

theorem Poised.mapBoard (hpoised : h.Poised s b) {f : SimulatedBoard → SimulatedBoard}
    (hlive : (f b).connected = true) (hdevice : (f b).device = b.device) :
    (h.mapBoard f).Poised s (f b) where
  graph := hpoised.graph
  wired := by
    refine { hpoised.wired with board := ?_, live := hlive }
    show h.station.link.transport.board.map f = _
    rw [hpoised.wired.board]
    rfl
  refuse := hpoised.refuse
  backlog := hpoised.backlog
  device := hpoised.device.trans hdevice.symm
  unmarked := hpoised.unmarked

theorem Poised.ready (hpoised : h.Poised s b) (hheard : s.Heard) (hfull : ∀ r ∈ b.log, r.Full) :
    h.outset.Ready s.host.station.graph [] b where
  wired := hpoised.wired
  refuse := hpoised.refuse
  backlog := hpoised.backlog
  device := hpoised.device
  tuned := hheard.tuned
  took := by
    have htook := hheard.tuned.took
    rwa [← hpoised.graph] at htook ⊢
  parked := rfl
  full := hfull

/-- **A download that nothing interrupts conserves the log**, exactly if the calendar has the times
of all entries. -/
theorem downloadLog_conserves (hstart : start.Begins)
    (hrun : Relation.ReflTransGen Session.Step start s) (hpoised : h.Poised s b)
    (hfits : ∀ r ∈ b.log, r.Fits)
    (hcount : b.log.length < 256 ^ Reconciler.counterWidth b.device) (huncut : b.cutAfter = none)
    (hroom : (b.readout b.log.length (h.outset.every b).toNat).1.length ≤
      h.station.link.capacity) :
    (h.downloadLog.1.1 = .ok () ↔ h.reconciler.clock.tells h.now b.log = true) ∧
      (h.reconciler.clock.tells h.now b.log = true →
        ∃ notices h' b', h.downloadLog = ((.ok (), notices), h') ∧
          h'.station.link.transport.board = some b' ∧ b'.log = [] ∧
          (h.reconciler.clock.told h.now b.log).map Prod.fst = b.log ∧
          (∀ r ∈ s.routes, ∃ consumers, s.host.station.graph.Feeds s.host.catalog r consumers ∧
            ∀ e ∈ consumers, h'.station.graph.mail.waiting e.mailbox =
              h.station.graph.mail.waiting e.mailbox ++
                e.samples (h.reconciler.clock.told h.now b.log)) ∧
          recordNotices notices =
            s.host.station.graph.unknowns (h.reconciler.clock.told h.now b.log) ∧
          notices.getLast? = some (.progress 0 (UInt32.ofNat b.log.length))) := by
  have hheard := Session.heard_of_run hstart hrun
  have hready := hpoised.ready hheard fun r hr => (hfits r hr).full
  have hdue : b.due.toNat = b.log.length := by
    rw [SimulatedBoard.toNat_due, Device.counted_of_lt hcount]
  have hwire : b.offer.map LogRecord.wire = b.log := by
    rw [SimulatedBoard.offer_eq hcount]
    exact (List.map_congr_left fun r hr => (hfits r hr).wire_eq).trans (List.map_id _)
  have hcut : ∀ n, b.cutAfter = some n → b.offer.length ≤ SimulatedBoard.cutAt n :=
    fun n hn => by rw [huncut] at hn; cases hn
  rw [← hdue] at hroom
  refine ⟨⟨fun hok => ?_, fun htell => ?_⟩, fun htell => ?_⟩
  · by_contra hfails
    have houtcome := Download.download_overrun hready hcut hroom
      (hwire ▸ Bool.eq_false_iff.2 hfails)
    rw [show h.downloadLog.1.1 = (download h.now h.outset).1 from rfl, houtcome] at hok
    cases hok
  · obtain ⟨d', commands, hdownload, -⟩ :=
      Download.download_whole hready hcut hroom (hwire ▸ htell)
    rw [downloadLog_of hdownload]
  · obtain ⟨d', commands, hdownload, hserves, -, hbrought, hlast⟩ :=
      Download.download_whole hready hcut hroom (hwire ▸ htell)
    rw [hwire] at hbrought
    refine ⟨d'.notices, h.after d', _, downloadLog_of hdownload, hserves.board, ?_, ?_, ?_, ?_, ?_⟩
    · show b.log.drop b.due.toNat = []
      rw [hdue, List.drop_length]
    · exact TickClock.told_of_unmarked hpoised.unmarked htell
    · intro r hr
      obtain ⟨consumers, hfeeds⟩ := hheard.fed r hr
      refine ⟨consumers, hfeeds, fun e he => ?_⟩
      rw [hpoised.graph]
      exact hbrought.graph.waiting e (hfeeds.there.subset he)
    · exact hbrought.notices
    · rw [hlast, SimulatedBoard.due, Device.counted_of_lt hcount]

end Host

/-! ## With and without a calendar

How long ticks take is a field of the clock, and the theorem is the same for every clock.  The clock
of a host computes it with floats, which no proof can run; the hosts of the examples have clocks
that compute it with whole numbers.

An entry without a time is no error of the board.  The ticks are in order, but the last date that
the calendar has comes before the time that they amount to.
-/

/-- The board with entries in its log, which end a page now and then. -/
def SimulatedBoard.loaded (b : SimulatedBoard) (entries : List LogRecord) (page : Option Nat) :
    SimulatedBoard := { b with log := entries, pageEvery := page }

namespace Session

/-- The host of a session with entries in the log of its board, and a clock that counts in whole
numbers. -/
def facing (s : Session) (entries : List LogRecord) (page : Option Nat) (span : Int64 → Int) :
    Host :=
  { s.host.mapBoard fun b => b.loaded entries page with
    reconciler := s.host.reconciler.mapClock fun c => { c with span := span } }

theorem clock_facing (s : Session) (entries : List LogRecord) (page : Option Nat)
    (span : Int64 → Int) : (s.facing entries page span).reconciler.clock =
      { s.host.reconciler.clock with span := span } := rfl

/-- A tick takes 1.46484375 milliseconds. -/
def usualSpan (ticks : Int64) : Int := ticks.toInt * 46875 / 32

/-- The switch and the acceleration are logged, the latter by two loggers. -/
def twoLogs : Session :=
  (fresh.build "switch" fun c => SignalRoute.Step.run c [.log]).build "acceleration"
    fun c => SignalRoute.Step.run c [.log]

theorem twoLogs_reached : Relation.ReflTransGen Step fresh twoLogs :=
  .tail (.single (step_build _ _ _)) (step_build _ _ _)

theorem reconciler_build (s : Session) (producer : String)
    (expression : Cursor → Drafting Cursor) :
    (s.build producer expression).host.reconciler = s.host.reconciler := by
  have hhost : (Host.buildRoute producer expression s.host).2.reconciler = s.host.reconciler := by
    rw [Host.buildRoute]
    cases s.host.plan producer expression <;> rfl
  rw [build]
  generalize Host.buildRoute producer expression s.host = built at hhost
  obtain ⟨_ | r, host⟩ := built <;> exact hhost

theorem clock_twoLogs : twoLogs.host.reconciler.clock = fresh.host.reconciler.clock := by
  rw [twoLogs, reconciler_build, reconciler_build]

/-- A session with a board of the same device is poised for what is in the log. -/
theorem Good.poised {s : Session} (h : s.Good) (entries : List LogRecord) (page : Option Nat)
    (span : Int64 → Int) (hbacklog : s.host.station.link.backlog = [])
    (hdevice : s.host.station.link.transport.board.map SimulatedBoard.device =
      some s.host.reconciler.device) (hmarks : s.host.reconciler.clock.marks = .empty) :
    ∃ b, s.host.station.link.transport.board = some b ∧
      (s.facing entries page span).Poised s (b.loaded entries page) := by
  obtain ⟨b, hb⟩ := h
  have hboard := hb.wired.board
  rw [hboard, Option.map_some, Option.some.injEq] at hdevice
  have hpoised : Host.Poised { s.host with
      reconciler := s.host.reconciler.mapClock fun c => { c with span := span } } s b :=
    ⟨rfl, hb.wired, hb.refuse, hbacklog, hdevice.symm, hmarks⟩
  exact ⟨b, hboard, hpoised.mapBoard hb.wired.live rfl⟩

/-- The host of both logs is poised for a board of which everything is known that can be computed. -/
theorem poised_twoLogs (entries : List LogRecord) (page : Option Nat) (span : Int64 → Int)
    (p : SimulatedBoard → Prop) [DecidablePred p]
    (h : twoLogs.host.station.link.transport.board.all
      (fun b => decide (p (b.loaded entries page))) = true) :
    ∃ b, (twoLogs.facing entries page span).Poised twoLogs b ∧ b.log = entries ∧ p b := by
  have hgood : twoLogs.Good := (step_build _ _ _).good ((step_build _ _ _).good fresh_begins.good)
  have hmarks : twoLogs.host.reconciler.clock.marks = .empty := by
    rw [clock_twoLogs]
    rfl
  obtain ⟨b, hboard, hpoised⟩ :=
    hgood.poised entries page span (by decide +kernel) (by decide +kernel) hmarks
  rw [hboard, Option.all_some, decide_eq_true_iff] at h
  exact ⟨_, hpoised, rfl, h⟩

end Session

namespace Host

/-- Entries of both signals and of a logger that the host does not know, in two resets. -/
def mixedLog : List LogRecord :=
  [⟨1, 0, 10, [1, 0, 2, 0]⟩, ⟨0, 0, 10, [1, 0, 0, 0]⟩, ⟨7, 0, 11, [9, 9, 9, 9]⟩,
    ⟨2, 0, 10, [3, 0, 0, 0]⟩, ⟨1, 1, 4, [4, 0, 5, 0]⟩, ⟨0, 1, 4, [0, 0, 0, 0]⟩,
    ⟨2, 1, 4, [6, 0, 0, 0]⟩]

/-- A host that is to download them in pages of three. -/
def beforeMixed : Host := Session.twoLogs.facing mixedLog (some 3) Session.usualSpan

/-- The acceleration is joined from its two loggers, with entries of others in between, and the
entry of the unknown logger is reported. -/
theorem downloadLog_conserves_mixed :
    ∃ notices after, beforeMixed.downloadLog = ((.ok (), notices), after) ∧
      (∀ r ∈ Session.twoLogs.routes, ∃ consumers,
        Session.twoLogs.host.station.graph.Feeds Session.twoLogs.host.catalog r consumers ∧
        ∀ e ∈ consumers, after.station.graph.mail.waiting e.mailbox =
          beforeMixed.station.graph.mail.waiting e.mailbox ++
            e.samples (beforeMixed.reconciler.clock.told beforeMixed.now mixedLog)) ∧
      recordNotices notices = Session.twoLogs.host.station.graph.unknowns
        (beforeMixed.reconciler.clock.told beforeMixed.now mixedLog) ∧
      notices.getLast? = some (.progress 0 7) := by
  obtain ⟨b, hpoised, hlog, hcount, huncut, hroom⟩ := Session.poised_twoLogs mixedLog (some 3)
    Session.usualSpan (fun b => mixedLog.length < 256 ^ Reconciler.counterWidth b.device ∧
      b.cutAfter = none ∧
      (b.readout mixedLog.length (beforeMixed.outset.every b).toNat).1.length ≤
        beforeMixed.station.link.capacity) (by decide +kernel)
  have hfits : ∀ r ∈ mixedLog, r.Fits := by decide
  have htell : beforeMixed.reconciler.clock.tells beforeMixed.now mixedLog = true := by
    decide +kernel
  rw [← hlog] at hfits hcount hroom htell ⊢
  obtain ⟨notices, after, b', hdownload, -, -, -, hheard, hunknown, hlast⟩ :=
    (downloadLog_conserves Session.fresh_begins Session.twoLogs_reached hpoised hfits hcount huncut
      hroom).2 htell
  rw [hlog] at hlast
  exact ⟨notices, after, hdownload, hheard, hunknown, hlast⟩

/-- Two entries of the switch, as far apart as ticks of one reset can be. -/
def farApart : List LogRecord := [⟨0, 0, 0, [1, 0, 0, 0]⟩, ⟨0, 0, 4294967295, [0, 0, 0, 0]⟩]

/-- A host that is to download them and takes a tick for an hour. -/
def beforeFarApart : Host :=
  Session.twoLogs.facing farApart none fun ticks => ticks.toInt * 3600000000

/-- **Where the calendar ends, so does a download**: the second entry lies half a million years
behind the first, and the download fails. -/
theorem not_conserves_farApart :
    Relation.ReflTransGen Session.Step Session.fresh Session.twoLogs ∧
      ∃ b, beforeFarApart.Poised Session.twoLogs b ∧ b.log = farApart ∧ (∀ r ∈ b.log, r.Fits) ∧
        b.log.length < 256 ^ Reconciler.counterWidth b.device ∧ b.cutAfter = none ∧
        (b.readout b.log.length (beforeFarApart.outset.every b).toNat).1.length ≤
          beforeFarApart.station.link.capacity ∧
        beforeFarApart.downloadLog.1.1 ≠ .ok () := by
  obtain ⟨b, hpoised, hlog, hfacts⟩ := Session.poised_twoLogs farApart none
    (fun ticks => ticks.toInt * 3600000000) (fun b => (∀ r ∈ b.log, r.Fits) ∧
      b.log.length < 256 ^ Reconciler.counterWidth b.device ∧ b.cutAfter = none ∧
      (b.readout b.log.length (beforeFarApart.outset.every b).toNat).1.length ≤
        beforeFarApart.station.link.capacity) (by decide +kernel)
  have hfails : beforeFarApart.downloadLog.1.1.toOption.isSome = false := by decide +kernel
  obtain ⟨hfits, hcount, huncut, hroom⟩ := hfacts
  refine ⟨Session.twoLogs_reached, b, hpoised, hlog, hfits, hcount, huncut, hroom, fun hok => ?_⟩
  rw [hok] at hfails
  cases hfails

end Host
end SignalRoute
