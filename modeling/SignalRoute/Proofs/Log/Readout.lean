import SignalRoute.Proofs.Log.Downloading

/-!
# What a download leads to

A download that may begin (`Download.Ready`) asks for the entries that the board says it has
(`SimulatedBoard.offer`), and ends in one of three ways.

* `Download.download_whole`: if the playback comes to its end, the download succeeds, the entries are
  with their consumers and gone from the board, and the last notice is that nothing is left.
* `Download.download_overrun`: if the calendar does not have a time, it fails instead.
* `Download.download_short`: if it is cut short, the download fails with the connection, the entries
  before the cut are with their consumers, the board keeps its log, and the clock has marked the
  last ticks that it saw.

The three theorems have the same assumption about the beginning, and each says enough of the end for
the next download to begin, so that they can be put one behind the other.  The assumption that no
write is refused is what they have in common with a board that works; what a refused write does to a
download is in `Proofs.Host.Handback`.
-/

set_option autoImplicit false

namespace SignalRoute

/-! ## What the board offers

The counter of the board decides how many entries are asked for, and the cut how many of them come.
Both are counted in entries, but a playback sends two at a time.
-/

namespace SimulatedBoard

/-- How many entries the board says it has. -/
def due (b : SimulatedBoard) : UInt32 := UInt32.ofNat (b.device.counted b.log.length)

/-- The entries that a download asks for. -/
def offer (b : SimulatedBoard) : List LogRecord := b.log.take b.due.toNat

/-- The entries that come in if the playback is cut behind `n` of them. -/
def early (b : SimulatedBoard) (n : Nat) : List LogRecord := b.offer.take (cutAt n)

variable {b : SimulatedBoard}

theorem toNat_due (b : SimulatedBoard) : b.due.toNat = b.device.counted b.log.length := by
  rw [due, UInt32.toNat_ofNat', Nat.mod_eq_of_lt (b.device.counted_lt _)]

theorem length_offer (b : SimulatedBoard) : b.offer.length = b.due.toNat := by
  rw [offer, List.length_take, toNat_due]
  exact Nat.min_eq_left (b.device.counted_le _)

/-- A log that fits the counter is offered as a whole. -/
theorem offer_eq (h : b.log.length < 256 ^ Reconciler.counterWidth b.device) :
    b.offer = b.log := by
  rw [offer, toNat_due, Device.counted_of_lt h, List.take_length]

/-- Once the entries that were offered are gone, no more are offered, even if the counter went
round. -/
theorem due_of_rest {b' : SimulatedBoard} (hdevice : b'.device = b.device)
    (hlog : b'.log = b.log.drop b.due.toNat) : b'.due = 0 := by
  have hnone : b'.device.counted b'.log.length = 0 := by
    rw [hdevice, hlog, List.length_drop, toNat_due, Device.counted, Device.counted]
    exact Nat.sub_mod_eq_zero_of_mod_eq (Nat.mod_mod _ _).symm
  rw [due, hnone]
  rfl

/-- The parcels of entries that are offered hold no surprises, unless a page ends in one that nobody
can confirm any more. -/
theorem sound_parcels (b' : SimulatedBoard) (hdevice : b'.device = b.device)
    (hfull : ∀ r ∈ b.log, r.Full) {every : Nat} {entries : List LogRecord}
    (hentries : entries ⊆ b.log) {p : Parcel}
    (hp : p ∈ parcels b.device b.pageEvery b.offer.length every 0 entries)
    (hpage : p.page = true → b'.connected = true) : p.Sound b' := by
  refine ⟨fun r hr => hfull r (hentries ?_), fun n hn => ?_, fun hends => ⟨?_, hpage hends⟩⟩
  · have hflat : (parcels b.device b.pageEvery b.offer.length every 0 entries).flatMap
        Parcel.records = entries := records_parcels
    rw [← hflat]
    exact List.mem_flatMap_of_mem hp hr
  · obtain ⟨hpos, hle⟩ := left_of_mem_parcels hp hn
    rw [length_offer, toNat_due] at hle
    have hlt : n < 256 ^ Reconciler.counterWidth b.device :=
      Nat.lt_of_le_of_lt hle (Nat.mod_lt _ (Nat.pow_pos (by omega)))
    rw [hdevice, Device.counted_of_lt hlt]
    omega
  · rw [hdevice]
    exact extended_of_mem_parcels hp hends

end SimulatedBoard

/-! ## Commands of a download -/

open Downloading

namespace Link.Serves

variable {l : Link} {b : SimulatedBoard} {room : Nat}

/-- A command that changes nothing on the board. -/
theorem heard (h : l.Serves b room) (hlive : b.connected = true) {command : Bytes}
    (hc : b.handle command = ([], b.heard command)) :
    ∃ l', Link.send command l = (.ok (), l') ∧ l'.Serves (b.heard command) room ∧
      l'.queue = l.queue := ⟨_, h.send_silent hlive hc, h.carried command, rfl⟩

/-- Notices are switched on and off, and nothing else happens. -/
theorem setNotices (h : l.Serves b room) (hlive : b.connected = true) (extended on : Bool) :
    ∃ l' commands, Downloading.setNotices extended on l = (.ok (), l') ∧
      l'.Serves { b with commands := commands } room ∧ l'.queue = l.queue := by
  let flag : UInt8 := if on then 1 else 0
  obtain ⟨l₁, hsend₁, h₁, hqueue₁⟩ := h.heard hlive (b.handle_notices flag (.inl rfl))
  obtain ⟨l₂, hsend₂, h₂, hqueue₂⟩ := h₁.heard hlive
    (SimulatedBoard.handle_notices _ flag (.inr (.inl rfl)))
  obtain ⟨l₃, hsend₃, h₃, hqueue₃⟩ := h₂.heard hlive
    (SimulatedBoard.handle_notices _ flag (.inr (.inr rfl)))
  rw [Downloading.setNotices, bind_apply_ok hsend₁, bind_apply_ok hsend₂]
  cases extended with
  | false => exact ⟨l₂, _, rfl, h₂, hqueue₂.trans hqueue₁⟩
  | true => exact ⟨l₃, _, hsend₃, h₃, hqueue₃.trans (hqueue₂.trans hqueue₁)⟩

end Link.Serves

/-! ## Downloads -/

namespace Download

/-- A download that may begin: the link is wired to the board and refuses nothing, the host knows
which board it is, and the consumers of `g` have taken the records of `base`. -/
structure Ready (g : Graph) (base : List (LogRecord × Instant)) (b : SimulatedBoard)
    (d : Download) : Prop where
  wired : d.link.Wired b
  refuse : d.link.transport.refuse = 0
  backlog : d.link.backlog = []
  device : d.reconciler.device = b.device
  tuned : g.Tuned
  took : g.Took base d.graph
  parked : d.parked = []
  full : ∀ r ∈ b.log, r.Full

/-- How many entries lie between two progress notices. -/
def every (d : Download) (b : SimulatedBoard) : UInt32 :=
  progressInterval b.due d.reconciler.progressUpdates

/-- The download is `d` with records brought to the consumers of `g`, which have taken those of
`base` before. -/
structure Brought (now : Instant) (g : Graph) (base : List (LogRecord × Instant)) (d : Download)
    (records : List LogRecord) (d' : Download) : Prop where
  graph : g.Took (base ++ d.reconciler.clock.told now records) d'.graph
  notices : recordNotices d'.notices =
    recordNotices d.notices ++ g.unknowns (d.reconciler.clock.told now records)
  device : d'.reconciler.device = d.reconciler.device
  parked : d'.parked = []

variable {now : Instant} {g : Graph} {base : List (LogRecord × Instant)} {d d' : Download}
  {b : SimulatedBoard}

/-- The board is asked for the number of its entries. -/
theorem Ready.entryCount (h : d.Ready g base b) :
    ∃ l commands, Reconciler.entryCount d.reconciler.device d.link = (.ok b.due, l) ∧
      l.Serves { b with commands := commands } d.link.capacity ∧ l.queue = [] := by
  have hr : ¬d.link.transport.Refuses := fun hr => hr.1 h.refuse
  have hrequest : Link.request [Module.logging, readForm LogReg.length]
      (.register Module.logging (readForm LogReg.length)) "log length" d.link = _ :=
    Link.request_of_reply h.wired hr b.handle_readLength rfl "log length"
  have hwired : (d.link.carried [Module.logging, readForm LogReg.length]
      (b.heard [Module.logging, readForm LogReg.length])).idle.Wired
      (b.heard [Module.logging, readForm LogReg.length]) :=
    (h.wired.carried _ (show (b.heard _).connected = true from h.wired.live)).idle
  refine ⟨_, _, ?_, hwired.serves h.refuse h.backlog, hwired.queue⟩
  rw [Reconciler.entryCount, bind_apply_ok hrequest, h.device]
  simp only [List.cons_append, List.nil_append, List.drop_succ_cons, List.drop_zero,
    Reconciler.readCounter_counterBytes]
  rfl

/-- Notices are switched on and the readout is asked for; what it sends is then read. -/
theorem readOut_eq (now : Instant) {room : Nat} {total every : UInt32} {events : List LinkEvent}
    {b' : SimulatedBoard} (hserves : d.link.Serves b room) (hqueue : d.link.queue = [])
    (hlive : b.connected = true)
    (hevery : every = progressInterval total d.reconciler.progressUpdates)
    (hreadout : ∀ commands, SimulatedBoard.readout { b with commands := commands } total.toNat
      every.toNat = (events, { b' with commands := commands }))
    (hroom : events.length ≤ room) :
    ∃ l commands, readOut now total d =
        readFrames now total (events.length + 1) { d with link := l } ∧
      l.Serves { b' with commands := commands } room ∧ l.queue = events := by
  obtain ⟨l, commands, hnotices, hl, hempty⟩ :=
    hserves.setNotices hlive d.reconciler.device.extendedLogging true
  have hcommand := (SimulatedBoard.handle_readoutCommand { b with commands := commands } total
    every).trans (hreadout _)
  have hsend := hl.send hlive hcommand (by rw [hempty, hqueue]; simpa using hroom)
  let after : SimulatedBoard :=
    { b' with commands := commands ++ [readoutCommand total every] }
  have hsent : ({ l.carried (readoutCommand total every) after with queue := events } : Link).Serves
      after room := (hl.carried (readoutCommand total every)).withQueue events
  rw [hempty, hqueue, List.nil_append] at hsend
  refine ⟨_, _, ?_, hsent, rfl⟩
  have hon : onLink (setNotices d.reconciler.device.extendedLogging true) d =
      (.ok (), { d with link := l }) := by
    simp only [onLink, hnotices]
  have hask : onLink (Link.send (readoutCommand total every)) { d with link := l } =
      (.ok (), { d with link := { l.carried (readoutCommand total every) after with
        queue := events } }) := by
    simp only [onLink]
    rw [hsend]
  have hfuel : ∀ t : Transport, t.scripts = [] → t.prepared = 0 := fun t ht => by
    rw [Transport.prepared, ht]
    rfl
  rw [readOut, get_bind_apply, bind_apply_ok hon, ← hevery, bind_apply_ok hask, get_bind_apply]
  dsimp only [Link.load]
  rw [hsent.backlog, hfuel _ hsent.scripts]
  simp

/-- The download when its readout has been asked for. -/
def opened (d : Download) (l : Link) : Download :=
  { d with link := l, reconciler := d.reconciler.mapClock TickClock.freeze }

/-- A download is its readout, settled. -/
theorem download_of_readOut {total : UInt32} {l l' : Link} {outcome outcome' : Except Fault Unit}
    (hcount : Reconciler.entryCount d.reconciler.device d.link = (.ok total, l)) (htotal : total ≠ 0)
    (hread : readOut now total (d.opened l) = (outcome, d'))
    (hquiet : quieten d'.reconciler.device.extendedLogging outcome d'.link = (outcome', l'))
    (hparked : d'.parked = []) :
    download now d = (outcome',
      { d' with
        link := l'
        reconciler := d'.reconciler.mapClock (settleClock outcome')
        parked := [] }) := by
  rw [opened] at hread
  rw [download, hcount]
  dsimp only
  rw [if_neg htotal, hread]
  dsimp only
  rw [hquiet, hparked]
  rfl

/-- A readout begins with nothing brought. -/
theorem Ready.reading {room : Nat} {l : Link} {commands : List Bytes} {b' : SimulatedBoard}
    (now : Instant) (h : d.Ready g base b) (hl : l.Serves { b' with commands := commands } room) :
    Reading now g base (d.opened l) b' room [] l.queue (d.opened l) where
  link := ⟨commands, hl⟩
  queue := rfl
  reconciler := rfl
  graph := by
    rw [TickClock.told, List.append_nil]
    exact h.took
  notices := (List.append_nil _).symm
  parked := rfl

/-- Notices are switched on and the readout is asked for. -/
theorem Ready.ask (now : Instant) (b' : SimulatedBoard) {l : Link} {commands : List Bytes}
    {events : List LinkEvent} (h : d.Ready g base b)
    (hl : l.Serves { b with commands := commands } d.link.capacity) (hempty : l.queue = [])
    (hreadout : ∀ commands, SimulatedBoard.readout { b with commands := commands } b.due.toNat
      (d.every b).toNat = (events, { b' with commands := commands }))
    (hroom : events.length ≤ d.link.capacity) :
    ∃ l', Downloading.readOut now b.due (d.opened l) =
        readFrames now b.due (events.length + 1) (d.opened l') ∧
      Reading now g base (d.opened l') b' d.link.capacity [] events (d.opened l') := by
  obtain ⟨l', commands', hread, hl', hqueue⟩ :=
    readOut_eq (d := d.opened l) now hl hempty h.wired.live rfl hreadout hroom
  exact ⟨l', hread, hqueue ▸ h.reading now hl'⟩

/-- Then its parcels are read, and one event is left. -/
theorem Ready.readOut (now : Instant) (b' : SimulatedBoard) {l : Link} {commands : List Bytes}
    {ps : List Parcel} {last : LinkEvent} {entries : List LogRecord} (h : d.Ready g base b)
    (hl : l.Serves { b with commands := commands } d.link.capacity) (hempty : l.queue = [])
    (hreadout : ∀ commands, SimulatedBoard.readout { b with commands := commands } b.due.toNat
      (d.every b).toNat = (ps.flatMap (SimulatedBoard.eventsOf b.device) ++ [last],
        { b' with commands := commands }))
    (hroom : (ps.flatMap (SimulatedBoard.eventsOf b.device) ++ [last]).length ≤ d.link.capacity)
    (hdevice : b'.device = b.device) (hps : ∀ p ∈ ps, p.Sound b')
    (hentries : ps.flatMap Parcel.records = entries)
    (hok : d.reconciler.clock.tells now (entries.map LogRecord.wire) = true) :
    ∃ l' d', Downloading.readOut now b.due (d.opened l) = readFrames now b.due 2 d' ∧
      Reading now g base (d.opened l') b' d.link.capacity (entries.map LogRecord.wire) [last]
        d' := by
  obtain ⟨l', hread, hbegin⟩ := h.ask now b' hl hempty hreadout hroom
  rw [← hdevice] at hbegin
  have hsame : (d.opened l').reconciler.device = b'.device := h.device.trans hdevice.symm
  obtain ⟨d', hreads, hd'⟩ := hbegin.parcels h.tuned hsame hps
    (by rw [hentries]; exact (TickClock.tells_freeze _).trans hok)
  rw [hentries, List.nil_append] at hd'
  refine ⟨l', d', ?_, hd'⟩
  rw [hread, List.length_append, ← hdevice]
  exact hreads 2

/-- A readout with a time that the calendar does not have fails. -/
theorem Ready.readOut_overrun (now : Instant) (b' : SimulatedBoard) {l : Link}
    {commands : List Bytes} {ps : List Parcel} {last : LinkEvent} {entries : List LogRecord}
    (h : d.Ready g base b) (hl : l.Serves { b with commands := commands } d.link.capacity)
    (hempty : l.queue = [])
    (hreadout : ∀ commands, SimulatedBoard.readout { b with commands := commands } b.due.toNat
      (d.every b).toNat = (ps.flatMap (SimulatedBoard.eventsOf b.device) ++ [last],
        { b' with commands := commands }))
    (hroom : (ps.flatMap (SimulatedBoard.eventsOf b.device) ++ [last]).length ≤ d.link.capacity)
    (hdevice : b'.device = b.device) (hps : ∀ p ∈ ps, p.Sound b')
    (hentries : ps.flatMap Parcel.records = entries)
    (hfails : d.reconciler.clock.tells now (entries.map LogRecord.wire) = false) :
    (Downloading.readOut now b.due (d.opened l)).1 = .error .overrun := by
  obtain ⟨l', hread, hbegin⟩ := h.ask now b' hl hempty hreadout hroom
  rw [← hdevice] at hbegin
  have hsame : (d.opened l').reconciler.device = b'.device := h.device.trans hdevice.symm
  rw [hread, List.length_append, ← hdevice]
  exact hbegin.parcels_overrun h.tuned hsame hps
    (by rw [hentries]; exact (TickClock.tells_freeze _).trans hfails) 2

/-- What was read has been brought. -/
theorem Reading.brought {room : Nat} {l : Link} {b' : SimulatedBoard} {records : List LogRecord}
    {rest : List LinkEvent} (h : Reading now g base (d.opened l) b' room records rest d')
    (l' : Link) (f : TickClock → TickClock) :
    Brought now g base d records
      { d' with link := l', reconciler := d'.reconciler.mapClock f, parked := [] } := by
  have hgraph := h.graph
  have hnotices := h.notices
  rw [show (d.opened l).reconciler.clock = d.reconciler.clock.freeze from rfl,
    TickClock.told_freeze] at hgraph hnotices
  refine ⟨hgraph, hnotices, ?_, rfl⟩
  show d'.reconciler.device = _
  rw [h.reconciler]
  rfl

/-- **A download that nothing interrupts succeeds**: the entries that the board offers are with their
consumers and gone from its log, and the last notice is that nothing is left. -/
theorem download_whole (h : d.Ready g base b)
    (hcut : ∀ n, b.cutAfter = some n → b.offer.length ≤ SimulatedBoard.cutAt n)
    (hroom : (b.readout b.due.toNat (d.every b).toNat).1.length ≤ d.link.capacity)
    (hok : d.reconciler.clock.tells now (b.offer.map LogRecord.wire) = true) :
    ∃ d' commands, download now d = (.ok (), d') ∧
      d'.link.Serves { b with commands := commands, log := b.log.drop b.due.toNat }
        d.link.capacity ∧ d'.link.queue = [] ∧
      Brought now g base d (b.offer.map LogRecord.wire) d' ∧
      d'.notices.getLast? = some (.progress 0 b.due) := by
  obtain ⟨l, commands, hcount, hl, hempty⟩ := h.entryCount
  by_cases hnone : b.due = 0
  · have hoffer : b.offer = [] := by
      rw [SimulatedBoard.offer, hnone]
      rfl
    rw [download, hcount]
    dsimp only
    rw [if_pos hnone, hnone, hoffer]
    refine ⟨_, commands, rfl, hl, hempty, ⟨?_, ?_, rfl, h.parked⟩, List.getLast?_concat⟩
    · rw [List.map_nil, TickClock.told, List.append_nil]
      exact h.took
    · rw [recordNotices_append]
      rfl
  · let rest : SimulatedBoard := { b with log := b.log.drop b.due.toNat }
    rw [SimulatedBoard.readout_whole hcut] at hroom
    obtain ⟨l₁, d₁, hread, h₁⟩ := h.readOut now rest hl hempty
      (fun commands => SimulatedBoard.readout_whole (b := { b with commands := commands }) hcut _)
      hroom rfl
      (fun p hp => SimulatedBoard.sound_parcels (b := b) rest rfl h.full (List.take_subset _ _) hp
        fun _ => h.wired.live)
      SimulatedBoard.records_parcels hok
    have hdevice : (d.opened l₁).reconciler.device = rest.device := h.device
    obtain ⟨d₂, hfinish, h₂, hlast⟩ := h₁.finish b.due hdevice 1
    obtain ⟨commands₂, hserves₂⟩ := h₂.link
    obtain ⟨l₃, commands₃, hoff, hserves₃, hqueue₃⟩ := hserves₂.setNotices h.wired.live
      d₂.reconciler.device.extendedLogging false
    have hquiet : quieten d₂.reconciler.device.extendedLogging (.ok ()) d₂.link = (.ok (), l₃) := by
      rw [quieten, if_pos hserves₂.connected, hoff]
    refine ⟨_, commands₃,
      download_of_readOut hcount hnone (hread.trans hfinish) hquiet (h₂.parked.trans h.parked),
      hserves₃, hqueue₃.trans h₂.queue, h₂.brought _ _, hlast⟩

/-- **Where the calendar ends, so does a download.** -/
theorem download_overrun (h : d.Ready g base b)
    (hcut : ∀ n, b.cutAfter = some n → b.offer.length ≤ SimulatedBoard.cutAt n)
    (hroom : (b.readout b.due.toNat (d.every b).toNat).1.length ≤ d.link.capacity)
    (hfails : d.reconciler.clock.tells now (b.offer.map LogRecord.wire) = false) :
    (download now d).1 = .error .overrun := by
  obtain ⟨l, commands, hcount, hl, hempty⟩ := h.entryCount
  have hdue : b.due ≠ 0 := by
    intro hnone
    rw [SimulatedBoard.offer, hnone] at hfails
    cases hfails
  let rest : SimulatedBoard := { b with log := b.log.drop b.due.toNat }
  rw [SimulatedBoard.readout_whole hcut] at hroom
  have hread := h.readOut_overrun now rest hl hempty
    (fun commands => SimulatedBoard.readout_whole (b := { b with commands := commands }) hcut _)
    hroom rfl
    (fun p hp => SimulatedBoard.sound_parcels (b := b) rest rfl h.full (List.take_subset _ _) hp
      fun _ => h.wired.live)
    SimulatedBoard.records_parcels hfails
  rw [opened] at hread
  rw [download, hcount]
  dsimp only
  rw [if_neg hdue]
  rcases hout : Downloading.readOut now b.due
    { d with link := l, reconciler := d.reconciler.mapClock TickClock.freeze } with ⟨outcome, d'⟩
  rw [hout] at hread
  obtain rfl : outcome = .error .overrun := hread
  dsimp only
  rw [quieten]
  split <;> rfl

/-- **A download that is cut short fails with the connection**: the entries before the cut are with
their consumers, the board keeps its log, and the clock has marked the last ticks that it saw. -/
theorem download_short (h : d.Ready g base b) {n : Nat} (hcut : b.cutAfter = some n)
    (hshort : SimulatedBoard.cutAt n < b.offer.length)
    (hpage : b.device.extendedLogging = true →
      b.pageEvery.any (SimulatedBoard.passes · 0 (SimulatedBoard.cutAt n)) = false)
    (hroom : (b.readout b.due.toNat (d.every b).toNat).1.length ≤ d.link.capacity)
    (hok : d.reconciler.clock.tells now ((b.early n).map LogRecord.wire) = true) :
    ∃ (d' : Download) (l : Link) (commands : List Bytes),
      download now d = (.error (.connectionLost "transport disconnected"), d') ∧
      l.Serves { b with commands := commands, cutAfter := none, connected := false }
        d.link.capacity ∧
      d'.link = { l with queue := [], connected := false } ∧
      d'.reconciler = d.reconciler.mapClock (fun c =>
        (c.after now ((b.early n).map LogRecord.wire)).thaw.markRollback) ∧
      Brought now g base d ((b.early n).map LogRecord.wire) d' := by
  obtain ⟨l, commands, hcount, hl, hempty⟩ := h.entryCount
  have hdue : b.due ≠ 0 := by
    intro hnone
    rw [SimulatedBoard.length_offer, hnone] at hshort
    exact Nat.not_lt_zero _ hshort
  let lost : SimulatedBoard := { b with cutAfter := none, connected := false }
  rw [SimulatedBoard.readout_short hcut hshort] at hroom
  obtain ⟨l₁, d₁, hread, h₁⟩ := h.readOut now lost hl hempty
    (fun commands =>
      SimulatedBoard.readout_short (b := { b with commands := commands }) hcut hshort _)
    hroom rfl
    (fun p hp => SimulatedBoard.sound_parcels (b := b) lost rfl h.full
      (fun r hr => List.take_subset _ _ (List.take_subset _ _ hr)) hp fun hends => by
        have hextended := SimulatedBoard.extended_of_mem_parcels hp hends
        rw [SimulatedBoard.page_eq_false (by simp) (hpage hextended) hp] at hends
        cases hends)
    SimulatedBoard.records_parcels hok
  obtain ⟨commands₁, hserves₁⟩ := h₁.link
  refine ⟨_, d₁.link, commands₁,
    download_of_readOut hcount hdue (hread.trans (h₁.lose 1)) rfl (h₁.parked.trans h.parked),
    hserves₁, rfl, ?_, h₁.brought _ _⟩
  have hafter : d₁.reconciler.clock =
      (d.reconciler.clock.after now ((b.early n).map LogRecord.wire)).freeze := by
    rw [h₁.reconciler]
    exact TickClock.after_freeze _
  show ({ d₁.reconciler with clock := d₁.reconciler.clock.thaw.markRollback } : Reconciler) = _
  rw [hafter, h₁.reconciler]
  rfl

end Download
end SignalRoute
