import SignalRoute.Proofs.Host.Conservation
import SignalRoute.Proofs.Host.Derivation
import SignalRoute.Proofs.Log.Completeness
import SignalRoute.Proofs.Route.Consuming

/-!
# Records of all hosts

`Host.Arises` are the hosts that come about when routes are built and removed, surveys are made and
records are handled, in any order and over any link, so that the board may say what it likes.  Their
consumers are orderly (`Host.Arises.orderly`): those of routes can read what their loggers record,
and those of surveys belong to no route.

`Host.record_accounted`: of such a host each record has exactly one fate, and the record is
accounted for unless what it completes cannot be decoded or the calendar does not have its time.
The former happens to nothing but what a survey found.  `Host.not_accounted_wide` is such a survey.

A download handles one record after the other and leaves the graph alone besides, so the hosts of
all its records arise, and so does the one behind it (`Host.Arises.downloadLog`).

The invariant is about consumers alone, and it is carried by each of the things that enter one: a
route that is built, and a survey.  Records only move what waits in a queue or a mailbox, and a
queue stays orderly by that.  What a draft needs of a host is carried along, since a route can only
be built on a graph that is sound (`Host.Reached`).
-/

set_option autoImplicit false

namespace SignalRoute

/-! ## Surveys

A survey enters its consumers while it goes through the loggers, and the processors that it rebuilt
at the end, if it gets there.  So one that fails may leave consumers behind, and these are orderly
too.
-/

/-- Surveys enter orderly consumers, and no processors before they are done. -/
theorem Graph.orderly_adoptAll (device : Device) (catalog : Catalog) (ranges : List LoggedRange)
    (survey : Survey) {g : Graph} (h : g.Orderly) :
    (adoptAll device catalog ranges survey g).2.2.Orderly ∧
      (adoptAll device catalog ranges survey g).2.2.processors = g.processors := by
  induction ranges generalizing survey g with
  | nil => exact ⟨h, rfl⟩
  | cons range rest ih =>
    rw [adoptAll]
    rcases Rebuilding.logged device catalog range survey with ⟨fault | s, survey₁⟩
    · exact ⟨h, rfl⟩
    · have hadopted : (g.adopt catalog range s).2.Orderly := by
        intro e he
        rcases List.mem_append.1 he with hold | hnew
        · exact h e hold
        · rw [List.mem_singleton.1 hnew]
          exact LoggerEntry.orderly_ofIds (.inl rfl)
      have hrest := ih survey₁ hadopted
      dsimp only
      rcases hresult : adoptAll device catalog rest survey₁ (g.adopt catalog range s).2 with
        ⟨fault | routes, survey₂, g₂⟩ <;> rw [hresult] at hrest <;> exact hrest

/-- What a survey rebuilds has no names. -/
theorem Graph.mem_enterRebuilt {g : Graph} {rebuilt : List (UInt8 × Rebuilt)} {e : ProcessorEntry}
    (he : e ∈ (g.enterRebuilt rebuilt).processors.values) (hname : e.name.isSome = true) :
    e ∈ g.processors.values := by
  induction rebuilt generalizing g with
  | nil => exact he
  | cons x rest ih =>
    have hnext := ih he
    dsimp only at hnext
    split at hnext
    · exact hnext
    · obtain ⟨y, hy, rfl⟩ := List.mem_map.1 hnext
      rcases IdTable.mem_insertIn hy with rfl | hold
      · cases hname
      · exact List.mem_map_of_mem hold

theorem Graph.orderly_adoptLoggers (device : Device) (catalog : Catalog) {s : Station}
    (h : s.graph.Orderly) :
    (adoptLoggers device catalog s).2.graph.Orderly ∧
      ∀ e ∈ (adoptLoggers device catalog s).2.graph.processors.values, e.name.isSome = true →
        e ∈ s.graph.processors.values := by
  rw [adoptLoggers]
  rcases readLoggers s.graph loggerIds s.link with ⟨fault | sources, link⟩
  · exact ⟨h, fun e he _ => he⟩
  · have hall := Graph.orderly_adoptAll device catalog (groupLoggers sources) ⟨link, .empty⟩ h
    dsimp only
    rcases hadopt : adoptAll device catalog (groupLoggers sources) ⟨link, .empty⟩ s.graph with
      ⟨fault | routes, survey, g⟩ <;> rw [hadopt] at hall
    · exact ⟨hall.1, fun e he _ => hall.2 ▸ he⟩
    · refine ⟨fun e he => hall.1 e ?_, fun e he hname => ?_⟩
      · rwa [← g.loggers_enterRebuilt survey.rebuilt.entries]
      · have hold := Graph.mem_enterRebuilt he hname
        rwa [hall.2] at hold

/-! ## Downloads

Whatever a download does besides, it changes the graph by one record after the other.  So anything
that `Reconciler.handle` keeps is kept by the whole download, whether it runs to its end or is cut
short; `Leads` has one clause for each of the two.
-/

theorem LogRecord.full_of_parse {bytes : Bytes} {record : LogRecord}
    (h : parse bytes = .ok record) : record.Full := by
  unfold parse at h
  split at h
  · cases h
    rfl
  · cases h

theorem Reconciler.processors_deliver (r : Reconciler) (g : Graph) (id : UInt8) (e : LoggerEntry)
    (joined : Stamped) : (r.deliver g id e joined).graph.processors = g.processors := by
  cases hopen : g.mail.isOpen e.mailbox with
  | true =>
    rw [(Graph.deliver_eq r g id e joined hopen).1, Graph.post_eq]
  | false =>
    rw [deliver]
    split
    · rfl
    · rw [if_neg (Bool.eq_false_iff.1 hopen)]

/-- Handling a record touches consumers and mailboxes only. -/
theorem Reconciler.processors_handle (r : Reconciler) (now : Instant) (g : Graph)
    (record : LogRecord) : (r.handle now g record).graph.processors = g.processors := by
  rw [handle]
  dsimp only
  split
  · rfl
  · rfl
  · split
    · rfl
    · split
      · rfl
      · exact Reconciler.processors_deliver _ _ _ _ _

namespace Downloading

/-- An operation that keeps what is true of the graph. -/
abbrev Keeps {α : Type} (good : Graph → Prop) (op : Downloading α) : Prop :=
  Leads (fun d => good d.graph) op (fun _ d => good d.graph) fun _ d => good d.graph

variable {good : Graph → Prop}

theorem keeps_onLink {α : Type} (op : Linked α) : Keeps good (onLink op) := by
  intro d hd
  rw [onLink]
  rcases op d.link with ⟨fault | a, link⟩ <;> exact hd

theorem keeps_park (frame : Bytes) : Keeps good (do
    park frame
    return Progress.more) := fun _ hd => hd

variable {now : Instant} {total : UInt32}
  (hgood : ∀ (r : Reconciler) (g : Graph) (record : LogRecord), record.Full → good g →
    good (r.handle now g record).graph)

include hgood

theorem keeps_takeRecord (bytes : Bytes) : Keeps good (takeRecord now bytes) := by
  rw [takeRecord]
  cases hparse : LogRecord.parse bytes with
  | error fault => exact fun _ hd => hd
  | ok record =>
    intro d hd
    have hnext := hgood d.reconciler d.graph record (LogRecord.full_of_parse hparse) hd
    dsimp only
    rw [get_bind_apply]
    rcases (d.reconciler.handle now d.graph record).outcome with fault | _
    · cases fault <;> exact hnext
    · exact hnext

theorem keeps_takeFrame (frame : Bytes) : Keeps good (takeFrame now total frame) := by
  rcases frame with _ | ⟨module, _ | ⟨register, body⟩⟩
  · exact keeps_park _
  · exact keeps_park _
  · rw [takeFrame]
    split
    · rw [takeLogFrame]
      refine Leads.get_bind fun d _ => ?_
      dsimp only
      split
      · refine (Leads.forM (fun _ (d : Download) => good d.graph) _ fun _ bytes _ _ =>
          keeps_takeRecord hgood bytes).bind fun _ => Leads.pure _ fun _ hd => hd
      · split
        · rcases Reconciler.readCounter d.reconciler.device body with fault | left
          · exact fun _ hd => hd
          · exact fun _ hd => hd
        · split
          · exact (keeps_onLink _).bind fun _ => Leads.pure _ fun _ hd => hd
          · exact keeps_park _
    · exact keeps_park _

theorem keeps_readFrames (fuel : Nat) : Keeps good (readFrames now total fuel) := by
  induction fuel with
  | zero => exact keeps_onLink _
  | succ fuel ih =>
    rw [readFrames]
    refine (keeps_onLink _).bind fun frame => (keeps_takeFrame hgood frame).bind fun progress => ?_
    cases progress with
    | more => exact ih
    | done => exact Leads.pure _ fun _ hd => hd

theorem keeps_readOut : Keeps good (readOut now total) := by
  rw [readOut]
  refine Leads.get_bind fun _ _ => (keeps_onLink _).bind fun _ => (keeps_onLink _).bind fun _ => ?_
  exact Leads.get_bind fun _ _ => keeps_readFrames hgood _

/-- **A download keeps what every record keeps.** -/
theorem good_download {d : Download} (hd : good d.graph) : good (download now d).2.graph := by
  rw [download]
  rcases Reconciler.entryCount d.reconciler.device d.link with ⟨fault | total, link⟩
  · exact hd
  · dsimp only
    split
    · exact hd
    · have hread := @keeps_readOut good now total hgood
        { d with link := link, reconciler := d.reconciler.mapClock TickClock.freeze } hd
      rcases hout : readOut now total { d with
        link := link, reconciler := d.reconciler.mapClock TickClock.freeze } with
        ⟨fault | _, d'⟩ <;> rw [hout] at hread <;> exact hread

end Downloading

/-! ## Hosts

The two witnesses are at the edge.  In the first, two loggers share a signal and the fate of a
record is to wait.  In the second a logger was set up for more bytes than an entry has, which only
another program can have done, and nothing that comes in can be decoded.
-/

namespace Host

/-- The hosts that routes, surveys and records lead to.  The device, the link and the time are any,
and what is on the board is, too. -/
inductive Arises : Host → Prop
  | start {h : Host} (hcatalog : h.catalog = .standard) (hgraph : h.station.graph = .empty) :
      Arises h
  /-- A route is built, or an attempt fails. -/
  | built {h : Host} (hh : Arises h) (producer : String) (steps : List Step) :
      Arises (buildRoute producer (fun c => Step.run c steps) h).2
  /-- A route is removed, which may have been removed before. -/
  | removed {h : Host} (hh : Arises h) (r : Route) : Arises (removeRoute r h).2
  /-- A survey is made, or it fails. -/
  | surveyed {h : Host} (hh : Arises h) : Arises h.adoptLogs.2
  | handled {h : Host} (hh : Arises h) {record : LogRecord} (hfull : record.Full) :
      Arises (h.handleRecord record).2
  /-- Something else happens, to the board, the clock or the mailboxes. -/
  | other {h h' : Host} (hh : Arises h) (hsettings : h'.settings = h.settings)
      (hcatalog : h'.catalog = h.catalog)
      (hgraph : h'.station.graph = { h.station.graph with mail := h'.station.graph.mail }) :
      Arises h'

variable {h : Host} {record : LogRecord}

/-- The consumers of a route that is built from a built-in sensor on are orderly. -/
theorem orderly_buildRoute (hh : h.Reached) (hg : h.station.graph.Orderly) (producer : String)
    (steps : List Step) :
    (buildRoute producer (fun c => Step.run c steps) h).2.station.graph.Orderly := by
  rw [buildRoute]
  cases hplan : h.plan producer fun c => Step.run c steps with
  | error fault => exact hg
  | ok p =>
    simp only [onStation, realize]
    rcases hprogram : p.program ⟨h.station.link, [], [], []⟩ with ⟨fault | loggers, site⟩
    · exact hg
    · obtain ⟨c, d, rfl, hderives⟩ := plan_derives hh hplan
      have hfilled := (plan_sound hh.sound.1 hh.sound.2 hplan).2
      exact hg.enter (Plan.logged_of_program hprogram) (fun c hc =>
        ⟨(hderives.logs c hc).encloses,
          (hfilled c hc).regular.shape.copies (hfilled c hc).data⟩) _ _ _

/-- A host that arises is reached by a history, and its consumers are orderly. -/
theorem Arises.reached_orderly (hh : h.Arises) : h.Reached ∧ h.station.graph.Orderly := by
  induction hh with
  | start hcatalog hgraph =>
    refine ⟨.start hcatalog hgraph, ?_⟩
    rw [hgraph]
    exact List.forall_mem_nil _
  | built hh producer steps ih =>
    exact ⟨.built ih.1 producer steps, orderly_buildRoute ih.1 ih.2 producer steps⟩
  | @removed h hh r ih =>
    refine ⟨.removed ih.1 r, fun e he => ih.2 e ?_⟩
    replace he : e ∈ (teardown r h.station).2.graph.loggers := he
    rw [teardown_snd, Graph.loggers_forget] at he
    exact (List.mem_filter.1 he).1
  | @surveyed h hh ih =>
    obtain ⟨horderly, hnamed⟩ := Graph.orderly_adoptLoggers h.settings.device h.catalog ih.2
    exact ⟨.other ih.1 rfl rfl hnamed, horderly⟩
  | @handled h hh record hfull ih =>
    refine ⟨.other ih.1 rfl rfl fun e he _ => ?_, Reconciler.orderly_handle ih.2 hfull⟩
    have hprocessors := h.reconciler.processors_handle h.now h.station.graph record
    exact hprocessors ▸ he
  | other hh hsettings hcatalog hgraph ih =>
    have hprocessors := congrArg Graph.processors hgraph
    refine ⟨.other ih.1 hsettings hcatalog fun e he _ => hprocessors ▸ he, ?_⟩
    rw [hgraph]
    exact ih.2

/-- **The consumers of every host are orderly.** -/
theorem Arises.orderly (hh : h.Arises) : h.station.graph.Orderly := hh.reached_orderly.2

/-- **Downloads lead on**, however they end. -/
theorem Arises.downloadLog (hh : h.Arises) : h.downloadLog.2.Arises := by
  obtain ⟨h', hh', hsettings, hcatalog, hgraph⟩ : ∃ h' : Host, h'.Arises ∧
      h'.settings = h.settings ∧ h'.catalog = h.catalog ∧
      h'.station.graph = h.downloadLog.2.station.graph := by
    refine @Downloading.good_download (fun g => ∃ h' : Host, h'.Arises ∧
      h'.settings = h.settings ∧ h'.catalog = h.catalog ∧ h'.station.graph = g) h.now
        (fun r g record hfull hg => ?_) h.outset ⟨h, hh, rfl, rfl, rfl⟩
    obtain ⟨h', hh', hsettings, hcatalog, rfl⟩ := hg
    have hnow : Arises { h' with reconciler := r, now := h.now } := hh'.other rfl rfl rfl
    exact ⟨_, hnow.handled hfull, hsettings, hcatalog, rfl⟩
  refine hh'.other hsettings.symm hcatalog.symm ?_
  rw [hgraph]

/-- What a record of each fate finds, and all that the host does about it. -/
def Deals (h : Host) (record : LogRecord) (f : Fate) : Prop :=
  h.reconciler.Deals h.now h.station.graph record f

/-- **Every record is accounted for**, unless what it completes cannot be decoded or the calendar
does not have its time.  Wherever routes, surveys and records have led to, with anything on the
board, a record has exactly one fate, and the data of a route's loggers can always be decoded. -/
theorem record_accounted (hh : h.Arises) (hfull : record.Full) :
    (∃! f, h.Deals record f) ∧
      ((∃! f, f.accounts = true ∧ h.Deals record f) ↔
        ¬h.Deals record .undecodable ∧ ¬h.Deals record .untimed) ∧
      (h.Deals record .undecodable →
        ∃ e, h.station.graph.logger? record.logId = some e ∧ e.route = .invalid) := by
  have hone : ∃! f, h.Deals record f := Reconciler.existsUnique_fate hh.orderly
  obtain ⟨f, hf, hunique⟩ := hone
  refine ⟨⟨f, hf, hunique⟩, ⟨?_, fun ⟨hdecodes, htimed⟩ => ?_⟩, fun hlost =>
    hlost.found hh.orderly hfull⟩
  · rintro ⟨f', ⟨haccounts, hf'⟩, -⟩
    -- another fate would be the same one
    refine ⟨fun hlost => ?_, fun hlost => ?_⟩
    · rw [(hunique f' hf').trans (hunique _ hlost).symm] at haccounts
      cases haccounts
    · rw [(hunique f' hf').trans (hunique _ hlost).symm] at haccounts
      cases haccounts
  · refine ⟨f, ⟨?_, hf⟩, fun f' hf' => hunique f' hf'.2⟩
    cases f with
    | undecodable => exact absurd hf hdecodes
    | untimed => exact absurd hf htimed
    | _ => rfl

/-! ### Two surveys -/

/-- A host that has made a survey of a board with some loggers and some entries, and whose clock
counts in whole numbers. -/
def surveying (loggers : List (UInt8 × Bytes)) (entries : List LogRecord) : Host :=
  let board := { SimulatedBoard.start .standard with loggers := ⟨loggers⟩, log := entries }
  let found := (atRest .standard (.toBoard board) 0).adoptLogs.2
  { found with
    reconciler := found.reconciler.mapClock fun c => { c with span := Session.usualSpan } }

theorem arises_surveying (loggers : List (UInt8 × Bytes)) (entries : List LogRecord) :
    (surveying loggers entries).Arises := by
  have hstart : (atRest .standard (.toBoard { SimulatedBoard.start .standard with
    loggers := ⟨loggers⟩, log := entries }) 0).Arises := .start rfl rfl
  exact hstart.surveyed.other rfl rfl rfl

/-- The acceleration is logged by two loggers. -/
def halves : Host := surveying [(0, [0x03, 0x04, 0xff, 0x60]), (1, [0x03, 0x04, 0xff, 0x24])] []

def firstHalf : LogRecord := ⟨0, 0, 5, [0x00, 0x40, 0x00, 0xc0]⟩

def secondHalf : LogRecord := ⟨1, 0, 5, [0x00, 0x20, 0x00, 0x00]⟩

/-- The first half waits for the second. -/
theorem record_accounted_halves :
    (∃! f, halves.Deals firstHalf f) ∧ halves.Deals firstHalf .queued ∧
      (halves.handleRecord firstHalf).2.Deals secondHalf .delivered := by
  obtain ⟨hone, -⟩ := record_accounted (arises_surveying _ _ : halves.Arises)
    (rfl : firstHalf.Full)
  obtain ⟨⟨f', hf', -⟩, -⟩ := record_accounted ((arises_surveying _ _ : halves.Arises).handled
    (rfl : firstHalf.Full)) (rfl : secondHalf.Full)
  refine ⟨hone, ?_, ?_⟩
  · obtain ⟨f, hf, -⟩ := hone
    have hfate : halves.reconciler.fate halves.now halves.station.graph firstHalf = .queued := by
      decide +kernel
    exact hf.fate_eq.symm.trans hfate ▸ hf
  · have hfate : (halves.handleRecord firstHalf).2.reconciler.fate
        (halves.handleRecord firstHalf).2.now (halves.handleRecord firstHalf).2.station.graph
        secondHalf = .delivered := by
      decide +kernel
    exact hf'.fate_eq.symm.trans hfate ▸ hf'

def wideEntry : LogRecord := ⟨0, 0, 5, [1, 2, 3, 4]⟩

/-- The board has a logger that is said to log eight bytes, twice as many as an entry holds. -/
def wide : Host := surveying [(0, [0x03, 0x04, 0xff, 0xe0])] [wideEntry]

/-- **Entries of a logger that is too wide vanish.**  The download succeeds and reports nothing, and
neither the mailbox nor the queue of the consumer has anything of the entry. -/
theorem not_accounted_wide :
    wide.Arises ∧ (∀ f, f.accounts = true → ¬wide.Deals wideEntry f) ∧
      wide.downloadLog.1.1.isOk = true ∧ wide.downloadLog.1.2 = [.progress 0 1] ∧
      wide.downloadLog.2.station.graph.loggers.map (fun e => (e.mailbox, e.merge)) =
        [(0, ⟨[⟨0, []⟩]⟩)] ∧
      wide.downloadLog.2.station.graph.mail.isOpen 0 = true ∧
      wide.downloadLog.2.station.graph.mail.waiting 0 = [] := by
  have hfate : wide.reconciler.fate wide.now wide.station.graph wideEntry = .undecodable := by
    decide +kernel
  refine ⟨arises_surveying _ _, fun f haccounts hf => ?_, by decide +kernel, by decide +kernel,
    by decide +kernel, by decide +kernel, List.eq_nil_of_length_eq_zero (by decide +kernel)⟩
  rw [hf.fate_eq.symm.trans hfate] at haccounts
  cases haccounts

end Host
end SignalRoute
