import SignalRoute.Log.Anonymous
import SignalRoute.Log.Download
import SignalRoute.Route.Edit
import SignalRoute.Route.Step
import SignalRoute.Settings.Basic

/-!
# The host of a board

A host owns all that is needed to work with one board: the link and the graph, the catalog, the
reconciler of the log, and the number of the next route.  Each operation here is one thing that a
user can do with a board, as a function from host to host that keeps its effects when it fails.

An operation is an `ExceptT` over a state, and not the other way round: when it fails there is still
a host, with everything that had happened by then.  Half of what there is to say about this program
is about that host: what a failed build has left on the board, what a broken download has delivered,
and what a survey that did not find its way to a sensor has entered.

Downloads and single records have a report in addition to their outcome, since a record that cannot
be brought to anybody is no reason to stop.
-/

set_option autoImplicit false

namespace SignalRoute

/-- Everything that belongs to one board. -/
structure Host where
  settings : Settings
  station : Station
  catalog : Catalog
  reconciler : Reconciler
  nextRoute : RouteId
  /-- The time of day. -/
  now : Instant
deriving Inhabited

/-- Something done with a board. -/
abbrev Hosted := ExceptT Fault (StateM Host)

namespace Link

/-- The frames of the queue up to a lost connection, which is reported. -/
def takeQueue : List LinkEvent → Link → List Bytes × Except Fault Unit × Link
  | [], l =>
    if l.isOpen then ([], .ok (), { l with queue := [] })
    else ([], .error closedFault, { l with queue := [], connected := false })
  | .disconnected :: rest, l =>
    ([], .error (.connectionLost "transport disconnected"),
      { l with queue := rest, connected := false })
  | .frame f :: rest, l =>
    let (frames, outcome, l) := takeQueue rest l
    (f :: frames, outcome, l)

/-- All frames that can be read now, those of the backlog first. -/
def takeFrames (l : Link) : List Bytes × Except Fault Unit × Link :=
  let (frames, outcome, after) := takeQueue l.queue { l with backlog := [] }
  (l.backlog ++ frames, outcome, after)

end Link

namespace Graph

/-- Deliver frames in turn; answers how many samples were taken. -/
def dispatchAll (now : Instant) : List Bytes → Graph → Nat × Graph
  | [], g => (0, g)
  | frame :: rest, g =>
    let (n, g) := g.dispatch now frame
    let (m, g) := dispatchAll now rest g
    (n + m, g)

/-- The named processors, for the draft of a route. -/
def knownProcessors (g : Graph) : List KnownProcessor :=
  g.processors.values.filterMap fun e =>
    e.name.map fun name =>
      let isBuffer := match e.processor with
        | .buffer _ => true
        | _ => false
      ⟨name, e.id, e.output, e.state, isBuffer⟩

end Graph

namespace Host

/-- A host at the time `now` with the built-in sensors, whatever its settings are. -/
def atRest (settings : Settings) (transport : Transport) (now : Instant) : Host where
  settings := settings
  station :=
    ⟨.start transport settings.linkQueueCapacity.toNat settings.responseTimeoutMs, .empty⟩
  catalog := .standard
  reconciler := .start settings.device settings.tickDurationMs settings.progressUpdates
  nextRoute := ⟨0⟩
  now := now

/-- A host at rest, if it can work with its settings. -/
def start (settings : Settings) (transport : Transport) (now : Instant) : Except Fault Host := do
  settings.validate
  return atRest settings transport now

/-- Use the link. -/
def onLink {α : Type} (op : Linked α) : Hosted α := fun h =>
  match op h.station.link with
  | (outcome, link) => (outcome, { h with station := { h.station with link := link } })

/-- The host with its link changed. -/
def mapLink (h : Host) (f : Link → Link) : Host :=
  { h with station := { h.station with link := f h.station.link } }

/-- The host with its graph changed. -/
def mapGraph (h : Host) (f : Graph → Graph) : Host :=
  { h with station := { h.station with graph := f h.station.graph } }

/-- Use the link and the graph. -/
def onStation {α : Type} (op : ExceptT Fault (StateM Station) α) : Hosted α := fun h =>
  match op h.station with
  | (outcome, station) => (outcome, { h with station := station })

/-- The draft that a route starts from. -/
def draft (h : Host) : Draft := .start h.settings.device h.station.graph.knownProcessors

/-- Plan a route from a producer on. -/
def plan (h : Host) (producer : String) (expression : Cursor → Drafting Cursor) :
    Except Fault Plan :=
  match h.catalog.get? producer with
  | none => illegal ("unknown producer '" ++ producer ++ "'")
  | some root =>
    match expression ⟨root, none⟩ h.draft with
    | (.ok _, draft) => .ok draft.plan
    | (.error fault, _) => .error fault

/-- Build a route from a producer on and put it on the board.  An expression that fails sends
nothing and uses up no number. -/
def buildRoute (producer : String) (expression : Cursor → Drafting Cursor) : Hosted Route :=
  fun h =>
    match h.plan producer expression with
    | .error fault => (.error fault, h)
    | .ok plan =>
      onStation (realize h.catalog h.nextRoute plan) { h with nextRoute := h.nextRoute.next }

/-- Take a route off the board. -/
def removeRoute (r : Route) : Hosted Unit := onStation (teardown r)

/-- Open a named processor. -/
def editor (h : Host) (name : String) : Except Fault Editor :=
  match h.station.graph.named? name with
  | some e => Editor.ofEntry e
  | none => illegal ("no processor named '" ++ name ++ "'")

/-- Deliver a frame; answers how many samples were taken. -/
def dispatch (h : Host) (frame : Bytes) : Nat × Host :=
  let (n, graph) := h.station.graph.dispatch h.now frame
  (n, { h with station := { h.station with graph := graph } })

/-- Deliver all that came in; answers how many samples were taken. -/
def poll : Hosted Nat := fun h =>
  let (frames, outcome, link) := h.station.link.takeFrames
  let (n, graph) := h.station.graph.dispatchAll h.now frames
  (outcome.map fun _ => n, { h with station := ⟨link, graph⟩ })

/-- Take the time of the board as the reference of its reset. -/
def queryTime : Hosted TimeReference := fun h =>
  let (outcome, reconciler, link) := h.reconciler.queryTime h.now h.station.link
  (outcome, { h with reconciler := reconciler, station := { h.station with link := link } })

/-- The number of entries in the board's log. -/
def entryCount : Hosted UInt32 := do
  onLink (Reconciler.entryCount (← get).settings.device)

/-- Erase the board's log. -/
def clearLog : Hosted Unit := onLink Reconciler.clearEntries

/-- Make what can be made of one record of the log; answers what there is to report. -/
def handleRecord (h : Host) (record : LogRecord) : (Except Fault Unit × List Notice) × Host :=
  let t := h.reconciler.handle h.now h.station.graph record
  ((t.outcome, t.notices),
    { h with station := { h.station with graph := t.graph }, reconciler := t.reconciler })

/-- Download the log; answers what there is to report, also if the download fails. -/
def downloadLog (h : Host) : (Except Fault Unit × List Notice) × Host :=
  let (outcome, d) := download h.now ⟨h.station.link, h.station.graph, h.reconciler, [], []⟩
  ((outcome, d.notices), { h with station := ⟨d.link, d.graph⟩, reconciler := d.reconciler })

/-- Subscribe to every log on the board that the host does not know. -/
def adoptLogs : Hosted (List AnonymousRoute) := fun h =>
  onStation (adoptLoggers h.settings.device h.catalog) h

/-- The connection is back; the routes on the board are taken to be as they were. -/
def handleReconnect (h : Host) : Host := h.mapLink Link.reconnected

/-- Forget all routes. -/
def forgetRoutes (h : Host) : Host := h.mapGraph Graph.clear

/-- Take out the samples that wait in mailboxes. -/
def collect (h : Host) (mailboxes : List Nat) : List (List Sample) × Host :=
  (mailboxes.map h.station.graph.mail.waiting, h.mapGraph fun g => mailboxes.foldl Graph.drain g)

/-- Give up mailboxes. -/
def abandon (h : Host) (mailboxes : List Nat) : Host := h.mapGraph fun g => g.abandon mailboxes

/-- The host with a producer added to its catalog. -/
def register (h : Host) (name : String) (signal : Signal) : Host :=
  { h with catalog := h.catalog.register name signal }

end Host
end SignalRoute
