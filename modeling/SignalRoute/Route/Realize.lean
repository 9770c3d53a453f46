import SignalRoute.Catalog
import SignalRoute.Graph.Basic
import SignalRoute.Route.Draft
import SignalRoute.Route.Program

/-!
# Routes on the board

`realize` programs a plan and then enters it into the graph.  If programming fails, what was created
is removed and the graph stays as it was.  `teardown` takes a route off the board and out of the
graph; what is no longer in the graph is not removed again, so a route can be torn down twice.

The graph changes only after the last command has been answered, so there is no graph of a route
half built.  For the way back it is the other way round: a route leaves the graph first and the
board afterwards, and it has left the graph also if the board is gone.  What the host forgets is
then still on the board, until a survey finds it or the board is reset.

The ids that a route gives back are those that the graph still has under the route's numbers.  The
graph is not asked to whom they belong by now.
-/

set_option autoImplicit false

namespace SignalRoute

/-- The receiving end of a stream or a log. -/
structure Subscription where
  identifier : String
  mailbox : Nat
deriving Inhabited

/-- A route that is on the board, with the ids that it was given, in the order of their creation. -/
structure Route where
  id : RouteId
  processors : List UInt8
  loggers : List UInt8
  events : List UInt8
  names : List String
  streams : List Subscription
  logs : List Subscription
deriving Inhabited

/-- The mailboxes of a route's subscriptions. -/
def Route.mailboxes (r : Route) : List Nat := (r.streams ++ r.logs).map Subscription.mailbox

/-- A link to a board, and what is known about the board. -/
structure Station where
  link : Link
  graph : Graph
deriving Inhabited

/-- The identifier of a signal, or its address if the catalog does not know it. -/
def Signal.identifierOr (s : Signal) (catalog : Catalog) (a : Address) : String :=
  match s.identifier catalog with
  | .ok text => text
  | .error _ => a.text

/-! ## Entering a route

Stages come first, since streams and logs are described by signals whose ids were given out with the
stages.  A subscription is entered under the next number of the post office, which is the number
that it answers.
-/

/-- The entry of a stage that has been created. -/
def PlannedStage.entry (stage : PlannedStage) (p : Placed) (route : RouteId) : ProcessorEntry where
  id := p.id
  source := p.source.address
  processor := p.processor
  output :=
    { (stage.output.withId p.id).withInput p.source with processor := some p.processor }
  state := stage.state.map fun s => (s.withId p.id).withInput p.source
  name := stage.name
  route := route

/-- Enter the processors of a route. -/
def Graph.enterStages (g : Graph) (route : RouteId) (stages : List (PlannedStage × Placed)) :
    Graph :=
  stages.foldl (fun g s => g.insertProcessor (s.1.entry s.2 route)) g

/-- Enter the streams of a route; answers the subscriptions. -/
def Graph.enterStreams (g : Graph) (route : RouteId) (catalog : Catalog) :
    List Signal → List Subscription × Graph
  | [] => ([], g)
  | s :: rest =>
    let mailbox := g.mail.next
    let (others, g) := (g.rentMailbox.addStream ⟨route, s, mailbox⟩).enterStreams route catalog rest
    (⟨s.identifierOr catalog s.address, mailbox⟩ :: others, g)

/-- Enter the logs of a route; answers the subscriptions. -/
def Graph.enterLogs (g : Graph) (route : RouteId) (catalog : Catalog) :
    List (Signal × List UInt8) → List Subscription × Graph
  | [] => ([], g)
  | (s, ids) :: rest =>
    let mailbox := g.mail.next
    let entry : LoggerEntry := ⟨route, s.atOffset 0, .ofIds ids, mailbox⟩
    let (others, g) := (g.rentMailbox.addLogger entry).enterLogs route catalog rest
    (⟨s.identifierOr catalog s.address, mailbox⟩ :: others, g)

/-- Enter the events of a route. -/
def Graph.enterEvents (g : Graph) (route : RouteId) (ids : List UInt8) : Graph :=
  ids.foldl (fun g id => g.insertEvent id route) g

/-- Enter a route that has been created. -/
def Graph.enter (g : Graph) (catalog : Catalog) (route : RouteId) (plan : Plan)
    (placed : List Placed) (loggers : List (List UInt8)) (events : List UInt8) : Route × Graph :=
  let g := g.enterStages route (plan.stages.zip placed)
  let (streams, g) := g.enterStreams route catalog (plan.streams.map fun c => c.resolve placed)
  let (logs, g) :=
    g.enterLogs route catalog ((plan.logs.map fun c => c.resolve placed).zip loggers)
  let g := g.enterEvents route events
  (⟨route, placed.map Placed.id, loggers.flatten, events, plan.stages.filterMap PlannedStage.name,
    streams, logs⟩, g)

/-! ## Realizing and removing

The three tables are forgotten one after the other, each by the ids of the route.  What is answered
are the ids that were found, and these are the ones to be removed from the board.
-/

/-- Put a plan on the board. -/
def realize (catalog : Catalog) (route : RouteId) (plan : Plan) :
    ExceptT Fault (StateM Station) Route := fun station =>
  match plan.program ⟨station.link, [], [], []⟩ with
  | (.ok loggers, site) =>
    let (r, graph) := station.graph.enter catalog route plan site.placed loggers site.events
    (.ok r, ⟨site.link, graph⟩)
  | (.error fault, site) => (.error fault, { station with link := site.rollback })

/-- Send commands in turn, whatever comes of each; answers the first fault. -/
def sendAll : List Bytes → Link → Option Fault × Link
  | [], l => (none, l)
  | command :: rest, l =>
    let (outcome, l) := Link.send command l
    let (later, l) := sendAll rest l
    match outcome with
    | .error fault => (some fault, l)
    | .ok _ => (later, l)

/-- Forget processors; answers those that were there. -/
def Graph.forgetProcessors (g : Graph) : List UInt8 → List UInt8 × Graph
  | [] => ([], g)
  | id :: rest =>
    let there := (g.processor? id).isSome
    let (others, g) := (g.removeProcessor id).forgetProcessors rest
    (if there then id :: others else others, g)

/-- Forget events; answers those that were there. -/
def Graph.forgetEvents (g : Graph) : List UInt8 → List UInt8 × Graph
  | [] => ([], g)
  | id :: rest =>
    let there := g.hasEvent id
    let (others, g) := (g.removeEvent id).forgetEvents rest
    (if there then id :: others else others, g)

/-- Take a route out of the graph; answers the commands that remove what was still there. -/
def Graph.forget (g : Graph) (r : Route) : List Bytes × Graph :=
  let (processors, g) := g.forgetProcessors r.processors
  let loggers := r.loggers.filter g.hasLogger
  let g := r.loggers.foldl Graph.removeLogger g
  let (events, g) := g.forgetEvents r.events
  (processors.map removeProcessorCommand ++ loggers.map removeLoggerCommand ++
    events.map removeEventCommand, g.removeStreams r.id)

/-- Take a route off the board.  It is forgotten also when a command fails; the first fault is
reported. -/
def teardown (r : Route) : ExceptT Fault (StateM Station) Unit := fun station =>
  let (commands, graph) := station.graph.forget r
  match sendAll commands station.link with
  | (none, link) => (.ok (), ⟨link, graph⟩)
  | (some fault, link) => (.error fault, ⟨link, graph⟩)

end SignalRoute
