import Mathlib.Logic.Relation
import SignalRoute.Host
import SignalRoute.Proofs.Graph.Tables
import SignalRoute.Proofs.Route.Crediting

/-!
# Hosts of boards whose answers take their time

A `Lagging` is a host with a board that is not wired to it.  What the board sends is on its way
first; it comes in while commands are sent or between builds, in order, but with any delay.  So an
answer may come in long after the host has stopped waiting for it and has taken back what was
placed.

The host knows an answer by its module and its register, and not by the command that led to it.

* `Lagging.entries_credited`: if no answer to the creation of a processor is outstanding whenever a
  build that creates processors begins, then the graph has every processor under the id under which
  the board holds its configuration and its input, however many builds fail in between.
* `Lagging.not_credited_late`: otherwise it may have one under the id of another.

Elsewhere a host is wired to its board, so that an answer is there as soon as the command was
sent.  That hides a question: when an answer comes in, to which command does it belong?  A link can
only compare what it waits for with what it sees, and two creations of processors are answered
alike.  So the builder waits for one answer before it sends the next command, and trusts that there
is no older one.

The trust is misplaced after a build that ran into a timeout.  What it had placed is taken back, but
an answer that is still on its way is not, and it may come in during the next build.  The hypothesis
of the theorem is just that this does not happen, and the counterexample is a run where it does.
-/

set_option autoImplicit false

namespace SignalRoute

/-! ## Polling

What comes in between builds is delivered to whoever listens.  An answer to a creation is listened
to by nobody, and is gone.
-/

namespace Graph

variable (now : Instant) (frame : Bytes)

theorem processors_deliverAll (g : Graph) (mailbox : Nat) (readings : List Reading) :
    (g.deliverAll mailbox now readings).2.processors = g.processors := by
  rw [deliverAll]
  split
  · exact List.foldlRecOn (motive := fun g' : Graph => g'.processors = g.processors) readings _ rfl
      fun _ h _ _ => h
  · rfl

theorem processors_offer (g : Graph) (e : StreamEntry) :
    (g.offer now frame e).2.processors = g.processors := by
  rw [offer]
  split
  · rfl
  · split
    · exact processors_deliverAll now g _ _
    · rfl

theorem processors_offerAll (g : Graph) (streams : List StreamEntry) :
    (g.offerAll now frame streams).2.processors = g.processors := by
  induction streams generalizing g with
  | nil => rfl
  | cons e rest ih => exact (ih _).trans (processors_offer now frame g e)

/-- Delivering frames changes what waits in mailboxes. -/
theorem processors_dispatchAll (g : Graph) (frames : List Bytes) :
    (g.dispatchAll now frames).2.processors = g.processors := by
  induction frames generalizing g with
  | nil => rfl
  | cons frame rest ih => exact (ih _).trans (processors_offerAll now frame g _)

end Graph

/-! ## Builds

A build is given a schedule, which says what comes in behind each command, and `Exchange` says which
schedules there are for a board and what is on its way afterwards.  The step lemma is
`Lagging.Step.credited`, one case for each thing that can happen, and a run is a chain of these.
-/

/-- The host over a transport over which nothing was sent yet and which follows a schedule. -/
def Host.scheduled (h : Host) (arrivals : List (List LinkEvent)) : Host :=
  h.mapLink fun l => { l with transport := .delayed [] arrivals }

/-- A host, its board, and what is on its way from the board to the host. -/
structure Lagging where
  host : Host
  board : SimulatedBoard
  flight : List LinkEvent

namespace Lagging

/-- How many answers to creations of processors can still come in. -/
def outstanding (s : Lagging) : Nat :=
  processorAnswers s.flight + processorAnswers s.host.station.link.queue

/-- Is there a processor to be created? -/
def Creates (s : Lagging) (producer : String) (expression : Cursor → Drafting Cursor) : Prop :=
  ∃ p, s.host.plan producer expression = .ok p ∧ p.stages ≠ []

/-- What can happen next, if processors are created only where it is `allowed`. -/
inductive Step (allowed : Lagging → Prop) : Lagging → Lagging → Prop
  /-- A route is built, or an attempt fails.  Behind each command that is sent, a part comes in of
  what is on its way then. -/
  | built {s : Lagging} (producer : String) (expression : Cursor → Drafting Cursor)
      (arrivals : List (List LinkEvent)) {host : Host} {board : SimulatedBoard}
      {flight : List LinkEvent} (hallowed : s.Creates producer expression → allowed s)
      (hbuild : (Host.buildRoute producer expression (s.host.scheduled arrivals)).2 = host)
      (hexchange : Exchange s.board s.flight host.station.link.transport.sent arrivals board
        flight) :
      Step allowed s ⟨host, board, flight⟩
  /-- A part of what is on its way comes in. -/
  | arrived {s : Lagging} (now : List LinkEvent) {later : List LinkEvent}
      (hflight : s.flight = now ++ later) :
      Step allowed s ⟨s.host.mapLink (·.receiveAll now), s.board, later⟩
  /-- What came in is delivered. -/
  | polled (s : Lagging) : Step allowed s ⟨(Host.poll s.host).2, s.board, s.flight⟩

variable {s s' : Lagging}

/-- **A build keeps the graph credited**, whether it succeeds or fails. -/
theorem credited_build (h : s.host.station.graph.Credited s.board) {producer : String}
    {expression : Cursor → Drafting Cursor} {arrivals : List (List LinkEvent)}
    (hclear : s.Creates producer expression → s.outstanding = 0) {host : Host}
    {board : SimulatedBoard} {flight : List LinkEvent}
    (hbuild : (Host.buildRoute producer expression (s.host.scheduled arrivals)).2 = host)
    (hexchange : Exchange s.board s.flight host.station.link.transport.sent arrivals board flight) :
    host.station.graph.Credited board := by
  have hbegin : (s.host.scheduled arrivals).station.link.Entails s.board s.flight arrivals
      fun now left => now = s.board ∧ left = s.flight := .start rfl
  rw [Host.buildRoute] at hbuild
  cases hplan : (s.host.scheduled arrivals).plan producer expression with
  | error fault =>
    rw [hplan] at hbuild
    subst hbuild
    obtain ⟨rfl, -⟩ := hbegin.of_exchange hexchange
    exact h
  | ok p =>
    rw [hplan] at hbuild
    subst hbuild
    have hexpects : Site.Expects s.board s.flight arrivals s.outstanding
        ⟨(s.host.scheduled arrivals).station.link, [], [], []⟩ := by
      refine hbegin.mono ?_
      rintro _ _ ⟨rfl, rfl⟩
      exact ⟨.start _, Nat.le_refl _⟩
    have hgraph : (s.host.scheduled arrivals).station.graph.Credited s.board := h
    exact realize_credited hgraph hexpects (fun hstages => hclear ⟨p, hplan, hstages⟩) rfl hexchange

theorem Step.credited (hstep : Step (fun s => s.outstanding = 0) s s')
    (h : s.host.station.graph.Credited s.board) : s'.host.station.graph.Credited s'.board := by
  cases hstep with
  | built producer expression arrivals hclear hbuild hexchange =>
    exact credited_build h hclear hbuild hexchange
  | arrived now hflight => exact h
  | polled =>
    have hsame : (Host.poll s.host).2.station.graph.processors =
      s.host.station.graph.processors := Graph.processors_dispatchAll _ _ _
    show (Host.poll s.host).2.station.graph.Credited s.board
    rw [Graph.Credited, hsame]
    exact h

/-- **Every answer is credited to its own creation**, however long it takes, if none is outstanding
whenever a build that creates processors begins. -/
theorem entries_credited {start s : Lagging} (hempty : start.host.station.graph = .empty)
    (hrun : Relation.ReflTransGen (Step fun s => s.outstanding = 0) start s) :
    s.host.station.graph.Credited s.board := by
  induction hrun with
  | refl =>
    rw [hempty]
    exact List.forall_mem_nil _
  | tail _ hstep ih => exact hstep.credited ih

/-! ## An answer that comes in late

One run is shown twice.  In `settled` the answer comes in between two builds and is delivered, and
the second build goes well; in `not_credited_late` the same answer comes in during the second build,
and is taken for its own.
-/

/-- A host at rest, a fresh board, and nothing on its way. -/
def fresh : Lagging := ⟨.atRest .standard .void 0, .start .standard, []⟩

/-- The command that creates a delay of the temperature. -/
def delayCommand : Bytes := [0x09, 0x02, 0x04, 0x01, 0x00, 0x20, 0x0a, 0x01, 0x04]

/-- The command that creates a counter of the switch. -/
def countCommand : Bytes := [0x09, 0x02, 0x01, 0x01, 0xff, 0x00, 0x02, 0x13]

/-- The answer to the creation of a processor. -/
def creation (id : UInt8) : LinkEvent := .frame [Module.processor, ProcessorReg.add, id]

/-- A build of a delay for which the answer did not come in while the host waited. -/
def late : Lagging where
  host := (Host.buildRoute "temperature" (fun c => SignalRoute.Step.run c [.delay 4])
    (fresh.host.scheduled [[]])).2
  board := (fresh.board.handle delayCommand).2
  flight := [creation 0]

/-- The answer has come in since then and was delivered to nobody. -/
def settled : Lagging where
  host := (Host.poll (late.host.mapLink (·.receiveAll [creation 0]))).2
  board := late.board
  flight := []

/-- A build of a counter during which `arrived` comes in. -/
def countedAfter (s : Lagging) (arrived flight : List LinkEvent) : Lagging where
  host := (Host.buildRoute "switch" (fun c => SignalRoute.Step.run c [.count])
    (s.host.scheduled [arrived])).2
  board := (s.board.handle countCommand).2
  flight := flight

theorem step_late {allowed : Lagging → Prop} (hallowed : allowed fresh) :
    Step allowed fresh late := by
  refine .built "temperature" _ [[]] (fun _ => hallowed) rfl ?_
  have hsent : late.host.station.link.transport.sent = [delayCommand] := by decide +kernel
  show Exchange _ _ late.host.station.link.transport.sent _ _ _
  rw [hsent]
  exact Exchange.start.next delayCommand (by decide +kernel)

theorem step_countedAfter {allowed : Lagging → Prop} {s : Lagging} (hallowed : allowed s)
    {arrived flight : List LinkEvent}
    (hsent : (countedAfter s arrived flight).host.station.link.transport.sent = [countCommand])
    (hin : s.flight ++ (s.board.handle countCommand).1 = arrived ++ flight) :
    Step allowed s (countedAfter s arrived flight) := by
  refine .built "switch" _ [arrived] (fun _ => hallowed) rfl ?_
  show Exchange _ _ (countedAfter s arrived flight).host.station.link.transport.sent _ _ _
  rw [hsent]
  exact Exchange.start.next countCommand hin

/-- An answer that comes in late, but before the next build, is nobody's. -/
theorem entries_credited_settled :
    ∃ s, Relation.ReflTransGen (Step fun s => s.outstanding = 0) fresh s ∧
      s.host.station.graph.processors.ids = [1] ∧ s.host.station.graph.Credited s.board := by
  have hlate : Relation.ReflTransGen (Step fun s => s.outstanding = 0) fresh late :=
    .single (step_late (by decide +kernel))
  have hsettled : Relation.ReflTransGen (Step fun s => s.outstanding = 0) fresh settled :=
    (hlate.tail (.arrived [creation 0] rfl)).tail (.polled _)
  have hrun : Relation.ReflTransGen (Step fun s => s.outstanding = 0) fresh
      (countedAfter settled [creation 1] []) :=
    hsettled.tail (step_countedAfter (by decide +kernel) (by decide +kernel) (by decide +kernel))
  exact ⟨_, hrun, by decide +kernel, entries_credited rfl hrun⟩

/-- **An answer that comes in late is credited to the next creation.**  The counter of the switch is
entered under the id of the delay, which is left on the board. -/
theorem not_credited_late :
    ∃ s, Relation.ReflTransGen (Step fun _ => True) fresh s ∧
      ¬s.host.station.graph.Credited s.board := by
  have hlate : Relation.ReflTransGen (Step fun _ => True) fresh late := .single (step_late trivial)
  have hrun : Relation.ReflTransGen (Step fun _ => True) fresh
      (countedAfter late [creation 0] [creation 1]) :=
    hlate.tail (step_countedAfter trivial (by decide +kernel) (by decide +kernel))
  refine ⟨_, hrun, fun hcredited => ?_⟩
  have hentry : ((0, [0x02, 0x13]) : UInt8 × Bytes) ∈
      (countedAfter late [creation 0] [creation 1]).host.station.graph.processors.values.map
        fun e => (e.id, e.processor.encode) := by decide +kernel
  have hheld : ((countedAfter late [creation 0] [creation 1]).board.processors.find? 0).map
      BoardProcessor.config = some [0x0a, 0x01, 0x04] := by decide +kernel
  obtain ⟨e, he, hkey⟩ := List.mem_map.1 hentry
  obtain ⟨hid, hconfig⟩ := Prod.mk.inj hkey
  obtain ⟨row, hrow, hsame, -⟩ := hcredited e he
  rw [hid] at hrow
  rw [hrow, Option.map_some, hsame, hconfig] at hheld
  cases hheld

end Lagging
end SignalRoute
