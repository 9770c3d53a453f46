import Mathlib.Logic.Relation
import SignalRoute.Host
import SignalRoute.Proofs.Route.Sync

/-!
# Sessions with a board

A session is a host with the routes that it returned and that were not removed since.  It goes on by
building routes, from any producer with any expression, and by removing them, each at most once and
in any order.  In between, the board may be told not to carry out a creation.

`Session.tables_in_sync`: however long a session goes on, the graph says of the board exactly what
is on it.

This is the well-behaved case: a link that refuses nothing, and handles that are used up.  The only
thing that may go wrong is a creation that is not carried out, so that a build fails half way and
takes back what it has.  Then graph and board agree table for table after every step, in both
directions: nothing is on the board that the graph does not have, and the other way round.
-/

set_option autoImplicit false

namespace SignalRoute

/-! ## Building

A build is a plan and what comes of it.  If a plan cannot be drawn up, nothing is sent; if it can,
`Proofs.Route.Sync` says what is on the board afterwards.
-/

/-- What a list of steps plans is what it leaves in the draft. -/
theorem Host.plan_eq_ok {host : Host} {producer : String} {steps : List Step} {p : Plan}
    (h : host.plan producer (fun c => Step.run c steps) = .ok p) :
    ∃ root, host.catalog.get? producer = some root ∧
      p = (Step.run ⟨root, none⟩ steps host.draft).2.plan := by
  rw [Host.plan] at h
  split at h
  · cases h
  · rename_i root hroot
    refine ⟨root, hroot, ?_⟩
    rcases hrun : Step.run ⟨root, none⟩ steps host.draft with ⟨fault | next, draft⟩
    · simp only [hrun] at h
      cases h
    · simp only [hrun] at h
      exact (Except.ok.inj h).symm

/-- A route that was built is what its plan asks for. -/
theorem Host.buildRoute_eq_ok {host host' : Host} {producer : String}
    {expression : Cursor → Drafting Cursor} {b : SimulatedBoard} {r : Route} {plan : Plan}
    (h : host.station.link.Wired b) (hplan : host.plan producer expression = .ok plan)
    (hbuild : buildRoute producer expression host = (.ok r, host')) :
    ∃ made loggers now commands, plan.Met made loggers ∧ b.Grown commands made now ∧
      host'.station.link.Wired now ∧
      (r, host'.station.graph) = host.station.graph.enter host.catalog host.nextRoute plan
        made.placed loggers (made.events.map Prod.fst) := by
  rw [buildRoute, hplan] at hbuild
  simp only [onStation] at hbuild
  rcases hr : realize host.catalog host.nextRoute plan host.station with ⟨fault | r', station⟩
  · rw [hr] at hbuild
    cases hbuild
  · rw [hr] at hbuild
    cases hbuild
    obtain ⟨made, loggers, now, commands, hmet, hgrown, hwired, -, henter⟩ := realize_eq_ok h hr
    exact ⟨made, loggers, now, commands, hmet, hgrown, hwired, henter⟩

/-! ## Sessions

The run is any chain of steps, and `Good` is what a step keeps.  It mentions some board, since a
session has none of its own: it is what its link is wired to.
-/

/-- A host, and the routes that are to be removed. -/
structure Session where
  host : Host
  routes : List Route

namespace Session

/-- The session with its board told not to carry out the `k`-th creation from now on. -/
def dropReply (s : Session) (k : Nat) : Session :=
  { s with host := s.host.mapLink fun l =>
    { l with transport := l.transport.mapBoard fun b => b.dropReply k } }

/-- The session after an attempt to build a route. -/
def build (s : Session) (producer : String) (expression : Cursor → Drafting Cursor) : Session :=
  match Host.buildRoute producer expression s.host with
  | (.ok r, host) => ⟨host, r :: s.routes⟩
  | (.error _, host) => ⟨host, s.routes⟩

/-- What can happen next. -/
inductive Step : Session → Session → Prop
  /-- A route is built. -/
  | built {s : Session} (producer : String) (expression : Cursor → Drafting Cursor) {r : Route}
      {h : Host} (hbuild : Host.buildRoute producer expression s.host = (.ok r, h)) :
      Step s ⟨h, r :: s.routes⟩
  /-- A route is not built: its expression fails, or the board does not give it what it needs. -/
  | failed {s : Session} (producer : String) (expression : Cursor → Drafting Cursor)
      {fault : Fault} {h : Host}
      (hbuild : Host.buildRoute producer expression s.host = (.error fault, h)) :
      Step s ⟨h, s.routes⟩
  /-- A route is removed. -/
  | removed {s : Session} (before after : List Route) {r : Route}
      (hroutes : s.routes = before ++ r :: after) {outcome : Except Fault Unit} {h : Host}
      (hremove : Host.removeRoute r s.host = (outcome, h)) : Step s ⟨h, before ++ after⟩
  | dropped (s : Session) (k : Nat) : Step s (s.dropReply k)

/-- A session begins with an empty graph and a board with empty tables, over a link that is wired
and refuses nothing. -/
structure Begins (s : Session) : Prop where
  graph : s.host.station.graph = .empty
  routes : s.routes = []
  refuse : s.host.station.link.transport.refuse = 0
  board : ∃ b, s.host.station.link.Wired b ∧ b.processors = .empty ∧ b.loggers = .empty ∧
    b.events = .empty

/-- The station of the session is in step with some board. -/
def Good (s : Session) : Prop := ∃ b, s.host.station.InStep b s.routes

variable {s s' : Session}

theorem step_build (s : Session) (producer : String) (expression : Cursor → Drafting Cursor) :
    Step s (s.build producer expression) := by
  rw [build]
  rcases hbuild : Host.buildRoute producer expression s.host with ⟨fault | r, host⟩
  · exact .failed producer expression hbuild
  · exact .built producer expression hbuild

theorem Begins.good (h : s.Begins) : s.Good := by
  obtain ⟨b, hwired, hprocessors, hloggers, hevents⟩ := h.board
  refine ⟨b, hwired, h.refuse, ⟨?_, ?_, ?_, ?_⟩, ⟨?_, ?_, ?_⟩⟩
  · rw [h.graph, hprocessors]
    rfl
  · intro id e he
    rw [h.graph] at he
    cases he
  · rw [h.graph, hloggers]
    exact .refl _
  · rw [h.graph, hevents]
    rfl
  · rw [h.routes]
    simp
  · rw [h.routes]
    simp
  · rw [h.routes]
    exact .nil

theorem good_build (producer : String) (expression : Cursor → Drafting Cursor) (h : s.Good) :
    match Host.buildRoute producer expression s.host with
    | (.ok r, host) => Good ⟨host, r :: s.routes⟩
    | (.error _, host) => Good ⟨host, s.routes⟩ := by
  obtain ⟨b, hstep⟩ := h
  rw [Host.buildRoute]
  cases hplan : s.host.plan producer expression with
  | error fault => exact ⟨b, hstep⟩
  | ok plan =>
    simp only [Host.onStation]
    rcases hr : realize s.host.catalog s.host.nextRoute plan s.host.station with
      ⟨fault | r, station⟩
    · exact hstep.realize_error hr
    · exact hstep.realize_ok hr

theorem good_removed {before after : List Route} {r : Route}
    (hroutes : s.routes = before ++ r :: after) (h : s.Good) :
    Good ⟨(Host.removeRoute r s.host).2, before ++ after⟩ := by
  obtain ⟨b, hstep⟩ := h
  rw [hroutes] at hstep
  exact ⟨_, hstep.teardown.2⟩

theorem good_dropReply (k : Nat) (h : s.Good) : (s.dropReply k).Good := by
  obtain ⟨b, hstep⟩ := h
  have hboard := hstep.wired.board
  refine ⟨b.dropReply k, ⟨?_, hstep.wired.scripts, hstep.wired.queue, hstep.wired.room,
    hstep.wired.isOpen, hstep.wired.connected, hstep.wired.live⟩, hstep.refuse,
    hstep.sync.of_tables rfl rfl rfl, hstep.owns.of_tables rfl⟩
  show s.host.station.link.transport.board.map _ = _
  rw [hboard]
  rfl

theorem Step.good (hstep : Step s s') (h : s.Good) : s'.Good := by
  cases hstep with
  | built producer expression hbuild =>
    have := good_build producer expression h
    rwa [hbuild] at this
  | failed producer expression hbuild =>
    have := good_build producer expression h
    rwa [hbuild] at this
  | removed before after hroutes hremove =>
    have := good_removed hroutes h
    rwa [hremove] at this
  | dropped k => exact good_dropReply k h

/-- **Host and board never drift apart.**  Wherever a session leads, the processors, the loggers and
the events of the graph are those of the board, and each processor is stored there with the
configuration and the input that the graph has for it. -/
theorem tables_in_sync {start : Session} (hstart : start.Begins)
    (hrun : Relation.ReflTransGen Step start s) :
    ∃ b, s.host.station.link.transport.board = some b ∧ s.host.station.graph.InSync b := by
  have hgood : s.Good := by
    induction hrun with
    | refl => exact hstart.good
    | tail _ hstep ih => exact hstep.good ih
  obtain ⟨b, hb⟩ := hgood
  exact ⟨b, hb.wired.board, hb.sync⟩

/-- A host at rest with a fresh board. -/
def fresh : Session := ⟨.atRest .standard (.toBoard (.start .standard)) 0, []⟩

theorem fresh_begins : fresh.Begins :=
  ⟨rfl, rfl, rfl, .start .standard, ⟨rfl, rfl, rfl, by decide, rfl, rfl, rfl⟩, rfl, rfl, rfl⟩

/-- A delayed temperature is logged, and then a counted switch. -/
def temperatureAndSwitch : Session :=
  (fresh.build "temperature" fun c => SignalRoute.Step.run c [.delay 4, .log]).build "switch"
    fun c => SignalRoute.Step.run c [.count, .log]

/-- When the temperature is removed, the counter and its logger stay on the board, and the graph
says so. -/
theorem tables_in_sync_temperature :
    ∃ switch temperature, temperatureAndSwitch.routes = [switch, temperature] ∧
      ∃ b, (Host.removeRoute temperature temperatureAndSwitch.host).2.station.link.transport.board =
          some b ∧
        (Host.removeRoute temperature temperatureAndSwitch.host).2.station.graph.InSync b ∧
        b.processors.ids = [1] ∧ b.loggers.ids = [1] := by
  have hcount : temperatureAndSwitch.routes.length = 2 := by decide +kernel
  obtain ⟨switch, temperature, hroutes⟩ := List.length_eq_two.1 hcount
  have hbuilt : Relation.ReflTransGen Step fresh temperatureAndSwitch :=
    .tail (.single (step_build _ _ _)) (step_build _ _ _)
  have hremoved : Step temperatureAndSwitch
      ⟨(Host.removeRoute temperature temperatureAndSwitch.host).2, [switch]⟩ :=
    .removed [switch] [] hroutes rfl
  obtain ⟨b, hboard, hsync⟩ := tables_in_sync fresh_begins (hbuilt.tail hremoved)
  have hids : (temperatureAndSwitch.routes.getLast?.bind fun r =>
      (Host.removeRoute r temperatureAndSwitch.host).2.station.link.transport.board).map
        (fun b => (b.processors.ids, b.loggers.ids)) = some ([1], [1]) := by
    decide +kernel
  rw [hroutes, List.getLast?_cons_cons, List.getLast?_singleton, Option.bind_some] at hids
  rw [hboard, Option.map_some, Option.some_inj, Prod.mk.injEq] at hids
  exact ⟨switch, temperature, hroutes, b, hboard, hsync, hids⟩

end Session
end SignalRoute
