import SignalRoute.Proofs.Host.Reached
import SignalRoute.Proofs.Route.Undoing

/-!
# Removing a route that was just built

A run of a session is a history of building and removing in which builds are counted, so that the
numbers of routes do not come round.  `Session.Tidy` is what every run keeps: the graph is in step
with the board, its names lead somewhere, its buffers hold data, and its streams belong to routes
with numbers that were used up.

`Session.removal_undoes_creation` concludes that a route that is built and removed at once leaves
the tables of the graph and those of the board as they were.

The statement is one of equality, for every table of the graph and of the board.  So what removal
does is compared with what creation did, table by table: a creation enters ids that the board hands
out, and a removal takes out what has these ids.  That leaves the old table if none of the old ids
is among the new ones, and so it does as long as both sides know the same ids.  Therefore the
invariant has the board in it.

Counting builds is a precaution.  Entries of the graph remember the number of their route, which is
a word of 32 bits, and a stream is forgotten by that number.
-/

set_option autoImplicit false

namespace SignalRoute

/-! ## Names that are free

A stage that took a name away from a processor on the board would not give it back when it is
removed.  Drafts refuse such names.
-/

/-- What was on the board does not change while a route is drafted, and no stage has a name that
something there has. -/
structure Draft.Unclaimed (known : List KnownProcessor) (d : Draft) : Prop where
  known : d.known = known
  names : ∀ stage ∈ d.plan.stages, ∀ name, stage.name = some name → d.known? name = none

theorem Draft.Unclaimed.move {known : List KnownProcessor} {x y : Cursor × Draft}
    (hmove : Draft.Move x y) (h : x.2.Unclaimed known) : y.2.Unclaimed known := by
  cases hmove with
  | emitted hemits hi =>
    refine ⟨h.known, fun stage hstage name hname => ?_⟩
    rcases List.mem_append.1 hstage with hold | hnew
    · exact h.names stage hold name hname
    · rw [List.mem_singleton.1 hnew] at hname
      cases hname
  | @named c d i name hstage hnamed hknown hunnamed =>
    refine ⟨h.known, fun stage hmem other hother => ?_⟩
    obtain ⟨old, hold, rfl | rfl⟩ := Draft.of_mem_nameStage hmem
    · exact h.names _ hold other hother
    · cases hother
      exact hknown
  | fed c d feedback => exact ⟨h.known, h.names⟩
  | reacted c d commands => exact ⟨h.known, h.names⟩
  | streamed c d => exact ⟨h.known, h.names⟩
  | logged d hdata => exact ⟨h.known, h.names⟩
  | opened c d kind => exact ⟨h.known, h.names⟩
  | returned hb => exact h
  | entered hs => exact h
  | closed hb => exact ⟨h.known, h.names⟩

/-- A draft knows the processors of the graph by their names. -/
theorem Graph.exists_known {g : Graph} {id : UInt8} {name : String}
    (h : g.nameOf? id = some name) : ∃ k ∈ g.knownProcessors, k.name = name := by
  have hnames : g.knownProcessors.map KnownProcessor.name =
      g.processors.values.filterMap ProcessorEntry.name := by
    rw [knownProcessors, List.map_filterMap]
    refine List.filterMap_congr fun e _ => ?_
    cases e.name <;> rfl
  obtain ⟨e, he, hname⟩ := Option.bind_eq_some_iff.1 h
  have hvalue : e ∈ g.processors.values := List.mem_map_of_mem (IdTable.mem_entries_of_find? he)
  exact List.mem_map.1 (hnames ▸ List.mem_filterMap.2 ⟨e, hvalue, hname⟩)

/-- The stages of a plan have names that nothing in the graph has. -/
theorem Host.plan_names {host : Host} {producer : String} {steps : List Step} {p : Plan}
    (hplan : host.plan producer (fun c => Step.run c steps) = .ok p) :
    ∀ stage ∈ p.stages, ∀ name, stage.name = some name →
      ∀ id, host.station.graph.nameOf? id ≠ some name := by
  obtain ⟨root, -, rfl⟩ := plan_eq_ok hplan
  have hstart : host.draft.Unclaimed host.station.graph.knownProcessors :=
    ⟨rfl, List.forall_mem_nil _⟩
  obtain ⟨next, hnext, -⟩ := Drafting.run_keeps (c := ⟨root, none⟩)
    (I := fun x => x.2.Unclaimed host.station.graph.knownProcessors)
    (fun _ _ hmove => Draft.Unclaimed.move hmove) hstart steps
  intro stage hstage name hname id hid
  have hfree := hnext.names stage hstage name hname
  rw [Draft.known?, hnext.known, List.find?_eq_none] at hfree
  obtain ⟨k, hk, rfl⟩ := Graph.exists_known hid
  exact hfree k (List.mem_reverse.2 hk) (beq_self_eq_true k.name)

/-! ## Builds

A build that fails leaves the graph alone, and it may have used up a route number.
-/

theorem RouteId.toNat_next (route : RouteId) (h : route.number.toNat + 1 < 2 ^ 32) :
    route.next.number.toNat = route.number.toNat + 1 := by
  rw [next, UInt32.toNat_add]
  exact Nat.mod_eq_of_lt h

theorem RouteId.toNat_next_le (route : RouteId) :
    route.next.number.toNat ≤ route.number.toNat + 1 := by
  rw [next, UInt32.toNat_add]
  exact Nat.mod_le _ _

namespace Host

variable {host host' : Host} {producer : String} {expression : Cursor → Drafting Cursor}

/-- A build that fails leaves the graph as it was. -/
theorem buildRoute_error {fault : Fault}
    (h : buildRoute producer expression host = (.error fault, host')) :
    host'.station.graph = host.station.graph ∧
      (host'.nextRoute = host.nextRoute ∨ host'.nextRoute = host.nextRoute.next) := by
  rw [buildRoute] at h
  split at h
  · cases h
    exact ⟨rfl, .inl rfl⟩
  · rename_i p hplan
    simp only [onStation, realize] at h
    rcases hprogram : p.program ⟨host.station.link, [], [], []⟩ with ⟨fault' | loggers, site⟩
    · rw [hprogram] at h
      cases h
      exact ⟨rfl, .inr rfl⟩
    · rw [hprogram] at h
      cases h

theorem buildRoute_ok {r : Route} (h : buildRoute producer expression host = (.ok r, host')) :
    (∃ p, host.plan producer expression = .ok p) ∧ host'.nextRoute = host.nextRoute.next := by
  rw [buildRoute] at h
  split at h
  · cases h
  · rename_i p hplan
    refine ⟨⟨p, hplan⟩, ?_⟩
    exact congrArg (fun x => x.2.nextRoute) h.symm

end Host

/-! ## Runs -/

namespace Session

/-- What a session comes to with `n` builds, whether they fail or not. -/
inductive Run (start : Session) : Nat → Session → Prop
  | start : Run start 0 start
  | built {n : Nat} {s : Session} (hrun : Run start n s) (producer : String)
      (steps : List SignalRoute.Step) :
      Run start (n + 1) (s.build producer fun c => SignalRoute.Step.run c steps)
  /-- A route that was not removed before is removed. -/
  | removed {n : Nat} {s : Session} (hrun : Run start n s) (before after : List Route) {r : Route}
      (hroutes : s.routes = before ++ r :: after) :
      Run start n ⟨(Host.removeRoute r s.host).2, before ++ after⟩
  | dropped {n : Nat} {s : Session} (hrun : Run start n s) (k : Nat) : Run start n (s.dropReply k)

/-- A session that begins with the built-in sensors and the first route number. -/
structure BeginsFresh (s : Session) : Prop where
  begins : s.Begins
  catalog : s.host.catalog = .standard
  nextRoute : s.host.nextRoute = ⟨0⟩

/-- What every run keeps. -/
structure Tidy (n : Nat) (s : Session) : Prop where
  good : s.Good
  reached : s.host.Reached
  named : s.host.station.graph.Named
  /-- At most as many numbers were used up as there were builds. -/
  nextRoute : s.host.nextRoute.number.toNat ≤ n
  streams : n < 2 ^ 32 → ∀ e ∈ s.host.station.graph.streams,
    e.route.number.toNat < s.host.nextRoute.number.toNat

variable {start s : Session} {n : Nat}

theorem BeginsFresh.tidy (h : s.BeginsFresh) : s.Tidy 0 := by
  refine ⟨h.begins.good, .start h.catalog h.begins.graph, ?_, ?_, fun _ => ?_⟩
  · rw [h.begins.graph]
    exact List.forall_mem_nil _
  · rw [h.nextRoute]
    exact Nat.le_refl 0
  · rw [h.begins.graph]
    exact List.forall_mem_nil _

theorem Tidy.build (h : s.Tidy n) (producer : String) (steps : List SignalRoute.Step) :
    (s.build producer fun c => SignalRoute.Step.run c steps).Tidy (n + 1) := by
  have hgood : (s.build producer fun c => SignalRoute.Step.run c steps).Good :=
    (step_build s producer _).good h.good
  have hreached := h.reached.built producer steps
  have hnext := h.nextRoute
  rw [Session.build] at hgood ⊢
  rcases hbuild : Host.buildRoute producer (fun c => SignalRoute.Step.run c steps) s.host with
    ⟨fault | r, host⟩
  · simp only [hbuild] at hgood hreached ⊢
    obtain ⟨hgraph, hnumber⟩ := Host.buildRoute_error hbuild
    have hle := s.host.nextRoute.toNat_next_le
    refine ⟨hgood, hreached, ?_, ?_, fun hn => ?_⟩
    · rw [hgraph]
      exact h.named
    · rcases hnumber with hnumber | hnumber <;> rw [hnumber] <;> omega
    · rw [hgraph]
      intro e he
      have hold := h.streams (by omega) e he
      have hadd := s.host.nextRoute.toNat_next (by omega)
      rcases hnumber with hnumber | hnumber <;> rw [hnumber] <;> omega
  · simp only [hbuild] at hgood hreached ⊢
    obtain ⟨⟨p, hplan⟩, hnumber⟩ := Host.buildRoute_ok hbuild
    obtain ⟨b, hstep⟩ := h.good
    obtain ⟨made, loggers, now, commands, hmet, hgrown, -, henter⟩ :=
      Host.buildRoute_eq_ok hstep.wired hplan hbuild
    have hle := s.host.nextRoute.toNat_next_le
    refine ⟨hgood, hreached, hstep.sync.named_enter hgrown hmet henter h.named, ?_, fun hn => ?_⟩
    · rw [hnumber]
      omega
    · have hadd := s.host.nextRoute.toNat_next (by omega)
      obtain ⟨news, hnews, -, hroutes⟩ := s.host.station.graph.streams_enter s.host.nextRoute
        s.host.catalog p made.placed loggers (made.events.map Prod.fst)
      intro e he
      rw [show host.station.graph = _ from congrArg Prod.snd henter, hnews] at he
      rw [hnumber, hadd]
      rcases List.mem_append.1 he with hold | hnew
      · exact Nat.lt_succ_of_lt (h.streams (by omega) e hold)
      · rw [hroutes e hnew]
        exact Nat.lt_succ_self _

theorem Tidy.remove (h : s.Tidy n) {before after : List Route} {r : Route}
    (hroutes : s.routes = before ++ r :: after) :
    Tidy n ⟨(Host.removeRoute r s.host).2, before ++ after⟩ := by
  have hgraph : (Host.removeRoute r s.host).2.station.graph = (s.host.station.graph.forget r).2 :=
    congrArg Station.graph (teardown_snd r s.host.station)
  refine ⟨good_removed hroutes h.good, h.reached.removed r, ?_, h.nextRoute, fun hn e he => ?_⟩
  · rw [hgraph]
    exact h.named.forget r
  · rw [hgraph, Graph.streams_forget] at he
    exact h.streams hn e (List.mem_of_mem_filter he)

theorem Tidy.dropReply (h : s.Tidy n) (k : Nat) : (s.dropReply k).Tidy n :=
  ⟨good_dropReply k h.good, .other h.reached rfl rfl fun _ he _ => he, h.named, h.nextRoute,
    h.streams⟩

theorem Run.tidy (hrun : Run start n s) (hstart : start.BeginsFresh) : s.Tidy n := by
  induction hrun with
  | start => exact hstart.tidy
  | built _ producer steps ih => exact ih.build producer steps
  | removed _ before after hroutes ih => exact ih.remove hroutes
  | dropped _ k ih => exact ih.dropReply k

/-! ## Undoing

The witness is on a board that is in use: what is removed is fused with a buffer that was there
before and that has to stay.
-/

/-- **Removal undoes creation.**  Wherever a run leads, a route that is built and then removed, with
nothing in between, leaves no trace: the processors, names, consumers, streams and events of the
graph and the processors, loggers and events of the board are what they were before. -/
theorem removal_undoes_creation (hstart : start.BeginsFresh) (hrun : Run start n s)
    (hn : n < 2 ^ 32 - 1) {producer : String} {steps : List SignalRoute.Step} {r : Route}
    {host : Host}
    (hbuild : Host.buildRoute producer (fun c => SignalRoute.Step.run c steps) s.host =
      (.ok r, host)) :
    ∃ after b b', Host.removeRoute r host = (.ok (), after) ∧
      after.station.graph.processors = s.host.station.graph.processors ∧
      after.station.graph.names = s.host.station.graph.names ∧
      after.station.graph.loggers = s.host.station.graph.loggers ∧
      after.station.graph.streams = s.host.station.graph.streams ∧
      after.station.graph.events = s.host.station.graph.events ∧
      s.host.station.link.transport.board = some b ∧
      after.station.link.transport.board = some b' ∧
      b'.processors = b.processors ∧ b'.loggers = b.loggers ∧ b'.events = b.events := by
  have htidy := hrun.tidy hstart
  obtain ⟨b, hstep⟩ := htidy.good
  obtain ⟨⟨p, hplan⟩, -⟩ := Host.buildRoute_ok hbuild
  obtain ⟨made, loggers, now, commands, hmet, hgrown, hwired, henter⟩ :=
    Host.buildRoute_eq_ok hstep.wired hplan hbuild
  -- a log without loggers would enter a consumer that no removal finds again
  have hlogs : ∀ c ∈ p.logs, c.signal.logChunks ≠ [] := fun c hc =>
    have hfilled := (Host.plan_sound htidy.reached.sound.1 htidy.reached.sound.2 hplan).2 c hc
    Signal.logChunks_ne_nil (hfilled.regular.shape.unitLength_pos hfilled.data)
  -- streams are found by the number of their route, and numbers have not come round yet
  have hfresh : ∀ e ∈ s.host.station.graph.streams, e.route ≠ s.host.nextRoute := by
    rintro e he heq
    have hlt := htidy.streams (by omega) e he
    rw [heq] at hlt
    exact Nat.lt_irrefl _ hlt
  -- the route that was built last heads the list of routes, so nothing precedes it
  obtain ⟨hok, hafter⟩ : (teardown r host.station).1 = .ok () ∧
      (teardown r host.station).2.InStep (host.station.graph.clearedBoard now r) s.routes := by
    have hbuilt := good_build producer (fun c => SignalRoute.Step.run c steps) ⟨b, hstep⟩
    rw [hbuild] at hbuilt
    obtain ⟨now', hstep'⟩ := hbuilt
    obtain rfl : now = now' := Option.some.inj (hwired.board.symm.trans hstep'.wired.board)
    have hlast : host.station.InStep now ([] ++ r :: s.routes) := hstep'
    exact hlast.teardown
  have hgraph : (teardown r host.station).2.graph = (host.station.graph.forget r).2 :=
    congrArg Station.graph (teardown_snd r host.station)
  obtain ⟨hprocessors, hloggers, hevents⟩ := hstep.sync.clearedBoard_enter hgrown hmet henter
  refine ⟨{ host with station := (teardown r host.station).2 }, b, _, ?_, ?_, ?_, ?_, ?_, ?_,
    hstep.wired.board, hafter.wired.board, hprocessors, hloggers, hevents⟩
  · rw [← hok]
    rfl
  all_goals dsimp only; rw [hgraph]
  · exact hstep.sync.processors_forget_enter hgrown hmet henter
  · exact hstep.sync.names_forget_enter hgrown hmet henter htidy.named (Host.plan_names hplan)
  · exact hstep.sync.loggers_forget_enter hgrown hmet henter (hmet.loggers_ne_nil hlogs)
  · exact Graph.streams_forget_enter henter hfresh
  · exact hstep.sync.events_forget_enter hgrown henter

/-- A session whose board keeps the last temperature. -/
def keeping : Session :=
  fresh.build "temperature" fun c => SignalRoute.Step.run c [.buffer, .name "last"]

/-- Behind it, the temperature is joined to the length of an acceleration, named, logged and
streamed, and all of that is removed. -/
theorem removal_undoes_creation_joined :
    ∃ r host after b b',
      Host.buildRoute "acceleration" (fun c => SignalRoute.Step.run c
        [.rms, .fuse ["last"], .name "joined", .log, .stream]) keeping.host = (.ok r, host) ∧
      Host.removeRoute r host = (.ok (), after) ∧
      after.station.graph.processors = keeping.host.station.graph.processors ∧
      after.station.graph.names = keeping.host.station.graph.names ∧
      after.station.graph.loggers = keeping.host.station.graph.loggers ∧
      after.station.graph.streams = keeping.host.station.graph.streams ∧
      after.station.graph.events = keeping.host.station.graph.events ∧
      keeping.host.station.link.transport.board = some b ∧
      after.station.link.transport.board = some b' ∧
      b'.processors = b.processors ∧ b'.loggers = b.loggers ∧ b'.events = b.events := by
  have hok : (Host.buildRoute "acceleration" (fun c => SignalRoute.Step.run c
      [.rms, .fuse ["last"], .name "joined", .log, .stream]) keeping.host).1.toOption.isSome =
        true := by decide +kernel
  rcases hbuild : Host.buildRoute "acceleration" (fun c => SignalRoute.Step.run c
    [.rms, .fuse ["last"], .name "joined", .log, .stream]) keeping.host with ⟨fault | r, host⟩
  · rw [hbuild] at hok
    cases hok
  · have hrun : Run fresh 1 keeping := .built .start "temperature" _
    obtain ⟨after, b, b', h⟩ := removal_undoes_creation ⟨fresh_begins, rfl, rfl⟩ hrun (by decide)
      hbuild
    exact ⟨r, host, after, b, b', rfl, h⟩

end Session
end SignalRoute
