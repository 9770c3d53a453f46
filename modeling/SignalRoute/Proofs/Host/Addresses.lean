import SignalRoute.Proofs.Host.Session
import SignalRoute.Proofs.Lists
import SignalRoute.Proofs.Route.Standing

/-!
# Addresses on the board

When a route is built, every cursor of it becomes an address: a processor is created behind it, a
logger or an event is set off by it, or its notifications are listened to.  `Route.Addressed` says
which address that is: for a cursor on the producer, the producer's; for a cursor on a stage, that
of the processor that the board put in the place of the stage.

* `Host.buildRoute_addressed`: so it is for every route that is built, as far as cursors stand on
  what a processor notifies of.  This is so for all cursors on an output itself, on a channel of a
  vector, or on what an accounter puts before its data.
* `Host.wrapped_addressed_elsewhere`: a cursor on the data behind a count is given the address that
  the data had before, with the id of the accounter.

A cursor knows the signal that it stands on and the stage that puts it out.  The address in the
signal has no id before the stage is created, and afterwards it is the address that is sent.  There
are two ways to compute it, then: by the signal, as the program does, and by the stage, as one would
read the plan.  `Cursor.AddressedAs` is the latter, and the question is whether they agree.

They do unless the signal has kept the address of something else.  An accounter moves its input
behind a count and a fuser moves what it joins, with the addresses that these had; resolving gives
them the id of the processor all the same.
-/

set_option autoImplicit false

namespace SignalRoute

/-! ## Resolved cursors

A stage is created when the ids of those before it are known, and of no others.  So it is resolved
among these, while logs, reactions and streams are resolved among all.  `StandsOn.addressedAs`
covers both.
-/

theorem StagesPlaced.getElem? {stages : List PlannedStage} {placed : List Placed}
    (h : StagesPlaced stages placed) {i : Nat} {stage : PlannedStage}
    (hi : stages[i]? = some stage) :
    ∃ p, placed[i]? = some p ∧ p.source = stage.source.resolve (placed.take i) := by
  obtain ⟨id, hplaced⟩ := h.getElem?_placing hi
  exact ⟨_, hplaced, rfl⟩

/-- `bytes` are the address of the output that a cursor stands on, in the plan `p` from the producer
`root` on, if the board gave the ids `ids` to its stages.  On a stage they are so exactly if the
signal under the cursor is one that processors notify of, as it is unless the cursor stands on the
data of an accounter or on what a fuser joins. -/
def Cursor.AddressedAs (c : Cursor) (root : Signal) (p : Plan) (ids : List UInt8) (bytes : Bytes) :
    Prop :=
  match c.stage with
  | none => bytes = root.address.toBytes
  | some k => ∃ output id, p.outputs[k]? = some output ∧ ids[k]? = some id ∧
      output.Reaches c.signal ∧ (bytes = (Address.processor id).toBytes ↔ c.signal.isOutput = true) ∧
      (output.Direct c.signal → c.signal.isOutput = true)

/-- **A cursor is resolved to the address of what it stands on.** -/
theorem Cursor.StandsOn.addressedAs {c : Cursor} {root : Signal} {p : Plan} {placed : List Placed}
    {i : Nat} (h : c.StandsOn root (p.outputs.take i)) (hroot : root.parts = root.channelParts)
    (hplan : p.Grounded root) (hplaced : StagesPlaced p.stages placed) :
    c.AddressedAs root p (placed.map Placed.id) (c.resolve (placed.take i)).address.toBytes := by
  obtain ⟨signal, _ | k⟩ := c
  · show signal.address.toBytes = root.address.toBytes
    rw [(Signal.Reaches.address_eq h hroot).1]
  · obtain ⟨output, hk, hreaches⟩ := h
    obtain ⟨hlt, hk⟩ : k < i ∧ p.outputs[k]? = some output := by
      rw [List.getElem?_take] at hk
      split at hk
      · exact ⟨‹_›, hk⟩
      · cases hk
    have hnotified := hplan.outputs output (List.mem_of_getElem? hk)
    obtain ⟨stage, hstage, rfl⟩ : ∃ stage, p.stages[k]? = some stage ∧ stage.output = output := by
      rwa [Plan.outputs, List.getElem?_map, Option.map_eq_some_iff] at hk
    obtain ⟨q, hq, -⟩ := hplaced.getElem? hstage
    have hresolve : (⟨signal, some k⟩ : Cursor).resolve (placed.take i) =
        (signal.withId q.id).withInput q.source := by
      rw [Cursor.resolve, Option.bind_some, List.getElem?_take_of_lt hlt, hq]
    refine ⟨stage.output, q.id, hk, ?_, hreaches, ?_, fun hdirect =>
      (hnotified.direct hdirect).isOutput⟩
    · rw [List.getElem?_map, hq]
      rfl
    · rw [hresolve, Signal.address_withInput, Signal.address_withId, Signal.isOutput,
        Bool.and_eq_true, Address.isProcessor, beq_iff_eq, beq_iff_eq]
      simp [Address.toBytes, Address.withId, Address.processor]

/-- The producer and stages before a cursor do not matter to one that stands on all outputs. -/
theorem Cursor.StandsOn.addressedAs_all {c : Cursor} {root : Signal} {p : Plan}
    {placed : List Placed} (h : c.StandsOn root p.outputs) (hroot : root.parts = root.channelParts)
    (hplan : p.Grounded root) (hplaced : StagesPlaced p.stages placed) :
    c.AddressedAs root p (placed.map Placed.id) (c.resolve placed).address.toBytes := by
  have hlength := hplaced.length_eq
  have hall : p.outputs.take placed.length = p.outputs :=
    List.take_of_length_le (by rw [Plan.outputs, List.length_map]; omega)
  have := addressedAs (i := placed.length) (hall.symm ▸ h) hroot hplan hplaced
  rwa [List.take_length] at this

/-! ## Routes

A route has its ids in the order in which the board gave them out, which is that of the plan.  So
the four lists of a plan are compared with the four lists of a route place by place.
-/

/-- The logs of a plan, each with the chunks that are logged of it. -/
def Plan.logged (p : Plan) : List (Cursor × UInt8 × UInt8) :=
  p.logs.flatMap fun c => c.signal.logChunks.map fun chunk => (c, chunk)

/-- The reactions of a plan, each with the commands that are to be run. -/
def Plan.reacting (p : Plan) : List (Cursor × Command) :=
  p.reactions.flatMap fun r => r.commands.map fun command => (r.source, command)

/-- What the board `b` has stored for a route, and the streams `streams` that were entered for it,
are addressed to what the cursors of its plan stand on. -/
structure Route.Addressed (r : Route) (root : Signal) (p : Plan) (b : SimulatedBoard)
    (streams : List StreamEntry) : Prop where
  stages : List.Forall₂ (fun stage id => ∃ row, b.processors.find? id = some row ∧
    stage.source.AddressedAs root p r.processors (row.source.take 3)) p.stages r.processors
  logs : List.Forall₂ (fun log id => ∃ row, b.loggers.find? id = some row ∧
    log.1.AddressedAs root p r.processors (row.take 3)) p.logged r.loggers
  /-- The events of reactions come before those that feed operands. -/
  reactions : List.Forall₂ (fun reaction id => ∃ row, b.events.find? id = some row ∧
    reaction.1.AddressedAs root p r.processors (row.entry.take 3)) p.reacting
    (r.events.take p.reacting.length)
  streams : List.Forall₂ (fun c e => e.route = r.id ∧
    c.AddressedAs root p r.processors e.signal.address.toBytes) p.streams streams

theorem Plan.Met.logged_eq {p : Plan} {made : Creations} {loggers : List (List UInt8)}
    (h : p.Met made loggers) :
    (p.logged.map fun log => (log.1.resolve made.placed).logRow log.2) =
      made.loggers.map Prod.snd := by
  rw [h.logs.contents, Plan.logged, List.map_flatMap]
  refine List.flatMap_congr fun c _ => ?_
  rw [List.map_map, Signal.logRows, Cursor.logChunks_resolve]
  rfl

theorem Plan.reactionRows_eq (p : Plan) (placed : List Placed) :
    (p.reacting.map fun reaction => (reaction.1.resolve placed).reactionRow reaction.2) =
      reactionRows p.reactions placed := by
  rw [Plan.reacting, List.map_flatMap, reactionRows]
  refine List.flatMap_congr fun r _ => ?_
  rw [List.map_map]
  rfl

/-- What was created for a plan is addressed as the plan says. -/
theorem Plan.Met.addressed {p : Plan} {made : Creations} {loggers : List (List UInt8)}
    (h : p.Met made loggers) {root : Signal} (hplan : p.Grounded root)
    (hroot : root.parts = root.channelParts) {b now : SimulatedBoard} {commands : List Bytes}
    (hgrown : b.Grown commands made now) {r : Route} {g g' : Graph} {catalog : Catalog}
    {route : RouteId} (henter : (r, g') = g.enter catalog route p made.placed loggers
      (made.events.map Prod.fst)) :
    ∃ news, g'.streams = g.streams ++ news ∧ r.Addressed root p now news := by
  have hr := congrArg Prod.fst henter
  have hg := congrArg Prod.snd henter
  have hprocessors : r.processors = made.placed.map Placed.id := congrArg Route.processors hr
  have hloggers : r.loggers = made.loggers.map Prod.fst := by
    rw [h.logs.ids]
    exact congrArg Route.loggers hr
  have hevents : r.events = made.events.map Prod.fst := congrArg Route.events hr
  have hid : r.id = route := congrArg Route.id hr
  obtain ⟨news, hnews, hsignals, hroutes⟩ :=
    g.streams_enter route catalog p made.placed loggers (made.events.map Prod.fst)
  refine ⟨news, (congrArg Graph.streams hg).trans hnews, ?_, ?_, ?_, ?_⟩ <;> rw [hprocessors]
  · rw [List.forall₂_map_right_iff, List.forall₂_iff_get]
    refine ⟨h.stages.length_eq.symm, fun i hi hi' => ?_⟩
    have hstage : p.stages[i]? = some (p.stages.get ⟨i, hi⟩) := List.getElem?_eq_getElem hi
    obtain ⟨q, hq, hsource⟩ := h.stages.getElem? hstage
    obtain rfl : made.placed.get ⟨i, hi'⟩ = q := by
      rwa [List.getElem?_eq_getElem hi', Option.some.injEq] at hq
    refine ⟨_, hgrown.processors.find?_of_mem
      (List.mem_map_of_mem (List.get_mem made.placed ⟨i, hi'⟩)), ?_⟩
    have := (hplan.sources i _ hstage).addressedAs hroot hplan h.stages
    rwa [← hsource] at this
  · rw [hloggers, List.forall₂_map_right_iff]
    refine forall₂_of_map_eq h.logged_eq fun log hlog row hrow heq => ?_
    refine ⟨_, hgrown.loggers.find?_of_mem hrow, ?_⟩
    obtain ⟨c, hc, hpair⟩ := List.mem_flatMap.1 hlog
    obtain ⟨chunk, -, rfl⟩ := List.mem_map.1 hpair
    rw [← heq]
    exact (hplan.logs c hc).addressedAs_all hroot hplan h.stages
  · rw [hevents, ← List.map_take, List.forall₂_map_right_iff]
    obtain ⟨fed, hfed⟩ := h.reactions
    have hrows : (p.reacting.map fun reaction =>
        (reaction.1.resolve made.placed).reactionRow reaction.2) =
          (made.events.take p.reacting.length).map Prod.snd := by
      rw [List.map_take, ← hfed, ← p.reactionRows_eq, List.take_left' (List.length_map _)]
    refine forall₂_of_map_eq hrows fun reaction hreaction row hrow heq => ?_
    refine ⟨_, hgrown.events.find?_of_mem (List.mem_of_mem_take hrow), ?_⟩
    obtain ⟨r', hr', hpair⟩ := List.mem_flatMap.1 hreaction
    obtain ⟨command, -, rfl⟩ := List.mem_map.1 hpair
    rw [← heq]
    exact (hplan.reactions r' hr').addressedAs_all hroot hplan h.stages
  · refine forall₂_of_map_eq (g := StreamEntry.signal) hsignals.symm fun c hc e he heq => ?_
    refine ⟨(hroutes e he).trans hid.symm, ?_⟩
    rw [← heq]
    exact (hplan.streams c hc).addressedAs_all hroot hplan h.stages

/-! ## Hosts

The exception is stated as an equivalence for each cursor, so that it is known to be the only one.
-/

/-- The built-in sensors have no parts but channels. -/
theorem Catalog.parts_standard {name : String} {root : Signal}
    (h : standard.get? name = some root) : root.parts = root.channelParts := by
  obtain ⟨address, shape, kind, rfl, -⟩ := standard_cases (mem_of_get? h)
  rfl

/-- A plan that was drafted from a producer on is grounded there. -/
theorem Host.plan_grounded {host : Host} {producer : String} {steps : List Step} {p : Plan}
    (h : host.plan producer (fun c => Step.run c steps) = .ok p) :
    ∃ root, host.catalog.get? producer = some root ∧ p.Grounded root := by
  obtain ⟨root, hroot, rfl⟩ := plan_eq_ok h
  have hstart : host.draft.Grounded root ⟨root, none⟩ :=
    ⟨.empty root, List.forall_mem_nil _, Signal.Reaches.self⟩
  obtain ⟨next, hgrounded, -⟩ := Drafting.grounded_run hstart steps
  exact ⟨root, hroot, hgrounded.plan⟩

/-- **Every cursor is programmed at the output it stands on.**  A route that was built has its
processors, loggers, reactions and streams at the addresses that its plan asks for: that of the
producer, and those of the processors that the board put in the places of the stages. -/
theorem Host.buildRoute_addressed {host host' : Host} {b : SimulatedBoard} {producer : String}
    {steps : List Step} {r : Route} (hcatalog : host.catalog = .standard)
    (hwired : host.station.link.Wired b)
    (hbuild : buildRoute producer (fun c => Step.run c steps) host = (.ok r, host')) :
    ∃ root p now news, host.catalog.get? producer = some root ∧
      host.plan producer (fun c => Step.run c steps) = .ok p ∧ host'.station.link.Wired now ∧
      host'.station.graph.streams = host.station.graph.streams ++ news ∧
      r.Addressed root p now news := by
  cases hplan : host.plan producer (fun c => Step.run c steps) with
  | error fault =>
    rw [buildRoute, hplan] at hbuild
    cases hbuild
  | ok p =>
    obtain ⟨root, hroot, hgrounded⟩ := plan_grounded hplan
    obtain ⟨made, loggers, now, commands, hmet, hgrown, hnow, henter⟩ :=
      buildRoute_eq_ok hwired hplan hbuild
    have hparts := Catalog.parts_standard (hcatalog ▸ hroot)
    obtain ⟨news, hnews, haddressed⟩ := hmet.addressed hgrounded hparts hgrown henter
    exact ⟨root, p, now, news, hroot, rfl, hnow, hnews, haddressed⟩

/-- The second channel of an acceleration, delayed, with a reaction to it and a stream of it. -/
def delayedChannel : List Step :=
  [.split, .index 1, .delay 4, .react [⟨Module.timer, 1, [0]⟩], .stream, .log]

/-- It is built on a fresh board, and the processor, the event, the logger and the stream are where
they belong. -/
theorem Host.buildRoute_addressed_delayedChannel :
    ∃ r host root p now news,
      buildRoute "acceleration" (fun c => Step.run c delayedChannel) Session.fresh.host =
        (.ok r, host) ∧
      p.streams.map Cursor.stage = [some 0] ∧ r.Addressed root p now news := by
  have hok : (buildRoute "acceleration" (fun c => Step.run c delayedChannel)
      Session.fresh.host).1.toOption.isSome = true := by decide +kernel
  have hstreams : ((Session.fresh.host.plan "acceleration" fun c =>
      Step.run c delayedChannel).toOption.map fun p => p.streams.map Cursor.stage) =
        some [some 0] := by decide +kernel
  rcases hbuild : buildRoute "acceleration" (fun c => Step.run c delayedChannel)
    Session.fresh.host with ⟨fault | r, host⟩
  · rw [hbuild] at hok
    cases hok
  · obtain ⟨b, hb, -⟩ := Session.fresh_begins.board
    obtain ⟨root, p, now, news, -, hplan, -, -, haddressed⟩ :=
      buildRoute_addressed rfl hb hbuild
    rw [hplan] at hstreams
    exact ⟨r, host, root, p, now, news, rfl, Option.some.inj hstreams, haddressed⟩

/-- The temperature behind a count, logged without the count. -/
def unwrapped : List Step := [.account .count, .split, .index 1, .log]

/-- **A logger of the data behind a count listens to the wrong address**: that of the temperature
sensor, with the id of the accounter. -/
theorem Host.wrapped_addressed_elsewhere :
    ∃ r host p now, buildRoute "temperature" (fun c => Step.run c unwrapped) Session.fresh.host =
        (.ok r, host) ∧
      Session.fresh.host.plan "temperature" (fun c => Step.run c unwrapped) = .ok p ∧
      host.station.link.transport.board = some now ∧
      p.logs.map Cursor.stage = [some 0] ∧ r.processors = [0] ∧ r.loggers = [0] ∧
      (now.loggers.find? 0).map (fun row => row.take 3) ≠ some (Address.processor 0).toBytes := by
  have hroute : (buildRoute "temperature" (fun c => Step.run c unwrapped)
      Session.fresh.host).1.toOption.map (fun r => (r.processors, r.loggers)) = some ([0], [0]) := by
    decide +kernel
  have hboard : (buildRoute "temperature" (fun c => Step.run c unwrapped)
      Session.fresh.host).2.station.link.transport.board.map
        (fun now => (now.loggers.find? 0).map fun row => row.take 3) =
      some (some [Module.temperature, 0x01, 0x00]) := by
    decide +kernel
  have hstage : (Session.fresh.host.plan "temperature" fun c =>
      Step.run c unwrapped).toOption.map (fun p => p.logs.map Cursor.stage) = some [some 0] := by
    decide +kernel
  cases hplan : Session.fresh.host.plan "temperature" fun c => Step.run c unwrapped with
  | error fault =>
    rw [hplan] at hstage
    cases hstage
  | ok p =>
    rcases hbuild : buildRoute "temperature" (fun c => Step.run c unwrapped)
      Session.fresh.host with ⟨fault | r, host⟩ <;> rw [hbuild] at hroute hboard
    · cases hroute
    · rw [hplan] at hstage
      obtain ⟨hprocessors, hloggers⟩ := Prod.mk.inj (Option.some.inj hroute)
      obtain ⟨now, hnow, hrow⟩ := Option.map_eq_some_iff.1 hboard
      refine ⟨r, host, p, now, rfl, rfl, hnow, Option.some.inj hstage, hprocessors, hloggers, ?_⟩
      rw [hrow]
      decide

end SignalRoute
