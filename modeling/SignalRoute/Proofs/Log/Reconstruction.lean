import SignalRoute.Proofs.Host.Session
import SignalRoute.Proofs.Lists
import SignalRoute.Proofs.Log.Grouping
import SignalRoute.Proofs.Log.Rebuild

/-!
# Logs are found again

A host builds a linear route that ends in a log.  Another host, which knows nothing but the kind of
board and the built-in sensors, looks at the board: it finds one log, with the same loggers, the
same identifier and the same layout (`adoptLogs_linear`).

What is logged goes into the table of loggers chunk by chunk and comes back as one range
(`readLoggers_logged`, `groupLoggers_chunks`); the signal in that range is recovered along the chain
of stages (`Chain.recovers`).

The second host shares nothing with the first one but the board, so everything that it says about
the log has gone over the wire: the chain of processors as configurations and byte ranges, the log
as byte ranges, and names not at all.
-/

set_option autoImplicit false

namespace SignalRoute

/-! ## What the second host sees -/

section

variable {now : SimulatedBoard} {l : Link} {g : Graph} {pairs : List (UInt8 × UInt8 × UInt8)}
  {s : Signal}

/-- Where only one signal is logged, its loggers are found and nothing else. -/
theorem readLoggers_logged (h : l.Reads now) (hg : ∀ id, g.hasLogger id = false)
    (hrows : IdTable.Allocated tableSize .empty (pairs.map fun e => (e.1, s.logRow e.2))
      now.loggers)
    (hchunks : pairs.map Prod.snd = s.logChunks) (hs : s.shape.Tame) :
    ∃ l', readLoggers g loggerIds l = (.ok (pairs.map fun e => s.loggerSource e.1 e.2), l') ∧
      l'.Reads now := by
  have hlength : (pairs.map fun e => (e.1, s.logRow e.2)).length = pairs.length :=
    List.length_map _
  have hids := hrows.ids_of_empty rfl (by decide)
  have hfew : pairs.length ≤ maxLoggers :=
    hlength ▸ Nat.le_trans hrows.length_le (IdTable.length_freeIds_le _ _)
  have hnext := hrows.find?_next_of_empty rfl (by decide)
    (Nat.lt_of_le_of_lt (hlength ▸ hfew) (by decide))
  rw [hlength] at hids hnext
  rw [List.map_map] at hids
  -- what was handed out comes first among the ids, and the table is empty behind it
  let rest : List UInt8 :=
    (List.range' pairs.length (maxLoggers - pairs.length)).map UInt8.ofNat
  have hall : loggerIds = pairs.map Prod.fst ++ rest := by
    have hfirst : pairs.map Prod.fst = (List.range pairs.length).map UInt8.ofNat := hids
    have hsplit : List.range' 0 pairs.length ++
        List.range' (0 + pairs.length) (maxLoggers - pairs.length) =
          List.range' 0 (pairs.length + (maxLoggers - pairs.length)) := List.range'_append_1
    rw [Nat.zero_add, Nat.add_sub_cancel' hfew] at hsplit
    rw [hfirst, ← List.map_append, List.range_eq_range', hsplit, loggerIds, List.range_eq_range']
  rw [hall]
  refine readLoggers_eq hg s h ?_ ?_ ?_
  · intro e he
    exact hrows.find?_of_mem (List.mem_map_of_mem he)
  · intro e he
    exact s.namesChunk_of_mem hs (hchunks ▸ List.mem_map_of_mem he)
  · intro id hid
    cases hmore : maxLoggers - pairs.length with
    | zero =>
      simp [rest, hmore] at hid
    | succ n =>
      simp only [rest, hmore, List.range'_succ, List.map_cons, List.head?_cons,
        Option.mem_some_iff] at hid
      exact hid ▸ hnext

/-- A signal that is logged alone, and that can be rebuilt, is what a survey comes up with. -/
theorem adoptLoggers_logged {d : Device} {catalog : Catalog} (h : l.Reads now)
    (hrows : IdTable.Allocated tableSize .empty (pairs.map fun e => (e.1, s.logRow e.2))
      now.loggers)
    (hchunks : pairs.map Prod.snd = s.logChunks) (hs : s.shape.Tame)
    (hrecovers : Rebuilding.Recovers d catalog maxChain now s) :
    ∃ found station, adoptLoggers d catalog ⟨l, .empty⟩ = (.ok [found], station) ∧
      found.logIds = pairs.map Prod.fst ∧
      found.identifier = s.identifierOr catalog s.address ∧
      found.signal.shape = (s.atOffset 0).shape ∧ found.signal.kind = (s.atOffset 0).kind := by
  obtain ⟨l', hread, hreads⟩ := readLoggers_logged (g := .empty) h (fun _ => rfl) hrows hchunks hs
  obtain ⟨r, survey, hr, -, hagrees⟩ := hrecovers ⟨l', .empty⟩ hreads rfl
  have hunit : 0 < s.shape.unitLength.toNat := hs.toNat_unitLength ▸ hs.bytes_pos
  let range : LoggedRange := ⟨s.address, s.shape.offset, s.shape.unitLength, pairs.map Prod.fst⟩
  have hadopt : adoptAll d catalog [range] ⟨l', .empty⟩ .empty
      = (.ok [(Graph.empty.adopt catalog range r).1], survey,
        (Graph.empty.adopt catalog range r).2) := by
    have hlogged : Rebuilding.logged d catalog range ⟨l', .empty⟩ = (.ok r, survey) := hr
    rw [adoptAll, hlogged]
    rfl
  have hsurvey : ∃ station, adoptLoggers d catalog ⟨l, .empty⟩
      = (.ok [(Graph.empty.adopt catalog range r).1], station) := by
    rw [adoptLoggers]
    simp only [hread, groupLoggers_chunks hunit hchunks]
    rw [show adoptAll d catalog [range] ⟨l', .empty⟩ .empty = _ from hadopt]
    exact ⟨_, rfl⟩
  obtain ⟨station, hstation⟩ := hsurvey
  refine ⟨_, station, hstation, rfl, (hagrees.identifierOr_eq s.address).symm, ?_, ?_⟩
  · show (r.atOffset 0).shape = _
    rw [r.shape_atOffset, s.shape_atOffset, hagrees.shape]
  · show (r.atOffset 0).kind = _
    rw [r.kind_atOffset, s.kind_atOffset, hagrees.kind]

end

/-! ## What the first host knows -/

/-- Entering a plan with one log gives one subscription and one consumer. -/
theorem Graph.enter_logged (g : Graph) (catalog : Catalog) (route : RouteId)
    (stages : List PlannedStage) (c : Cursor) (placed : List Placed) (ids events : List UInt8) :
    ∃ mailbox,
      (g.enter catalog route { Plan.empty with stages := stages, logs := [c] } placed [ids]
        events).1.loggers = ids ∧
      (g.enter catalog route { Plan.empty with stages := stages, logs := [c] } placed [ids]
        events).1.logs =
          [⟨(c.resolve placed).identifierOr catalog (c.resolve placed).address, mailbox⟩] ∧
      (g.enter catalog route { Plan.empty with stages := stages, logs := [c] } placed [ids]
        events).2.loggers =
          g.loggers ++ [⟨route, (c.resolve placed).atOffset 0, .ofIds ids, mailbox⟩] := by
  refine ⟨(g.enterStages route (stages.zip placed)).mail.next, List.append_nil _, rfl, ?_⟩
  rw [enter, (tables_enterEvents _ _ _).2]
  show (g.enterStages route (stages.zip placed)).loggers ++ [_] = _
  rw [loggers_enterStages]
  rfl

/-- A plan with one log is given one list of loggers: an id for each chunk. -/
theorem Plan.Met.exists_pairs {p : Plan} {made : Creations} {loggers : List (List UInt8)}
    (h : p.Met made loggers) {c : Cursor} (hlogs : p.logs = [c]) :
    ∃ pairs : List (UInt8 × UInt8 × UInt8), loggers = [pairs.map Prod.fst] ∧
      made.loggers = pairs.map (fun e => (e.1, (c.resolve made.placed).logRow e.2)) ∧
      pairs.map Prod.snd = (c.resolve made.placed).logChunks := by
  have hcontents : made.loggers.map Prod.snd =
      (c.resolve made.placed).logChunks.map (c.resolve made.placed).logRow := by
    rw [h.logs.contents, hlogs, List.flatMap_singleton, Signal.logRows]
  obtain ⟨pairs, hpairs, hchunks⟩ := exists_pairs_of_map_snd hcontents
  have hone : loggers.length = 1 := by rw [h.length_loggers, hlogs]; rfl
  obtain ⟨ids, rfl⟩ := List.length_eq_one_iff.1 hone
  have hids := h.logs.ids
  rw [List.flatten_singleton, hpairs, List.map_map] at hids
  exact ⟨pairs, by rw [← hids]; rfl, hpairs, hchunks⟩

/-! ## Both together -/

/-- A log that was found is the one that was subscribed to. -/
structure AnonymousRoute.Matches (found : AnonymousRoute) (r : Route) (sub : Subscription)
    (entry : LoggerEntry) : Prop where
  logIds : found.logIds = r.loggers
  identifier : found.identifier = sub.identifier
  shape : found.signal.shape = entry.signal.shape
  kind : found.signal.kind = entry.signal.kind

/-- A host without a graph, with the built-in sensors, at a board with the tables of `now`. -/
structure Host.Arrives (h : Host) (d : Device) (now : SimulatedBoard) : Prop where
  graph : h.station.graph = .empty
  catalog : h.catalog = .standard
  device : h.settings.device = d
  reads : h.station.link.Reads now

/-- **The log of a linear route is found again.**  A host that arrives at the board after the route
was built finds one log: that of the route, with its loggers and its identifier, and with a signal
of the same shape and kind as that of its consumer. -/
theorem adoptLogs_linear {host host' second : Host} {b now : SimulatedBoard} {producer : String}
    {hops : List Hop} {root : Signal} {c : Cursor} {draft : Draft} {r : Route}
    (hcatalog : host.catalog = .standard) (hwired : host.station.link.Wired b)
    (hloggers : b.loggers = .empty)
    (hroot : host.catalog.get? producer = some root)
    (hdraft : Step.run ⟨root, none⟩ (Hop.logged hops) host.draft = (.ok c, draft))
    (hplain : Plain draft.plan.stages draft.branches)
    (hbuild : Host.buildRoute producer (fun c => Step.run c (Hop.logged hops)) host
      = (.ok r, host'))
    (hnow : host'.station.link.transport.board = some now)
    (hsecond : second.Arrives host.settings.device now) :
    ∃ found second' sub entry, Host.adoptLogs second = (.ok [found], second') ∧
      r.logs = [sub] ∧
      host'.station.graph.loggers = host.station.graph.loggers ++ [entry] ∧
      found.Matches r sub entry := by
  have hfollows : host.draft.Follows root ⟨root, none⟩ := ⟨.root, rfl, rfl, rfl, rfl⟩
  obtain ⟨hchain, hplan⟩ := chain_of_run hfollows hdraft
  -- the route that was built is what the plan asks for
  have hplanned : host.plan producer (fun c => Step.run c (Hop.logged hops)) = .ok draft.plan := by
    rw [Host.plan, hroot]
    simp only [hdraft]
  obtain ⟨made, loggers, now', commands, hmet, hgrown, hwired', henter⟩ :=
    Host.buildRoute_eq_ok hwired hplanned hbuild
  obtain rfl : now' = now := Option.some.inj (hwired'.board.symm.trans hnow)
  have hlogs : draft.plan.logs = [c] := by rw [hplan]
  obtain ⟨pairs, rfl, hpairs, hchunks⟩ := hmet.exists_pairs hlogs
  obtain ⟨mailbox, hids, hsub, hentry⟩ := host.station.graph.enter_logged host.catalog
    host.nextRoute draft.plan.stages c made.placed (pairs.map Prod.fst)
    (made.events.map Prod.fst)
  rw [hplan] at henter
  rw [← henter] at hids hsub hentry
  -- the chain is no longer than the table, so the survey follows it to its end
  have hfew := Nat.le_trans hgrown.processors.length_le (IdTable.length_freeIds_le _ _)
  rw [List.length_map, hmet.stages.length_eq] at hfew
  have htame := Catalog.tame_standard (hcatalog ▸ hroot)
  have hrecovers : Rebuilding.Recovers host.settings.device .standard maxChain now'
      (c.resolve made.placed) :=
    hchain.recovers htame (fun t ht => Catalog.finds_standard (hcatalog ▸ hroot) ht) hplain
      hmet.stages (fun p hp => hgrown.processors.find?_of_mem (List.mem_map_of_mem hp)) hfew
      (.inl rfl)
  have hlogged := ((hchain.tame htame hplain).resolve made.placed).shape
  have hrows := hgrown.loggers
  rw [hloggers, hpairs] at hrows
  obtain ⟨found, station, hadopt, hlogIds, hidentifier, hshape, hkind⟩ :=
    adoptLoggers_logged hsecond.reads hrows hchunks hlogged hrecovers
  refine ⟨found, { second with station := station }, _, _, ?_, hsub, hentry,
    hlogIds.trans hids.symm, ?_, hshape, hkind⟩
  · have hstation : second.station = ⟨second.station.link, .empty⟩ := by rw [← hsecond.graph]
    rw [Host.adoptLogs, Host.onStation, hsecond.device, hsecond.catalog, hstation, hadopt]
  · rw [hidentifier, hcatalog]

/-- A host at rest with a fresh board. -/
def newcomer : Host := .atRest .standard (.toBoard (.start .standard)) 0

/-- The vertical acceleration, smoothed and summed up. -/
def smoothedSum : List Hop := [.stage (.lowPass 4) rfl, .channel 2, .stage .accumulate rfl]

/-- The log of a smoothed and summed up acceleration is found again. -/
theorem adoptLogs_linear_smoothedSum :
    ∃ r host' now, Host.buildRoute "acceleration" (fun c => Step.run c (Hop.logged smoothedSum))
        newcomer = (.ok r, host') ∧
      host'.station.link.transport.board = some now ∧
      ∃ found second', Host.adoptLogs (.atRest .standard (.toBoard now) 0)
          = (.ok [found], second') ∧ found.logIds = r.loggers := by
  let root : Signal := Catalog.triple Module.accelerometer 0x04 16384
  let drafted := Step.run ⟨root, none⟩ (Hop.logged smoothedSum) newcomer.draft
  let built :=
    Host.buildRoute "acceleration" (fun c => Step.run c (Hop.logged smoothedSum)) newcomer
  have hdrafts : (drafted.1.toOption.isSome &&
      drafted.2.branches.all (fun b => b.anchor.signal.kind.isVector) &&
      drafted.2.plan.stages.all fun s => s.source.signal.shape.unitLength.toNat ≤ 8) = true := by
    decide +kernel
  have hbuilds : (built.1.toOption.isSome &&
      built.2.station.link.transport.board.any fun b => b.connected) = true := by
    decide +kernel
  simp only [drafted, built, Bool.and_eq_true, List.all_eq_true, decide_eq_true_eq,
    Option.any_eq_true] at hdrafts hbuilds
  obtain ⟨⟨hok, hsplits⟩, hreads⟩ := hdrafts
  obtain ⟨hok', now, hnow, hlive⟩ := hbuilds
  rcases hdraft : Step.run ⟨root, none⟩ (Hop.logged smoothedSum) newcomer.draft with
    ⟨fault | c, draft⟩
  · rw [hdraft] at hok
    cases hok
  rcases hbuild : Host.buildRoute "acceleration"
    (fun c => Step.run c (Hop.logged smoothedSum)) newcomer with ⟨fault | r, host'⟩
  · rw [hbuild] at hok'
    cases hok'
  rw [hdraft] at hsplits hreads
  rw [hbuild] at hnow
  have hroom : 0 < Settings.standard.linkQueueCapacity.toNat := by decide
  have hwired : newcomer.station.link.Wired (.start .standard) :=
    ⟨rfl, rfl, rfl, hroom, rfl, rfl, rfl⟩
  have hsecond : (Host.atRest .standard (.toBoard now) 0).Arrives newcomer.settings.device now :=
    ⟨rfl, rfl, rfl, now, ⟨rfl, rfl, rfl, hroom, rfl, rfl, hlive⟩, rfl, rfl, rfl⟩
  obtain ⟨found, second', sub, entry, hadopt, -, -, hmatches⟩ :=
    adoptLogs_linear rfl hwired rfl rfl hdraft ⟨hsplits, hreads⟩ hbuild hnow hsecond
  exact ⟨r, host', now, rfl, hnow, found, second', hadopt, hmatches.logIds⟩

end SignalRoute
