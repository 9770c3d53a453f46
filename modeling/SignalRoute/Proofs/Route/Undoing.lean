import SignalRoute.Proofs.Graph.Names
import SignalRoute.Proofs.Route.Sync

/-!
# Forgetting what was just entered

If a graph is in step with its board then a route that is entered and forgotten at once leaves no
trace.  Each table has its own reason:

* Processors and events were given ids that were free, so that erasing these gives back the tables
  (`Graph.InSync.processors_forget_enter`, `Graph.InSync.events_forget_enter`).
* A consumer is dropped with any of its loggers.  So none may be without loggers, and none that was
  there may own one of the new ones (`Graph.InSync.loggers_forget_enter`).
* Streams are dropped by the number of their route, which must be new
  (`Graph.streams_forget_enter`).
* Names are dropped with their processors.  What entering overwrites of them cannot come back, so
  the names of the stages must be new as well (`Graph.InSync.names_forget_enter`).

`Graph.InSync.clearedBoard_enter` says the same of the board.

Of the mailboxes nothing is undone: numbers of mailboxes are not used twice, and a subscriber may
still want to read what was delivered.
-/

set_option autoImplicit false

namespace SignalRoute

variable {g g' : Graph} {b now : SimulatedBoard} {commands : List Bytes} {made : Creations}
  {p : Plan} {loggers : List (List UInt8)} {catalog : Catalog} {route : RouteId} {r : Route}

/-- Only the stages of a route put names into the graph. -/
theorem Graph.names_of_enter {placed : List Placed} {events : List UInt8}
    (henter : (r, g') = g.enter catalog route p placed loggers events) :
    g'.names = (g.enterStages route (p.stages.zip placed)).names := by
  rw [← names_enter g route catalog p placed loggers events, ← henter]

namespace Graph.InSync

theorem processors_forget_enter (h : g.InSync b) (hgrown : b.Grown commands made now)
    (hmet : p.Met made loggers)
    (henter : (r, g') = g.enter catalog route p made.placed loggers (made.events.map Prod.fst)) :
    (g'.forget r).2.processors = g.processors := by
  obtain rfl : r = _ := congrArg Prod.fst henter
  obtain rfl : g' = _ := congrArg Prod.snd henter
  have hprocessors := h.allocated_processors hgrown hmet catalog route (made.events.map Prod.fst)
  have hids : (made.placed.map Placed.row).map Prod.fst = made.placed.map Placed.id := by
    rw [List.map_map]
    rfl
  have hundone := hprocessors.foldl_erase
  rw [hmet.entry_ids, hids] at hundone
  rw [processors_forget]
  exact hundone

theorem events_forget_enter (h : g.InSync b) (hgrown : b.Grown commands made now)
    (henter : (r, g') = g.enter catalog route p made.placed loggers (made.events.map Prod.fst)) :
    (g'.forget r).2.events = g.events := by
  obtain rfl : r = _ := congrArg Prod.fst henter
  obtain rfl : g' = _ := congrArg Prod.snd henter
  have hevents : IdTable.Allocated tableSize g.events _ (g.enter catalog route p made.placed
    loggers (made.events.map Prod.fst)).2.events := h.allocated_events hgrown catalog route
  have hids : ((made.events.map Prod.fst).map fun id => (id, route)).map Prod.fst =
      made.events.map Prod.fst := by
    rw [List.map_map]
    exact List.map_id _
  have hundone := hevents.foldl_erase
  rw [hids] at hundone
  rw [events_forget]
  exact hundone

theorem loggers_forget_enter (h : g.InSync b) (hgrown : b.Grown commands made now)
    (hmet : p.Met made loggers)
    (henter : (r, g') = g.enter catalog route p made.placed loggers (made.events.map Prod.fst))
    (hlogged : ∀ ids ∈ loggers, ids ≠ []) : (g'.forget r).2.loggers = g.loggers := by
  obtain rfl : r = _ := congrArg Prod.fst henter
  obtain rfl : g' = _ := congrArg Prod.snd henter
  obtain ⟨news, hnews, hids, -⟩ :=
    g.loggers_enter route catalog p made.placed loggers (made.events.map Prod.fst)
      hmet.length_loggers
  have hroute : (g.enter catalog route p made.placed loggers
      (made.events.map Prod.fst)).1.loggers = loggers.flatten := rfl
  rw [loggers_forget, hnews, hroute, List.filter_append]
  have hold : g.loggers.filter (fun e => loggers.flatten.all fun id => !e.merge.contains id) =
      g.loggers := by
    rw [List.filter_eq_self]
    intro e he
    rw [List.all_eq_true]
    intro id hid
    rw [MergeQueue.contains, Bool.not_eq_true', ← Bool.not_eq_true, List.contains_iff_mem]
    intro hown
    -- an id that the board gave to the route was free, so no older consumer has it
    have hfree := hgrown.loggers.not_contains (hmet.logs.ids.symm ▸ hid)
    rw [IdTable.contains_eq_false_iff] at hfree
    exact hfree (h.loggers.subset (List.mem_flatMap_of_mem he hown))
  have hnew : news.filter (fun e => loggers.flatten.all fun id => !e.merge.contains id) = [] := by
    rw [List.filter_eq_nil_iff]
    intro e he hall
    have hmem : e.ids ∈ loggers := hids ▸ List.mem_map_of_mem he
    obtain ⟨id, hid⟩ := List.exists_mem_of_ne_nil _ (hlogged _ hmem)
    have hnot := List.all_eq_true.1 hall id (List.mem_flatten_of_mem hmem hid)
    rw [MergeQueue.contains, Bool.not_eq_true', ← Bool.not_eq_true, List.contains_iff_mem] at hnot
    exact hnot hid
  rw [hold, hnew, List.append_nil]

/-- A processor of the route has the name of its stage. -/
theorem nameOf?_enter (h : g.InSync b) (hgrown : b.Grown commands made now)
    (hmet : p.Met made loggers)
    (henter : (r, g') = g.enter catalog route p made.placed loggers (made.events.map Prod.fst)) :
    ∀ s ∈ p.stages.zip made.placed, g'.nameOf? s.2.id = s.1.name := by
  obtain rfl : r = _ := congrArg Prod.fst henter
  obtain rfl : g' = _ := congrArg Prod.snd henter
  intro s hs
  have hprocessors := h.allocated_processors hgrown hmet catalog route (made.events.map Prod.fst)
  have hfound := hprocessors.find?_of_mem (List.mem_map_of_mem hs)
  rw [nameOf?, processor?, hfound]
  rfl

/-- The processors of the route have the names of its stages, one by one. -/
theorem map_nameOf?_enter (h : g.InSync b) (hgrown : b.Grown commands made now)
    (hmet : p.Met made loggers)
    (henter : (r, g') = g.enter catalog route p made.placed loggers (made.events.map Prod.fst)) :
    r.processors.map g'.nameOf? = p.stages.map PlannedStage.name := by
  have hroute : r.processors = made.placed.map Placed.id :=
    congrArg (fun x => x.1.processors) henter
  have hlength := hmet.stages.length_eq
  have hplaced := List.map_snd_zip (Nat.le_of_eq hlength)
  have hstages := List.map_fst_zip (Nat.le_of_eq hlength.symm)
  calc r.processors.map g'.nameOf?
      = (p.stages.zip made.placed).map fun s => g'.nameOf? s.2.id := by
        conv_lhs => rw [hroute, ← hplaced, List.map_map, List.map_map]
        rfl
    _ = (p.stages.zip made.placed).map fun s => s.1.name :=
        List.map_congr_left (h.nameOf?_enter hgrown hmet henter)
    _ = p.stages.map PlannedStage.name := by
        conv_rhs => rw [← hstages, List.map_map]
        rfl

theorem names_forget_enter (h : g.InSync b) (hgrown : b.Grown commands made now)
    (hmet : p.Met made loggers)
    (henter : (r, g') = g.enter catalog route p made.placed loggers (made.events.map Prod.fst))
    (hnamed : g.Named)
    (hfree : ∀ stage ∈ p.stages, ∀ name, stage.name = some name → ∀ id, g.nameOf? id ≠ some name) :
    (g'.forget r).2.names = g.names := by
  have hsame (x : String × UInt8) : (p.stages.map PlannedStage.name).contains (some x.1) =
      (p.stages.filterMap PlannedStage.name).contains x.1 := by
    rw [Bool.eq_iff_iff, List.contains_iff_mem, List.contains_iff_mem, List.mem_map,
      List.mem_filterMap]
  rw [names_forget, h.map_nameOf?_enter hgrown hmet henter, names_of_enter henter]
  simp only [hsame]
  rw [names_enterStages _ _ fun s hs name hname =>
    List.mem_filterMap.2 ⟨s.1, (List.of_mem_zip hs).1, hname⟩]
  -- what is left to drop are older names that a stage took over, and there are none
  rw [List.filter_eq_self]
  intro x hx
  rw [Bool.not_eq_true', ← Bool.not_eq_true, List.contains_iff_mem]
  intro hmem
  obtain ⟨stage, hstage, hname⟩ := List.mem_filterMap.1 hmem
  obtain ⟨id, hid⟩ := hnamed x hx
  exact hfree stage hstage x.1 hname id hid

/-- Entering a route keeps names leading somewhere. -/
theorem named_enter (h : g.InSync b) (hgrown : b.Grown commands made now)
    (hmet : p.Met made loggers)
    (henter : (r, g') = g.enter catalog route p made.placed loggers (made.events.map Prod.fst))
    (hnamed : g.Named) : g'.Named := by
  intro x hx
  rw [names_of_enter henter] at hx
  rcases mem_names_enterStages _ _ hx with hold | ⟨s, hs, hname⟩
  · obtain ⟨id, hid⟩ := hnamed x hold
    have hprocessors := h.allocated_processors hgrown hmet catalog route (made.events.map Prod.fst)
    have hthere : g.processors.contains id = true := by
      rw [IdTable.contains, Option.isSome_iff_exists]
      obtain ⟨e, he, -⟩ := Option.bind_eq_some_iff.1 hid
      exact ⟨e, he⟩
    have hnot := fun hnew => Bool.false_ne_true ((hprocessors.not_contains hnew).symm.trans hthere)
    refine ⟨id, ?_⟩
    rw [nameOf?, processor?, show g' = _ from congrArg Prod.snd henter,
      hprocessors.find?_of_not_mem hnot]
    exact hid
  · exact ⟨s.2.id, (h.nameOf?_enter hgrown hmet henter s hs).trans hname⟩

/-- On the board, too, no trace is left. -/
theorem clearedBoard_enter (h : g.InSync b) (hgrown : b.Grown commands made now)
    (hmet : p.Met made loggers)
    (henter : (r, g') = g.enter catalog route p made.placed loggers (made.events.map Prod.fst)) :
    (g'.clearedBoard now r).processors = b.processors ∧
      (g'.clearedBoard now r).loggers = b.loggers ∧
      (g'.clearedBoard now r).events = b.events := by
  have hsync : g'.InSync now := by
    rw [show g' = _ from congrArg Prod.snd henter]
    exact h.enter hgrown hmet catalog route
  have hcleared := hgrown.cleared
  have hprocessors : r.processors = made.placed.map Placed.id :=
    congrArg (fun x => x.1.processors) henter
  have hloggers : r.loggers = made.loggers.map Prod.fst :=
    (congrArg (fun x => x.1.loggers) henter).trans hmet.logs.ids.symm
  have hevents : r.events = made.events.map Prod.fst := congrArg (fun x => x.1.events) henter
  have hknown : r.loggers.filter g'.hasLogger = r.loggers := by
    rw [List.filter_eq_self]
    intro id hid
    refine hsync.hasLogger (hgrown.loggers.ids_perm.mem_iff.2 (List.mem_append_right _ ?_))
    exact hloggers ▸ hid
  refine ⟨?_, ?_, ?_⟩
  · show (g'.processors.found r.processors).foldl IdTable.erase now.processors = _
    rw [IdTable.foldl_erase_found hsync.processors, hprocessors]
    exact hcleared.1
  · show (r.loggers.filter g'.hasLogger).foldl IdTable.erase now.loggers = _
    rw [hknown, hloggers]
    exact hcleared.2.1
  · show (g'.events.found r.events).foldl IdTable.erase now.events = _
    rw [IdTable.foldl_erase_found hsync.events, hevents]
    exact hcleared.2.2

end Graph.InSync

/-- Streams are dropped by their route. -/
theorem Graph.streams_forget_enter {placed : List Placed} {events : List UInt8}
    (henter : (r, g') = g.enter catalog route p placed loggers events)
    (hfresh : ∀ e ∈ g.streams, e.route ≠ route) : (g'.forget r).2.streams = g.streams := by
  obtain rfl : r = _ := congrArg Prod.fst henter
  obtain rfl : g' = _ := congrArg Prod.snd henter
  obtain ⟨news, hnews, -, hroutes⟩ := g.streams_enter route catalog p placed loggers events
  have hid : (g.enter catalog route p placed loggers events).1.id = route := rfl
  rw [streams_forget, hnews, hid, List.filter_append]
  have hold : g.streams.filter (fun e => e.route != route) = g.streams :=
    List.filter_eq_self.2 fun e he => bne_iff_ne.2 (hfresh e he)
  have hnew : news.filter (fun e => e.route != route) = [] :=
    List.filter_eq_nil_iff.2 fun e he => by simp [hroutes e he]
  rw [hold, hnew, List.append_nil]

/-- A signal with data is logged by some logger. -/
theorem Signal.logChunks_ne_nil {s : Signal} (h : 0 < s.shape.unitLength.toNat) :
    s.logChunks ≠ [] := by
  rw [logChunks]
  obtain ⟨n, hn⟩ := Nat.exists_eq_add_of_lt h
  rw [hn, SignalRoute.logChunks, if_pos (by omega)]
  exact List.cons_ne_nil _ _

/-- The loggers of logs that have chunks are some. -/
theorem Plan.Met.loggers_ne_nil (h : p.Met made loggers)
    (hlogs : ∀ c ∈ p.logs, c.signal.logChunks ≠ []) : ∀ ids ∈ loggers, ids ≠ [] := by
  rintro ids hids rfl
  have hzero : 0 ∈ loggers.map List.length := List.mem_map_of_mem hids
  rw [h.logs.lengths] at hzero
  obtain ⟨c, hc, hlength⟩ := List.mem_map.1 hzero
  exact hlogs c hc (List.length_eq_zero_iff.1 hlength)

end SignalRoute
