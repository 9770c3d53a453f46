import SignalRoute.Proofs.Graph.Tables
import SignalRoute.Proofs.Route.Atomicity

/-!
# Graph and board in step

`Graph.InSync g b` says that the graph knows exactly what is on the board: the same processors with
the same configurations and inputs, the same loggers, the same events.  Realizing a plan keeps it,
whether it succeeds or not, and so does taking a route off the board.

Taking a route off removes its loggers one at a time, and the graph drops every consumer that owns
one of them.  For the two to agree, no consumer may own loggers of two routes; this is what
`Graph.Owns` adds, for the routes that are to be taken off.

The ids of processors and of events are the same lists on both sides.  Those of loggers are the same
up to their order, since a consumer keeps the ids of one log together, wherever these are in the
table.  The board finds the next free id in its own tables; that it is free in the graph as well is
what being in step is for.
-/

set_option autoImplicit false

namespace SignalRoute

/-- The graph knows exactly what is on the board. -/
structure Graph.InSync (g : Graph) (b : SimulatedBoard) : Prop where
  processors : g.processors.ids = b.processors.ids
  stored : ∀ id e, g.processors.find? id = some e → e.id = id ∧
    ∃ p, b.processors.find? id = some p ∧ p.config = e.processor.encode ∧
      p.source.take 3 = e.source.toBytes
  loggers : (g.loggers.flatMap LoggerEntry.ids).Perm b.loggers.ids
  events : g.events.ids = b.events.ids

/-- The loggers of the routes are on the board, no two routes share one, and no consumer owns some
of a route and others besides. -/
structure Graph.Owns (g : Graph) (b : SimulatedBoard) (routes : List Route) : Prop where
  whole : ∀ r ∈ routes, ∀ e ∈ g.loggers, e.ids ⊆ r.loggers ∨ e.ids.Disjoint r.loggers
  there : ∀ r ∈ routes, r.loggers ⊆ b.loggers.ids
  apart : routes.Pairwise fun r r' => r.loggers.Disjoint r'.loggers

/-- A station whose link is wired to `b`, refuses nothing, and whose graph is in step with it. -/
structure Station.InStep (s : Station) (b : SimulatedBoard) (routes : List Route) : Prop where
  wired : s.link.Wired b
  refuse : s.link.transport.refuse = 0
  sync : s.graph.InSync b
  owns : s.graph.Owns b routes

/-! ## After a realization -/

section

variable {g : Graph} {b now : SimulatedBoard} {commands : List Bytes} {made : Creations}
  {p : Plan} {loggers : List (List UInt8)} {routes : List Route}

theorem Plan.Met.length_loggers (h : p.Met made loggers) : loggers.length = p.logs.length := by
  have := congrArg List.length h.logs.lengths
  rwa [List.length_map, List.length_map] at this

/-- The entries of a route have the ids of its processors. -/
theorem Plan.Met.entry_ids (h : p.Met made loggers) (route : RouteId) :
    ((p.stages.zip made.placed).map fun s => (s.2.id, s.1.entry s.2 route)).map Prod.fst =
      (made.placed.map Placed.row).map Prod.fst := by
  have hzip := List.map_snd_zip (Nat.le_of_eq h.stages.length_eq)
  calc ((p.stages.zip made.placed).map fun s => (s.2.id, s.1.entry s.2 route)).map Prod.fst
      = ((p.stages.zip made.placed).map Prod.snd).map Placed.id := by
        rw [List.map_map, List.map_map]
        rfl
    _ = (made.placed.map Placed.row).map Prod.fst := by
        rw [hzip, List.map_map]
        rfl

/-- The processors of a new route get the ids in the graph that they get on the board. -/
theorem Graph.InSync.allocated_processors (h : g.InSync b) (hgrown : b.Grown commands made now)
    (hmet : p.Met made loggers) (catalog : Catalog) (route : RouteId) (events : List UInt8) :
    IdTable.Allocated tableSize g.processors
      ((p.stages.zip made.placed).map fun s => (s.2.id, s.1.entry s.2 route))
      (g.enter catalog route p made.placed loggers events).2.processors := by
  rw [Graph.processors_enter]
  exact hgrown.processors.transfer h.processors.symm (hmet.entry_ids route).symm

theorem Graph.InSync.allocated_events (h : g.InSync b) (hgrown : b.Grown commands made now)
    (catalog : Catalog) (route : RouteId) :
    IdTable.Allocated tableSize g.events ((made.events.map Prod.fst).map fun id => (id, route))
      (g.enter catalog route p made.placed loggers (made.events.map Prod.fst)).2.events := by
  rw [Graph.events_enter]
  refine hgrown.events.transfer h.events.symm ?_
  rw [List.map_map]
  exact (List.map_id _).symm

/-- Entering what was created keeps a graph in step with its board. -/
theorem Graph.InSync.enter (h : g.InSync b) (hgrown : b.Grown commands made now)
    (hmet : p.Met made loggers) (catalog : Catalog) (route : RouteId) :
    (g.enter catalog route p made.placed loggers (made.events.map Prod.fst)).2.InSync now := by
  have hprocessors := h.allocated_processors hgrown hmet catalog route (made.events.map Prod.fst)
  refine ⟨?_, ?_, ?_, ?_⟩
  · rw [Graph.processors_enter, hgrown.processors.eq_insertAll]
    exact IdTable.ids_insertAll_congr h.processors (hmet.entry_ids route)
  · intro id e he
    by_cases hnew : id ∈ ((p.stages.zip made.placed).map
        fun s => (s.2.id, s.1.entry s.2 route)).map Prod.fst
    · obtain ⟨x, hx, rfl⟩ := List.mem_map.1 hnew
      rw [hprocessors.find?_of_mem hx, Option.some.injEq] at he
      obtain ⟨s, hs, rfl⟩ := List.mem_map.1 hx
      subst he
      have hrow : s.2.row ∈ made.placed.map Placed.row :=
        List.mem_map_of_mem (List.of_mem_zip hs).2
      exact ⟨rfl, _, hgrown.processors.find?_of_mem hrow, rfl, rfl⟩
    · rw [hprocessors.find?_of_not_mem hnew] at he
      rw [hmet.entry_ids] at hnew
      rw [hgrown.processors.find?_of_not_mem hnew]
      exact h.stored id e he
  · obtain ⟨news, hnews, hids, -⟩ :=
      g.loggers_enter route catalog p made.placed loggers (made.events.map Prod.fst)
        hmet.length_loggers
    have hflat : news.flatMap LoggerEntry.ids = made.loggers.map Prod.fst := by
      rw [List.flatMap_def, hids, hmet.logs.ids]
    rw [hnews, List.flatMap_append, hflat]
    exact (h.loggers.append_right _).trans hgrown.loggers.ids_perm.symm
  · rw [Graph.events_enter, hgrown.events.eq_insertAll]
    refine IdTable.ids_insertAll_congr h.events ?_
    rw [List.map_map]
    exact List.map_id _

/-- The consumers of a new route own its loggers, which no other route has. -/
theorem Graph.Owns.enter (h : g.Owns b routes) (hsync : g.InSync b)
    (hgrown : b.Grown commands made now) (hmet : p.Met made loggers) (catalog : Catalog)
    (route : RouteId) :
    (g.enter catalog route p made.placed loggers (made.events.map Prod.fst)).2.Owns now
      ((g.enter catalog route p made.placed loggers (made.events.map Prod.fst)).1 :: routes) := by
  have hroute : (g.enter catalog route p made.placed loggers
      (made.events.map Prod.fst)).1.loggers = made.loggers.map Prod.fst := hmet.logs.ids.symm
  obtain ⟨news, hnews, hids, -⟩ :=
    g.loggers_enter route catalog p made.placed loggers (made.events.map Prod.fst)
      hmet.length_loggers
  have hfresh : ∀ id ∈ made.loggers.map Prod.fst, id ∉ b.loggers.ids := fun id hid =>
    (IdTable.contains_eq_false_iff _ _).1 (hgrown.loggers.not_contains hid)
  have hown : ∀ e ∈ news, e.ids ⊆ made.loggers.map Prod.fst := by
    intro e he id hid
    rw [hmet.logs.ids, ← hids]
    exact List.mem_flatten_of_mem (List.mem_map_of_mem he) hid
  have hknown : ∀ e ∈ g.loggers, e.ids ⊆ b.loggers.ids := fun e he id hid =>
    hsync.loggers.subset (List.mem_flatMap_of_mem he hid)
  have hnow : ∀ id, id ∈ now.loggers.ids ↔ id ∈ b.loggers.ids ∨ id ∈ made.loggers.map Prod.fst :=
    fun id => by rw [hgrown.loggers.ids_perm.mem_iff, List.mem_append]
  refine ⟨?_, ?_, ?_⟩
  · intro r hr e he
    rw [hnews] at he
    rcases List.mem_cons.1 hr with rfl | hr <;> rcases List.mem_append.1 he with he | he
    · rw [hroute]
      exact .inr fun id hid hid' => hfresh id hid' (hknown e he hid)
    · rw [hroute]
      exact .inl (hown e he)
    · exact h.whole r hr e he
    · exact .inr fun id hid hid' => hfresh id (hown e he hid) (h.there r hr hid')
  · intro r hr id hid
    rw [hnow]
    rcases List.mem_cons.1 hr with rfl | hr
    · exact .inr (hroute ▸ hid)
    · exact .inl (h.there r hr hid)
  · rw [List.pairwise_cons, hroute]
    exact ⟨fun r hr id hid hid' => hfresh id hid (h.there r hr hid'), h.apart⟩

end

section

variable {s s' : Station} {b : SimulatedBoard} {routes : List Route} {catalog : Catalog}
  {route : RouteId} {p : Plan}

/-- **A plan that was realized is in the graph as it is on the board.** -/
theorem Station.InStep.realize_ok (h : s.InStep b routes) {r : Route}
    (hr : realize catalog route p s = (.ok r, s')) : ∃ now, s'.InStep now (r :: routes) := by
  obtain ⟨made, loggers, now, commands, hmet, hgrown, hwired, hrefuse, henter⟩ :=
    realize_eq_ok h.wired hr
  obtain ⟨hroute, hgraph⟩ := Prod.mk.inj henter
  refine ⟨now, hwired, hrefuse.trans h.refuse, ?_, ?_⟩
  · rw [hgraph]
    exact h.sync.enter hgrown hmet catalog route
  · rw [hgraph, hroute]
    exact h.owns.enter h.sync hgrown hmet catalog route

theorem Graph.InSync.of_tables {g : Graph} {b b' : SimulatedBoard} (h : g.InSync b)
    (hprocessors : b'.processors = b.processors) (hloggers : b'.loggers = b.loggers)
    (hevents : b'.events = b.events) : g.InSync b' where
  processors := hprocessors ▸ h.processors
  stored := hprocessors ▸ h.stored
  loggers := hloggers ▸ h.loggers
  events := hevents ▸ h.events

theorem Graph.Owns.of_tables {g : Graph} {b b' : SimulatedBoard} (h : g.Owns b routes)
    (hloggers : b'.loggers = b.loggers) : g.Owns b' routes :=
  { h with there := hloggers ▸ h.there }

/-- A plan that failed has left no trace. -/
theorem Station.InStep.realize_error (h : s.InStep b routes) {fault : Fault}
    (hr : realize catalog route p s = (.error fault, s')) : ∃ now, s'.InStep now routes := by
  rw [realize] at hr
  split at hr
  · cases hr
  · rename_i fault' site hprogram
    have hastray := (Programming.leads_program p).error h.wired.onward hprogram
    obtain ⟨hok, hrefuse⟩ := hastray.sendAll_eq_none h.refuse
    obtain ⟨now, -, hwired, hprocessors, hloggers, hevents, -⟩ := hastray.rollback hok
    obtain ⟨-, rfl⟩ := Prod.mk.inj hr
    exact ⟨now, hwired, hrefuse, h.sync.of_tables hprocessors hloggers hevents,
      h.owns.of_tables hloggers⟩

end

/-! ## After a teardown

The graph forgets a consumer with the first of its loggers and the board loses the loggers one by
one, so in between the two are out of step.  They are compared when all of them are gone.
-/

section

variable {g : Graph} {b : SimulatedBoard} {r : Route} {before after : List Route}

/-- If each consumer has all its loggers or none in `out`, then dropping those that have some drops
the ids in `out`. -/
theorem flatMap_ids_filter {entries : List LoggerEntry} {out : List UInt8}
    (h : ∀ e ∈ entries, e.ids ⊆ out ∨ e.ids.Disjoint out) :
    (entries.filter fun e => out.all fun id => !e.merge.contains id).flatMap LoggerEntry.ids =
      (entries.flatMap LoggerEntry.ids).filter fun id => !out.contains id := by
  induction entries with
  | nil => rfl
  | cons e rest ih =>
    have hrest := ih fun e' he' => h e' (List.mem_cons_of_mem _ he')
    have hall : (out.all fun id => !e.merge.contains id) = true ↔ e.ids.Disjoint out := by
      rw [List.all_eq_true]
      constructor
      · intro hout id hid hid'
        have := hout id hid'
        rw [MergeQueue.contains, Bool.not_eq_true', ← Bool.not_eq_true,
          List.contains_iff_mem] at this
        exact this hid
      · intro hdisjoint id hid
        rw [MergeQueue.contains, Bool.not_eq_true', ← Bool.not_eq_true, List.contains_iff_mem]
        exact fun hid' => hdisjoint hid' hid
    rw [List.flatMap_cons, List.filter_append, ← hrest, List.filter_cons]
    by_cases hdisjoint : e.ids.Disjoint out
    · have hkeep : e.ids.filter (fun id => !out.contains id) = e.ids := by
        rw [List.filter_eq_self]
        intro id hid
        rw [Bool.not_eq_true', ← Bool.not_eq_true, List.contains_iff_mem]
        exact fun hid' => hdisjoint hid hid'
      rw [if_pos (hall.2 hdisjoint), List.flatMap_cons, hkeep]
    · have hdrop : e.ids.filter (fun id => !out.contains id) = [] := by
        rw [List.filter_eq_nil_iff]
        intro id hid
        have := (h e List.mem_cons_self).resolve_right hdisjoint hid
        simpa using this
      rw [if_neg (fun hout => hdisjoint (hall.1 hout)), hdrop, List.nil_append]

/-- The board after the removals that a route leads to. -/
def Graph.clearedBoard (g : Graph) (b : SimulatedBoard) (r : Route) : SimulatedBoard :=
  b.cleared (g.processors.found r.processors) (r.loggers.filter g.hasLogger)
    (g.events.found r.events)

/-- In step, the graph has every logger of the board. -/
theorem Graph.InSync.hasLogger (h : g.InSync b) {id : UInt8} (hid : id ∈ b.loggers.ids) :
    g.hasLogger id = true := by
  obtain ⟨e, he, hide⟩ := List.mem_flatMap.1 (h.loggers.mem_iff.2 hid)
  rw [Graph.hasLogger, List.any_eq_true]
  exact ⟨e, he, List.contains_iff_mem.2 hide⟩

/-- In step, the board loses all loggers of a route that the graph knows of, and these are all. -/
theorem Graph.InSync.ids_loggers_clearedBoard (h : g.InSync b) :
    (g.clearedBoard b r).loggers.ids = b.loggers.ids.filter fun id => !r.loggers.contains id := by
  show ((r.loggers.filter g.hasLogger).foldl IdTable.erase b.loggers).ids = _
  rw [IdTable.ids_foldl_erase]
  refine List.filter_congr fun id hid => ?_
  rw [Bool.eq_iff_iff, Bool.not_eq_true', Bool.not_eq_true', ← Bool.not_eq_true, ← Bool.not_eq_true,
    List.contains_iff_mem, List.contains_iff_mem, List.mem_filter]
  simp [h.hasLogger hid]

theorem Graph.InSync.forget (h : g.InSync b)
    (hwhole : ∀ e ∈ g.loggers, e.ids ⊆ r.loggers ∨ e.ids.Disjoint r.loggers) :
    (g.forget r).2.InSync (g.clearedBoard b r) := by
  refine ⟨?_, ?_, ?_, ?_⟩
  · rw [Graph.processors_forget]
    exact (IdTable.ids_foldl_erase_found h.processors r.processors).symm
  · intro id e he
    rw [Graph.processors_forget, IdTable.find?_foldl_erase] at he
    split at he
    · cases he
    · rename_i hnot
      have hfound : id ∉ g.processors.found r.processors := fun hid =>
        hnot ((IdTable.mem_found _ _ _).1 hid).1
      obtain ⟨hid, q, hq, hstored⟩ := h.stored id e he
      refine ⟨hid, q, ?_, hstored⟩
      show ((g.processors.found r.processors).foldl IdTable.erase b.processors).find? id = some q
      rw [IdTable.find?_foldl_erase, if_neg hfound, hq]
  · rw [Graph.loggers_forget, flatMap_ids_filter hwhole, h.ids_loggers_clearedBoard]
    exact h.loggers.filter _
  · rw [Graph.events_forget]
    exact (IdTable.ids_foldl_erase_found h.events r.events).symm

theorem Graph.Owns.forget (h : g.Owns b (before ++ r :: after)) (hsync : g.InSync b) :
    (g.forget r).2.Owns (g.clearedBoard b r) (before ++ after) := by
  have hapart : (r :: (before ++ after)).Pairwise fun r r' => r.loggers.Disjoint r'.loggers :=
    (List.pairwise_middle List.disjoint_symm).1 h.apart
  rw [List.pairwise_cons] at hapart
  have hold : ∀ r' ∈ before ++ after, r' ∈ before ++ r :: after := by
    intro r' hr'
    rw [List.mem_append] at hr' ⊢
    exact hr'.imp_right (List.mem_cons_of_mem r)
  refine ⟨?_, ?_, hapart.2⟩
  · intro r' hr' e he
    rw [Graph.loggers_forget] at he
    exact h.whole r' (hold r' hr') e (List.mem_of_mem_filter he)
  · intro r' hr' id hid
    rw [hsync.ids_loggers_clearedBoard, List.mem_filter]
    refine ⟨h.there r' (hold r' hr') hid, ?_⟩
    rw [Bool.not_eq_true', ← Bool.not_eq_true, List.contains_iff_mem]
    exact fun hid' => hapart.1 r' hr' hid' hid

/-- If no writes are refused then all removals that a route leads to are carried out. -/
theorem Station.InStep.sendAll_forget {s : Station} {routes : List Route} (h : s.InStep b routes)
    (r : Route) :
    (sendAll (s.graph.forget r).1 s.link).1 = none ∧
      (sendAll (s.graph.forget r).1 s.link).2.transport.refuse = 0 ∧
      (sendAll (s.graph.forget r).1 s.link).2.Wired (s.graph.clearedBoard b r) := by
  have hforget := s.graph.forget_fst r
  have hquiet : ∀ c ∈ (s.graph.forget r).1, IsQuiet c := by
    rw [hforget]
    exact fun c hc => isQuiet_of_mem_removals hc
  obtain ⟨hok, hrefuse⟩ := h.wired.sendAll_of_refuse_eq_zero hquiet h.refuse
  have hwired := h.wired.sendAll hquiet hok
  rw [hforget, b.run_removals] at hwired
  exact ⟨hok, hrefuse, hforget ▸ hwired⟩

/-- **A route that is taken off is gone from the graph as it is from the board**, and nothing
fails. -/
theorem Station.InStep.teardown {s : Station} (h : s.InStep b (before ++ r :: after)) :
    (teardown r s).1 = .ok () ∧
      (teardown r s).2.InStep (s.graph.clearedBoard b r) (before ++ after) := by
  obtain ⟨hok, hrefuse, hwired⟩ := h.sendAll_forget r
  have hs' : SignalRoute.teardown r s =
      (.ok (), ⟨(sendAll (s.graph.forget r).1 s.link).2, (s.graph.forget r).2⟩) := by
    rw [SignalRoute.teardown]
    rcases hsend : sendAll (s.graph.forget r).1 s.link with ⟨_ | fault, l⟩
    · simp only [hsend]
    · rw [hsend] at hok
      cases hok
  rw [hs']
  exact ⟨rfl, hwired, hrefuse, h.sync.forget (h.owns.whole r (by simp)), h.owns.forget h.sync⟩

end
end SignalRoute
