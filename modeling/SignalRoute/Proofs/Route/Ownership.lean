import SignalRoute.Proofs.Route.Sync

/-!
# Who owns what on a board

Processors, loggers and events are all handed out by id, so what is said of one kind of `Resource`
is said of each.  `Graph.owners` lists the ids in a graph with the routes that own them.

`Station.Holds` says that the board has all that is in the graph.  It may have more: writes can be
refused, those that remove things included, and then the board keeps what the graph forgets.

* `Station.Holds.realize_ok`: a new route owns whatever is new in the graph, under ids that nothing
  in the graph had.
* `Station.Holds.realize_error`, `Station.Holds.teardown`: what fails takes nothing from the graph,
  and what is taken down takes the ids of its route.
* `Station.Holds.spares`: a route that owns all of its ids is taken down without touching others.

The three kinds are told apart by an argument and not by three copies of each lemma.  Loggers are
the odd one: a consumer owns several, and the graph lists consumers and not ids, so `Graph.owners`
lists each of them under its consumer's route.
-/

set_option autoImplicit false

namespace SignalRoute

/-! ## What has an id -/

/-- What a board hands out ids for. -/
inductive Resource where
  | processor
  | logger
  | event
deriving DecidableEq, Repr

/-- The command that removes what has an id. -/
def Resource.removal : Resource → UInt8 → Bytes
  | .processor => removeProcessorCommand
  | .logger => removeLoggerCommand
  | .event => removeEventCommand

/-- The ids that a route was given. -/
def Route.ids (r : Route) : Resource → List UInt8
  | .processor => r.processors
  | .logger => r.loggers
  | .event => r.events

/-- The ids that are taken on a board. -/
def SimulatedBoard.ids (b : SimulatedBoard) : Resource → List UInt8
  | .processor => b.processors.ids
  | .logger => b.loggers.ids
  | .event => b.events.ids

/-- The ids in a graph, with the routes that own them. -/
def Graph.owners (g : Graph) : Resource → List (UInt8 × RouteId)
  | .processor => g.processors.entries.map fun x => (x.1, x.2.route)
  | .logger => g.loggers.flatMap fun e => e.ids.map fun id => (id, e.route)
  | .event => g.events.entries

namespace Resource

theorem removal_inj {k k' : Resource} {id id' : UInt8} (h : k.removal id = k'.removal id') :
    k = k' ∧ id = id' := by
  cases k <;> cases k' <;>
    simp [removal, removeProcessorCommand, removeLoggerCommand, removeEventCommand,
      Module.processor, Module.logging, Module.event, ProcessorReg.remove, LogReg.remove,
      EventReg.remove] at h ⊢ <;> exact h

end Resource

/-- Removals are those of the ids for each kind of resource. -/
theorem mem_removals (ids : Resource → List UInt8) {command : Bytes} :
    command ∈ SimulatedBoard.removals (ids .processor) (ids .logger) (ids .event) ↔
      ∃ k, ∃ id ∈ ids k, command = k.removal id := by
  simp only [SimulatedBoard.removals, List.mem_append, List.mem_map]
  constructor
  · rintro ((⟨id, hid, rfl⟩ | ⟨id, hid, rfl⟩) | ⟨id, hid, rfl⟩)
    · exact ⟨.processor, id, hid, rfl⟩
    · exact ⟨.logger, id, hid, rfl⟩
    · exact ⟨.event, id, hid, rfl⟩
  · rintro ⟨_ | _ | _, id, hid, rfl⟩
    · exact .inl (.inl ⟨id, hid, rfl⟩)
    · exact .inl (.inr ⟨id, hid, rfl⟩)
    · exact .inr ⟨id, hid, rfl⟩

/-- A removal takes one id off the board. -/
theorem SimulatedBoard.ids_handle_removal (b : SimulatedBoard) (k k' : Resource) (id : UInt8) :
    (b.handle (k.removal id)).2.ids k' =
      if k' = k then (b.ids k').filter (· != id) else b.ids k' := by
  cases k <;> cases k' <;> first | rfl | exact IdTable.ids_erase _ _

namespace Graph

variable {g : Graph} {x : UInt8 × RouteId} {k : Resource}

/-- What is in a graph after a route was entered was there before, or belongs to the route. -/
theorem mem_owners_enter {catalog : Catalog} {route : RouteId} {plan : Plan} {placed : List Placed}
    {loggers : List (List UInt8)} {events : List UInt8}
    (hx : x ∈ (g.enter catalog route plan placed loggers events).2.owners k) :
    x ∈ g.owners k ∨ x.2 = route ∧
      x.1 ∈ (g.enter catalog route plan placed loggers events).1.ids k := by
  cases k with
  | processor =>
    obtain ⟨⟨id, e⟩, he, rfl⟩ := List.mem_map.1 hx
    rw [processors_enter] at he
    rcases IdTable.mem_insertAll he with hnew | hold
    · obtain ⟨⟨stage, p⟩, hmem, heq⟩ := List.mem_map.1 hnew
      obtain ⟨rfl, rfl⟩ := Prod.mk.inj heq
      exact .inr ⟨rfl, List.mem_map_of_mem (List.of_mem_zip hmem).2⟩
    · exact .inl (List.mem_map_of_mem hold)
  | logger =>
    obtain ⟨e, he, hpair⟩ := List.mem_flatMap.1 hx
    obtain ⟨id, hid, rfl⟩ := List.mem_map.1 hpair
    rcases mem_loggers_enter _ _ _ _ _ _ _ he with hold | ⟨hroute, hids⟩
    · exact .inl (List.mem_flatMap.2 ⟨e, hold, List.mem_map_of_mem hid⟩)
    · exact .inr ⟨hroute, hids hid⟩
  | event =>
    rw [owners, events_enter] at hx
    rcases IdTable.mem_insertAll hx with hnew | hold
    · obtain ⟨id, hid, rfl⟩ := List.mem_map.1 hnew
      exact .inr ⟨rfl, hid⟩
    · exact .inl hold

/-- What is in a graph after a route was forgotten was there before, under an id that the route was
not given. -/
theorem mem_owners_forget {r : Route} (hx : x ∈ (g.forget r).2.owners k) :
    x ∈ g.owners k ∧ x.1 ∉ r.ids k := by
  cases k with
  | processor =>
    obtain ⟨e, he, rfl⟩ := List.mem_map.1 hx
    rw [processors_forget, IdTable.entries_foldl_erase, List.mem_filter] at he
    exact ⟨List.mem_map_of_mem he.1, by simpa [Route.ids] using he.2⟩
  | logger =>
    obtain ⟨e, he, hpair⟩ := List.mem_flatMap.1 hx
    obtain ⟨id, hid, rfl⟩ := List.mem_map.1 hpair
    rw [loggers_forget, List.mem_filter, List.all_eq_true] at he
    refine ⟨List.mem_flatMap.2 ⟨e, he.1, List.mem_map_of_mem hid⟩, fun hmem => ?_⟩
    have hnot := he.2 id hmem
    rw [MergeQueue.contains, Bool.not_eq_true', ← Bool.not_eq_true, List.contains_iff_mem] at hnot
    exact hnot hid
  | event =>
    rw [owners, events_forget, IdTable.entries_foldl_erase, List.mem_filter] at hx
    exact ⟨hx.1, by simpa [Route.ids] using hx.2⟩

/-- The ids of a route that the graph still has. -/
def known (g : Graph) (r : Route) : Resource → List UInt8
  | .processor => g.processors.found r.processors
  | .logger => r.loggers.filter g.hasLogger
  | .event => g.events.found r.events

/-- Forgetting a route leads to the removals of its ids that the graph still has. -/
theorem mem_forget_fst {r : Route} {command : Bytes} :
    command ∈ (g.forget r).1 ↔ ∃ k, ∃ id ∈ g.known r k, command = k.removal id := by
  rw [forget_fst]
  exact mem_removals (g.known r)

theorem mem_ids_of_mem_known {r : Route} {id : UInt8} (h : id ∈ g.known r k) : id ∈ r.ids k := by
  cases k with
  | processor => exact ((IdTable.mem_found _ _ _).1 h).1
  | logger => exact (List.mem_filter.1 h).1
  | event => exact ((IdTable.mem_found _ _ _).1 h).1

/-- What a graph has is on a board, which may have more. -/
def Within (g : Graph) (b : SimulatedBoard) : Prop := ∀ k, ∀ x ∈ g.owners k, x.1 ∈ b.ids k

/-- Removals of other ids leave on the board what a graph has. -/
theorem Within.handle {b : SimulatedBoard} {k : Resource} {id : UInt8} (h : g.Within b)
    (hid : ∀ x ∈ g.owners k, x.1 ≠ id) : g.Within (b.handle (k.removal id)).2 := by
  intro k' x hx
  rw [b.ids_handle_removal]
  split
  · rename_i hk
    subst hk
    exact List.mem_filter.2 ⟨h k' x hx, bne_iff_ne.2 (hid x hx)⟩
  · exact h k' x hx

end Graph

section

variable {b now : SimulatedBoard} {commands : List Bytes} {made : Creations}

/-- The ids that were handed out, by what they were handed out for. -/
def Creations.ids (made : Creations) : Resource → List UInt8
  | .processor => made.placed.map Placed.id
  | .logger => made.loggers.map Prod.fst
  | .event => made.events.map Prod.fst

/-- A board that grew has what it had and what it handed out, which it did not have. -/
theorem SimulatedBoard.Grown.mem_ids (h : b.Grown commands made now) (k : Resource) (id : UInt8) :
    (id ∈ now.ids k ↔ id ∈ b.ids k ∨ id ∈ made.ids k) ∧ (id ∈ made.ids k → id ∉ b.ids k) := by
  have hrows : made.placed.map Placed.id = (made.placed.map Placed.row).map Prod.fst := by
    rw [List.map_map]
    rfl
  cases k with
  | processor =>
    show (id ∈ now.processors.ids ↔ id ∈ b.processors.ids ∨ id ∈ made.placed.map Placed.id) ∧
      (id ∈ made.placed.map Placed.id → id ∉ b.processors.ids)
    rw [hrows, h.processors.ids_perm.mem_iff, List.mem_append]
    exact ⟨.rfl, fun hid => (IdTable.contains_eq_false_iff _ _).1 (h.processors.not_contains hid)⟩
  | logger =>
    refine ⟨?_, fun hid => (IdTable.contains_eq_false_iff _ _).1 (h.loggers.not_contains hid)⟩
    exact h.loggers.ids_perm.mem_iff.trans List.mem_append
  | event =>
    refine ⟨?_, fun hid => (IdTable.contains_eq_false_iff _ _).1 (h.events.not_contains hid)⟩
    exact h.events.ids_perm.mem_iff.trans List.mem_append

end

/-! ## Stations

What holds of a station between two operations, however these end.  It is weaker than being in step
(`Station.InStep`), in return for which it survives refused writes.
-/

/-- The link of a station is wired to a board that has all that is in the graph. -/
def Station.Holds (s : Station) : Prop := ∃ b, s.link.Wired b ∧ s.graph.Within b

section

variable {s s' : Station} {catalog : Catalog} {route : RouteId} {p : Plan} {r : Route}

/-- A route that was realized got ids that were free, and owns whatever is new in the graph. -/
theorem Station.Holds.realize_ok (h : s.Holds)
    (hr : realize catalog route p s = (.ok r, s')) :
    s'.Holds ∧ (∀ k, ∀ x ∈ s.graph.owners k, x.1 ∉ r.ids k) ∧
      ∀ k, ∀ x ∈ s'.graph.owners k, x ∈ s.graph.owners k ∨ x.2 = r.id ∧ x.1 ∈ r.ids k := by
  obtain ⟨b, hwired, hwithin⟩ := h
  obtain ⟨made, loggers, now, commands, hmet, hgrown, hwired', -, henter⟩ :=
    realize_eq_ok hwired hr
  obtain ⟨hroute, hgraph⟩ := Prod.mk.inj henter
  have hid : r.id = route := congrArg Route.id hroute
  have hids (k : Resource) : r.ids k = made.ids k := by
    rw [hroute]
    cases k with
    | processor => rfl
    | logger => exact hmet.logs.ids.symm
    | event => rfl
  have howners : ∀ k, ∀ x ∈ s'.graph.owners k,
      x ∈ s.graph.owners k ∨ x.2 = r.id ∧ x.1 ∈ r.ids k := by
    intro k x hx
    rw [hgraph] at hx
    rw [hid, hroute]
    exact Graph.mem_owners_enter hx
  refine ⟨⟨now, hwired', fun k x hx => ?_⟩, fun k x hx hmem => ?_, howners⟩
  · rw [(hgrown.mem_ids k x.1).1, ← hids]
    exact (howners k x hx).imp (hwithin k x) And.right
  · exact (hgrown.mem_ids k x.1).2 (hids k ▸ hmem) (hwithin k x hx)

/-- A plan that failed took nothing off the board but what it had put there. -/
theorem Station.Holds.realize_error (h : s.Holds) {fault : Fault}
    (hr : realize catalog route p s = (.error fault, s')) : s'.Holds ∧ s'.graph = s.graph := by
  obtain ⟨b, hwired, hwithin⟩ := h
  rw [realize] at hr
  split at hr
  · cases hr
  · rename_i fault' site hprogram
    obtain ⟨now, commands, made, ht⟩ :=
      (Programming.leads_program p).error hwired.onward hprogram
    obtain ⟨-, rfl⟩ := Prod.mk.inj hr
    refine ⟨?_, rfl⟩
    have hremovals : site.removals = SimulatedBoard.removals (made.ids .processor)
        (made.ids .logger) (made.ids .event) := by
      rw [site.removals_eq, ht.placed, ht.loggers, ht.events]
      rfl
    have hnow : s.graph.Within now := fun k x hx =>
      (ht.grown.mem_ids k x.1).1.2 (.inl (hwithin k x hx))
    have hkeep : ∀ c ∈ site.removals, ∀ b : SimulatedBoard, s.graph.Within b →
        s.graph.Within (b.handle c).2 := by
      have hfree (k : Resource) (id : UInt8) (hid : id ∈ made.ids k) :
          ∀ x ∈ s.graph.owners k, x.1 ≠ id := by
        rintro x hx rfl
        exact (ht.grown.mem_ids k x.1).2 hid (hwithin k x hx)
      intro c hc b hb
      rw [hremovals, mem_removals made.ids] at hc
      obtain ⟨k, id, hid, rfl⟩ := hc
      exact hb.handle (hfree k id hid)
    obtain ⟨b', hwired', hb', -⟩ := ht.wired.sendAll_keeps
      (fun c hc => isQuiet_of_mem_removals (hremovals ▸ hc)) hkeep hnow
    rw [sendAll_snd] at hwired'
    exact ⟨b', hwired', hb'⟩

theorem teardown_snd (r : Route) (s : Station) :
    (teardown r s).2 = ⟨(sendAll (s.graph.forget r).1 s.link).2, (s.graph.forget r).2⟩ := by
  rw [teardown]
  rcases hsend : sendAll (s.graph.forget r).1 s.link with ⟨_ | fault, l⟩ <;> simp only [hsend]

/-- A teardown leaves on the board what it leaves in the graph, and sends the removals of what was
in the graph. -/
theorem Station.Holds.teardown (h : s.Holds) (r : Route) :
    (teardown r s).2.Holds ∧ (teardown r s).2.link.transport.sent =
      s.link.transport.sent ++ (s.graph.forget r).1 := by
  obtain ⟨b, hwired, hwithin⟩ := h
  have hquiet : ∀ c ∈ (s.graph.forget r).1, IsQuiet c := fun c hc =>
    isQuiet_of_mem_removals (s.graph.forget_fst r ▸ hc)
  have hkeep : ∀ c ∈ (s.graph.forget r).1, ∀ b : SimulatedBoard,
      (s.graph.forget r).2.Within b → (s.graph.forget r).2.Within (b.handle c).2 := by
    intro c hc b hb
    obtain ⟨k, id, hid, rfl⟩ := Graph.mem_forget_fst.1 hc
    refine hb.handle ?_
    rintro x hx rfl
    exact (Graph.mem_owners_forget hx).2 (Graph.mem_ids_of_mem_known hid)
  obtain ⟨b', hwired', hb', hsent⟩ := hwired.sendAll_keeps hquiet hkeep
    (fun k x hx => hwithin k x (Graph.mem_owners_forget hx).1)
  rw [teardown_snd]
  exact ⟨⟨b', hwired', hb'⟩, hsent⟩

end

/-! ## What a removal touches -/

/-- Between two stations, all that belongs to other routes than `route` stayed as it is in the graph,
and no removal was sent of an id that another route owns. -/
structure Station.Spares (s : Station) (route : RouteId) (s' : Station) : Prop where
  processors : s'.graph.processors.entries.filter (fun x => x.2.route != route) =
    s.graph.processors.entries.filter fun x => x.2.route != route
  loggers : s'.graph.loggers.filter (fun e => e.route != route) =
    s.graph.loggers.filter fun e => e.route != route
  events : s'.graph.events.entries.filter (fun x => x.2 != route) =
    s.graph.events.entries.filter fun x => x.2 != route
  streams : s'.graph.streams.filter (fun e => e.route != route) =
    s.graph.streams.filter fun e => e.route != route
  sent : ∃ commands, s'.link.transport.sent = s.link.transport.sent ++ commands ∧
    ∀ k, ∀ x ∈ s.graph.owners k, x.2 ≠ route → k.removal x.1 ∉ commands

/-- **A route that owns all of its ids is taken down without touching others.** -/
theorem Station.Holds.spares {s : Station} {r : Route} (hholds : s.Holds)
    (howns : ∀ k, ∀ x ∈ s.graph.owners k, x.1 ∈ r.ids k → x.2 = r.id) :
    s.Spares r.id (SignalRoute.teardown r s).2 := by
  have hsent := (hholds.teardown r).2
  have hnot (k : Resource) (x : UInt8 × RouteId) (hx : x ∈ s.graph.owners k)
      (hroute : x.2 ≠ r.id) : x.1 ∉ r.ids k := fun hid => hroute (howns k x hx hid)
  rw [teardown_snd] at hsent ⊢
  refine ⟨?_, ?_, ?_, ?_, (s.graph.forget r).1, hsent, ?_⟩
  · rw [Graph.processors_forget, IdTable.entries_foldl_erase, List.filter_filter]
    refine List.filter_congr fun x hx => ?_
    by_cases hroute : x.2.route = r.id
    · simp [hroute]
    · have := hnot .processor (x.1, x.2.route) (List.mem_map_of_mem hx) hroute
      simpa [hroute, Route.ids] using this
  · rw [Graph.loggers_forget, List.filter_filter]
    refine List.filter_congr fun e he => ?_
    by_cases hroute : e.route = r.id
    · simp [hroute]
    · have hall : (r.loggers.all fun id => !e.merge.contains id) = true := by
        rw [List.all_eq_true]
        intro id hid
        rw [MergeQueue.contains, Bool.not_eq_true', ← Bool.not_eq_true, List.contains_iff_mem]
        intro hmem
        exact hnot .logger (id, e.route)
          (List.mem_flatMap.2 ⟨e, he, List.mem_map_of_mem hmem⟩) hroute hid
      rw [hall, Bool.and_true]
  · rw [Graph.events_forget, IdTable.entries_foldl_erase, List.filter_filter]
    refine List.filter_congr fun x hx => ?_
    by_cases hroute : x.2 = r.id
    · simp [hroute]
    · have := hnot .event x hx hroute
      simpa [hroute, Route.ids] using this
  · rw [Graph.streams_forget, List.filter_filter]
    refine List.filter_congr fun e _ => ?_
    rw [Bool.and_self]
  · intro k x hx hroute hmem
    obtain ⟨k', id, hid, heq⟩ := Graph.mem_forget_fst.1 hmem
    obtain ⟨rfl, rfl⟩ := Resource.removal_inj heq
    exact hnot k x hx hroute (Graph.mem_ids_of_mem_known hid)

end SignalRoute
