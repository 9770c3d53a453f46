import SignalRoute.Proofs.Host.Undoing
import SignalRoute.Proofs.Log.Adoption

/-!
# Names lead to their own processors

A host gives names to processors when it builds routes and forgets them when it removes routes, and
it looks processors up by their names.  `Host.names_resolve` says that these look-ups are right
wherever a host is led by building, removing, surveying and forgetting, in any order: the handles
may be stale, the board may not carry creations out, and it may have more than the host knows of.

What a single insertion cannot know is ensured in two places.  A draft refuses a name that one of
its stages or a processor of the graph has, so that the names of a plan are new and differ
(`Host.plan_names`, `Host.plan_nodup_names`).  The board hands out ids that are free on it, so that
they are new to every graph that lies within the board (`Station.Holds`).

The question is whether one name can ever mean two processors.  A look-up goes through the names,
and finds an id there; an id goes through the table, and finds an entry with a name.
`Graph.Resolves` says that these agree in both directions, and so an operation that touches one of
them has to touch the other.  The statement is about any turn that a host can take, in any order,
and that includes removing a route through a handle that is stale: then the processor of another
route may be taken off, but its name goes with it.
-/

set_option autoImplicit false

namespace SignalRoute

/-! ## Drafts

A name is given to the stage under the cursor, and only one that has none.  So the names of a plan
are a list that grows by new ones, and the list without those that the graph has.
-/

/-- The names of the stages differ, and the draft has a list of them. -/
structure Draft.Distinct (d : Draft) : Prop where
  listed : ∀ stage ∈ d.plan.stages, ∀ name, stage.name = some name → d.named? name ≠ none
  nodup : (d.plan.stages.filterMap PlannedStage.name).Nodup

theorem Draft.named?_nameStage_ne_none {d : Draft} {i : Nat} {name other : String}
    (h : d.named? other ≠ none ∨ other = name) : (d.nameStage i name).named? other ≠ none := by
  rw [named?, nameStage]
  by_cases hname : name = other
  · simp [hname]
  · rw [List.find?_cons_of_neg (by simpa using hname)]
    exact h.resolve_right (Ne.symm hname)

/-- A stage that had no name gets one that no stage had. -/
theorem Draft.Distinct.nameStage {d : Draft} {i : Nat} {name : String} (h : d.Distinct)
    (hnamed : d.named? name = none)
    (hunnamed : (d.plan.stages[i]?).bind PlannedStage.name = none) :
    (d.nameStage i name).Distinct := by
  refine ⟨fun stage hmem other hother => ?_, ?_⟩
  · refine Draft.named?_nameStage_ne_none ?_
    obtain ⟨old, hold, rfl | rfl⟩ := Draft.of_mem_nameStage hmem
    · exact .inl (h.listed _ hold other hother)
    · exact .inr (Option.some.inj hother).symm
  · show ((d.plan.stages.modify i fun s => { s with name := some name }).filterMap
      PlannedStage.name).Nodup
    by_cases hi : i < d.plan.stages.length
    · have hold := List.take_append_drop i d.plan.stages
      rw [List.drop_eq_getElem_cons hi] at hold
      rw [List.getElem?_eq_getElem hi, Option.bind_some] at hunnamed
      have hnodup := h.nodup
      rw [← hold, List.filterMap_append, List.filterMap_cons_none hunnamed] at hnodup
      have hgiven : ({ d.plan.stages[i] with name := some name } : PlannedStage).name =
          some name := rfl
      rw [List.modify_eq_take_cons_drop hi, List.filterMap_append,
        List.filterMap_cons_some hgiven, List.nodup_middle, List.nodup_cons]
      refine ⟨fun hmem => ?_, hnodup⟩
      -- what has the name already is another stage of the draft
      obtain ⟨stage, hstage, hname⟩ : ∃ stage ∈ d.plan.stages, stage.name = some name := by
        rw [← List.filterMap_append, List.mem_filterMap] at hmem
        obtain ⟨stage, hstage, hname⟩ := hmem
        exact ⟨stage, (List.mem_append.1 hstage).elim List.mem_of_mem_take List.mem_of_mem_drop,
          hname⟩
      exact h.listed stage hstage name hname hnamed
    · rw [List.modify_eq_self (Nat.le_of_not_lt hi)]
      exact h.nodup

theorem Draft.Distinct.move {x y : Cursor × Draft} (hmove : Draft.Move x y) (h : x.2.Distinct) :
    y.2.Distinct := by
  cases hmove with
  | @emitted c d p buffers i hemits hi =>
    have hunnamed : (⟨c, p, i.output, i.state, none, buffers.map Prod.fst⟩ : PlannedStage).name =
      none := rfl
    refine ⟨fun stage hstage name hname => ?_, ?_⟩
    · rcases List.mem_append.1 hstage with hold | hnew
      · exact h.listed stage hold name hname
      · rw [List.mem_singleton.1 hnew] at hname
        cases hname
    · show ((d.plan.stages ++ [_]).filterMap PlannedStage.name).Nodup
      rw [List.filterMap_append, List.filterMap_cons_none hunnamed, List.filterMap_nil,
        List.append_nil]
      exact h.nodup
  | named hstage hnamed hknown hunnamed => exact h.nameStage hnamed hunnamed
  | fed c d feedback => exact ⟨h.listed, h.nodup⟩
  | reacted c d commands => exact ⟨h.listed, h.nodup⟩
  | streamed c d => exact ⟨h.listed, h.nodup⟩
  | logged d hdata => exact ⟨h.listed, h.nodup⟩
  | opened c d kind => exact ⟨h.listed, h.nodup⟩
  | returned hb => exact h
  | entered hs => exact h
  | closed hb => exact ⟨h.listed, h.nodup⟩

namespace Host

/-- No two stages of a plan have the same name. -/
theorem plan_nodup_names {host : Host} {producer : String} {steps : List Step} {p : Plan}
    (hplan : host.plan producer (fun c => Step.run c steps) = .ok p) :
    (p.stages.filterMap PlannedStage.name).Nodup := by
  obtain ⟨root, -, rfl⟩ := plan_eq_ok hplan
  have hstart : host.draft.Distinct := ⟨List.forall_mem_nil _, List.nodup_nil⟩
  obtain ⟨next, hnext, -⟩ := Drafting.run_keeps (c := ⟨root, none⟩) (I := fun x => x.2.Distinct)
    (fun _ _ hmove => Draft.Distinct.move hmove) hstart steps
  exact hnext.nodup

/-! ## Runs

`Turn` has what a program can do with a host, and what can go wrong with its board.  A run is any
chain of turns; `NamesWell` is kept by each of them, whether it succeeds or fails.
-/

/-- What can be done with a host that builds routes. -/
inductive Turn (h : Host) : Host → Prop
  /-- A route is built, or an attempt fails. -/
  | built (producer : String) (steps : List Step) :
      Turn h (buildRoute producer (fun c => Step.run c steps) h).2
  /-- A route is removed through its handle, or one that was removed before. -/
  | removed (r : Route) : Turn h (removeRoute r h).2
  /-- The logs that the host does not know are taken up, as far as they can be. -/
  | adopted : Turn h h.adoptLogs.2
  | forgotten : Turn h h.forgetRoutes
  /-- The board is told not to carry out the `k`-th creation from now on. -/
  | dropped (k : Nat) :
      Turn h (h.mapLink fun l => { l with transport := l.transport.mapBoard fun b => b.dropReply k })

/-- The board has all that the graph has, and names lead to their own processors. -/
structure NamesWell (h : Host) : Prop where
  holds : h.station.Holds
  resolves : h.station.graph.Resolves

variable {start h h' : Host} {b : SimulatedBoard}

theorem NamesWell.build (hh : h.NamesWell) (producer : String) (steps : List Step) :
    (buildRoute producer (fun c => Step.run c steps) h).2.NamesWell := by
  rw [buildRoute]
  cases hplan : h.plan producer fun c => Step.run c steps with
  | error fault => exact hh
  | ok p =>
    simp only [onStation]
    rcases hr : realize h.catalog h.nextRoute p h.station with ⟨fault | r, station⟩
    · obtain ⟨hholds, hgraph⟩ := hh.holds.realize_error hr
      exact ⟨hholds, hgraph ▸ hh.resolves⟩
    · refine ⟨(hh.holds.realize_ok hr).1, ?_⟩
      obtain ⟨b, hwired, hwithin⟩ := hh.holds
      obtain ⟨made, loggers, now, commands, hmet, hgrown, -, -, henter⟩ := realize_eq_ok hwired hr
      have hlength := hmet.stages.length_eq
      have hids : ((p.stages.zip made.placed).map fun s => s.2.id) =
          (made.placed.map Placed.row).map Prod.fst := by
        rw [← hmet.entry_ids h.nextRoute, List.map_map]
        rfl
      have hentered : (h.station.graph.enterStages h.nextRoute
          (p.stages.zip made.placed)).Resolves := by
        refine hh.resolves.enterStages (hids ▸ hgrown.processors.nodup) (fun s hs hmem => ?_) ?_
          fun s hs name hname => ?_
        · -- what the graph has is on the board, and the board gave an id that was free
          obtain ⟨x, hx, heq⟩ := List.mem_map.1 hmem
          have hthere := hwithin .processor _ (List.mem_map_of_mem hx)
          refine (hgrown.mem_ids .processor s.2.id).2 ?_ (heq ▸ hthere)
          exact List.mem_map_of_mem (List.of_mem_zip hs).2
        · rw [List.map_fst_zip (Nat.le_of_eq hlength.symm)]
          exact plan_nodup_names hplan
        · exact plan_names hplan s.1 (List.of_mem_zip hs).1 name hname
      refine hentered.congr ?_ ?_
      · rw [show station.graph = _ from congrArg Prod.snd henter, Graph.processors_enter,
          Graph.processors_enterStages]
      · rw [show station.graph = _ from congrArg Prod.snd henter, Graph.names_enter]

theorem Turn.namesWell (hturn : h.Turn h') (hh : h.NamesWell) : h'.NamesWell := by
  cases hturn with
  | built producer steps => exact hh.build producer steps
  | removed r =>
    refine ⟨(hh.holds.teardown r).1, ?_⟩
    rw [show (removeRoute r h).2.station.graph = _ from
      congrArg Station.graph (teardown_snd r h.station)]
    exact hh.resolves.forget r
  | adopted =>
    obtain ⟨hholds, hresolves⟩ := hh.holds.adoptLoggers hh.resolves
    exact ⟨hholds, hresolves⟩
  | forgotten =>
    obtain ⟨b, hwired, -⟩ := hh.holds
    refine ⟨⟨b, hwired, fun k x hx => ?_⟩, Graph.resolves_empty.congr rfl rfl⟩
    cases k <;> cases hx
  | dropped k =>
    obtain ⟨b, hwired, hwithin⟩ := hh.holds
    refine ⟨⟨b.dropReply k, ⟨?_, hwired.scripts, hwired.queue, hwired.room, hwired.isOpen,
      hwired.connected, hwired.live⟩, fun k x hx => ?_⟩, hh.resolves⟩
    · show h.station.link.transport.board.map _ = _
      rw [hwired.board]
      rfl
    · have hthere := hwithin k x hx
      cases k <;> exact hthere

theorem namesWell_of_run (hgraph : start.station.graph = .empty)
    (hlink : start.station.link.Wired b) (hrun : Relation.ReflTransGen Turn start h) :
    h.NamesWell := by
  induction hrun with
  | refl =>
    refine ⟨⟨b, hlink, fun k x hx => ?_⟩, hgraph ▸ Graph.resolves_empty⟩
    rw [hgraph] at hx
    cases k <;> cases hx
  | tail _ hturn ih => exact hturn.namesWell ih

/-- **Names lead to their own processors.**  Wherever a host is led that starts with an empty graph
at any board, a name leads to a processor exactly if this is in the table and has the name; no two
processors of the table have the same name, and the names that are taken are those that they
have. -/
theorem names_resolve (hgraph : start.station.graph = .empty)
    (hlink : start.station.link.Wired b) (hrun : Relation.ReflTransGen Turn start h) :
    (∀ name e, h.station.graph.named? name = some e ↔
      e ∈ h.station.graph.processors.values ∧ e.name = some name) ∧
    (h.station.graph.processors.values.filterMap ProcessorEntry.name).Nodup ∧
    ∀ name, h.station.graph.isNameTaken name = true ↔
      ∃ e ∈ h.station.graph.processors.values, e.name = some name := by
  have hresolves := (namesWell_of_run hgraph hlink hrun).resolves
  exact ⟨hresolves.named?_eq_some_iff, hresolves.nodup_names, hresolves.isNameTaken_iff⟩

/-- A delayed temperature, with a name and a log. -/
def delayed : Except Fault Route × Host :=
  buildRoute "temperature" (fun c => Step.run c [.delay 4, .name "late", .log]) Session.fresh.host

/-- The host forgets the delay and finds it again, without its name.  The name goes to another
delay, behind a count that the board does not carry out at first, and what is left of the first one
is removed twice. -/
def renamed : Host :=
  let again := delayed.2.forgetRoutes.adoptLogs.2.mapLink fun l =>
    { l with transport := l.transport.mapBoard fun b => b.dropReply 1 }
  let steps : List Step := [.count, .delay 2, .name "late"]
  let other := (buildRoute "switch" (fun c => Step.run c steps)
    (buildRoute "switch" (fun c => Step.run c steps) again).2).2
  let handle := delayed.1.toOption.getD default
  (removeRoute handle (removeRoute handle other).2).2

theorem names_resolve_renamed :
    renamed.station.graph.processors.values.map (fun e => (e.id, e.name)) =
        [(1, none), (2, some "late")] ∧
      (∀ name e, renamed.station.graph.named? name = some e ↔
        e ∈ renamed.station.graph.processors.values ∧ e.name = some name) ∧
      (renamed.station.graph.processors.values.filterMap ProcessorEntry.name).Nodup ∧
      ∀ name, renamed.station.graph.isNameTaken name = true ↔
        ∃ e ∈ renamed.station.graph.processors.values, e.name = some name := by
  obtain ⟨b, hlink, -⟩ := Session.fresh_begins.board
  have hrun : Relation.ReflTransGen Turn Session.fresh.host renamed :=
    .tail (.tail (.tail (.tail (.tail (.tail (.tail (.single (.built _ _)) .forgotten) .adopted)
      (.dropped 1)) (.built _ _)) (.built _ _)) (.removed _)) (.removed _)
  exact ⟨by decide +kernel, names_resolve rfl hlink hrun⟩

end Host
end SignalRoute
