import SignalRoute.Proofs.Graph.Consumers
import SignalRoute.Proofs.Host.Session
import SignalRoute.Proofs.Route.Ownership

/-!
# Subscribers of a session

Each log of a route has a consumer in the graph, and the subscription that the route holds hears
that consumer.  `Graph.Feeds` lists the consumers of a route; their loggers are those of the route.

`Session.Heard` says that the consumers of a graph are tuned, and that every route that has not been
removed is fed.  Building a route keeps this, because ids and mailboxes are new; removing one keeps
it, because its loggers belong to no other route.  So it holds wherever a session leads
(`Session.heard_of_run`).

A subscriber does not know its consumer.  The consumer posts to a mailbox by number, and the
subscription reads from a mailbox by number, so each of the two must have kept its number, and
nobody else may have the same.  Numbers of mailboxes are never used again, while ids of loggers are.
So the first is a matter of the post office alone, and for the second one has to know that an id in
use is not handed out, which is what being in step with the board gives.
-/

set_option autoImplicit false

namespace SignalRoute

/-! ## Mailboxes

A mailbox is open from when it is rented until it is closed, and its number is the number of
mailboxes before it.
-/

namespace PostOffice

variable {p : PostOffice} {i : Nat}

theorem lt_next_of_isOpen (h : p.isOpen i = true) : i < p.next := by
  by_contra hle
  rw [isOpen, List.getElem?_eq_none (Nat.not_lt.1 hle)] at h
  cases h

theorem isOpen_rent (h : p.isOpen i = true) : p.rent.isOpen i = true := by
  rw [isOpen, rent, List.getElem?_append_left (lt_next_of_isOpen h)]
  exact h

theorem isOpen_rent_next (p : PostOffice) : p.rent.isOpen p.next = true := by
  rw [isOpen, rent, next, List.getElem?_concat_length]

end PostOffice

namespace Graph

variable {g g' : Graph} {route : RouteId} {catalog : Catalog}

/-! ## Tuned graphs

A graph is tuned if no two consumers share a logger or a mailbox, if all mailboxes are open, and if
nothing waits in a queue.  A consumer that is taken out makes the lists shorter, and one that is put
in comes at the end with everything new.
-/

/-- A graph stays tuned if consumers are taken out and no mailbox is closed. -/
theorem Tuned.of_sublist (h : g.Tuned) (hloggers : g'.loggers.Sublist g.loggers)
    (hopen : ∀ i, g.mail.isOpen i = true → g'.mail.isOpen i = true) : g'.Tuned where
  ids := h.ids.sublist (hloggers.flatMap LoggerEntry.ids)
  mailboxes := h.mailboxes.sublist (hloggers.map LoggerEntry.mailbox)
  isOpen e he := hopen _ (h.isOpen e (hloggers.subset he))
  idle e he := h.idle e (hloggers.subset he)

section

variable (g) (route) (s : Signal) (ids : List UInt8)

/-- The graph with a consumer in front of a new mailbox. -/
def subscribe : Graph := g.rentMailbox.addLogger ⟨route, s, .ofIds ids, g.mail.next⟩

theorem loggers_subscribe : (g.subscribe route s ids).loggers =
    g.loggers ++ [⟨route, s, .ofIds ids, g.mail.next⟩] := rfl

theorem ids_subscribe : (g.subscribe route s ids).loggers.flatMap LoggerEntry.ids =
    g.loggers.flatMap LoggerEntry.ids ++ ids := by
  rw [loggers_subscribe, List.flatMap_append, List.flatMap_singleton, LoggerEntry.ids,
    MergeQueue.ids_ofIds]

end

/-- A new consumer has a mailbox and a queue of its own. -/
theorem Tuned.subscribe (h : g.Tuned) (s : Signal) {ids : List UInt8}
    (hids : (g.loggers.flatMap LoggerEntry.ids ++ ids).Nodup) :
    (g.subscribe route s ids).Tuned where
  ids := by
    rw [ids_subscribe]
    exact hids
  mailboxes := by
    rw [loggers_subscribe, List.map_append, List.map_singleton]
    refine h.mailboxes.append (List.nodup_singleton _) ?_
    rw [List.disjoint_singleton]
    intro hmem
    obtain ⟨e, he, heq⟩ := List.mem_map.1 hmem
    exact Nat.lt_irrefl _ (heq ▸ PostOffice.lt_next_of_isOpen (h.isOpen e he))
  isOpen e he := by
    rcases List.mem_append.1 he with hold | hnew
    · exact PostOffice.isOpen_rent (h.isOpen e hold)
    · obtain rfl := List.mem_singleton.1 hnew
      exact g.mail.isOpen_rent_next
  idle e he := by
    rcases List.mem_append.1 he with hold | hnew
    · exact h.idle e hold
    · obtain rfl := List.mem_singleton.1 hnew
      rw [LoggerEntry.ids, MergeQueue.ids_ofIds]

theorem Tuned.enterLogs (h : g.Tuned) {logs : List (Signal × List UInt8)}
    (hids : (g.loggers.flatMap LoggerEntry.ids ++ logs.flatMap Prod.snd).Nodup) :
    (g.enterLogs route catalog logs).2.Tuned := by
  induction logs generalizing g with
  | nil => exact h
  | cons log rest ih =>
    obtain ⟨s, ids⟩ := log
    rw [List.flatMap_cons, ← List.append_assoc] at hids
    have hrest : ((g.subscribe route (s.atOffset 0) ids).loggers.flatMap LoggerEntry.ids ++
        rest.flatMap Prod.snd).Nodup := by
      rw [ids_subscribe]
      exact hids
    exact ih (h.subscribe (s.atOffset 0) (hids.sublist (List.sublist_append_left _ _))) hrest

/-! ## Mailboxes of routes

Entering a route opens mailboxes and closes none.
-/

theorem mail_enterStages (stages : List (PlannedStage × Placed)) :
    (g.enterStages route stages).mail = g.mail :=
  g.enterStages_keeps route mail (fun _ _ _ => rfl) stages

theorem isOpen_enterStreams (signals : List Signal) {i : Nat} (h : g.mail.isOpen i = true) :
    (g.enterStreams route catalog signals).2.mail.isOpen i = true := by
  induction signals generalizing g with
  | nil => exact h
  | cons s rest ih => exact ih (PostOffice.isOpen_rent h)

theorem mail_enterEvents (ids : List UInt8) : (g.enterEvents route ids).mail = g.mail :=
  g.enterEvents_keeps route mail (fun _ _ => rfl) ids

/-! ## Consumers of routes

The consumers of a route are told by their loggers.  To forget the route is to take out all
consumers that have one of its loggers, and those of other routes have none.
-/

/-- These are the consumers of a route, one for each of its logs, and they own its loggers. -/
structure Feeds (g : Graph) (catalog : Catalog) (r : Route) (consumers : List LoggerEntry) :
    Prop where
  there : consumers.Sublist g.loggers
  ids : consumers.flatMap LoggerEntry.ids = r.loggers
  hears : List.Forall₂ (Subscription.Hears r.id catalog) r.logs consumers

theorem Feeds.of_sublist {r : Route} {consumers : List LoggerEntry}
    (h : g.Feeds catalog r consumers) (hsub : consumers.Sublist g'.loggers) :
    g'.Feeds catalog r consumers := { h with there := hsub }

section

variable {b now : SimulatedBoard} {commands : List Bytes} {made : Creations} {p : Plan}
  {loggers : List (List UInt8)}

/-- Entering a route keeps the graph tuned: the board hands out ids that are not in use. -/
theorem Tuned.enter (h : g.Tuned) (hsync : g.InSync b) (hgrown : b.Grown commands made now)
    (hmet : p.Met made loggers) (catalog : Catalog) (route : RouteId) :
    (g.enter catalog route p made.placed loggers (made.events.map Prod.fst)).2.Tuned := by
  have hids : (g.loggers.flatMap LoggerEntry.ids ++ loggers.flatten).Nodup := by
    rw [← hmet.logs.ids]
    refine h.ids.append hgrown.loggers.nodup fun id hold hnew => ?_
    have hfree := hgrown.loggers.not_contains hnew
    rw [(IdTable.contains_iff _ _).2 (hsync.loggers.subset hold)] at hfree
    cases hfree
  let streamed := ((g.enterStages route (p.stages.zip made.placed)).enterStreams route catalog
    (p.streams.map fun c => c.resolve made.placed)).2
  have hloggers : streamed.loggers = g.loggers := by
    rw [(tables_enterStreams _ _ _ _).2.1, loggers_enterStages]
  have hstreamed : streamed.Tuned := by
    refine h.of_sublist (hloggers ▸ List.Sublist.refl _) fun i hi => isOpen_enterStreams _ ?_
    rw [mail_enterStages]
    exact hi
  have hlogs : (streamed.enterLogs route catalog
      ((p.logs.map fun c => c.resolve made.placed).zip loggers)).2.Tuned := by
    refine hstreamed.enterLogs ?_
    have hflat : ((p.logs.map fun c => c.resolve made.placed).zip loggers).flatMap Prod.snd =
        loggers.flatten := by
      rw [List.flatMap_def, List.map_snd_zip]
      exact Nat.le_of_eq (hmet.length_loggers.trans (List.length_map _).symm)
    rw [hloggers, hflat]
    exact hids
  refine hlogs.of_sublist ?_ fun i hi => ?_
  · rw [Graph.enter, (tables_enterEvents _ _ _).2]
  · rw [Graph.enter, mail_enterEvents]
    exact hi

/-- A new route is fed, and so are the others still. -/
theorem Feeds.enter {routes : List Route} (hmet : p.Met made loggers)
    (h : ∀ r ∈ routes, ∃ consumers, g.Feeds catalog r consumers) (route : RouteId) :
    ∀ r ∈ (g.enter catalog route p made.placed loggers (made.events.map Prod.fst)).1 :: routes,
      ∃ consumers, (g.enter catalog route p made.placed loggers
        (made.events.map Prod.fst)).2.Feeds catalog r consumers := by
  obtain ⟨news, hnews, hids, hhears⟩ := g.loggers_enter route catalog p made.placed loggers
    (made.events.map Prod.fst) hmet.length_loggers
  intro r hr
  rcases List.mem_cons.1 hr with rfl | hr
  · refine ⟨news, ⟨hnews ▸ List.sublist_append_right _ _, ?_, hhears⟩⟩
    rw [List.flatMap_def, hids]
    rfl
  · obtain ⟨consumers, hfeeds⟩ := h r hr
    exact ⟨consumers, hfeeds.of_sublist
      (hnews ▸ hfeeds.there.trans (List.sublist_append_left _ _))⟩

end

/-- Taking a route out leaves the consumers of all others. -/
theorem Feeds.forget {r r' : Route} {consumers : List LoggerEntry}
    (h : g.Feeds catalog r consumers) (hapart : r'.loggers.Disjoint r.loggers) :
    (g.forget r').2.Feeds catalog r consumers := by
  refine h.of_sublist ?_
  have hkept : (consumers.filter fun e => r'.loggers.all fun id => !e.merge.contains id) =
      consumers := by
    rw [List.filter_eq_self]
    intro e he
    rw [List.all_eq_true]
    intro id hid
    rw [MergeQueue.contains, Bool.not_eq_true', ← Bool.not_eq_true, List.contains_iff_mem]
    exact fun hide => hapart hid (h.ids ▸ List.mem_flatMap_of_mem he hide)
  rw [loggers_forget, ← hkept]
  exact h.there.filter _

end Graph

/-! ## Sessions

A step of a session enters a route or forgets one, and a build that fails does neither.
-/

namespace Host

variable (producer : String) (expression : Cursor → Drafting Cursor) (host : Host)

theorem catalog_buildRoute : (buildRoute producer expression host).2.catalog = host.catalog := by
  rw [buildRoute]
  cases host.plan producer expression <;> rfl

/-- A route that is not built is not entered. -/
theorem graph_of_buildRoute_error {fault : Fault} {host' : Host}
    (h : buildRoute producer expression host = (.error fault, host')) :
    host'.station.graph = host.station.graph := by
  rw [buildRoute] at h
  cases hplan : host.plan producer expression with
  | error fault' =>
    rw [hplan] at h
    cases h
    rfl
  | ok plan =>
    rw [hplan] at h
    simp only [onStation, realize] at h
    generalize plan.program ⟨host.station.link, [], [], []⟩ = programmed at h
    obtain ⟨_ | loggers, site⟩ := programmed <;> cases h
    rfl

end Host

namespace Session

/-- The consumers of the graph are tuned, and every route is fed. -/
structure Heard (s : Session) : Prop where
  tuned : s.host.station.graph.Tuned
  fed : ∀ r ∈ s.routes, ∃ consumers, s.host.station.graph.Feeds s.host.catalog r consumers

variable {s s' start : Session}

theorem Begins.heard (h : s.Begins) : s.Heard where
  tuned := by
    rw [h.graph]
    exact ⟨List.nodup_nil, List.nodup_nil, nofun, nofun⟩
  fed r hr := by
    rw [h.routes] at hr
    cases hr

theorem Step.heard (hstep : Step s s') (hgood : s.Good) (h : s.Heard) : s'.Heard := by
  obtain ⟨b, hb⟩ := hgood
  cases hstep with
  | @built producer expression r host hbuild =>
    have hcatalog := Host.catalog_buildRoute producer expression s.host
    rw [hbuild] at hcatalog
    cases hplan : s.host.plan producer expression with
    | error fault =>
      rw [Host.buildRoute, hplan] at hbuild
      cases hbuild
    | ok plan =>
      obtain ⟨made, loggers, now, commands, hmet, hgrown, -, henter⟩ :=
        Host.buildRoute_eq_ok hb.wired hplan hbuild
      obtain ⟨rfl, hgraph⟩ := Prod.mk.inj henter
      refine ⟨?_, ?_⟩
      · rw [hgraph]
        exact h.tuned.enter hb.sync hgrown hmet _ _
      · rw [hgraph, hcatalog]
        exact Graph.Feeds.enter hmet h.fed _
  | @failed producer expression fault host hbuild =>
    have hcatalog := Host.catalog_buildRoute producer expression s.host
    have hgraph := Host.graph_of_buildRoute_error producer expression s.host hbuild
    rw [hbuild] at hcatalog
    refine ⟨?_, ?_⟩
    · rw [hgraph]
      exact h.tuned
    · rw [hgraph, hcatalog]
      exact h.fed
  | @removed before after r hroutes outcome host hremove =>
    have hgraph : host.station.graph = (s.host.station.graph.forget r).2 := by
      have hstation := congrArg Station.graph (teardown_snd r s.host.station)
      cases hremove
      exact hstation
    have hcatalog : host.catalog = s.host.catalog := by
      cases hremove
      rfl
    have hapart := hb.owns.apart
    have hfed := h.fed
    rw [hroutes] at hapart hfed
    have hfirst := (List.pairwise_middle List.disjoint_symm).1 hapart
    refine ⟨?_, fun r' hr' => ?_⟩
    · rw [hgraph]
      refine h.tuned.of_sublist ?_ fun i hi => ?_
      · rw [Graph.loggers_forget]
        exact List.filter_sublist
      · rw [Graph.mail_forget]
        exact hi
    · obtain ⟨consumers, hfeeds⟩ := hfed r' (by
        rw [List.mem_append] at hr' ⊢
        exact hr'.imp_right (List.mem_cons_of_mem r))
      rw [hgraph, hcatalog]
      exact ⟨consumers, hfeeds.forget ((List.pairwise_cons.1 hfirst).1 r' hr')⟩
  | dropped k => exact ⟨h.tuned, h.fed⟩

/-- **Every route hears its own consumers**, wherever a session leads. -/
theorem heard_of_run (hstart : start.Begins) (hrun : Relation.ReflTransGen Step start s) :
    s.Heard := by
  have hboth : s.Good ∧ s.Heard := by
    induction hrun with
    | refl => exact ⟨hstart.good, hstart.heard⟩
    | tail _ hstep ih => exact ⟨hstep.good ih.1, hstep.heard ih.1 ih.2⟩
  exact hboth.2

end Session
end SignalRoute
