import SignalRoute.Proofs.Graph.Consumers
import SignalRoute.Proofs.Log.Walking
import SignalRoute.Proofs.Signal.Copies

/-!
# A survey takes up every logger once

A survey that succeeds subscribes to exactly the loggers that were new to the graph: those on the
board that it did not have, up to the first free place that it did not have either.  They are given
out in the order of their ids, none is left out and none is in two logs.

What makes a second survey find nothing is that a graph only ever gains the loggers that were new.
Then the first free place is the first free place still (`not_isNew_of_adopted`).

Completeness is about surveys that succeed, whatever the link was like before.  It needs no
assumption about what the loggers read, because a signal that cannot be rebuilt ends the survey with
a fault, and a signal that was guessed wrongly is still subscribed to.
-/

set_option autoImplicit false

namespace SignalRoute

variable {b : SimulatedBoard} {device : Device} {catalog : Catalog} {g g' : Graph}

/-! ## Subscriptions -/

/-- Subscriptions that succeed are one for each range, in this order. -/
theorem adoptAll_succeeded {ranges : List LoggedRange} {survey survey' : Survey}
    {routes : List AnonymousRoute}
    (h : adoptAll device catalog ranges survey g = (.ok routes, survey', g')) :
    routes.map AnonymousRoute.logIds = ranges.map LoggedRange.ids ∧
      ∃ new, g'.loggers = g.loggers ++ new ∧
        new.map LoggerEntry.ids = ranges.map LoggedRange.ids ∧
        ∀ e ∈ new, e.signal.shape.offset = 0 := by
  induction ranges generalizing survey g routes survey' g' with
  | nil =>
    cases h
    exact ⟨rfl, [], (List.append_nil _).symm, rfl, List.forall_mem_nil _⟩
  | cons r rest ih =>
    rw [adoptAll] at h
    rcases hlogged : Rebuilding.logged device catalog r survey with ⟨fault | s, survey₁⟩ <;>
      rw [hlogged] at h
    · cases h
    · dsimp only at h
      rcases hrest : adoptAll device catalog rest survey₁ (g.adopt catalog r s).2 with
        ⟨fault | others, survey₂, g₂⟩ <;> rw [hrest] at h <;> cases h
      obtain ⟨hroutes, new, hloggers, hnew, hoffsets⟩ := ih hrest
      refine ⟨congrArg (r.ids :: ·) hroutes,
        ⟨.invalid, s.atOffset 0, .ofIds r.ids, g.mail.next⟩ :: new, ?_, ?_,
        List.forall_mem_cons.2 ⟨congrArg Shape.offset (Signal.shape_atOffset s 0), hoffsets⟩⟩
      · rw [hloggers]
        exact List.append_assoc _ _ _
      · rw [List.map_cons, hnew, LoggerEntry.ids, MergeQueue.ids_ofIds]
        rfl

theorem Graph.loggers_enterRebuilt (g : Graph) (rebuilt : List (UInt8 × Rebuilt)) :
    (g.enterRebuilt rebuilt).loggers = g.loggers := by
  induction rebuilt generalizing g with
  | nil => rfl
  | cons x rest ih =>
    refine (ih _).trans ?_
    dsimp only
    split <;> rfl

/-- Of consumers without a common id, one has an id that is among theirs. -/
theorem exists_one_consumer {consumers : List LoggerEntry} {id : UInt8}
    (hids : (consumers.map LoggerEntry.ids).flatten.Nodup)
    (hid : id ∈ (consumers.map LoggerEntry.ids).flatten) :
    ∃ e ∈ consumers, consumers.filter (fun e => e.ids.contains id) = [e] := by
  induction consumers with
  | nil => cases hid
  | cons e rest ih =>
    rw [List.map_cons, List.flatten_cons] at hids hid
    obtain ⟨-, hrest, happart⟩ := List.nodup_append'.1 hids
    by_cases he : id ∈ e.ids
    · refine ⟨e, List.mem_cons_self, ?_⟩
      rw [List.filter_cons, if_pos (List.contains_iff_mem.2 he), List.cons_inj_right,
        List.filter_eq_nil_iff]
      intro e' he' hboth
      exact happart he (List.mem_flatten.2
        ⟨e'.ids, List.mem_map_of_mem he', List.contains_iff_mem.1 hboth⟩)
    · obtain ⟨e', he', hone⟩ := ih hrest ((List.mem_append.1 hid).resolve_left he)
      refine ⟨e', List.mem_cons_of_mem _ he', ?_⟩
      rw [List.filter_cons, if_neg (fun h => he (List.contains_iff_mem.1 h)), hone]

/-! ## A second survey

The loggers that were new are known now, and those that were not new lie behind a free place that
the host did not have.  Neither has become new.
-/

/-- A graph that has gained the loggers that were new to it has none left to gain. -/
theorem not_isNew_of_adopted
    (h : ∀ id, g'.hasLogger id = true ↔ g.hasLogger id = true ∨ b.IsNew g id) (id : UInt8) :
    ¬b.IsNew g' id := by
  intro hnew
  -- it was not new before, so there was a free place below it, which is free still
  have hold : g.hasLogger id = false ∧ ¬b.IsNew g id := by
    have hunknown := hnew.unknown
    rw [← Bool.not_eq_true, h, not_or, Bool.not_eq_true] at hunknown
    exact hunknown
  refine hold.2 ⟨hnew.low, hnew.logs, hold.1, fun j hj hfree => ?_⟩
  by_contra htaken
  refine htaken (hnew.before j hj ?_)
  rw [← Bool.not_eq_true, h, not_or]
  refine ⟨by simp [hfree], fun hj => htaken ?_⟩
  obtain ⟨s, hs⟩ := Option.isSome_iff_exists.1 hj.logs
  exact SimulatedBoard.contains_of_logger? hs

theorem SimulatedBoard.newLoggers_eq_nil (h : ∀ id, ¬b.IsNew g id) :
    b.newLoggers g loggerIds = [] :=
  List.eq_nil_iff_forall_not_mem.2 fun s hs => h s.id (mem_newLoggers.1 hs).1

/-- Nothing is asked if the graph has all loggers. -/
theorem readLoggers_known {ids : List UInt8} (h : ∀ id ∈ ids, g.hasLogger id = true) (l : Link) :
    readLoggers g ids l = (.ok [], l) := by
  induction ids with
  | nil => rfl
  | cons id rest ih =>
    obtain ⟨hid, hrest⟩ := List.forall_mem_cons.1 h
    rw [readLoggers, if_pos hid]
    exact ih hrest

/-- The table of loggers can be read over a link that refuses nothing. -/
theorem Link.Reads.exists_readLoggers {l : Link} (h : l.Reads b) (g : Graph) (ids : List UInt8) :
    ∃ sources l', readLoggers g ids l = (.ok sources, l') := by
  induction ids generalizing l with
  | nil => exact ⟨[], l, rfl⟩
  | cons id rest ih =>
    rw [readLoggers]
    split
    · exact ih h
    · obtain ⟨l₁, hslot, hreads⟩ := readLogger_answer h id
      rw [bind_apply_ok hslot]
      cases LoggerSlot.ofReply id ((TableRead.logger id).answer b) with
      | tableEnd => exact ⟨[], l₁, rfl⟩
      | empty => exact ih hreads
      | used s =>
        obtain ⟨sources, l₂, hl₂⟩ := ih hreads
        exact ⟨_, l₂, bind_apply_ok hl₂⟩

/-! ## Surveys -/

theorem SimulatedBoard.named_of_mem {s : LoggerSource} (hs : s ∈ b.newLoggers g loggerIds) :
    s.Named := named_of_logger? (mem_newLoggers.1 hs).2

theorem SimulatedBoard.mem_ids_newLoggers {id : UInt8} :
    id ∈ (b.newLoggers g loggerIds).map LoggerSource.id ↔ b.IsNew g id := by
  rw [List.mem_map]
  constructor
  · rintro ⟨s, hs, rfl⟩
    exact (mem_newLoggers.1 hs).1
  · intro hnew
    obtain ⟨s, hs⟩ := Option.isSome_iff_exists.1 hnew.logs
    obtain rfl := id_of_logger? hs
    exact ⟨s, mem_newLoggers.2 ⟨hnew, hs⟩, rfl⟩

theorem SimulatedBoard.ascending_ids_newLoggers (b : SimulatedBoard) (g : Graph) :
    ((b.newLoggers g loggerIds).map LoggerSource.id).Pairwise (· < ·) :=
  List.pairwise_map.2 (b.newLoggers_ascending g)

/-- What a survey that succeeds has done: it has subscribed to the new loggers, and either asked for
none or left the link at rest. -/
theorem adoptLoggers_succeeded {station after : Station} {routes : List AnonymousRoute}
    (hfaces : station.link.Faces b)
    (h : adoptLoggers device catalog station = (.ok routes, after)) :
    after.link.Faces b ∧
      ((∀ id ∈ loggerIds, station.graph.hasLogger id = true) ∨ after.link.Rests b) ∧
      routes.map AnonymousRoute.logIds =
        (groupLoggers (b.newLoggers station.graph loggerIds)).map LoggedRange.ids ∧
      ∃ new, after.graph.loggers = station.graph.loggers ++ new ∧
        new.map LoggerEntry.ids =
          (groupLoggers (b.newLoggers station.graph loggerIds)).map LoggedRange.ids ∧
        ∀ e ∈ new, e.signal.shape.offset = 0 := by
  have hread := leads_readLoggers_new station.graph loggerIds station.link hfaces.asked
  rw [adoptLoggers] at h
  rcases hsources : readLoggers station.graph loggerIds station.link with ⟨fault | sources, l⟩ <;>
    rw [hsources] at h hread
  · cases h
  · obtain ⟨read, hlink, -, hnone, rfl⟩ := hread
    have hbegin := Survey.knows_empty (d := device) hlink
    dsimp only at h
    rcases hall : adoptAll device catalog (groupLoggers (b.newLoggers station.graph loggerIds))
        ⟨l, .empty⟩ station.graph with ⟨fault | routes', survey, g⟩ <;> rw [hall] at h <;> cases h
    obtain ⟨⟨processors, hknows, -⟩, -⟩ := adoptAll_walks hbegin.learns hall
    obtain ⟨hroutes, new, hloggers, hnew⟩ := adoptAll_succeeded hall
    refine ⟨hknows.link.faces, ?_, hroutes, new, ?_, hnew⟩
    · by_cases hempty : read = []
      · exact .inl (hnone hempty)
      · exact .inr (hknows.link.rests (by simp [hempty]))
    · rw [← hloggers]
      exact Graph.loggers_enterRebuilt _ _

section

variable {new : List LoggerEntry} (hloggers : g'.loggers = g.loggers ++ new)
  (hids : (new.map LoggerEntry.ids).flatten = (b.newLoggers g loggerIds).map LoggerSource.id)
include hloggers hids

/-- The loggers of a graph after a survey are those before and the new ones. -/
theorem hasLogger_iff_of_adopted (id : UInt8) :
    g'.hasLogger id = true ↔ g.hasLogger id = true ∨ b.IsNew g id := by
  have hnew : (∃ e ∈ new, id ∈ e.ids) ↔ b.IsNew g id := by
    rw [← SimulatedBoard.mem_ids_newLoggers, ← hids, List.mem_flatten]
    simp only [List.mem_map, exists_exists_and_eq_and]
  rw [Graph.hasLogger_iff, Graph.hasLogger_iff, hloggers, ← hnew]
  simp only [List.mem_append, or_and_right, exists_or]

/-- Each new logger has one consumer, and it came with the survey. -/
theorem exists_one_of_adopted {id : UInt8} (hid : b.IsNew g id) :
    ∃ e ∈ new, g'.loggers.filter (fun e => e.ids.contains id) = [e] := by
  have hmem : id ∈ (new.map LoggerEntry.ids).flatten :=
    hids ▸ SimulatedBoard.mem_ids_newLoggers.2 hid
  have hnodup : (new.map LoggerEntry.ids).flatten.Nodup :=
    hids ▸ (b.ascending_ids_newLoggers g).imp fun hlt => UInt8.ne_of_lt hlt
  obtain ⟨e, he, hone⟩ := exists_one_consumer hnodup hmem
  -- the consumers that there were do not have it
  have hold : g.loggers.filter (fun e => e.ids.contains id) = [] := by
    refine List.filter_eq_nil_iff.2 fun e he hcontains => ?_
    have hknown := (Graph.hasLogger_iff _ id).2 ⟨e, he, List.contains_iff_mem.1 hcontains⟩
    rw [hid.unknown] at hknown
    cases hknown
  exact ⟨e, he, by rw [hloggers, List.filter_append, hold, hone, List.nil_append]⟩

end

/-- A survey with nothing new to find changes nothing, and succeeds if it can ask. -/
theorem adoptLoggers_of_nothing_new (device : Device) (catalog : Catalog) {station : Station}
    (hfaces : station.link.Faces b) (hnone : ∀ id, ¬b.IsNew station.graph id) :
    (adoptLoggers device catalog station).2.graph = station.graph ∧
      ((∀ id ∈ loggerIds, station.graph.hasLogger id = true) ∨ station.link.Reads b →
        (adoptLoggers device catalog station).1 = .ok []) := by
  have hread := leads_readLoggers_new station.graph loggerIds station.link hfaces.asked
  rw [adoptLoggers]
  rcases hsources : readLoggers station.graph loggerIds station.link with ⟨fault | sources, l⟩ <;>
    rw [hsources] at hread
  · refine ⟨rfl, fun hcan => ?_⟩
    rcases hcan with hknown | hreads
    · rw [readLoggers_known hknown] at hsources
      cases hsources
    · obtain ⟨sources, l', hok⟩ := hreads.exists_readLoggers station.graph loggerIds
      rw [hok] at hsources
      cases hsources
  · obtain ⟨read, -, -, -, rfl⟩ := hread
    rw [SimulatedBoard.newLoggers_eq_nil hnone]
    exact ⟨rfl, fun _ => rfl⟩

namespace Host

/-- **A survey that succeeds takes up every logger once.**  The loggers of its routes, one route after
the other, are the new ones in the order of their ids.  Those of one route read one address, each
from where the one before ends, at a multiple of four bytes from the first.  Each has one consumer,
whose signal starts at offset 0.  And a second survey finds nothing and changes nothing, though it
may still fail if the link refuses to ask. -/
theorem adoptLogs_complete {h after : Host} {routes : List AnonymousRoute}
    (hfaces : h.station.link.Faces b) (hrun : h.adoptLogs = (.ok routes, after)) :
    (((routes.map AnonymousRoute.logIds).flatten.Pairwise (· < ·)) ∧
      ∀ id, id ∈ (routes.map AnonymousRoute.logIds).flatten ↔ b.IsNew h.station.graph id) ∧
    (∀ route ∈ routes, ∃ loggers a offset,
      route.logIds = loggers.map LoggerSource.id ∧ loggers ≠ [] ∧
        (∀ s ∈ loggers, b.logger? s.id = some s) ∧ Contiguous a offset loggers) ∧
    (∀ id, b.IsNew h.station.graph id →
      ∃ e, after.station.graph.loggers.filter (fun e => e.ids.contains id) = [e] ∧
        e.signal.shape.offset = 0) ∧
    after.adoptLogs.2.station.graph = after.station.graph ∧
      (after.station.link.transport.refuse = 0 → after.adoptLogs.1 = .ok []) := by
  rcases hadopt : adoptLoggers h.settings.device h.catalog h.station with ⟨outcome, station⟩
  rw [adoptLogs, onStation, hadopt] at hrun
  cases hrun
  obtain ⟨hagain, hlink, hroutes, new, hloggers, hnew, hoffsets⟩ :=
    adoptLoggers_succeeded hfaces hadopt
  have hids := ids_groupLoggers fun s (hs : s ∈ b.newLoggers h.station.graph loggerIds) =>
    SimulatedBoard.named_of_mem hs
  have hhas := hasLogger_iff_of_adopted hloggers (hnew ▸ hids)
  have hsecond := adoptLoggers_of_nothing_new h.settings.device h.catalog hagain
    (not_isNew_of_adopted hhas)
  refine ⟨?_, fun route hroute => ?_, fun id hid => ?_, hsecond.1, fun hrefuse => hsecond.2 ?_⟩
  · rw [hroutes, hids]
    exact ⟨b.ascending_ids_newLoggers _, fun id => SimulatedBoard.mem_ids_newLoggers⟩
  · have hrange := List.mem_map_of_mem (f := AnonymousRoute.logIds) hroute
    rw [hroutes, List.mem_map] at hrange
    obtain ⟨r, hr, hlogs⟩ := hrange
    obtain ⟨part, hcovers, hpart⟩ :=
      exists_part_of_mem (fun s hs => SimulatedBoard.named_of_mem hs) hr
    exact ⟨part, r.address, r.offset, hlogs ▸ hcovers.ids, hcovers.nonempty,
      fun s hs => (SimulatedBoard.mem_newLoggers.1 (hpart s hs)).2, hcovers.contiguous⟩
  · obtain ⟨e, he, hone⟩ := exists_one_of_adopted hloggers (hnew ▸ hids) hid
    exact ⟨e, hone, hoffsets e he⟩
  · exact hlink.imp (fun hknown id hid => (hhas id).2 (.inl (hknown id hid)))
      fun hrests => hrests.reads hrefuse

/-- A board with a logger of the switch, two of the acceleration, and nothing at the next place. -/
def threeLoggers : SimulatedBoard :=
  { SimulatedBoard.start .standard with
    loggers := ⟨[(0, [0x01, 0x01, 0xff, 0x00]), (1, [0x03, 0x04, 0xff, 0x60]),
      (2, [0x03, 0x04, 0xff, 0x24]), (4, [0x01, 0x01, 0xff, 0x00])]⟩ }

/-- The logger behind the free place is not found, and a second survey finds nothing more. -/
theorem adoptLogs_complete_threeLoggers :
    (atRest .standard (.toBoard threeLoggers) 0).station.link.Faces threeLoggers ∧
      ∃ routes after,
        (atRest .standard (.toBoard threeLoggers) 0).adoptLogs = (.ok routes, after) ∧
          4 ∉ (routes.map AnonymousRoute.logIds).flatten ∧ after.adoptLogs.1 = .ok [] := by
  have hfaces : (atRest .standard (.toBoard threeLoggers) 0).station.link.Faces threeLoggers :=
    ⟨⟨_, rfl, rfl, rfl⟩, rfl, rfl, fun _ h => nomatch h⟩
  refine ⟨hfaces, ?_⟩
  rcases hadopt : (atRest .standard (.toBoard threeLoggers) 0).adoptLogs with
    ⟨fault | routes, after⟩
  · have hsucceeds : (atRest .standard (.toBoard threeLoggers) 0).adoptLogs.1.toOption.isSome
        = true := by decide +kernel
    rw [hadopt] at hsucceeds
    cases hsucceeds
  · obtain ⟨⟨-, hfound⟩, -, -, -, hsecond⟩ := adoptLogs_complete hfaces hadopt
    refine ⟨routes, after, rfl, fun hmem => ?_, hsecond ?_⟩
    · have hbefore := ((hfound 4).1 hmem).before 3 (by decide) (by decide)
      exact absurd hbefore (by decide)
    · have hrefuse : (atRest .standard (.toBoard threeLoggers)
          0).adoptLogs.2.station.link.transport.refuse = 0 := by decide +kernel
      rwa [hadopt] at hrefuse

end Host
end SignalRoute
