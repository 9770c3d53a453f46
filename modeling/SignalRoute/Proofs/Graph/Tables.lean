import SignalRoute.Proofs.Board.Creation
import SignalRoute.Route.Realize

/-!
# What routes do to the tables of a graph

Entering a route puts its processors and events into the tables of the graph and appends the
consumers of its logs and its streams; forgetting it takes them out.  For each of these there is an
equation for each table here.  Names have a file of their own, and of mailboxes there is only what
each subscription to a log hears, and that forgetting leaves them alone.

`Graph.forget_fst` says which removals a route leads to: those of its ids that the graph still
had.

What an operation does to the table that it is about takes an induction of its own; that it leaves
the others alone is the same argument every time, and is made once for each operation, for any
function of the graph that does not look at the tables it changes.
-/

set_option autoImplicit false

namespace SignalRoute

theorem MergeQueue.ids_ofIds (ids : List UInt8) : (MergeQueue.ofIds ids).ids = ids := by
  rw [ofIds, MergeQueue.ids, List.map_map]
  exact List.map_id ids

/-- A subscription of a route receives what a consumer makes of the log, and is named after the
signal that the consumer decodes. -/
structure Subscription.Hears (route : RouteId) (catalog : Catalog) (sub : Subscription)
    (e : LoggerEntry) : Prop where
  mailbox : e.mailbox = sub.mailbox
  route : e.route = route
  signal : ∃ s : Signal, e.signal = s.atOffset 0 ∧ sub.identifier = s.identifierOr catalog s.address

namespace Graph

variable (g : Graph) (route : RouteId) (catalog : Catalog)

/-! ## What entering and forgetting keep

Each step of entering or forgetting a route changes one table of the graph, or two: a processor
brings its name along, and a stream or a log its mailbox.  Whatever depends on the others only is
the same afterwards.
-/

section Keeps

variable {α : Type} (f : Graph → α)

theorem enterStages_keeps
    (hf : ∀ (g : Graph) names processors,
      f { g with names := names, processors := processors } = f g)
    (stages : List (PlannedStage × Placed)) : f (g.enterStages route stages) = f g := by
  induction stages generalizing g with
  | nil => rfl
  | cons s rest ih => exact (ih _).trans (hf g _ _)

theorem enterStreams_keeps
    (hf : ∀ (g : Graph) mail streams, f { g with mail := mail, streams := streams } = f g)
    (signals : List Signal) : f (g.enterStreams route catalog signals).2 = f g := by
  induction signals generalizing g with
  | nil => rfl
  | cons s rest ih => exact (ih _).trans (hf g _ _)

theorem enterLogs_keeps
    (hf : ∀ (g : Graph) mail loggers, f { g with mail := mail, loggers := loggers } = f g)
    (logs : List (Signal × List UInt8)) : f (g.enterLogs route catalog logs).2 = f g := by
  induction logs generalizing g with
  | nil => rfl
  | cons log rest ih => exact (ih _).trans (hf g _ _)

theorem enterEvents_keeps (hf : ∀ (g : Graph) events, f { g with events := events } = f g)
    (ids : List UInt8) : f (g.enterEvents route ids) = f g := by
  induction ids generalizing g with
  | nil => rfl
  | cons id rest ih => exact (ih _).trans (hf g _)

theorem forgetProcessors_keeps
    (hf : ∀ (g : Graph) names processors,
      f { g with names := names, processors := processors } = f g)
    (ids : List UInt8) : f (g.forgetProcessors ids).2 = f g := by
  induction ids generalizing g with
  | nil => rfl
  | cons id rest ih =>
    refine (ih _).trans ?_
    rw [removeProcessor]
    split
    · rfl
    · exact hf g _ _

theorem removeLoggers_keeps (hf : ∀ (g : Graph) loggers, f { g with loggers := loggers } = f g)
    (ids : List UInt8) : f (ids.foldl removeLogger g) = f g := by
  induction ids generalizing g with
  | nil => rfl
  | cons id rest ih => exact (ih _).trans (hf g _)

theorem forgetEvents_keeps (hf : ∀ (g : Graph) events, f { g with events := events } = f g)
    (ids : List UInt8) : f (g.forgetEvents ids).2 = f g := by
  induction ids generalizing g with
  | nil => rfl
  | cons id rest ih => exact (ih _).trans (hf g _)

end Keeps

/-! ## Entering -/

theorem processors_enterStages (stages : List (PlannedStage × Placed)) :
    (g.enterStages route stages).processors =
      g.processors.insertAll (stages.map fun s => (s.2.id, s.1.entry s.2 route)) := by
  induction stages generalizing g with
  | nil => rfl
  | cons s rest ih => exact ih _

theorem loggers_enterStages (stages : List (PlannedStage × Placed)) :
    (g.enterStages route stages).loggers = g.loggers :=
  g.enterStages_keeps route loggers (fun _ _ _ => rfl) stages

theorem events_enterStages (stages : List (PlannedStage × Placed)) :
    (g.enterStages route stages).events = g.events :=
  g.enterStages_keeps route events (fun _ _ _ => rfl) stages

theorem tables_enterStreams (signals : List Signal) :
    (g.enterStreams route catalog signals).2.processors = g.processors ∧
      (g.enterStreams route catalog signals).2.loggers = g.loggers ∧
      (g.enterStreams route catalog signals).2.events = g.events :=
  ⟨g.enterStreams_keeps route catalog processors (fun _ _ _ => rfl) signals,
    g.enterStreams_keeps route catalog loggers (fun _ _ _ => rfl) signals,
    g.enterStreams_keeps route catalog events (fun _ _ _ => rfl) signals⟩

theorem tables_enterLogs (logs : List (Signal × List UInt8)) :
    (g.enterLogs route catalog logs).2.processors = g.processors ∧
      (g.enterLogs route catalog logs).2.events = g.events :=
  ⟨g.enterLogs_keeps route catalog processors (fun _ _ _ => rfl) logs,
    g.enterLogs_keeps route catalog events (fun _ _ _ => rfl) logs⟩

/-- The consumers of logs own the ids of their loggers, and the subscriptions hear them. -/
theorem loggers_enterLogs (logs : List (Signal × List UInt8)) :
    ∃ news, (g.enterLogs route catalog logs).2.loggers = g.loggers ++ news ∧
      news.map LoggerEntry.ids = logs.map Prod.snd ∧
      List.Forall₂ (Subscription.Hears route catalog) (g.enterLogs route catalog logs).1 news := by
  induction logs generalizing g with
  | nil => exact ⟨[], (List.append_nil _).symm, rfl, .nil⟩
  | cons log rest ih =>
    obtain ⟨s, ids⟩ := log
    let entry : LoggerEntry := ⟨route, s.atOffset 0, .ofIds ids, g.mail.next⟩
    obtain ⟨news, hnews, hids, hhears⟩ := ih (g.rentMailbox.addLogger entry)
    refine ⟨entry :: news, ?_, ?_, .cons ⟨rfl, rfl, s, rfl, rfl⟩ hhears⟩
    · rw [enterLogs, hnews, addLogger, rentMailbox, List.append_assoc]
      rfl
    · rw [List.map_cons, hids, List.map_cons, LoggerEntry.ids, MergeQueue.ids_ofIds]

/-- Each consumer was there before, or it belongs to the route and owns the ids of one log. -/
theorem mem_loggers_enterLogs (logs : List (Signal × List UInt8)) {e : LoggerEntry}
    (he : e ∈ (g.enterLogs route catalog logs).2.loggers) :
    e ∈ g.loggers ∨ e.route = route ∧ ∃ log ∈ logs, e.ids = log.2 := by
  induction logs generalizing g with
  | nil => exact .inl he
  | cons log rest ih =>
    obtain ⟨s, ids⟩ := log
    rcases ih _ he with hold | ⟨hroute, log, hlog, hids⟩
    · rcases List.mem_append.1 hold with hold | hnew
      · exact .inl hold
      · obtain rfl := List.mem_singleton.1 hnew
        exact .inr ⟨rfl, _, List.mem_cons_self, MergeQueue.ids_ofIds ids⟩
    · exact .inr ⟨hroute, log, List.mem_cons_of_mem _ hlog, hids⟩

theorem events_enterEvents (ids : List UInt8) :
    (g.enterEvents route ids).events = g.events.insertAll (ids.map fun id => (id, route)) := by
  induction ids generalizing g with
  | nil => rfl
  | cons id rest ih => exact ih _

theorem tables_enterEvents (ids : List UInt8) :
    (g.enterEvents route ids).processors = g.processors ∧
      (g.enterEvents route ids).loggers = g.loggers :=
  ⟨g.enterEvents_keeps route processors (fun _ _ => rfl) ids,
    g.enterEvents_keeps route loggers (fun _ _ => rfl) ids⟩

variable (plan : Plan) (placed : List Placed) (loggers : List (List UInt8)) (events : List UInt8)

theorem processors_enter :
    (g.enter catalog route plan placed loggers events).2.processors =
      g.processors.insertAll
        ((plan.stages.zip placed).map fun s => (s.2.id, s.1.entry s.2 route)) := by
  rw [enter, (tables_enterEvents _ _ _).1, (tables_enterLogs _ _ _ _).1,
    (tables_enterStreams _ _ _ _).1, processors_enterStages]

/-- Each processor was there before, or it is a stage of the route. -/
theorem mem_processors_enter {e : ProcessorEntry}
    (he : e ∈ (g.enter catalog route plan placed loggers events).2.processors.values) :
    (∃ s ∈ plan.stages.zip placed, s.1.entry s.2 route = e) ∨ e ∈ g.processors.values := by
  rw [processors_enter] at he
  obtain ⟨x, hx, rfl⟩ := List.mem_map.1 he
  rcases IdTable.mem_insertAll hx with hentered | hold
  · obtain ⟨s, hs, rfl⟩ := List.mem_map.1 hentered
    exact .inl ⟨s, hs, rfl⟩
  · exact .inr (List.mem_map_of_mem hold)

theorem loggers_enter (hlength : loggers.length = plan.logs.length) :
    ∃ news, (g.enter catalog route plan placed loggers events).2.loggers = g.loggers ++ news ∧
      news.map LoggerEntry.ids = loggers ∧
      List.Forall₂ (Subscription.Hears route catalog)
        (g.enter catalog route plan placed loggers events).1.logs news := by
  rw [enter, (tables_enterEvents _ _ _).2]
  obtain ⟨news, hnews, hids, hhears⟩ := loggers_enterLogs
    ((g.enterStages route (plan.stages.zip placed)).enterStreams route catalog
      (plan.streams.map fun c => c.resolve placed)).2 route catalog
    ((plan.logs.map fun c => c.resolve placed).zip loggers)
  refine ⟨news, ?_, ?_, hhears⟩
  · rw [hnews, (tables_enterStreams _ _ _ _).2.1, loggers_enterStages]
  · rw [hids, List.map_snd_zip]
    exact Nat.le_of_eq (hlength.trans (List.length_map _).symm)

theorem mem_loggers_enter {e : LoggerEntry}
    (he : e ∈ (g.enter catalog route plan placed loggers events).2.loggers) :
    e ∈ g.loggers ∨ e.route = route ∧ e.ids ⊆ loggers.flatten := by
  rw [enter, (tables_enterEvents _ _ _).2] at he
  rcases mem_loggers_enterLogs _ _ _ _ he with hold | ⟨hroute, log, hlog, hids⟩
  · rw [(tables_enterStreams _ _ _ _).2.1, loggers_enterStages] at hold
    exact .inl hold
  · refine .inr ⟨hroute, fun id hid => ?_⟩
    exact List.mem_flatten_of_mem (List.of_mem_zip hlog).2 (hids ▸ hid)

theorem events_enter :
    (g.enter catalog route plan placed loggers events).2.events =
      g.events.insertAll (events.map fun id => (id, route)) := by
  rw [enter, events_enterEvents, (tables_enterLogs _ _ _ _).2, (tables_enterStreams _ _ _ _).2.2,
    events_enterStages]

/-- The streams of a route are the signals that it listens to. -/
theorem streams_enterStreams (signals : List Signal) :
    ∃ news, (g.enterStreams route catalog signals).2.streams = g.streams ++ news ∧
      news.map StreamEntry.signal = signals ∧ ∀ e ∈ news, e.route = route := by
  induction signals generalizing g with
  | nil => exact ⟨[], (List.append_nil _).symm, rfl, by simp⟩
  | cons s rest ih =>
    obtain ⟨news, hnews, hsignals, hroutes⟩ := ih (g.rentMailbox.addStream ⟨route, s, g.mail.next⟩)
    refine ⟨⟨route, s, g.mail.next⟩ :: news, ?_, ?_, ?_⟩
    · rw [enterStreams, hnews, addStream, rentMailbox, List.append_assoc]
      rfl
    · rw [List.map_cons, hsignals]
    · intro e he
      rcases List.mem_cons.1 he with rfl | he
      · rfl
      · exact hroutes e he

theorem streams_enter :
    ∃ news, (g.enter catalog route plan placed loggers events).2.streams = g.streams ++ news ∧
      news.map StreamEntry.signal = (plan.streams.map fun c => c.resolve placed) ∧
      ∀ e ∈ news, e.route = route := by
  rw [enter, enterEvents_keeps _ _ streams fun _ _ => rfl,
    enterLogs_keeps _ _ _ streams fun _ _ _ => rfl]
  obtain ⟨news, hnews, hrest⟩ := (g.enterStages route (plan.stages.zip placed)).streams_enterStreams
    route catalog (plan.streams.map fun c => c.resolve placed)
  exact ⟨news, by rw [hnews, enterStages_keeps _ _ streams fun _ _ _ => rfl], hrest⟩

/-! ## Forgetting -/

theorem processors_removeProcessor (id : UInt8) :
    (g.removeProcessor id).processors = g.processors.erase id := by
  rw [removeProcessor]
  split
  · rename_i h
    exact (IdTable.erase_of_find?_eq_none h).symm
  · rfl

theorem processors_forgetProcessors (ids : List UInt8) :
    (g.forgetProcessors ids).2.processors = ids.foldl IdTable.erase g.processors := by
  induction ids generalizing g with
  | nil => rfl
  | cons id rest ih =>
    rw [forgetProcessors, List.foldl_cons, ← processors_removeProcessor]
    exact ih _

theorem tables_forgetProcessors (ids : List UInt8) :
    (g.forgetProcessors ids).2.loggers = g.loggers ∧
      (g.forgetProcessors ids).2.events = g.events :=
  ⟨g.forgetProcessors_keeps loggers (fun _ _ _ => rfl) ids,
    g.forgetProcessors_keeps events (fun _ _ _ => rfl) ids⟩

/-- The processors that are forgotten are those that the graph had. -/
theorem forgetProcessors_fst (ids : List UInt8) :
    (g.forgetProcessors ids).1 = g.processors.found ids := by
  induction ids generalizing g with
  | nil => rfl
  | cons id rest ih =>
    rw [forgetProcessors, IdTable.found, ← processors_removeProcessor, ← ih]
    rfl

theorem events_forgetEvents (ids : List UInt8) :
    (g.forgetEvents ids).2.events = ids.foldl IdTable.erase g.events := by
  induction ids generalizing g with
  | nil => rfl
  | cons id rest ih => exact ih _

theorem tables_forgetEvents (ids : List UInt8) :
    (g.forgetEvents ids).2.processors = g.processors ∧
      (g.forgetEvents ids).2.loggers = g.loggers :=
  ⟨g.forgetEvents_keeps processors (fun _ _ => rfl) ids,
    g.forgetEvents_keeps loggers (fun _ _ => rfl) ids⟩

/-- The events that are forgotten are those that the graph had. -/
theorem forgetEvents_fst (ids : List UInt8) : (g.forgetEvents ids).1 = g.events.found ids := by
  induction ids generalizing g with
  | nil => rfl
  | cons id rest ih =>
    have hrest : _ = (g.events.erase id).found rest := ih (g.removeEvent id)
    rw [forgetEvents, IdTable.found, ← hrest]
    rfl

theorem loggers_foldl_removeLogger (ids : List UInt8) :
    (ids.foldl removeLogger g).loggers =
      g.loggers.filter fun e => ids.all fun id => !e.merge.contains id := by
  induction ids generalizing g with
  | nil => simp
  | cons id rest ih =>
    rw [List.foldl_cons, ih, removeLogger, List.filter_filter]
    refine List.filter_congr fun e _ => ?_
    rw [List.all_cons, Bool.and_comm]

theorem tables_foldl_removeLogger (ids : List UInt8) :
    (ids.foldl removeLogger g).processors = g.processors ∧
      (ids.foldl removeLogger g).events = g.events :=
  ⟨g.removeLoggers_keeps processors (fun _ _ => rfl) ids,
    g.removeLoggers_keeps events (fun _ _ => rfl) ids⟩

/-! ## Taking a route out -/

variable (r : Route)

/-- Forgetting a route asks for the removal of those of its ids that the graph still had. -/
theorem forget_fst :
    (g.forget r).1 = SimulatedBoard.removals (g.processors.found r.processors)
      (r.loggers.filter g.hasLogger) (g.events.found r.events) := by
  have hloggers : (g.forgetProcessors r.processors).2.hasLogger = g.hasLogger := by
    funext id
    rw [hasLogger, (g.tables_forgetProcessors r.processors).1, hasLogger]
  show SimulatedBoard.removals (g.forgetProcessors r.processors).1
    (r.loggers.filter (g.forgetProcessors r.processors).2.hasLogger)
    ((r.loggers.foldl removeLogger (g.forgetProcessors r.processors).2).forgetEvents
      r.events).1 = _
  rw [forgetProcessors_fst, hloggers, forgetEvents_fst, (tables_foldl_removeLogger _ _).2,
    (g.tables_forgetProcessors r.processors).2]

theorem forget_snd :
    (g.forget r).2 = ((r.loggers.foldl removeLogger
      (g.forgetProcessors r.processors).2).forgetEvents r.events).2.removeStreams r.id := rfl

theorem tables_removeStreams :
    (g.removeStreams route).processors = g.processors ∧
      (g.removeStreams route).loggers = g.loggers ∧ (g.removeStreams route).events = g.events :=
  ⟨rfl, rfl, rfl⟩

theorem processors_forget :
    (g.forget r).2.processors = r.processors.foldl IdTable.erase g.processors := by
  rw [forget_snd, (tables_removeStreams _ _).1, (tables_forgetEvents _ _).1,
    (tables_foldl_removeLogger _ _).1, processors_forgetProcessors]

theorem loggers_forget :
    (g.forget r).2.loggers =
      g.loggers.filter fun e => r.loggers.all fun id => !e.merge.contains id := by
  rw [forget_snd, (tables_removeStreams _ _).2.1, (tables_forgetEvents _ _).2,
    loggers_foldl_removeLogger, (tables_forgetProcessors _ _).1]

theorem events_forget :
    (g.forget r).2.events = r.events.foldl IdTable.erase g.events := by
  rw [forget_snd, (tables_removeStreams _ _).2.2, events_forgetEvents,
    (tables_foldl_removeLogger _ _).2, (tables_forgetProcessors _ _).2]

/-- To what depends on streams and mailboxes only, forgetting a route is dropping its streams. -/
theorem forget_keeps {α : Type} (f : Graph → α)
    (hf : ∀ (g : Graph) names processors loggers events,
      f { g with names := names, processors := processors, loggers := loggers, events := events } =
        f g) :
    f (g.forget r).2 = f (g.removeStreams r.id) := by
  rw [forget_snd]
  -- the steps before the last one are kept by what is seen through it
  let seen (g : Graph) : α := f (g.removeStreams r.id)
  calc seen ((r.loggers.foldl removeLogger (g.forgetProcessors r.processors).2).forgetEvents
        r.events).2
      = seen (r.loggers.foldl removeLogger (g.forgetProcessors r.processors).2) :=
        forgetEvents_keeps _ seen (fun g _ => hf (g.removeStreams r.id) _ _ _ _) _
    _ = seen (g.forgetProcessors r.processors).2 :=
        removeLoggers_keeps _ seen (fun g _ => hf (g.removeStreams r.id) _ _ _ _) _
    _ = seen g := forgetProcessors_keeps _ seen (fun g _ _ => hf (g.removeStreams r.id) _ _ _ _) _

theorem streams_forget :
    (g.forget r).2.streams = g.streams.filter fun e => e.route != r.id :=
  g.forget_keeps r streams fun _ _ _ _ _ => rfl

theorem mail_forget : (g.forget r).2.mail = g.mail :=
  g.forget_keeps r mail fun _ _ _ _ _ => rfl

end Graph
end SignalRoute
