import Mathlib.Algebra.GroupWithZero.Nat
import SignalRoute.Proofs.Route.Programming
import SignalRoute.Proofs.Signal.Copies

/-!
# What a plan is given

`Plan.Met p made loggers` says that `made` is what the plan `p` asks for: its stages, each behind
those before it, the loggers of its logs, chunk by chunk, an event for each of its commands to run,
and then as many as it has operands to feed.

`leads_program` is the specification of `Plan.program`: on a wired board it either meets the plan,
and then nothing stood in its way, or it stops at a site whose records are right.

`Plan.Met` is written down list by list, as the program goes, so that each phase of programming adds
one field to what is known.  The counts are there because the board's limits are counts: what stands
in the way of a plan is compared with how much it asks for.
-/

set_option autoImplicit false

namespace SignalRoute

/-! ## What a plan asks for

Counts and contents are kept apart.  A board runs out of ids or stops answering at some number of
creations, whatever is in them, while what was built is told by the rows of its tables.
-/

namespace Plan

/-- One logger per four bytes of each logged signal. -/
def loggerCount (p : Plan) : Nat := (p.logs.map fun c => c.signal.logChunks.length).sum

/-- One event per command to run and per operand to feed. -/
def eventCount (p : Plan) : Nat :=
  (p.reactions.map fun r => r.commands.length).sum + p.feedback.length

/-- How many live outputs have to be switched on. -/
def switchCount (p : Plan) : Nat := p.streams.countP fun c => c.signal.isOutput

/-- How many creations the board is asked for. -/
def createCount (p : Plan) : Nat := p.stages.length + p.loggerCount + p.eventCount

/-- How many commands are written: an event takes two. -/
def writeCount (p : Plan) : Nat := p.createCount + (p.eventCount + p.switchCount)

end Plan

/-- Stages as they were created, each behind those before it. -/
inductive StagesPlaced : List PlannedStage → List Placed → Prop
  | nil : StagesPlaced [] []
  | concat {stages : List PlannedStage} {placed : List Placed} (h : StagesPlaced stages placed)
      (stage : PlannedStage) (id : UInt8) :
      StagesPlaced (stages ++ [stage]) (placed ++ [Programming.placing stage placed id])

theorem StagesPlaced.length_eq {stages : List PlannedStage} {placed : List Placed}
    (h : StagesPlaced stages placed) : placed.length = stages.length := by
  induction h with
  | nil => rfl
  | concat h stage id ih => rw [List.length_append, List.length_append, ih]; rfl

/-- The last stage was created behind the others. -/
theorem StagesPlaced.of_concat {stages : List PlannedStage} {stage : PlannedStage}
    {placed : List Placed} (h : StagesPlaced (stages ++ [stage]) placed) :
    ∃ before id, StagesPlaced stages before ∧
      placed = before ++ [Programming.placing stage before id] := by
  generalize hall : stages ++ [stage] = all at h
  cases h with
  | nil => exact absurd hall (List.append_ne_nil_of_right_ne_nil _ (List.cons_ne_nil _ _))
  | concat h stage' id =>
    obtain ⟨rfl, hlast⟩ := List.append_inj' hall rfl
    obtain rfl := List.head_eq_of_cons_eq hlast
    exact ⟨_, id, h, rfl⟩

/-- Each stage was created behind those before it. -/
theorem StagesPlaced.getElem?_placing {stages : List PlannedStage} {placed : List Placed}
    (h : StagesPlaced stages placed) {i : Nat} {stage : PlannedStage}
    (hi : stages[i]? = some stage) :
    ∃ id, placed[i]? = some (Programming.placing stage (placed.take i) id) := by
  induction h with
  | nil => cases hi
  | @concat stages placed h last id ih =>
    have hlength := h.length_eq
    rcases Nat.lt_or_ge i stages.length with hlt | hge
    · rw [List.getElem?_append_left hlt] at hi
      obtain ⟨id', hp⟩ := ih hi
      refine ⟨id', ?_⟩
      rwa [List.getElem?_append_left (by omega), List.take_append_of_le_length (by omega)]
    · rw [List.getElem?_append_right hge, List.getElem?_singleton] at hi
      split at hi
      · rename_i hzero
        cases hi
        obtain rfl : i = placed.length := by omega
        refine ⟨id, ?_⟩
        rw [List.take_left' rfl]
        exact List.getElem?_concat_length
      · cases hi

/-- A board can give ids to any stages. -/
theorem exists_stagesPlaced (stages : List PlannedStage) :
    ∃ placed, StagesPlaced stages placed := by
  induction stages using List.reverseRecOn with
  | nil => exact ⟨[], .nil⟩
  | append_singleton stages stage ih =>
    obtain ⟨placed, hplaced⟩ := ih
    exact ⟨_, hplaced.concat stage 0⟩

/-- What the board stores for the loggers of a signal. -/
def Signal.logRows (s : Signal) : List Bytes := s.logChunks.map s.logRow

/-- Logs with the ids and the rows of their loggers. -/
structure LogsMade (logs : List Cursor) (placed : List Placed) (loggers : List (List UInt8))
    (rows : List (UInt8 × Bytes)) : Prop where
  ids : rows.map Prod.fst = loggers.flatten
  contents : rows.map Prod.snd = logs.flatMap fun c => (c.resolve placed).logRows
  lengths : loggers.map List.length = logs.map fun c => c.signal.logChunks.length

/-- What the board stores for a command to be run whenever a signal comes in. -/
def Signal.reactionRow (s : Signal) (c : Command) : BoardEvent :=
  ⟨s.address.toBytes ++ [c.module, c.register, UInt8.ofNat c.payload.length], c.payload⟩

/-- What the board stores for reactions. -/
def reactionRows (reactions : List Reaction) (placed : List Placed) : List BoardEvent :=
  reactions.flatMap fun r => r.commands.map (r.source.resolve placed).reactionRow

/-- `made` is what the plan asks for. -/
structure Plan.Met (p : Plan) (made : Creations) (loggers : List (List UInt8)) : Prop where
  stages : StagesPlaced p.stages made.placed
  logs : LogsMade p.logs made.placed loggers made.loggers
  events : made.events.length = p.eventCount
  reactions : reactionRows p.reactions made.placed <+: made.events.map Prod.snd

theorem LogsMade.length_eq {logs : List Cursor} {placed : List Placed}
    {loggers : List (List UInt8)} {rows : List (UInt8 × Bytes)}
    (h : LogsMade logs placed loggers rows) :
    rows.length = (logs.map fun c => c.signal.logChunks.length).sum := by
  rw [← h.lengths, ← List.length_flatten, ← h.ids, List.length_map]

theorem Plan.Met.count_eq {p : Plan} {made : Creations} {loggers : List (List UInt8)}
    (h : p.Met made loggers) : made.count = p.createCount := by
  rw [Creations.count, h.stages.length_eq, h.logs.length_eq, h.events]
  rfl

/-! ## The phases

Stages, logs, reactions, feedback, streams.  Each is a loop over a list of the plan, and its
invariant is the part of `Plan.Met` up to the element that comes next.
-/

namespace Programming

variable {start : Link} {b : SimulatedBoard} {made : Creations} {others : Nat}

theorem leads_createStages (stages : List PlannedStage) :
    Leads (Site.Onward start b .none 0) (stages.forM createStage)
      (fun _ s => ∃ placed, StagesPlaced stages placed ∧
        s.Onward start b ⟨placed, [], []⟩ 0)
      (fun _ => Site.Astray start b) := by
  refine (Leads.forM (fun done s => ∃ placed, StagesPlaced done placed ∧
    s.Onward start b ⟨placed, [], []⟩ 0) stages ?_).weaken
      (fun s hs => ⟨[], .nil, hs⟩) (fun _ _ hs => hs) (fun _ _ hs => hs)
  rintro done stage rest - s ⟨placed, hplaced, hs⟩
  refine (leads_createStage stage).weaken (fun _ h => h) ?_ (fun _ _ h => h) s hs
  rintro - s' ⟨id, hs'⟩
  exact ⟨_, hplaced.concat stage id, hs'⟩

/-- The loggers of one signal, chunk by chunk. -/
theorem leads_createLoggers (signal : Signal) (chunks : List (UInt8 × UInt8)) :
    Leads (Site.Onward start b made others) (chunks.mapM (createLogger signal))
      (fun ids s => ∃ rows, rows.map Prod.fst = ids ∧
        rows.map Prod.snd = chunks.map signal.logRow ∧
        s.Onward start b { made with loggers := made.loggers ++ rows } others)
      (fun _ => Site.Astray start b) := by
  refine (Leads.mapM (fun done ids s => ∃ rows, rows.map Prod.fst = ids ∧
    rows.map Prod.snd = done.map signal.logRow ∧
    s.Onward start b { made with loggers := made.loggers ++ rows } others) chunks ?_).weaken
      (fun s hs => ⟨[], rfl, rfl, ?_⟩) (fun _ _ hs => hs) (fun _ _ hs => hs)
  · rintro done ids chunk rest - s ⟨rows, hids, hcontents, hs⟩
    refine (leads_createLogger signal chunk).weaken (fun _ h => h) ?_ (fun _ _ h => h) s hs
    intro id s' hs'
    refine ⟨rows ++ [(id, signal.logRow chunk)], ?_, ?_, ?_⟩
    · rw [List.map_append, hids]
      rfl
    · rw [List.map_append, hcontents, List.map_append]
      rfl
    · rwa [← List.append_assoc]
  · rwa [List.append_nil]

theorem leads_createLog (c : Cursor) :
    Leads (Site.Onward start b made others) (createLog c)
      (fun ids s => ∃ rows, rows.map Prod.fst = ids ∧
        rows.map Prod.snd = (c.resolve made.placed).logRows ∧
        s.Onward start b { made with loggers := made.loggers ++ rows } others)
      (fun _ => Site.Astray start b) := by
  intro s hs
  obtain ⟨now, commands, ht, hu⟩ := hs
  rw [createLog, get_bind_apply, ht.placed]
  exact leads_createLoggers _ _ s ⟨now, commands, ht, hu⟩

theorem leads_createLogs (logs : List Cursor) (placed : List Placed) :
    Leads (Site.Onward start b ⟨placed, [], []⟩ 0) (logs.mapM createLog)
      (fun loggers s => ∃ rows, LogsMade logs placed loggers rows ∧
        s.Onward start b ⟨placed, rows, []⟩ 0)
      (fun _ => Site.Astray start b) := by
  refine (Leads.mapM (fun done loggers s => ∃ rows, LogsMade done placed loggers rows ∧
    s.Onward start b ⟨placed, rows, []⟩ 0) logs ?_).weaken
      (fun s hs => ⟨[], ⟨rfl, rfl, rfl⟩, hs⟩) (fun _ _ hs => hs) (fun _ _ hs => hs)
  rintro done loggers c rest - s ⟨rows, hrows, hs⟩
  refine (leads_createLog c).weaken (fun _ h => h) ?_ (fun _ _ h => h) s hs
  rintro ids s' ⟨more, hids, hcontents, hs'⟩
  refine ⟨rows ++ more, ⟨?_, ?_, ?_⟩, hs'⟩
  · rw [List.map_append, hrows.ids, hids, List.flatten_append, List.flatten_singleton]
  · rw [List.map_append, hrows.contents, hcontents, List.flatMap_append, List.flatMap_singleton]
  · rw [List.map_append, hrows.lengths, List.map_append, List.map_singleton, List.map_singleton,
      ← hids, List.length_map, ← List.length_map Prod.snd, hcontents, Signal.logRows,
      List.length_map, Cursor.logChunks_resolve]

/-- Sites with events that the board stores as `rows`. -/
def WithEvents (start : Link) (b : SimulatedBoard) (made : Creations) (rows : List BoardEvent)
    (s : Site) : Prop :=
  ∃ events, events.map Prod.snd = rows ∧
    s.Onward start b { made with events := events } rows.length

theorem leads_createEvent_withEvents (row : BoardEvent) (rows : List BoardEvent) :
    Leads (WithEvents start b made rows) (createEvent row.entry row.parameters)
      (fun _ => WithEvents start b made (rows ++ [row])) (fun _ => Site.Astray start b) := by
  rintro s ⟨events, hrows, hs⟩
  refine (leads_createEvent row.entry row.parameters).weaken (fun _ h => h) ?_ (fun _ _ h => h) s hs
  rintro - s' ⟨id, hs'⟩
  refine ⟨events ++ [(id, row)], ?_, ?_⟩
  · rw [List.map_append, hrows]
    rfl
  · rwa [List.length_append]

theorem leads_createReaction (r : Reaction) (rows : List BoardEvent) :
    Leads (WithEvents start b made rows) (createReaction r)
      (fun _ => WithEvents start b made
        (rows ++ r.commands.map (r.source.resolve made.placed).reactionRow))
      (fun _ => Site.Astray start b) := by
  intro s hs
  have hplaced : s.placed = made.placed := by
    obtain ⟨events, -, now, commands, ht, -⟩ := hs
    exact ht.placed
  rw [createReaction, get_bind_apply, hplaced]
  refine Leads.forM (fun done => WithEvents start b made
    (rows ++ done.map (r.source.resolve made.placed).reactionRow)) r.commands ?_ s (by simpa using hs)
  intro done c rest _
  rw [List.map_append, ← List.append_assoc]
  exact leads_createEvent_withEvents ((r.source.resolve made.placed).reactionRow c) _

theorem leads_createReactions (reactions : List Reaction) :
    Leads (WithEvents start b made []) (reactions.forM createReaction)
      (fun _ => WithEvents start b made (reactionRows reactions made.placed))
      (fun _ => Site.Astray start b) := by
  refine Leads.forM (fun done => WithEvents start b made (reactionRows done made.placed))
    reactions ?_
  intro done r rest _
  refine (leads_createReaction r _).weaken (fun _ h => h) ?_ (fun _ _ h => h)
  intro _ s' hs'
  rwa [reactionRows, List.flatMap_append, List.flatMap_singleton]

theorem leads_createFeedback (f : Feedback) (rows : List BoardEvent) :
    Leads (WithEvents start b made rows) (createFeedback f)
      (fun _ s => ∃ row, WithEvents start b made (rows ++ [row]) s)
      (fun _ => Site.Astray start b) := by
  intro s hs
  rw [createFeedback, get_bind_apply]
  cases htarget : s.placed[f.stage]? with
  | none =>
    obtain ⟨events, -, hs⟩ := hs
    exact hs.astray
  | some target =>
    refine (leads_createEvent_withEvents ⟨_, _⟩ rows).weaken (fun _ h => h) ?_ (fun _ _ h => h) s hs
    exact fun _ s' hs' => ⟨_, hs'⟩

theorem leads_createFeedbacks (feedback : List Feedback) (rows : List BoardEvent) :
    Leads (WithEvents start b made rows) (feedback.forM createFeedback)
      (fun _ s => ∃ fed, fed.length = feedback.length ∧ WithEvents start b made (rows ++ fed) s)
      (fun _ => Site.Astray start b) := by
  refine (Leads.forM (fun done s => ∃ fed, fed.length = done.length ∧
    WithEvents start b made (rows ++ fed) s) feedback ?_).weaken
      (fun s hs => ⟨[], rfl, by simpa using hs⟩) (fun _ _ hs => hs) (fun _ _ hs => hs)
  rintro done f rest - s ⟨fed, hlength, hs⟩
  refine (leads_createFeedback f _).weaken (fun _ h => h) ?_ (fun _ _ h => h) s hs
  rintro - s' ⟨row, hs'⟩
  refine ⟨fed ++ [row], ?_, ?_⟩
  · rw [List.length_append, List.length_append, hlength]
    rfl
  · rwa [← List.append_assoc]

theorem length_reactionRows (reactions : List Reaction) (placed : List Placed) :
    (reactionRows reactions placed).length = (reactions.map fun r => r.commands.length).sum := by
  rw [reactionRows, List.length_flatMap]
  simp

theorem leads_enableStream (c : Cursor) :
    Leads (Site.Onward start b made others) (enableStream c)
      (fun _ => Site.Onward start b made (others + if c.signal.isOutput then 1 else 0))
      (fun _ => Site.Astray start b) := by
  intro s hs
  rw [enableStream, get_bind_apply, Cursor.isOutput_resolve]
  by_cases hout : c.signal.isOutput = true
  · rw [if_pos hout, if_pos hout]
    refine (leads_send (R := fun _ => True) rfl fun now =>
      ⟨_, now.handle_notifyCommand _, ⟨rfl, rfl, rfl, rfl, rfl⟩, rfl, rfl, trivial⟩).weaken
        (fun _ h => h) ?_ (fun _ _ h => h) s hs
    rintro - s' ⟨now, commands, ht, hu, -⟩
    exact ⟨now, commands, ht, hu⟩
  · rw [if_neg hout, if_neg hout]
    exact hs

theorem leads_enableStreams (streams : List Cursor) :
    Leads (Site.Onward start b made others) (streams.forM enableStream)
      (fun _ => Site.Onward start b made
        (others + streams.countP fun c => c.signal.isOutput))
      (fun _ => Site.Astray start b) := by
  refine Leads.forM (fun done => Site.Onward start b made
    (others + done.countP fun c => c.signal.isOutput)) streams ?_
  intro done c rest _
  refine (leads_enableStream c).weaken (fun _ h => h) ?_ (fun _ _ h => h)
  intro _ s' hs'
  rw [List.countP_append, List.countP_singleton, ← Nat.add_assoc]
  exact hs'

/-- **A program meets its plan, or it goes astray.** -/
theorem leads_program (p : Plan) :
    Leads (Site.Onward start b .none 0) p.program
      (fun loggers s => ∃ made, p.Met made loggers ∧
        s.Onward start b made (p.eventCount + p.switchCount))
      (fun _ => Site.Astray start b) := by
  refine (leads_createStages p.stages).bind fun _ => ?_
  rintro s ⟨placed, hplaced, hs⟩
  refine (leads_createLogs p.logs placed).bind (R := fun loggers s => ∃ made, p.Met made loggers ∧
    s.Onward start b made (p.eventCount + p.switchCount)) (fun loggers => ?_) s hs
  rintro s ⟨rows, hrows, hs⟩
  have hevents : WithEvents start b ⟨placed, rows, []⟩ [] s := ⟨[], rfl, hs⟩
  refine ((leads_createReactions p.reactions).bind fun _ =>
    (leads_createFeedbacks p.feedback _).bind
      (R := fun loggers s => ∃ made, p.Met made loggers ∧
        s.Onward start b made (p.eventCount + p.switchCount)) fun _ => ?_) s hevents
  rintro s ⟨fed, hfed, events, hcontents, hs⟩
  have hcount : events.length = p.eventCount := by
    rw [← List.length_map Prod.snd, hcontents, List.length_append, length_reactionRows, hfed]
    rfl
  rw [← hcontents, List.length_map, hcount] at hs
  refine ((leads_enableStreams p.streams).bind
    (R := fun loggers s => ∃ made, p.Met made loggers ∧
      s.Onward start b made (p.eventCount + p.switchCount)) fun _ => ?_) s hs
  exact Leads.pure loggers fun s hs =>
    ⟨_, ⟨hplaced, hrows, hcount, fed, hcontents.symm⟩, hs⟩

end Programming
end SignalRoute
