import SignalRoute.Proofs.Board.Creation

/-!
# Boards that grow

`Creations` are what a plan has been given: processors, and the ids of loggers and events with what
the board stores under them.  `b.Grown commands made now` says that `commands` took the board `b` to
`now`, and that `made` is what was handed out on the way; it survives every command of programming.

* `Grown.undoing_eq`: the removals that undo what the board sent are those of what was created.
* `Grown.cleared`: these removals give back the tables of `b`.

Rows are what a creation writes into a table, and they are kept with the ids: that a route is on the
board as it was planned is a statement about these rows (`Proofs.Route.Programming`), and that it
can be taken off again is one about the ids alone.
-/

set_option autoImplicit false

namespace SignalRoute

/-- What the board stores for a processor. -/
def Placed.row (p : Placed) : UInt8 × BoardProcessor :=
  (p.id, ⟨p.source.address.toBytes ++ [packedSource p.source], p.processor.encode⟩)

/-- What the board stores for the logger of a chunk. -/
def Signal.logRow (s : Signal) (chunk : UInt8 × UInt8) : Bytes :=
  s.address.toBytes ++ [packRange chunk.2 (s.shape.offset + chunk.1)]

/-- What a plan has been given by a board, in the order of creation. -/
structure Creations where
  placed : List Placed
  loggers : List (UInt8 × Bytes)
  events : List (UInt8 × BoardEvent)

namespace Creations

def none : Creations := ⟨[], [], []⟩

/-- How many ids were handed out. -/
def count (made : Creations) : Nat :=
  made.placed.length + made.loggers.length + made.events.length

def withPlaced (made : Creations) (p : Placed) : Creations :=
  { made with placed := made.placed ++ [p] }

def withLogger (made : Creations) (id : UInt8) (row : Bytes) : Creations :=
  { made with loggers := made.loggers ++ [(id, row)] }

def withEvent (made : Creations) (id : UInt8) (row : BoardEvent) : Creations :=
  { made with events := made.events ++ [(id, row)] }

variable (made : Creations) (p : Placed) (id : UInt8)

@[simp] theorem count_withPlaced : (made.withPlaced p).count = made.count + 1 := by
  simp only [count, withPlaced, List.length_append, List.length_singleton]
  omega

@[simp] theorem count_withLogger (row : Bytes) :
    (made.withLogger id row).count = made.count + 1 := by
  simp only [count, withLogger, List.length_append, List.length_singleton]
  omega

@[simp] theorem count_withEvent (row : BoardEvent) :
    (made.withEvent id row).count = made.count + 1 := by
  simp only [count, withEvent, List.length_append, List.length_singleton]
  omega

end Creations

/-! ## Boards that grow

The fields of `SimulatedBoard.Grown` come in two groups.  The tables and what they handed out are
for those who look at the board; the ids that can be read off the answers are for the host.  The two
agree because of how they came about, and are never compared otherwise.
-/

namespace SimulatedBoard

/-- `commands`, none of which removes anything, took the board `b` to `now`, and `made` is what was
created and handed out on the way. -/
structure Grown (b : SimulatedBoard) (commands : List Bytes) (made : Creations)
    (now : SimulatedBoard) : Prop where
  sent : now.commands = b.commands ++ commands
  noRemoval : ∀ c ∈ commands, isRemoval c = false
  run : (b.run commands).2 = now
  processors : IdTable.Allocated tableSize b.processors (made.placed.map Placed.row) now.processors
  loggers : IdTable.Allocated tableSize b.loggers made.loggers now.loggers
  events : IdTable.Allocated tableSize b.events made.events now.events
  processorIds :
    idsIn Module.processor ProcessorReg.add (b.run commands).1 = made.placed.map Placed.id
  loggerIds : idsIn Module.logging LogReg.trigger (b.run commands).1 = made.loggers.map Prod.fst
  eventIds : idsIn Module.event EventReg.entry (b.run commands).1 = made.events.map Prod.fst

/-- A command that changes no table. -/
structure Unmoved (b : SimulatedBoard) (command : Bytes) (b' : SimulatedBoard) : Prop where
  sent : b'.commands = b.commands ++ [command]
  processors : b'.processors = b.processors
  loggers : b'.loggers = b.loggers
  events : b'.events = b.events
  connected : b'.connected = b.connected

namespace Grown

variable {b now now' : SimulatedBoard} {commands : List Bytes} {made : Creations} {command : Bytes}
  {id : UInt8}

theorem start (b : SimulatedBoard) : b.Grown [] .none b where
  sent := (List.append_nil _).symm
  noRemoval := by simp
  run := rfl
  processors := .start
  loggers := .start
  events := .start
  processorIds := rfl
  loggerIds := rfl
  eventIds := rfl

/-- The run after one more command. -/
theorem run_concat (h : b.Grown commands made now) {events : List LinkEvent}
    (hc : now.handle command = (events, now')) :
    b.run (commands ++ [command]) = ((b.run commands).1 ++ events, now') := by
  rw [SimulatedBoard.run_concat, h.run, hc]

theorem noRemoval_concat (h : b.Grown commands made now) (hrem : isRemoval command = false) :
    ∀ c ∈ commands ++ [command], isRemoval c = false := by
  intro c hc
  rcases List.mem_append.1 hc with hc | hc
  · exact h.noRemoval c hc
  · rwa [List.mem_singleton.1 hc]

theorem sent_concat (h : b.Grown commands made now)
    (hsent : now'.commands = now.commands ++ [command]) :
    now'.commands = b.commands ++ (commands ++ [command]) := by
  rw [hsent, h.sent, List.append_assoc]

/-- A command that is not answered and changes no table. -/
theorem unanswered (h : b.Grown commands made now) (hc : now.handle command = ([], now'))
    (hsame : now.Unmoved command now') (hrem : isRemoval command = false) :
    b.Grown (commands ++ [command]) made now' where
  sent := h.sent_concat hsame.sent
  noRemoval := h.noRemoval_concat hrem
  run := by rw [h.run_concat hc]
  processors := hsame.processors ▸ h.processors
  loggers := hsame.loggers ▸ h.loggers
  events := hsame.events ▸ h.events
  processorIds := by rw [h.run_concat hc, List.append_nil, h.processorIds]
  loggerIds := by rw [h.run_concat hc, List.append_nil, h.loggerIds]
  eventIds := by rw [h.run_concat hc, List.append_nil, h.eventIds]

theorem withPlaced (h : b.Grown commands made now) {p : Placed}
    (hfree : now.processors.freeId? tableSize = some p.id)
    (hc : now.handle command = ([.frame [Module.processor, ProcessorReg.add, p.id]],
      { now.asked command with processors := now.processors.insert p.id p.row.2 }))
    (hrem : isRemoval command = false) :
    b.Grown (commands ++ [command]) (made.withPlaced p)
      { now.asked command with processors := now.processors.insert p.id p.row.2 } where
  sent := h.sent_concat rfl
  noRemoval := h.noRemoval_concat hrem
  run := by rw [h.run_concat hc]
  processors := by
    rw [Creations.withPlaced, List.map_append]
    exact h.processors.create p.row.2 hfree
  loggers := h.loggers
  events := h.events
  processorIds := by
    rw [h.run_concat hc, idsIn_append, h.processorIds, Creations.withPlaced, List.map_append]
    rfl
  loggerIds := by
    rw [h.run_concat hc, idsIn_append, h.loggerIds]
    exact List.append_nil _
  eventIds := by
    rw [h.run_concat hc, idsIn_append, h.eventIds]
    exact List.append_nil _

theorem withLogger (h : b.Grown commands made now) {row : Bytes}
    (hfree : now.loggers.freeId? tableSize = some id)
    (hc : now.handle command = ([.frame [Module.logging, LogReg.trigger, id]],
      { now.asked command with loggers := now.loggers.insert id row }))
    (hrem : isRemoval command = false) :
    b.Grown (commands ++ [command]) (made.withLogger id row)
      { now.asked command with loggers := now.loggers.insert id row } where
  sent := h.sent_concat rfl
  noRemoval := h.noRemoval_concat hrem
  run := by rw [h.run_concat hc]
  processors := h.processors
  loggers := h.loggers.create row hfree
  events := h.events
  processorIds := by
    rw [h.run_concat hc, idsIn_append, h.processorIds]
    exact List.append_nil _
  loggerIds := by
    rw [h.run_concat hc, idsIn_append, h.loggerIds, Creations.withLogger, List.map_append]
    rfl
  eventIds := by
    rw [h.run_concat hc, idsIn_append, h.eventIds]
    exact List.append_nil _

theorem withEvent (h : b.Grown commands made now) {row : BoardEvent}
    (hfree : now.events.freeId? tableSize = some id)
    (hc : now.handle command = ([.frame [Module.event, EventReg.entry, id]],
      { now.asked command with
        pendingEvent := none
        events := now.events.insert id row }))
    (hrem : isRemoval command = false) :
    b.Grown (commands ++ [command]) (made.withEvent id row)
      { now.asked command with
        pendingEvent := none
        events := now.events.insert id row } where
  sent := h.sent_concat rfl
  noRemoval := h.noRemoval_concat hrem
  run := by rw [h.run_concat hc]
  processors := h.processors
  loggers := h.loggers
  events := h.events.create row hfree
  processorIds := by
    rw [h.run_concat hc, idsIn_append, h.processorIds]
    exact List.append_nil _
  loggerIds := by
    rw [h.run_concat hc, idsIn_append, h.loggerIds]
    exact List.append_nil _
  eventIds := by
    rw [h.run_concat hc, idsIn_append, h.eventIds, Creations.withEvent, List.map_append]
    rfl

/-! ## Undoing -/

theorem undoing_eq (h : b.Grown commands made now) :
    undoing (b.run commands).1 =
      removals (made.placed.map Placed.id) (made.loggers.map Prod.fst)
        (made.events.map Prod.fst) := by
  rw [undoing, h.processorIds, h.loggerIds, h.eventIds]

/-- **Without what was created, the tables are as they were.** -/
theorem cleared (h : b.Grown commands made now) :
    (now.cleared (made.placed.map Placed.id) (made.loggers.map Prod.fst)
        (made.events.map Prod.fst)).processors = b.processors ∧
      (now.cleared (made.placed.map Placed.id) (made.loggers.map Prod.fst)
        (made.events.map Prod.fst)).loggers = b.loggers ∧
      (now.cleared (made.placed.map Placed.id) (made.loggers.map Prod.fst)
        (made.events.map Prod.fst)).events = b.events := by
  have hids : made.placed.map Placed.id = (made.placed.map Placed.row).map Prod.fst := by
    rw [List.map_map]
    rfl
  refine ⟨?_, h.loggers.foldl_erase, h.events.foldl_erase⟩
  rw [hids]
  exact h.processors.foldl_erase

end Grown
end SimulatedBoard
end SignalRoute
