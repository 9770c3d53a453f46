import SignalRoute.Proofs.Table
import SignalRoute.Route.Program

/-!
# What programming does to a board

To be programmed, a board is sent creations, one half of an event at a time, switches for
notifications, and removals.  For each of these commands there is an equation here, or two cases: a
creation is answered with the lowest free id of its table, or it comes to nothing, because it was to
be dropped or because the table is full.

* `SimulatedBoard.run` sends commands in turn and gathers what the board sends.
* `idsIn` are the ids that a board handed out, read off what it sent, and `undoing` are the commands
  that remove them.
* `SimulatedBoard.run_removals`: removals take their ids out of the tables and are not answered.

Commands of other modules than these three, and short ones, are not listed: they change nothing, and
no plan sends them.  A removal of an id that is not in use is no different from any other, which is
why `run_removals` needs no hypothesis.
-/

set_option autoImplicit false

namespace SignalRoute
namespace SimulatedBoard

/-! ## Commands in turn

`run` is the board as seen by somebody who sends commands blindly.  What the host does in between,
which may depend on the answers, is added in `Proofs.Link.Wired` and `Proofs.Board.Exchange`.
-/

/-- Carry out commands in turn; answers all that the board sends. -/
def run (b : SimulatedBoard) : List Bytes → Outcome
  | [] => b.silent
  | command :: rest =>
    let (events, b) := b.handle command
    let (later, b) := b.run rest
    (events ++ later, b)

theorem run_cons (b : SimulatedBoard) (command : Bytes) (rest : List Bytes) :
    b.run (command :: rest) =
      ((b.handle command).1 ++ ((b.handle command).2.run rest).1,
        ((b.handle command).2.run rest).2) := rfl

theorem run_append (b : SimulatedBoard) (xs ys : List Bytes) :
    b.run (xs ++ ys) = ((b.run xs).1 ++ ((b.run xs).2.run ys).1, ((b.run xs).2.run ys).2) := by
  induction xs generalizing b with
  | nil => rfl
  | cons command rest ih => rw [List.cons_append, run_cons, ih, run_cons, List.append_assoc]

theorem run_concat (b : SimulatedBoard) (xs : List Bytes) (command : Bytes) :
    b.run (xs ++ [command]) =
      ((b.run xs).1 ++ ((b.run xs).2.handle command).1, ((b.run xs).2.handle command).2) := by
  rw [run_append, run_cons]
  simp [run, silent]

/-- The board after a command that changes nothing on it. -/
def heard (b : SimulatedBoard) (command : Bytes) : SimulatedBoard :=
  { b with commands := b.commands ++ [command] }

/-! ## Creations -/

/-- The board after a creation that it did not carry out. -/
def asked (b : SimulatedBoard) (command : Bytes) : SimulatedBoard :=
  { b with commands := b.commands ++ [command], creates := b.creates + 1 }

/-- A creation to be dropped is counted; any other is counted and carried out. -/
theorem countCreate_cases (b : SimulatedBoard) (create : SimulatedBoard → Outcome) :
    b.countCreate create = ([], { b with creates := b.creates + 1 }) ∨
      b.dropAt ≠ some (b.creates + 1) ∧
        b.countCreate create = create { b with creates := b.creates + 1 } := by
  by_cases h : b.dropAt = some (b.creates + 1)
  · exact .inl (if_pos h)
  · exact .inr ⟨h, if_neg h⟩

theorem handle_createCommand (b : SimulatedBoard) (source : Signal) (p : Processor) :
    b.handle (createCommand source p) = ([], b.asked (createCommand source p)) ∨
      ∃ id, b.processors.freeId? tableSize = some id ∧ b.dropAt ≠ some (b.creates + 1) ∧
        b.handle (createCommand source p) =
          ([.frame [Module.processor, ProcessorReg.add, id]],
            { b.asked (createCommand source p) with
              processors := b.processors.insert id
                ⟨source.address.toBytes ++ [packedSource source], p.encode⟩ }) := by
  have hhandle : b.handle (createCommand source p) =
      { b with commands := b.commands ++ [createCommand source p] }.countCreate
        (createProcessor (source.address.toBytes ++ [packedSource source]) p.encode) := rfl
  rw [hhandle]
  rcases countCreate_cases { b with commands := b.commands ++ [createCommand source p] }
    (createProcessor (source.address.toBytes ++ [packedSource source]) p.encode) with h | ⟨hd, h⟩
  · exact .inl h
  · rw [h, createProcessor]
    cases hfree : b.processors.freeId? tableSize with
    | none => exact .inl rfl
    | some id => exact .inr ⟨id, rfl, hd, rfl⟩

theorem handle_logCommand (b : SimulatedBoard) (a : Address) (width offset : UInt8) :
    b.handle (logCommand a width offset) = ([], b.asked (logCommand a width offset)) ∨
      ∃ id, b.loggers.freeId? tableSize = some id ∧ b.dropAt ≠ some (b.creates + 1) ∧
        b.handle (logCommand a width offset) =
          ([.frame [Module.logging, LogReg.trigger, id]],
            { b.asked (logCommand a width offset) with
              loggers := b.loggers.insert id (a.toBytes ++ [packRange width offset]) }) := by
  have hhandle : b.handle (logCommand a width offset) =
      { b with commands := b.commands ++ [logCommand a width offset] }.countCreate
        (createLogger (a.toBytes ++ [packRange width offset])) := rfl
  rw [hhandle]
  rcases countCreate_cases { b with commands := b.commands ++ [logCommand a width offset] }
    (createLogger (a.toBytes ++ [packRange width offset])) with h | ⟨hd, h⟩
  · exact .inl h
  · rw [h, createLogger]
    cases hfree : b.loggers.freeId? tableSize with
    | none => exact .inl rfl
    | some id => exact .inr ⟨id, rfl, hd, rfl⟩

/-- The first half of an event. -/
def eventCommand (entry : Bytes) : Bytes := [Module.event, EventReg.entry] ++ entry

/-- The second half of an event. -/
def parameterCommand (parameters : Bytes) : Bytes :=
  [Module.event, EventReg.parameters] ++ parameters

theorem handle_eventCommand (b : SimulatedBoard) (entry : Bytes) :
    b.handle (eventCommand entry) =
      ([], { b with
        commands := b.commands ++ [eventCommand entry], pendingEvent := some entry }) := rfl

theorem handle_parameterCommand {b : SimulatedBoard} {entry : Bytes}
    (hpending : b.pendingEvent = some entry) (parameters : Bytes) :
    b.handle (parameterCommand parameters) =
        ([], { b.asked (parameterCommand parameters) with pendingEvent := none }) ∨
      ∃ id, b.events.freeId? tableSize = some id ∧ b.dropAt ≠ some (b.creates + 1) ∧
        b.handle (parameterCommand parameters) =
          ([.frame [Module.event, EventReg.entry, id]],
            { b.asked (parameterCommand parameters) with
              pendingEvent := none
              events := b.events.insert id ⟨entry, parameters⟩ }) := by
  have hhandle : b.handle (parameterCommand parameters) =
      { b with
        commands := b.commands ++ [parameterCommand parameters]
        pendingEvent := none }.countCreate (createEvent entry parameters) := by
    simp only [handle, parameterCommand, List.cons_append, List.nil_append, handleEvent, hpending]
    rfl
  rw [hhandle]
  rcases countCreate_cases { b with
      commands := b.commands ++ [parameterCommand parameters]
      pendingEvent := none } (createEvent entry parameters) with h | ⟨hd, h⟩
  · exact .inl h
  · rw [h, createEvent]
    cases hfree : b.events.freeId? tableSize with
    | none => exact .inl rfl
    | some id => exact .inr ⟨id, rfl, hd, rfl⟩

theorem handle_notifyCommand (b : SimulatedBoard) (id : UInt8) :
    b.handle (notifyCommand id) = ([], { b with commands := b.commands ++ [notifyCommand id] }) :=
  rfl

/-! ## Removals -/

theorem handle_removeProcessorCommand (b : SimulatedBoard) (id : UInt8) :
    b.handle (removeProcessorCommand id) =
      ([], { b with
        commands := b.commands ++ [removeProcessorCommand id]
        processors := b.processors.erase id }) := rfl

theorem handle_removeLoggerCommand (b : SimulatedBoard) (id : UInt8) :
    b.handle (removeLoggerCommand id) =
      ([], { b with
        commands := b.commands ++ [removeLoggerCommand id]
        loggers := b.loggers.erase id }) := rfl

theorem handle_removeEventCommand (b : SimulatedBoard) (id : UInt8) :
    b.handle (removeEventCommand id) =
      ([], { b with
        commands := b.commands ++ [removeEventCommand id]
        events := b.events.erase id }) := rfl

/-- The commands that remove processors, loggers and events. -/
def removals (processors loggers events : List UInt8) : List Bytes :=
  processors.map removeProcessorCommand ++ loggers.map removeLoggerCommand ++
    events.map removeEventCommand

/-- The board after removals. -/
def cleared (b : SimulatedBoard) (processors loggers events : List UInt8) : SimulatedBoard :=
  { b with
    commands := b.commands ++ removals processors loggers events
    processors := processors.foldl IdTable.erase b.processors
    loggers := loggers.foldl IdTable.erase b.loggers
    events := events.foldl IdTable.erase b.events }

theorem cleared_nil (b : SimulatedBoard) : b.cleared [] [] [] = b := by
  simp [cleared, removals]

/-- Commands that are not answered leave the board as they say, one after the other. -/
theorem run_each (command : UInt8 → Bytes) (after : SimulatedBoard → List UInt8 → SimulatedBoard)
    (hnil : ∀ b, after b [] = b)
    (hcons : ∀ b id rest, ∃ b', b.handle (command id) = ([], b') ∧
      after b' rest = after b (id :: rest)) (b : SimulatedBoard) (ids : List UInt8) :
    b.run (ids.map command) = ([], after b ids) := by
  induction ids generalizing b with
  | nil => rw [hnil, List.map_nil, run, silent]
  | cons id rest ih =>
    obtain ⟨b', hhandle, hafter⟩ := hcons b id rest
    rw [List.map_cons, run_cons, hhandle, ih, hafter]
    rfl

/-- **Removals take their ids out of the tables, and are not answered.** -/
theorem run_removals (b : SimulatedBoard) (processors loggers events : List UInt8) :
    b.run (removals processors loggers events) = ([], b.cleared processors loggers events) := by
  have hprocessors := run_each removeProcessorCommand (fun b ids => b.cleared ids [] [])
    cleared_nil fun b id _ => ⟨_, b.handle_removeProcessorCommand id, by simp [cleared, removals]⟩
  have hloggers := run_each removeLoggerCommand (fun b ids => b.cleared [] ids [])
    cleared_nil fun b id _ => ⟨_, b.handle_removeLoggerCommand id, by simp [cleared, removals]⟩
  have hevents := run_each removeEventCommand (fun b ids => b.cleared [] [] ids)
    cleared_nil fun b id _ => ⟨_, b.handle_removeEventCommand id, by simp [cleared, removals]⟩
  rw [removals, run_append, run_append, hprocessors, hloggers, hevents]
  simp [cleared, removals]

end SimulatedBoard

/-! ## What was handed out

Read off the frames and not off the tables, because that is all that somebody at the other end of
the link has to go by.
-/

/-- The ids in the frames of one register. -/
def idsIn (module register : UInt8) (events : List LinkEvent) : List UInt8 :=
  events.filterMap fun e => match e with
    | .frame (m :: r :: id :: _) => if m = module ∧ r = register then some id else none
    | _ => none

theorem idsIn_append (module register : UInt8) (xs ys : List LinkEvent) :
    idsIn module register (xs ++ ys) = idsIn module register xs ++ idsIn module register ys :=
  List.filterMap_append

/-- The commands that remove what a board handed out, by what it sent: processors, loggers and
events, each in the order in which they were handed out. -/
def undoing (events : List LinkEvent) : List Bytes :=
  SimulatedBoard.removals (idsIn Module.processor ProcessorReg.add events)
    (idsIn Module.logging LogReg.trigger events) (idsIn Module.event EventReg.entry events)

/-- Does a command remove anything? -/
def isRemoval (command : Bytes) : Bool :=
  [Module.processor, ProcessorReg.remove].isPrefixOf command ||
    [Module.logging, LogReg.remove].isPrefixOf command ||
    [Module.event, EventReg.remove].isPrefixOf command

end SignalRoute
