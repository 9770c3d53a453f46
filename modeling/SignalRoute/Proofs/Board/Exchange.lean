import SignalRoute.Proofs.Board.Creation

/-!
# A board whose answers take their time

`Exchange` is what happens between a link and a board while commands are sent.  The board carries
out each command at once and sends its answers back in order; but behind each command only a part
comes in of what is on its way then, and the rest comes in later.

Of all answers, those to creations of processors matter here: `processorAnswers` counts them.  Among
the commands of programming and undoing, creations of processors are the only ones that are so
answered, and besides them only removals of processors change the processors of the board
(`SparesProcessors`).

The split of what comes in is arbitrary: an exchange says only that nothing is lost, invented or
reordered on the way.  A timeout is therefore no event of its own here.  It is what the host
concludes if the part that came in behind a command did not have the answer, and the answer is then
still on its way, for whichever command comes next.
-/

set_option autoImplicit false

namespace SignalRoute

/-! ## Answers -/

/-- What the answer to the creation of a processor starts with. -/
def processorKey : ReplyKey := .register Module.processor ProcessorReg.add

/-- Is an event the answer to the creation of a processor? -/
def LinkEvent.answersProcessor : LinkEvent → Bool
  | .frame f => processorKey.admits f
  | .disconnected => false

/-- How many answers to creations of processors are among some events. -/
def processorAnswers (events : List LinkEvent) : Nat := events.countP LinkEvent.answersProcessor

theorem processorAnswers_append (xs ys : List LinkEvent) :
    processorAnswers (xs ++ ys) = processorAnswers xs + processorAnswers ys := List.countP_append ..

theorem processorAnswers_le_of_sublist {xs ys : List LinkEvent} (h : xs.Sublist ys) :
    processorAnswers xs ≤ processorAnswers ys := h.countP_le

/-- An answer that is not among the first events is among the others. -/
theorem mem_of_processorAnswers_eq_zero {xs ys : List LinkEvent} (hxs : processorAnswers xs = 0)
    {f : Bytes} (hf : processorKey.admits f = true) (hmem : .frame f ∈ xs ++ ys) :
    .frame f ∈ ys := by
  rcases List.mem_append.1 hmem with hmem | hmem
  · exact absurd hf (List.countP_eq_zero.1 hxs _ hmem)
  · exact hmem

theorem processorAnswers_creation (id : UInt8) :
    processorAnswers [.frame [Module.processor, ProcessorReg.add, id]] = 1 := rfl

/-! ## Exchanges -/

/-- The board `b` carried out `commands` while `flight` was on its way back from it.  Behind each
command the next of `arrivals` came in.  Then the board is `now`, and `left` is on its way. -/
inductive Exchange (b : SimulatedBoard) (flight : List LinkEvent) :
    List Bytes → List (List LinkEvent) → SimulatedBoard → List LinkEvent → Prop
  | start : Exchange b flight [] [] b flight
  | next {commands : List Bytes} {arrivals : List (List LinkEvent)} {now : SimulatedBoard}
      {left : List LinkEvent} (h : Exchange b flight commands arrivals now left) (command : Bytes)
      {arrived left' : List LinkEvent}
      (hin : left ++ (now.handle command).1 = arrived ++ left') :
      Exchange b flight (commands ++ [command]) (arrivals ++ [arrived]) (now.handle command).2 left'

namespace Exchange

variable {b now : SimulatedBoard} {flight left : List LinkEvent} {commands : List Bytes}
  {arrivals : List (List LinkEvent)} {command : Bytes}

theorem length_eq (h : Exchange b flight commands arrivals now left) :
    commands.length = arrivals.length := by
  induction h with
  | start => rfl
  | next h command hin ih => rw [List.length_append, List.length_append, ih]; rfl

/-- Without commands nothing happens. -/
theorem of_nil (h : Exchange b flight [] arrivals now left) : now = b ∧ left = flight := by
  generalize hcommands : ([] : List Bytes) = commands at h
  cases h with
  | start => exact ⟨rfl, rfl⟩
  | next h command hin => exact absurd hcommands (by simp)

/-- The last command of an exchange. -/
theorem of_concat (h : Exchange b flight (commands ++ [command]) arrivals now left) :
    ∃ past arrived before waiting, arrivals = past ++ [arrived] ∧
      Exchange b flight commands past before waiting ∧ now = (before.handle command).2 ∧
      waiting ++ (before.handle command).1 = arrived ++ left := by
  generalize hcommands : commands ++ [command] = all at h
  cases h with
  | start => exact absurd hcommands (by simp)
  | next h last hin =>
    obtain ⟨rfl, hlast⟩ := List.append_inj' hcommands rfl
    obtain rfl := List.singleton_inj.1 hlast
    exact ⟨_, _, _, _, rfl, h, rfl, hin⟩

/-- The last command of an exchange that has used up the first places of a schedule. -/
theorem of_concat_take
    (h : Exchange b flight (commands ++ [command])
      (arrivals.take (commands ++ [command]).length) now left) :
    ∃ before waiting, Exchange b flight commands (arrivals.take commands.length) before waiting ∧
      now = (before.handle command).2 ∧
      waiting ++ (before.handle command).1 =
        (arrivals.drop commands.length).headD [] ++ left := by
  obtain ⟨past, arrived, before, waiting, hpast, hbefore, hnow, hin⟩ := h.of_concat
  have hlength := hbefore.length_eq
  have hsplit : arrivals = past ++ [arrived] ++ arrivals.drop (commands ++ [command]).length := by
    rw [← hpast, List.take_append_drop]
  have htake : arrivals.take commands.length = past := by
    rw [hsplit, List.append_assoc, List.take_left' hlength.symm]
  have hdrop : (arrivals.drop commands.length).headD [] = arrived := by
    rw [hsplit, List.append_assoc, List.drop_left' hlength.symm]
    rfl
  exact ⟨before, waiting, htake ▸ hbefore, hnow, hdrop.symm ▸ hin⟩

end Exchange

/-! ## Commands that leave the processors alone -/

/-- The command changes no processor of any board, and is not answered as their creation is. -/
def SparesProcessors (command : Bytes) : Prop :=
  ∀ b : SimulatedBoard, (b.handle command).2.processors = b.processors ∧
    processorAnswers (b.handle command).1 = 0

theorem sparesProcessors_logCommand (a : Address) (width offset : UInt8) :
    SparesProcessors (logCommand a width offset) := by
  intro b
  rcases b.handle_logCommand a width offset with h | ⟨id, -, -, h⟩ <;> rw [h] <;> exact ⟨rfl, rfl⟩

theorem sparesProcessors_eventCommand (entry : Bytes) :
    SparesProcessors (SimulatedBoard.eventCommand entry) := fun _ => ⟨rfl, rfl⟩

theorem sparesProcessors_parameterCommand (parameters : Bytes) :
    SparesProcessors (SimulatedBoard.parameterCommand parameters) := by
  intro b
  cases hpending : b.pendingEvent with
  | none =>
    cases b
    subst hpending
    exact ⟨rfl, rfl⟩
  | some entry =>
    rcases SimulatedBoard.handle_parameterCommand hpending parameters with h | ⟨id, -, -, h⟩ <;>
      rw [h] <;> exact ⟨rfl, rfl⟩

theorem sparesProcessors_notifyCommand (id : UInt8) : SparesProcessors (notifyCommand id) :=
  fun _ => ⟨rfl, rfl⟩

theorem sparesProcessors_removeLoggerCommand (id : UInt8) :
    SparesProcessors (removeLoggerCommand id) := fun _ => ⟨rfl, rfl⟩

theorem sparesProcessors_removeEventCommand (id : UInt8) :
    SparesProcessors (removeEventCommand id) := fun _ => ⟨rfl, rfl⟩

end SignalRoute
