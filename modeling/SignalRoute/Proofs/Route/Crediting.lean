import SignalRoute.Proofs.Board.Exchange
import SignalRoute.Proofs.Graph.Tables
import SignalRoute.Proofs.Link.Schedule
import SignalRoute.Proofs.Route.Placement

/-!
# Programming a board whose answers take their time

While a link follows a schedule, what it has sent and received determines the board
(`Link.Entails`).  `SimulatedBoard.Backs` says that a board holds what was placed under the ids that
the link took from the answers, and that it still holds what was there before.

An answer is known by its module and its register alone.  So the ids are right as long as the answer
that comes in is the only one of its kind, which is why `Site.Expects` counts those that can still
come in.  If there are none when a plan is programmed, there are none when it has been
(`Plan.leads_program_expects`); if there are any, the first creation can take one of them for its
own.

A plan that is not programmed may leave answers that can still come in and processors that nobody
knows of (`Site.Keeps`), but taking back what was placed removes nothing that was there before
(`Site.Keeps.rollback`).

The board of this file is not the one at the other end of the link.  The link follows a schedule,
and for every board whose exchange has this schedule the conclusion is drawn; that there is one, and
which one, is not needed until a host is put before it (`Proofs.Host.Crediting`).
-/

set_option autoImplicit false

namespace SignalRoute

/-! ## Boards -/

/-- Under every id that `b` had handed out, the board `now` holds what `b` did. -/
def SimulatedBoard.Retains (now b : SimulatedBoard) : Prop :=
  ∀ id row, b.processors.find? id = some row → now.processors.find? id = some row

/-- The board `now` holds what `b` did, and what it handed out since then, `placed` included. -/
def SimulatedBoard.Backs (now b : SimulatedBoard) (placed : List Placed) : Prop :=
  ∃ rows, IdTable.Allocated tableSize b.processors rows now.processors ∧
    ∀ p ∈ placed, p.row ∈ rows

namespace SimulatedBoard.Backs

variable {now now' b : SimulatedBoard} {placed : List Placed}

theorem start (b : SimulatedBoard) : b.Backs b [] := ⟨[], .start, List.forall_mem_nil _⟩

theorem retains (h : now.Backs b placed) : now.Retains b := by
  obtain ⟨rows, hrows, -⟩ := h
  intro id row hrow
  rw [hrows.find?_of_not_mem, hrow]
  intro hid
  have hfree := hrows.not_contains hid
  rw [IdTable.contains, hrow] at hfree
  cases hfree

theorem held (h : now.Backs b placed) {p : Placed} (hp : p ∈ placed) :
    now.processors.find? p.id = some p.row.2 := by
  obtain ⟨rows, hrows, hplaced⟩ := h
  exact hrows.find?_of_mem (hplaced p hp)

theorem fresh (h : now.Backs b placed) {p : Placed} (hp : p ∈ placed) :
    b.processors.contains p.id = false := by
  obtain ⟨rows, hrows, hplaced⟩ := h
  exact hrows.not_contains (List.mem_map_of_mem (hplaced p hp))

theorem of_processors (h : now.Backs b placed) (hsame : now'.processors = now.processors) :
    now'.Backs b placed := by
  rw [Backs, hsame]
  exact h

/-- A processor is created, whether or not anybody learns of it. -/
theorem created (h : now.Backs b placed) {id : UInt8}
    (hfree : now.processors.freeId? tableSize = some id) {row : BoardProcessor}
    (hnow : now'.processors = now.processors.insert id row) : now'.Backs b placed := by
  obtain ⟨rows, hrows, hplaced⟩ := h
  exact ⟨_, hnow ▸ hrows.create row hfree,
    fun p hp => List.mem_append_left _ (hplaced p hp)⟩

/-- A processor is created, and its id is taken from the answer. -/
theorem answered (h : now.Backs b placed) {p : Placed}
    (hfree : now.processors.freeId? tableSize = some p.id)
    (hnow : now'.processors = now.processors.insert p.id p.row.2) :
    now'.Backs b (placed ++ [p]) := by
  obtain ⟨rows, hrows, hplaced⟩ := h
  refine ⟨_, hnow ▸ hrows.create p.row.2 hfree, fun q hq => ?_⟩
  rcases List.mem_append.1 hq with hq | hq
  · exact List.mem_append_left _ (hplaced q hq)
  · obtain rfl := List.mem_singleton.1 hq
    exact List.mem_append_right _ List.mem_cons_self

end SimulatedBoard.Backs

/-- If no answer to the creation of a processor was on its way or in the queue, then the one that is
taken from the queue is the board's own, and no other one can come in. -/
theorem SimulatedBoard.own_answer (now : SimulatedBoard) {source : Signal} {p : Processor}
    {waiting arrived left queue new passed after : List LinkEvent} {reply : Bytes}
    (hwaiting : processorAnswers waiting = 0) (hqueue : processorAnswers queue = 0)
    (hin : waiting ++ (now.handle (createCommand source p)).1 = arrived ++ left)
    (hnew : new.Sublist arrived) (htaken : queue ++ new = passed ++ .frame reply :: after)
    (hadmits : processorKey.admits reply = true) :
    ∃ id, now.processors.freeId? tableSize = some id ∧
      (now.handle (createCommand source p)).2.processors =
        now.processors.insert id (Placed.row ⟨id, source, p⟩).2 ∧
      reply = [Module.processor, ProcessorReg.add, id] ∧
      processorAnswers left = 0 ∧ processorAnswers after = 0 := by
  have hanswer : LinkEvent.frame reply ∈ new :=
    mem_of_processorAnswers_eq_zero hqueue hadmits (htaken ▸ by simp)
  have hcame : LinkEvent.frame reply ∈ (now.handle (createCommand source p)).1 :=
    mem_of_processorAnswers_eq_zero hwaiting hadmits
      (hin ▸ List.mem_append_left _ (hnew.subset hanswer))
  rcases now.handle_createCommand source p with hc | ⟨id, hfree, -, hc⟩
  · rw [hc] at hcame
    cases hcame
  · rw [hc] at hcame hin ⊢
    have hreply := LinkEvent.frame.inj (List.mem_singleton.1 hcame)
    refine ⟨id, hfree, rfl, hreply, ?_⟩
    -- the one answer is in `new`, so there is none on either side of it
    have hone := congrArg processorAnswers hin
    have hsplit := congrArg processorAnswers htaken
    have hle := processorAnswers_le_of_sublist hnew
    have htail : processorAnswers (.frame reply :: after) = processorAnswers after + 1 :=
      List.countP_cons_of_pos hadmits
    rw [processorAnswers_append, processorAnswers_append, processorAnswers_creation] at hone
    rw [processorAnswers_append, processorAnswers_append, htail] at hsplit
    omega

section

variable {b : SimulatedBoard} {flight : List LinkEvent} {arrivals : List (List LinkEvent)}

/-! ## What a link entails

A link remembers what it sent, and the schedule says what came in.  Both together leave the board no
choice, so a statement about the board can be made about the link.
-/

/-- Let the board have been `b`, with `flight` on its way back, before the link sent anything.  If
what came in since then are the first places of `arrivals`, then `Q` holds of the board and of what
is on its way now. -/
def Link.Entails (b : SimulatedBoard) (flight : List LinkEvent) (arrivals : List (List LinkEvent))
    (Q : SimulatedBoard → List LinkEvent → Prop) (l : Link) : Prop :=
  l.Follows arrivals ∧ ∀ now left,
    Exchange b flight l.transport.sent (arrivals.take l.transport.sent.length) now left → Q now left

namespace Link.Entails

variable {Q Q' : SimulatedBoard → List LinkEvent → Prop} {l l' : Link}

theorem mono (h : l.Entails b flight arrivals Q) (hQ : ∀ now left, Q now left → Q' now left) :
    l.Entails b flight arrivals Q' :=
  ⟨h.1, fun now left hexchange => hQ now left (h.2 now left hexchange)⟩

theorem of_transport (h : l.Entails b flight arrivals Q) (htransport : l'.transport = l.transport) :
    l'.Entails b flight arrivals Q := by
  refine ⟨h.1.of_transport htransport, ?_⟩
  rw [htransport]
  exact h.2

theorem start (htransport : l.transport = .delayed [] arrivals) :
    l.Entails b flight arrivals fun now left => now = b ∧ left = flight := by
  rw [Entails, Link.Follows, htransport]
  exact ⟨rfl, fun now left hexchange => hexchange.of_nil⟩

/-- Everything that comes in did so behind some command. -/
theorem of_exchange (h : l.Entails b flight arrivals Q) {now : SimulatedBoard}
    {left : List LinkEvent} (hexchange : Exchange b flight l.transport.sent arrivals now left) :
    Q now left := by
  refine h.2 now left ?_
  rwa [hexchange.length_eq, List.take_length]

/-- One more command. -/
theorem wrote (h : l.Entails b flight arrivals Q) {command : Bytes} {new : List LinkEvent}
    (htransport : l'.transport = (l.wrote arrivals command new).transport)
    (hQ : ∀ now left left', Q now left →
      left ++ (now.handle command).1 = l.coming arrivals ++ left' →
      Q' (now.handle command).2 left') :
    l'.Entails b flight arrivals Q' := by
  refine ⟨(l.follows_wrote arrivals command new).of_transport htransport, ?_⟩
  rw [htransport]
  intro now left hexchange
  obtain ⟨before, waiting, hbefore, rfl, hin⟩ := Exchange.of_concat_take hexchange
  exact hQ before waiting left (h.2 before waiting hbefore) hin

end Link.Entails

/-! ## Sites -/

/-- What was placed is on the board. -/
def Site.Keeps (b : SimulatedBoard) (flight : List LinkEvent) (arrivals : List (List LinkEvent))
    (s : Site) : Prop :=
  s.link.Entails b flight arrivals fun now _ => now.Backs b s.placed

/-- What was placed is on the board, and no more than `n` answers to creations of processors can
still come in. -/
def Site.Expects (b : SimulatedBoard) (flight : List LinkEvent) (arrivals : List (List LinkEvent))
    (n : Nat) (s : Site) : Prop :=
  s.link.Entails b flight arrivals fun now left =>
    now.Backs b s.placed ∧ processorAnswers left + processorAnswers s.link.queue ≤ n

variable {n : Nat} {s : Site} {l : Link} {command : Bytes}

theorem Site.Expects.keeps (h : s.Expects b flight arrivals n) : s.Keeps b flight arrivals :=
  h.mono fun _ _ hs => hs.1

/-- A command that leaves the processors alone does not bring in more answers than could come in. -/
theorem Site.Expects.spared (h : s.Expects b flight arrivals n) (hspares : SparesProcessors command)
    {new : List LinkEvent} (hnew : new.Sublist (s.link.coming arrivals))
    (htransport : l.transport = (s.link.wrote arrivals command new).transport)
    (hqueue : processorAnswers l.queue ≤ processorAnswers (s.link.queue ++ new)) :
    ({ s with link := l } : Site).Expects b flight arrivals n := by
  refine Link.Entails.wrote h htransport ?_
  rintro now left left' ⟨hbacks, hcount⟩ hin
  obtain ⟨hsame, hanswers⟩ := hspares now
  refine ⟨hbacks.of_processors hsame, ?_⟩
  have hin := congrArg processorAnswers hin
  have hle := processorAnswers_le_of_sublist hnew
  rw [processorAnswers_append, processorAnswers_append, hanswers] at hin
  rw [processorAnswers_append] at hqueue
  show _ + processorAnswers l.queue ≤ n
  omega

/-! ## The operations of programming -/

namespace Programming

theorem leads_send_expects (hspares : SparesProcessors command) :
    Leads (Site.Expects b flight arrivals n) (onLink (Link.send command))
      (fun _ => Site.Expects b flight arrivals n) (fun _ => Site.Keeps b flight arrivals) := by
  intro s hs
  rcases hs.1.send_cases command with ⟨fault, hsend⟩ | ⟨new, hnew, hsend⟩
  · rw [onLink_of_error hsend]
    exact hs.keeps
  · rw [onLink_of_ok hsend]
    exact hs.spared hspares hnew rfl (Nat.le_refl _)

/-- A creation of a logger or an event. -/
theorem leads_create_expects (hspares : SparesProcessors command) (key : ReplyKey)
    (what : String) :
    Leads (Site.Expects b flight arrivals n) (create command key what)
      (fun _ => Site.Expects b flight arrivals n) (fun _ => Site.Keeps b flight arrivals) := by
  refine Leads.bind (Q := fun _ => Site.Expects b flight arrivals n) ?_ fun reply => ?_
  · intro s hs
    rcases hrequest : Link.request command key what s.link with ⟨fault | reply, l⟩
    · rw [onLink_of_error hrequest]
      rcases hs.1.request_cases hrequest with ⟨-, -, htransport⟩ | ⟨new, hnew, htransport, -⟩
      · exact hs.keeps.of_transport htransport
      · refine Link.Entails.wrote hs htransport fun now left left' h _ => ?_
        exact h.1.of_processors (hspares now).1
    · rw [onLink_of_ok hrequest]
      rcases hs.1.request_cases hrequest with ⟨_, h, -⟩ | ⟨new, hnew, htransport, hreply⟩
      · cases h
      · obtain ⟨-, passed, hpassed⟩ := hreply reply rfl
        refine hs.spared hspares hnew htransport ?_
        rw [hpassed]
        exact processorAnswers_le_of_sublist
          ((List.sublist_cons_self _ _).trans (List.sublist_append_right _ _))
  · intro s hs
    cases replyId reply what with
    | ok id => exact hs
    | error fault => exact hs.keeps

/-- Ask the board to create a processor. -/
theorem leads_createProcessor_expects (source : Signal) (p : Processor) (what : String) :
    Leads (Site.Expects b flight arrivals 0) (create (createCommand source p) processorKey what)
      (fun id s => ({ s with placed := s.placed ++ [⟨id, source, p⟩] } : Site).Expects
        b flight arrivals 0)
      (fun _ => Site.Keeps b flight arrivals) := by
  refine Leads.bind (Q := fun reply s => s.Keeps b flight arrivals ∧
    ∀ id, replyId reply what = .ok id →
      ({ s with placed := s.placed ++ [⟨id, source, p⟩] } : Site).Expects b flight arrivals 0)
    ?_ fun reply => ?_
  · intro s hs
    have hkeeps {l : Link} {new : List LinkEvent}
        (htransport : l.transport =
          (s.link.wrote arrivals (createCommand source p) new).transport) :
        ({ s with link := l } : Site).Keeps b flight arrivals := by
      refine Link.Entails.wrote hs htransport fun now left left' h _ => ?_
      rcases now.handle_createCommand source p with hc | ⟨id, hfree, -, hc⟩ <;> rw [hc]
      · exact h.1.of_processors rfl
      · exact h.1.created hfree rfl
    rcases hrequest : Link.request (createCommand source p) processorKey what s.link
      with ⟨fault | reply, l⟩
    · rw [onLink_of_error hrequest]
      rcases hs.1.request_cases hrequest with ⟨-, -, htransport⟩ | ⟨new, -, htransport, -⟩
      · exact hs.keeps.of_transport htransport
      · exact hkeeps htransport
    · rw [onLink_of_ok hrequest]
      rcases hs.1.request_cases hrequest with ⟨_, h, -⟩ | ⟨new, hnew, htransport, hreply⟩
      · cases h
      · obtain ⟨hadmits, passed, hpassed⟩ := hreply reply rfl
        refine ⟨hkeeps htransport, fun id hid => Link.Entails.wrote hs htransport ?_⟩
        rintro now left left' ⟨hbacks, hcount⟩ hin
        obtain ⟨own, hfree, hcreated, rfl, hleft, hqueue⟩ := now.own_answer (by omega) (by omega)
          hin hnew hpassed hadmits
        cases hid
        exact ⟨hbacks.answered hfree hcreated, Nat.le_of_eq (by rw [hleft, hqueue])⟩
  · rintro s ⟨hkeeps, hexpects⟩
    cases hid : replyId reply what with
    | ok id => exact hexpects id hid
    | error fault => exact hkeeps

theorem leads_createStage_expects (stage : PlannedStage) :
    Leads (Site.Expects b flight arrivals 0) (createStage stage)
      (fun _ => Site.Expects b flight arrivals 0) (fun _ => Site.Keeps b flight arrivals) :=
  Leads.get_bind fun _ _ => (leads_createProcessor_expects _ _ _).bind fun _ _ hs => hs

theorem leads_createLogger_expects (signal : Signal) (chunk : UInt8 × UInt8) :
    Leads (Site.Expects b flight arrivals n) (createLogger signal chunk)
      (fun _ => Site.Expects b flight arrivals n) (fun _ => Site.Keeps b flight arrivals) :=
  (leads_create_expects (sparesProcessors_logCommand _ _ _) _ _).bind fun _ _ hs => hs

theorem leads_createEvent_expects (entry parameters : Bytes) :
    Leads (Site.Expects b flight arrivals n) (createEvent entry parameters)
      (fun _ => Site.Expects b flight arrivals n) (fun _ => Site.Keeps b flight arrivals) :=
  (leads_send_expects (sparesProcessors_eventCommand entry)).bind fun _ =>
    (leads_create_expects (sparesProcessors_parameterCommand parameters) _ _).bind
      fun _ _ hs => hs

end Programming

open Programming in
/-- **A program credits every answer to its own creation**, unless an answer to an earlier one can
still come in when it begins.  That does not matter to a plan without stages. -/
theorem Plan.leads_program_expects (p : Plan) (hn : p.stages ≠ [] → n = 0) :
    Leads (Site.Expects b flight arrivals n) p.program
      (fun _ => Site.Expects b flight arrivals n) (fun _ => Site.Keeps b flight arrivals) := by
  have hstages : Leads (Site.Expects b flight arrivals n) (p.stages.forM createStage)
      (fun _ => Site.Expects b flight arrivals n) (fun _ => Site.Keeps b flight arrivals) := by
    refine Leads.forM (fun _ => Site.Expects b flight arrivals n) _ fun _ stage _ hstages => ?_
    obtain rfl := hn (by rw [hstages]; simp)
    exact leads_createStage_expects stage
  exact hstages.bind fun _ =>
    Leads.behindStages leads_createEvent_expects leads_createLogger_expects
      (fun id => leads_send_expects (sparesProcessors_notifyCommand id)) (fun _ _ hs => hs.keeps) p

/-! ## Undoing -/

theorem Link.Entails.trySends {Q : SimulatedBoard → Prop} {commands : List Bytes}
    (hQ : ∀ command ∈ commands, ∀ now, Q now → Q (now.handle command).2)
    (h : l.Entails b flight arrivals fun now _ => Q now) :
    (commands.foldl Link.trySend l).Entails b flight arrivals fun now _ => Q now := by
  induction commands generalizing l with
  | nil => exact h
  | cons command rest ih =>
    refine ih (fun c hc => hQ c (List.mem_cons_of_mem _ hc)) ?_
    rw [Link.trySend]
    rcases h.1.send_cases command with ⟨fault, hsend⟩ | ⟨new, -, hsend⟩ <;> rw [hsend]
    · exact h
    · exact h.wrote rfl fun now _ _ hnow _ => hQ command List.mem_cons_self now hnow

/-- **Taking back what was placed leaves what was there before.** -/
theorem Site.Keeps.rollback (h : s.Keeps b flight arrivals) :
    s.rollback.Entails b flight arrivals fun now _ => now.Retains b := by
  have hbefore : s.link.Entails b flight arrivals fun now _ =>
      now.Retains b ∧ ∀ p ∈ s.placed, b.processors.contains p.id = false :=
    h.mono fun _ _ hs => ⟨hs.retains, fun _ hp => hs.fresh hp⟩
  refine Link.Entails.mono (hbefore.trySends fun command hcommand now hnow => ⟨?_, hnow.2⟩)
    fun _ _ hs => hs.1
  have hspared (hspares : SparesProcessors command) : (now.handle command).2.Retains b := by
    intro id row hrow
    rw [(hspares now).1]
    exact hnow.1 id row hrow
  rw [removals, List.mem_append, List.mem_append, List.mem_map, List.mem_map, List.mem_map]
    at hcommand
  obtain (⟨p, hp, rfl⟩ | ⟨id, -, rfl⟩) | ⟨id, -, rfl⟩ := hcommand
  · intro id row hrow
    have hne : id ≠ p.id := by
      rintro rfl
      have hfree := hnow.2 p hp
      rw [IdTable.contains, hrow] at hfree
      cases hfree
    rw [SimulatedBoard.handle_removeProcessorCommand, IdTable.find?_erase, if_neg hne]
    exact hnow.1 id row hrow
  · exact hspared (sparesProcessors_removeLoggerCommand id)
  · exact hspared (sparesProcessors_removeEventCommand id)

/-! ## Graphs -/

/-- The graph has every processor under the id under which the board holds its configuration and its
input. -/
def Graph.Credited (g : Graph) (b : SimulatedBoard) : Prop :=
  ∀ e ∈ g.processors.values, ∃ row, b.processors.find? e.id = some row ∧
    row.config = e.processor.encode ∧ row.source.take 3 = e.source.toBytes

namespace Graph.Credited

variable {g : Graph} {now : SimulatedBoard}

theorem of_retains (h : g.Credited b) (hnow : now.Retains b) : g.Credited now := by
  intro e he
  obtain ⟨row, hrow, hsame⟩ := h e he
  exact ⟨row, hnow e.id row hrow, hsame⟩

theorem enter (h : g.Credited b) {placed : List Placed} (hbacks : now.Backs b placed)
    (catalog : Catalog) (route : RouteId) (plan : Plan) (loggers : List (List UInt8))
    (events : List UInt8) : (g.enter catalog route plan placed loggers events).2.Credited now := by
  intro e he
  rcases mem_processors_enter _ _ _ _ _ _ _ he with ⟨⟨stage, p⟩, hp, rfl⟩ | hold
  · exact ⟨p.row.2, hbacks.held (List.of_mem_zip hp).2, rfl, rfl⟩
  · exact h.of_retains hbacks.retains e hold

end Graph.Credited

/-- **A realization keeps a graph credited**, whether it succeeds or fails, unless an answer to an
earlier creation can still come in when it begins. -/
theorem realize_credited {station station' : Station} (h : station.graph.Credited b) {plan : Plan}
    (hexpects : Site.Expects b flight arrivals n ⟨station.link, [], [], []⟩)
    (hn : plan.stages ≠ [] → n = 0) {catalog : Catalog} {route : RouteId}
    (hrealize : (realize catalog route plan station).2 = station') {now : SimulatedBoard}
    {left : List LinkEvent}
    (hexchange : Exchange b flight station'.link.transport.sent arrivals now left) :
    station'.graph.Credited now := by
  have hprogram : Leads (Site.Expects b flight arrivals n) plan.program _ _ :=
    plan.leads_program_expects hn
  rw [realize] at hrealize
  rcases hrun : plan.program ⟨station.link, [], [], []⟩ with ⟨fault | loggers, site⟩
  · rw [hrun] at hrealize
    subst hrealize
    exact h.of_retains ((hprogram.error hexpects hrun).rollback.of_exchange hexchange)
  · rw [hrun] at hrealize
    subst hrealize
    exact h.enter ((hprogram.ok hexpects hrun).keeps.of_exchange hexchange) _ _ _ _ _

end
end SignalRoute
