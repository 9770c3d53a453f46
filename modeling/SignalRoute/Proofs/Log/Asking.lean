import SignalRoute.Proofs.Link.Traffic
import SignalRoute.Proofs.Lists
import SignalRoute.Proofs.Log.Adoption

/-!
# Asking for the entries of a table

A survey is not always made over a link at rest.  The connection may be lost, writes may be refused,
and the queue may hold what came in before, or be full of it.  `l.Faces b` says that none of this can
be taken for an answer: the link reaches a board with the tables of `b`, if it reaches anything, and
nothing in the queue looks like an entry of a table.

Over such a link a question is put once, and if it is answered, then with the entry
(`TableRead.leads_request`); the answer is the last that is read, and so the link is at rest from
there on (`Link.Rests`).

Asked for all loggers that a graph does not have, a board answers with those that lie before the
first free place (`leads_readLoggers_new`).

Two notions of a link are needed because a survey gets by with less at its beginning than it leaves
behind.  Before the first answer the queue may hold anything but entries, and reading up to the
answer clears it; from the first answer on nothing is left but what the next question brings in.
-/

set_option autoImplicit false

namespace SignalRoute

/-! ## Links -/

/-- A frame with an entry of a table. -/
def isTableEntry (frame : Bytes) : Bool :=
  [Module.logging, readForm LogReg.trigger].isPrefixOf frame ||
    [Module.processor, readForm ProcessorReg.add].isPrefixOf frame

/-- A command that could be written was carried to the board. -/
theorem Transport.write_ok {t t' : Transport} {b : SimulatedBoard} {command : Bytes}
    {events : List LinkEvent} (hscripts : t.scripts = []) (hboard : t.board = some b)
    (h : t.write command = (.ok events, t')) :
    b.connected = true ∧ events = (b.handle command).1 ∧
      t' = t.carried command (b.handle command).2 := by
  by_cases hr : t.Refuses
  · rw [write_of_refuses hr] at h
    cases h
  · rcases hlive : b.connected
    · by_cases hrefuse : t.refuse = 0
      · simp [write, forward, hrefuse, hscripts, takeScript, hboard, hlive] at h
      · have hskip : t.skip ≠ 0 := fun hskip => hr ⟨hrefuse, hskip⟩
        simp [write, forward, hrefuse, hskip, hscripts, takeScript, hboard, hlive] at h
    · rw [write_of_not_refuses hr hscripts hboard hlive] at h
      cases h
      exact ⟨rfl, rfl, rfl⟩

namespace Link

/-- If anything can be reached over the link, it is a board with the tables of `b`, and nothing but
this board answers for them. -/
structure Faces (l : Link) (b : SimulatedBoard) : Prop where
  board : ∃ now, l.transport.board = some now ∧ now.processors = b.processors ∧
    now.loggers = b.loggers
  scripts : l.transport.scripts = []
  isOpen : l.isOpen = true
  queue : ∀ frame, .frame frame ∈ l.queue → isTableEntry frame = false

/-- The link reaches a board with the tables of `b`, and everything has been read. -/
def Rests (l : Link) (b : SimulatedBoard) : Prop :=
  ∃ now, l.Wired now ∧ now.processors = b.processors ∧ now.loggers = b.loggers

variable {l l' : Link} {b : SimulatedBoard}

theorem Rests.faces (h : l.Rests b) : l.Faces b := by
  obtain ⟨now, hwired, hprocessors, hloggers⟩ := h
  refine ⟨⟨now, hwired.board, hprocessors, hloggers⟩, hwired.scripts, hwired.isOpen, ?_⟩
  rw [hwired.queue]
  exact fun _ hframe => nomatch hframe

theorem Rests.reads (h : l.Rests b) (hrefuse : l.transport.refuse = 0) : l.Reads b := by
  obtain ⟨now, hwired, htables⟩ := h
  exact ⟨now, hwired, hrefuse, htables⟩

/-- Waiting for an answer changes nothing but what is to be read. -/
theorem await_ok_keeps {what : String} {events : List LinkEvent} {reply : Bytes}
    (h : await what events l = (.ok reply, l')) :
    l'.transport = l.transport ∧ l'.capacity = l.capacity ∧ l'.isOpen = l.isOpen ∧
      l'.connected = l.connected := by
  induction events generalizing l with
  | nil =>
    rw [await] at h
    split at h <;> cases h
  | cons e rest ih =>
    cases e with
    | disconnected => cases h
    | frame f =>
      rw [await] at h
      split at h
      · cases h
        exact ⟨rfl, rfl, rfl, rfl⟩
      · exact (ih h : _)

end Link

/-! ## Questions -/

namespace TableRead

variable {b : SimulatedBoard} {l : Link} (q : TableRead)

/-- Only entries of tables are taken for answers. -/
theorem isTableEntry_of_admits {frame : Bytes} (h : q.key.admits frame = true) :
    isTableEntry frame = true := by
  cases q with
  | logger id => exact Bool.or_eq_true_iff.2 (.inl h)
  | processor id =>
    refine Bool.or_eq_true_iff.2 (.inr ?_)
    have hlonger := List.isPrefixOf_iff_prefix.1 h
    exact List.isPrefixOf_iff_prefix.2
      ((List.prefix_append [Module.processor, readForm ProcessorReg.add] [id]).trans hlonger)

/-- What was there before is no answer. -/
theorem not_mem_queue (hfaces : l.Faces b) {frame : Bytes} (h : q.key.admits frame = true) :
    .frame frame ∉ l.queue := by
  intro hframe
  have hentry := q.isTableEntry_of_admits h
  rw [hfaces.queue frame hframe] at hentry
  cases hentry

/-- A question that is answered is answered by the board, and then everything has been read. -/
theorem answered (hfaces : l.Faces b) {what : String} {reply : Bytes} {l' : Link}
    (h : Link.request q.command q.key what l = (.ok reply, l')) :
    l'.Rests b ∧ reply = q.answer b := by
  obtain ⟨now, hboard, hprocessors, hloggers⟩ := hfaces.board
  rw [Link.request, Link.send_apply] at h
  by_cases hconnected : l.connected = true
  swap
  · rw [if_neg hconnected] at h
    cases h
  rw [if_pos hconnected, Link.write] at h
  rcases hwrite : l.transport.write q.command with ⟨fault | events, t⟩ <;>
    simp only [hwrite] at h
  · cases h
  · obtain ⟨hlive, rfl, rfl⟩ := Transport.write_ok hfaces.scripts hboard hwrite
    rw [q.handle_command] at h
    change Link.await what (Link.receive _ (.frame (q.answer now))).queue
      (Link.receive _ (.frame (q.answer now))) = _ at h
    rw [Link.receive] at h
    split at h
    · -- the answer is behind everything that came in before
      rename_i hroom
      obtain ⟨haccepts, passed, hpassed⟩ := Link.await_ok h
      obtain ⟨htransport, hcapacity, hopen, hstays⟩ := Link.await_ok_keeps h
      rcases List.eq_nil_or_concat l'.queue with hempty | ⟨behind, last, hlast⟩
      · rw [hempty] at hpassed
        obtain ⟨-, hanswer⟩ := List.append_inj' hpassed rfl
        have hroom : 0 < l.capacity :=
          Nat.lt_of_le_of_lt (Nat.zero_le _) (of_decide_eq_true hroom)
        refine ⟨⟨now.heard q.command, ⟨?_, ?_, hempty, ?_, ?_, ?_, hlive⟩, hprocessors, hloggers⟩,
          ?_⟩
        · rw [htransport]
          rfl
        · rw [htransport]
          exact hfaces.scripts
        · rw [hcapacity]
          exact hroom
        · rw [hopen]
          exact hfaces.isOpen
        · rw [hstays]
          exact hconnected
        · cases hanswer
          exact q.answer_congr hprocessors hloggers
      · rw [hlast, List.concat_eq_append, ← List.cons_append, ← List.append_assoc] at hpassed
        exact (q.not_mem_queue hfaces haccepts
          ((List.append_inj' hpassed rfl).1 ▸ List.mem_append_right _ List.mem_cons_self)).elim
    · obtain ⟨haccepts, passed, hpassed⟩ := Link.await_ok h
      exact (q.not_mem_queue hfaces haccepts
        (hpassed ▸ List.mem_append_right _ List.mem_cons_self)).elim

end TableRead

/-- The commands of questions were sent, on top of those that had been sent over `before`. -/
def Link.Sent (before : Link) (questions : List TableRead) (l : Link) : Prop :=
  l.transport.sent = before.transport.sent ++ questions.map TableRead.command

/-- The questions were put, and answered by the board. -/
structure Link.Asked (b : SimulatedBoard) (before : Link) (questions : List TableRead) (l : Link) :
    Prop where
  faces : l.Faces b
  sent : before.Sent questions l
  rests : questions ≠ [] → l.Rests b

section

variable {b : SimulatedBoard} {l before : Link} {questions : List TableRead}

theorem Link.Faces.asked (h : l.Faces b) : l.Asked b [] l := by
  refine ⟨h, ?_, fun hne => absurd rfl hne⟩
  rw [Sent, List.map_nil, List.append_nil]

/-- **A question is put once**, and if it is answered, then with the entry. -/
theorem TableRead.leads_request (q : TableRead) (what : String) :
    Leads (before.Asked b questions) (Link.request q.command q.key what)
      (fun reply l => before.Asked b (questions ++ [q]) l ∧ reply = q.answer b)
      fun _ l => before.Sent questions l ∨ before.Sent (questions ++ [q]) l := by
  intro l hl
  have hsent (l' : Link) (hl' : l'.transport.sent = l.transport.sent ++ [q.command]) :
      before.Sent (questions ++ [q]) l' := by
    rw [Link.Sent, hl', hl.sent, List.append_assoc, List.map_append, List.map_singleton]
  rcases hconnected : l.connected
  · -- nothing can be sent
    have hsend : Link.send q.command { l with slot := l.slot.arm q.key } = (.error (.connectionLost
        ("cannot send " ++ Link.commandText q.command ++ " while disconnected")),
          { l with slot := l.slot.arm q.key }) := by
      rw [Link.send_apply]
      exact if_neg (by rw [hconnected]; exact Bool.false_ne_true)
    rw [Link.request, hsend]
    exact .inl hl.sent
  · have hafter := Link.sent_request hconnected q.command q.key what
    rcases hrequest : Link.request q.command q.key what l with ⟨fault | reply, l'⟩ <;>
      rw [hrequest] at hafter
    · exact .inr (hsent l' hafter)
    · obtain ⟨hrests, hreply⟩ := q.answered hl.faces hrequest
      exact ⟨⟨hrests.faces, hsent l' hafter, fun _ => hrests⟩, hreply⟩

/-! ## Loggers

The board's side of the survey: what there is to be found, as a function of the table and of what
the host knows already.  The first free place ends the search, but only if the host does not have a
logger under its id, since such ids are not asked for.
-/

/-- The logger under an id in the table of a board.  A row that is too short holds none. -/
def SimulatedBoard.logger? (b : SimulatedBoard) (id : UInt8) : Option LoggerSource :=
  match b.loggers.find? id with
  | some (module :: register :: sourceId :: packed :: _) =>
    some ⟨id, ⟨module, register, sourceId⟩, (unpackRange packed).1, (unpackRange packed).2⟩
  | _ => none

/-- Of the loggers under `ids`, those that the graph does not have, up to the first free place. -/
def SimulatedBoard.newLoggers (b : SimulatedBoard) (g : Graph) (ids : List UInt8) :
    List LoggerSource :=
  ((ids.filter fun id => !g.hasLogger id).takeWhile b.loggers.contains).filterMap b.logger?

/-- A logger that the graph does not have, with none of the free places before it that the graph
does not have either. -/
structure SimulatedBoard.IsNew (b : SimulatedBoard) (g : Graph) (id : UInt8) : Prop where
  low : id.toNat < maxLoggers
  logs : (b.logger? id).isSome = true
  unknown : g.hasLogger id = false
  before : ∀ j < id, g.hasLogger j = false → b.loggers.contains j = true

namespace SimulatedBoard

theorem id_of_logger? {id : UInt8} {s : LoggerSource} (h : b.logger? id = some s) : s.id = id := by
  rw [logger?] at h
  split at h
  · cases h
    rfl
  · cases h

theorem contains_of_logger? {id : UInt8} {s : LoggerSource} (h : b.logger? id = some s) :
    b.loggers.contains id = true := by
  rw [logger?] at h
  rw [IdTable.contains]
  split at h
  · rename_i hrow
    rw [hrow]
    rfl
  · cases h

section

variable {g : Graph} {id : UInt8} (rest : List UInt8)

theorem newLoggers_of_known (h : g.hasLogger id = true) :
    b.newLoggers g (id :: rest) = b.newLoggers g rest := by
  rw [newLoggers, List.filter_cons_of_neg (by simp [h]), newLoggers]

theorem newLoggers_of_unknown (h : g.hasLogger id = false) :
    b.newLoggers g (id :: rest) =
      if b.loggers.contains id then (b.logger? id).toList ++ b.newLoggers g rest else [] := by
  rw [newLoggers, List.filter_cons_of_pos (by simp [h]), List.takeWhile_cons, newLoggers]
  split
  · rw [List.filterMap_cons]
    cases b.logger? id <;> rfl
  · rfl

end

theorem loggerIds_ascending : loggerIds.Pairwise (· < ·) := by decide

theorem mem_loggerIds {id : UInt8} : id ∈ loggerIds ↔ id.toNat < maxLoggers := by
  rw [loggerIds, List.mem_map]
  constructor
  · rintro ⟨n, hn, rfl⟩
    rw [List.mem_range] at hn
    rwa [UInt8.toNat_ofNat_of_lt' (Nat.lt_trans hn (by decide))]
  · exact fun h => ⟨id.toNat, List.mem_range.2 h, UInt8.ofNat_toNat⟩

/-- The new loggers are found in the order of their ids. -/
theorem newLoggers_ascending (b : SimulatedBoard) (g : Graph) :
    (b.newLoggers g loggerIds).Pairwise fun s t => s.id < t.id := by
  have hids := (loggerIds_ascending.filter fun id => !g.hasLogger id).sublist
    (List.takeWhile_sublist b.loggers.contains)
  refine List.Pairwise.filterMap _ (fun i j hlt s hs t ht => ?_) hids
  rw [id_of_logger? hs, id_of_logger? ht]
  exact hlt

theorem mem_newLoggers {g : Graph} {s : LoggerSource} :
    s ∈ b.newLoggers g loggerIds ↔ b.IsNew g s.id ∧ b.logger? s.id = some s := by
  have hids := loggerIds_ascending.filter fun id => !g.hasLogger id
  rw [newLoggers, List.mem_filterMap]
  constructor
  · rintro ⟨id, hid, hs⟩
    obtain ⟨hmem, -, hbefore⟩ := (mem_takeWhile_of_ascending hids).1 hid
    obtain ⟨hlow, hunknown⟩ := List.mem_filter.1 hmem
    rw [id_of_logger? hs]
    refine ⟨⟨mem_loggerIds.1 hlow, by rw [hs]; rfl, by simpa using hunknown, fun j hj hfree => ?_⟩,
      hs⟩
    refine hbefore j (List.mem_filter.2 ⟨mem_loggerIds.2 ?_, by simp [hfree]⟩) hj
    exact Nat.lt_trans (UInt8.lt_iff_toNat_lt.1 hj) (mem_loggerIds.1 hlow)
  · rintro ⟨⟨hlow, -, hunknown, hbefore⟩, hs⟩
    refine ⟨s.id, (mem_takeWhile_of_ascending hids).2 ⟨?_, contains_of_logger? hs, ?_⟩, hs⟩
    · exact List.mem_filter.2 ⟨mem_loggerIds.2 hlow, by simp [hunknown]⟩
    · intro j hj hlt
      exact hbefore j hlt (by simpa using (List.mem_filter.1 hj).2)

end SimulatedBoard

/-- What an answer says of a slot. -/
theorem LoggerSlot.ofReply_answer (b : SimulatedBoard) (id : UInt8) :
    (ofReply id ((TableRead.logger id).answer b) = .tableEnd ∧ b.loggers.contains id = false) ∨
      b.loggers.contains id = true ∧
        ((ofReply id ((TableRead.logger id).answer b) = .empty ∧ b.logger? id = none) ∨
          ∃ s, ofReply id ((TableRead.logger id).answer b) = .used s ∧ b.logger? id = some s) := by
  rw [TableRead.answer, SimulatedBoard.logger?, IdTable.contains]
  cases b.loggers.find? id with
  | none => exact .inl ⟨rfl, rfl⟩
  | some row =>
    refine .inr ⟨rfl, ?_⟩
    rcases row with _ | ⟨_, _ | ⟨_, _ | ⟨_, _ | ⟨_, _⟩⟩⟩⟩
    · exact .inl ⟨rfl, rfl⟩
    · exact .inl ⟨rfl, rfl⟩
    · exact .inl ⟨rfl, rfl⟩
    · exact .inl ⟨rfl, rfl⟩
    · exact .inr ⟨_, if_pos rfl, rfl⟩

theorem leads_readLogger_slot (id : UInt8) :
    Leads (before.Asked b questions) (readLogger id)
      (fun slot l => before.Asked b (questions ++ [.logger id]) l ∧
        slot = LoggerSlot.ofReply id ((TableRead.logger id).answer b))
      fun _ l => before.Sent questions l ∨ before.Sent (questions ++ [.logger id]) l :=
  ((TableRead.logger id).leads_request "logger read").bind fun _ => Leads.pull fun hreply =>
    Leads.pure _ fun _ hl => ⟨hl, hreply ▸ rfl⟩

/-- **The loggers that the graph does not have are found**, and each is asked for at most once.  If
none is asked for, the graph has them all. -/
theorem leads_readLoggers_new (g : Graph) (ids : List UInt8) :
    Leads (before.Asked b questions) (readLoggers g ids)
      (fun sources l => ∃ read : List UInt8,
        before.Asked b (questions ++ read.map .logger) l ∧ read.length ≤ ids.length ∧
          (read = [] → ∀ id ∈ ids, g.hasLogger id = true) ∧ sources = b.newLoggers g ids)
      fun _ l => ∃ read : List UInt8,
        before.Sent (questions ++ read.map .logger) l ∧ read.length ≤ ids.length := by
  induction ids generalizing questions with
  | nil =>
    refine Leads.pure _ fun l hl => ⟨[], ?_, Nat.le_refl _, fun _ => List.forall_mem_nil _, rfl⟩
    rwa [List.map_nil, List.append_nil]
  | cons id rest ih =>
    rw [readLoggers]
    split
    · rename_i hknown
      rw [SimulatedBoard.newLoggers_of_known rest hknown]
      refine ih.weaken (fun _ h => h) ?_ ?_
      · rintro sources l ⟨read, hl, hlength, hnone, hsources⟩
        exact ⟨read, hl, Nat.le_succ_of_le hlength,
          fun hread => List.forall_mem_cons.2 ⟨hknown, hnone hread⟩, hsources⟩
      · rintro _ l ⟨read, hl, hlength⟩
        exact ⟨read, hl, Nat.le_succ_of_le hlength⟩
    · rename_i hunknown
      rw [SimulatedBoard.newLoggers_of_unknown rest (Bool.eq_false_of_not_eq_true hunknown)]
      refine Leads.bind ((leads_readLogger_slot id).weaken (fun _ h => h) (fun _ _ h => h) ?_)
        fun slot => Leads.pull fun hslot => ?_
      · rintro _ l (hl | hl)
        · exact ⟨[], by rwa [List.map_nil, List.append_nil], Nat.zero_le _⟩
        · exact ⟨[id], hl, Nat.le_add_left 1 _⟩
      -- what is read from here on comes behind this question
      have hrest :
          Leads (before.Asked b (questions ++ [.logger id])) (readLoggers g rest)
            (fun sources l => (∃ read : List UInt8,
              before.Asked b (questions ++ read.map .logger) l ∧ read.length ≤ rest.length + 1 ∧
                read ≠ []) ∧ sources = b.newLoggers g rest) fun _ l => ∃ read : List UInt8,
            before.Sent (questions ++ read.map .logger) l ∧ read.length ≤ rest.length + 1 := by
        refine ih.weaken (fun _ h => h) ?_ ?_
        · rintro sources l ⟨read, hl, hlength, -, hsources⟩
          rw [List.append_assoc] at hl
          exact ⟨⟨id :: read, hl, Nat.succ_le_succ hlength, List.cons_ne_nil _ _⟩, hsources⟩
        · rintro _ l ⟨read, hl, hlength⟩
          rw [List.append_assoc] at hl
          exact ⟨id :: read, hl, Nat.succ_le_succ hlength⟩
      rcases LoggerSlot.ofReply_answer b id with
        ⟨hend, htaken⟩ | ⟨htaken, ⟨hempty, hlogger⟩ | ⟨s, hused, hlogger⟩⟩
      · rw [hslot, hend, htaken]
        exact Leads.pure _ fun l hl => ⟨[id], hl, Nat.le_add_left 1 _,
          fun hread => absurd hread (List.cons_ne_nil _ _), rfl⟩
      · rw [hslot, hempty, if_pos htaken, hlogger]
        refine hrest.weaken (fun _ h => h) ?_ fun _ _ h => h
        rintro sources l ⟨⟨read, hl, hlength, hread⟩, hsources⟩
        exact ⟨read, hl, hlength, fun h => absurd h hread, hsources⟩
      · rw [hslot, hused, if_pos htaken, hlogger]
        refine hrest.bind fun sources => Leads.pull fun hsources => Leads.pure _ ?_
        rintro l ⟨read, hl, hlength, hread⟩
        exact ⟨read, hl, hlength, fun h => absurd h hread, congrArg (s :: ·) hsources⟩

end
end SignalRoute
