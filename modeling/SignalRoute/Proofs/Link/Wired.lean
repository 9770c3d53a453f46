import SignalRoute.Link.Basic

/-!
# A link to a board

A link is wired to a board if commands reach the board, its queue has been read, and nothing has
been prepared in place of the board's answers.  Writes may still be refused.

For such a link the operations are equations.  A write that is refused changes the record of the
transport only (`Link.refused`); any other carries the command over (`Link.carried`), and a request
is answered by the frame that the board sends at once, or waits in vain.  Either way the link stays
wired, to the board as it was or as the command left it.

While a readout is read, the queue is not empty: a link that `Serves` a board reaches it, and refuses
nothing, but may have more to read.

The queue of a wired link is empty between two operations, because an operation reads whatever its
command brings in.  This is what makes the equations possible, and it is why a late answer cannot be
described with them.
-/

set_option autoImplicit false

namespace SignalRoute

/-! ## Writes -/

namespace Transport

/-- Will the next write be refused? -/
def Refuses (t : Transport) : Prop := t.refuse ≠ 0 ∧ t.skip = 0

instance (t : Transport) : Decidable t.Refuses := by
  unfold Refuses
  infer_instance

/-- The transport after a write that was refused. -/
def refused (t : Transport) (command : Bytes) : Transport :=
  { t with sent := t.sent ++ [command], refuse := t.refuse - 1 }

/-- The transport after a write that left the board as `b`. -/
def carried (t : Transport) (command : Bytes) (b : SimulatedBoard) : Transport :=
  { t with
    sent := t.sent ++ [command]
    skip := if t.refuse = 0 then t.skip else t.skip - 1
    board := some b }

theorem write_of_refuses {t : Transport} (h : t.Refuses) (command : Bytes) :
    t.write command = (.error (.transport "injected write failure"), t.refused command) := by
  rw [write, if_neg h.1, if_pos h.2]
  rfl

theorem write_of_not_refuses {t : Transport} {b : SimulatedBoard} (h : ¬t.Refuses)
    (hscripts : t.scripts = []) (hboard : t.board = some b) (hlive : b.connected = true)
    (command : Bytes) :
    t.write command = (.ok (b.handle command).1, t.carried command (b.handle command).2) := by
  by_cases hrefuse : t.refuse = 0
  · simp [write, forward, carried, hrefuse, hscripts, takeScript, hboard, hlive]
  · have hskip : t.skip ≠ 0 := fun hskip => h ⟨hrefuse, hskip⟩
    simp [write, forward, carried, hrefuse, hskip, hscripts, takeScript, hboard, hlive]

/-- One write less is left before the refused ones, if there are any. -/
structure Spends (t t' : Transport) : Prop where
  refuse : t'.refuse = t.refuse
  skip : t.refuse ≠ 0 → t'.skip + 1 = t.skip

theorem spends_carried {t : Transport} (h : ¬t.Refuses) (command : Bytes) (b : SimulatedBoard) :
    t.Spends (t.carried command b) := by
  refine ⟨rfl, fun hrefuse => ?_⟩
  have hskip : t.skip ≠ 0 := fun hskip => h ⟨hrefuse, hskip⟩
  rw [carried, if_neg hrefuse]
  exact Nat.sub_add_cancel (Nat.pos_of_ne_zero hskip)

end Transport

namespace Link

/-- Commands reach the board `b`, and everything that came from it has been read. -/
structure Wired (l : Link) (b : SimulatedBoard) : Prop where
  board : l.transport.board = some b
  scripts : l.transport.scripts = []
  queue : l.queue = []
  room : 0 < l.capacity
  isOpen : l.isOpen = true
  connected : l.connected = true
  live : b.connected = true

/-- The link after a write that was refused. -/
def refused (l : Link) (command : Bytes) : Link :=
  { l with transport := l.transport.refused command }

/-- The link after a write that left the board as `b`. -/
def carried (l : Link) (command : Bytes) (b : SimulatedBoard) : Link :=
  { l with transport := l.transport.carried command b }

/-- The link with nothing waited for. -/
def idle (l : Link) : Link := { l with slot := .empty }

variable {l : Link} {b b' : SimulatedBoard}

namespace Wired

theorem refused (h : l.Wired b) (command : Bytes) : (l.refused command).Wired b :=
  { h with }

theorem carried (h : l.Wired b) (command : Bytes) (hlive : b'.connected = true) :
    (l.carried command b').Wired b' :=
  { h with board := rfl, live := hlive }

theorem idle (h : l.Wired b) : l.idle.Wired b := { h with }

theorem withSlot (h : l.Wired b) (slot : PendingSlot) : ({ l with slot := slot } : Link).Wired b :=
  { h with }

end Wired

/-! ## Sending -/

theorem send_of_refuses (h : l.Wired b) (hr : l.transport.Refuses) (command : Bytes) :
    send command l = (.error (.transport "injected write failure"), l.refused command) := by
  show (if l.connected then write command else _) l = _
  rw [if_pos h.connected]
  simp only [write, Transport.write_of_refuses hr]
  rfl

/-- A command that is carried over, whatever is in the queue. -/
theorem send_of_carried (hr : ¬l.transport.Refuses) (hconnected : l.connected = true)
    (hscripts : l.transport.scripts = []) (hboard : l.transport.board = some b)
    (hlive : b.connected = true) (command : Bytes) :
    send command l
      = (.ok (), (l.carried command (b.handle command).2).receiveAll (b.handle command).1) := by
  show (if l.connected then write command else _) l = _
  rw [if_pos hconnected]
  simp only [write, Transport.write_of_not_refuses hr hscripts hboard hlive]
  rfl

theorem send_of_not_refuses (h : l.Wired b) (hr : ¬l.transport.Refuses) (command : Bytes) :
    send command l
      = (.ok (), (l.carried command (b.handle command).2).receiveAll (b.handle command).1) :=
  send_of_carried hr h.connected h.scripts h.board h.live command

/-- A command without an answer. -/
theorem send_of_silent (h : l.Wired b) (hr : ¬l.transport.Refuses) {command : Bytes}
    (hc : b.handle command = ([], b')) : send command l = (.ok (), l.carried command b') := by
  rw [send_of_not_refuses h hr, hc]
  rfl

/-! ## Requests -/

theorem request_of_refuses (h : l.Wired b) (hr : l.transport.Refuses) (command : Bytes)
    (key : ReplyKey) (what : String) :
    request command key what l
      = (.error (.transport "injected write failure"), (l.refused command).idle) := by
  rw [request, send_of_refuses (h.withSlot (l.slot.arm key)) hr]
  rfl

/-- A request that the board does not answer waits in vain. -/
theorem request_of_silent (h : l.Wired b) (hr : ¬l.transport.Refuses) {command : Bytes}
    (hc : b.handle command = ([], b')) (key : ReplyKey) (what : String) :
    request command key what l
      = (.error (.timeout what l.timeoutMs), (l.carried command b').idle) := by
  rw [request, send_of_silent (h.withSlot (l.slot.arm key)) hr hc]
  obtain ⟨transport, queue, capacity, isOpen, slot, backlog, timeoutMs, connected⟩ := l
  obtain ⟨-, -, rfl, -, rfl, -, -⟩ := h
  rfl

/-- A request that the board answers is answered. -/
theorem request_of_reply (h : l.Wired b) (hr : ¬l.transport.Refuses) {command frame : Bytes}
    {key : ReplyKey} (hc : b.handle command = ([.frame frame], b')) (hkey : key.admits frame = true)
    (what : String) :
    request command key what l = (.ok frame, (l.carried command b').idle) := by
  rw [request, send_of_not_refuses (h.withSlot (l.slot.arm key)) hr, hc]
  obtain ⟨transport, queue, capacity, isOpen, slot, backlog, timeoutMs, connected⟩ := l
  obtain ⟨-, -, rfl, hroom, -, -, -⟩ := h
  simp only at hroom
  simp only [receiveAll, List.foldl_cons, List.foldl_nil, receive, hasRoom, carried, idle,
    List.length_nil, hroom, decide_true, if_true, List.nil_append, await, PendingSlot.accepts,
    PendingSlot.arm, hkey]

/-! ## A queue that is being read -/

/-- Events that there is room for are all in the queue. -/
theorem receiveAll_eq (events : List LinkEvent) (h : l.queue.length + events.length ≤ l.capacity) :
    l.receiveAll events = { l with queue := l.queue ++ events } := by
  induction events generalizing l with
  | nil =>
    rw [List.append_nil]
    rfl
  | cons e rest ih =>
    rw [List.length_cons] at h
    have hroom : l.hasRoom = true := decide_eq_true (by omega)
    have hone : l.receive e = { l with queue := l.queue ++ [e] } := by rw [receive, if_pos hroom]
    have hfits : ({ l with queue := l.queue ++ [e] } : Link).queue.length + rest.length ≤
        l.capacity := by
      rw [List.length_append, List.length_singleton]
      omega
    have hrest := ih hfits
    rw [← hone] at hrest
    refine hrest.trans ?_
    rw [hone, List.append_assoc]
    rfl

/-- Commands reach the board `b` if it is connected, none is refused, and nothing is to be read but
what is in the queue, which has room for `room` events. -/
structure Serves (l : Link) (b : SimulatedBoard) (room : Nat) : Prop where
  board : l.transport.board = some b
  scripts : l.transport.scripts = []
  refuse : l.transport.refuse = 0
  isOpen : l.isOpen = true
  connected : l.connected = true
  backlog : l.backlog = []
  capacity : l.capacity = room

namespace Serves

variable {room : Nat}

theorem withQueue (h : l.Serves b room) (events : List LinkEvent) :
    ({ l with queue := events } : Link).Serves b room := { h with }

theorem carried (h : l.Serves b room) (command : Bytes) : (l.carried command b').Serves b' room :=
  { h with board := rfl }

/-- A command without an answer. -/
theorem send_silent (h : l.Serves b room) (hlive : b.connected = true) {command : Bytes}
    (hc : b.handle command = ([], b')) : send command l = (.ok (), l.carried command b') := by
  have hr : ¬l.transport.Refuses := fun hr => hr.1 h.refuse
  rw [send_of_carried hr h.connected h.scripts h.board hlive, hc]
  rfl

/-- A command with an answer that there is room for. -/
theorem send (h : l.Serves b room) (hlive : b.connected = true) {command : Bytes}
    {events : List LinkEvent} (hc : b.handle command = (events, b'))
    (hroom : l.queue.length + events.length ≤ room) :
    Link.send command l =
      (.ok (), { l.carried command b' with queue := l.queue ++ events }) := by
  have hr : ¬l.transport.Refuses := fun hr => hr.1 h.refuse
  rw [send_of_carried hr h.connected h.scripts h.board hlive, hc]
  exact congrArg (Prod.mk _) (receiveAll_eq events (by rw [← h.capacity] at hroom; exact hroom))

end Serves

theorem Wired.serves (h : l.Wired b) (hrefuse : l.transport.refuse = 0) (hbacklog : l.backlog = []) :
    l.Serves b l.capacity :=
  ⟨h.board, h.scripts, hrefuse, h.isOpen, h.connected, hbacklog, rfl⟩

end Link
end SignalRoute
