import Mathlib.Data.List.Perm.Basic
import SignalRoute.Proofs.Link.Ordering
import SignalRoute.Proofs.Outcome

/-!
# Where the frames of a link go

Whoever works with a link sends commands, makes requests and takes frames.  A `Journal` is a link
with a record of the frames: those that were in the link or came in, those that requests returned,
and those that were taken.  Frames come in when a command is sent, as far as the queue has room for
them (`Link.entering`); the record of the transport tells which commands these were.

`Journal.balanced_of_run`: however a link is used, each frame that came in is a reply, or was taken,
or waits in the backlog or in the queue, and is so once.

A journal does not look into a request, so it can be kept for any use of a link, and conservation is
all that it can say: of two equal frames it does not know which one was the reply, and the balance
is one up to the order (`Journal.Balanced`).  The order of frames is in `Proofs.Link.Ordering`, for
which a request has to be taken apart.
-/

set_option autoImplicit false

namespace SignalRoute

namespace Link

/-- The frames that get into the queue if a command is sent. -/
def entering (command : Bytes) (l : Link) : List Bytes :=
  framesOf ((send command l).2.queue.drop l.queue.length)

variable {l : Link}

/-- What gets into the queue is behind what is there, and nothing else changes. -/
theorem framesOf_send (command : Bytes) (l : Link) :
    framesOf (send command l).2.queue = framesOf l.queue ++ l.entering command ∧
      (send command l).2.backlog = l.backlog := by
  obtain ⟨new, hqueue, hbacklog⟩ := send_queue command l
  refine ⟨?_, hbacklog⟩
  rw [entering, hqueue, List.drop_left, framesOf_append]

/-- The frame that a request returned, if it returned one. -/
def replied : Except Fault Bytes → List Bytes
  | .ok reply => [reply]
  | .error _ => []

/-- Waiting for an answer takes frames from the queue, and all but the answer go to the backlog. -/
theorem framesOf_await (what : String) (events : List LinkEvent) (l : Link) :
    List.Perm (l.backlog ++ framesOf events)
      (replied (await what events l).1 ++
        ((await what events l).2.backlog ++ framesOf (await what events l).2.queue)) := by
  induction events generalizing l with
  | nil =>
    rw [await]
    split <;> exact .refl _
  | cons e rest ih =>
    cases e with
    | disconnected => exact .refl _
    | frame f =>
      rw [await, framesOf_frame]
      split
      · exact List.perm_middle
      · have hpassed := ih (l.defer f)
        rwa [show (l.defer f).backlog = l.backlog ++ [f] from rfl, List.append_assoc] at hpassed

/-- The link that waits for an answer. -/
def armed (l : Link) (key : ReplyKey) : Link := { l with slot := l.slot.arm key }

theorem request_eq (command : Bytes) (key : ReplyKey) (what : String) (l : Link) :
    request command key what l = match send command (l.armed key) with
      | (.ok _, l) => await what l.queue l
      | (.error fault, l) => (.error fault, { l with slot := .empty }) := rfl

/-- A request adds what its command brings in, and takes its answer out. -/
theorem framesOf_request (command : Bytes) (key : ReplyKey) (what : String) (l : Link) :
    List.Perm (l.backlog ++ framesOf l.queue ++ (l.armed key).entering command)
      (replied (request command key what l).1 ++
        ((request command key what l).2.backlog ++
          framesOf (request command key what l).2.queue)) := by
  obtain ⟨hqueue, hbacklog⟩ := framesOf_send command (l.armed key)
  have hsent : l.backlog ++ framesOf l.queue ++ (l.armed key).entering command =
      (send command (l.armed key)).2.backlog ++ framesOf (send command (l.armed key)).2.queue := by
    rw [hqueue, hbacklog, List.append_assoc]
    rfl
  rw [hsent, request_eq]
  rcases send command (l.armed key) with ⟨fault | _, after⟩
  · exact .refl _
  · exact framesOf_await what after.queue after

/-- Sending leaves alone what is waited for. -/
theorem slot_send (command : Bytes) (l : Link) : (send command l).2.slot = l.slot := by
  rw [send_apply]
  split
  · rw [write]
    rcases l.transport.write command with ⟨fault | events, t⟩
    · rfl
    · obtain ⟨new, -, hl⟩ := exists_receiveAll events { l with transport := t }
      have hslot := congrArg Link.slot hl
      exact hslot
  · rfl

/-- What a request returns is an answer to it. -/
theorem admits_of_request {command reply : Bytes} {key : ReplyKey} {what : String} {l' : Link}
    (h : request command key what l = (.ok reply, l')) : key.admits reply = true := by
  have hslot := slot_send command (l.armed key)
  rw [request_eq] at h
  rcases hsend : send command (l.armed key) with ⟨fault | _, after⟩ <;> rw [hsend] at h hslot
  · cases h
  · have haccepts := (await_ok h).1
    rwa [hslot] at haccepts

end Link

/-- A link, and what happened to its frames. -/
structure Journal where
  link : Link
  /-- The frames that were in the link or came in. -/
  entered : List Bytes
  /-- Those that requests returned. -/
  replies : List Bytes
  /-- Those that were taken, oldest first. -/
  taken : List Bytes

namespace Journal

/-- What is in a link to begin with. -/
def start (l : Link) : Journal := ⟨l, l.backlog ++ framesOf l.queue, [], []⟩

/-- A command is sent. -/
def send (j : Journal) (command : Bytes) : Journal :=
  { j with
    link := (Link.send command j.link).2
    entered := j.entered ++ j.link.entering command }

/-- A request is made. -/
def ask (j : Journal) (command : Bytes) (key : ReplyKey) (what : String) : Journal :=
  { j with
    link := (Link.request command key what j.link).2
    entered := j.entered ++ (j.link.armed key).entering command
    replies := j.replies ++ Link.replied (Link.request command key what j.link).1 }

/-- The next frame is taken, if there is one. -/
def next (j : Journal) : Journal :=
  match Link.tryNext j.link with
  | (.ok (some f), l) => { j with link := l, taken := j.taken ++ [f] }
  | (_, l) => { j with link := l }

/-- What is done with a link. -/
inductive Step (j : Journal) : Journal → Prop
  | sent (command : Bytes) : Step j (j.send command)
  | asked (command : Bytes) (key : ReplyKey) (what : String) : Step j (j.ask command key what)
  | next : Step j j.next

/-- A link is used for a while. -/
abbrev Run : Journal → Journal → Prop := Relation.ReflTransGen Step

/-- Each frame that came in went one way, or is still in the link. -/
def Balanced (j : Journal) : Prop :=
  j.entered.Perm (j.replies ++ (j.taken ++ (j.link.backlog ++ framesOf j.link.queue)))

variable {j j' : Journal}

theorem balanced_start (l : Link) : (start l).Balanced := .refl _

theorem next_of_frame {f : Bytes} {l : Link} (h : Link.tryNext j.link = (.ok (some f), l)) :
    j.next = { j with link := l, taken := j.taken ++ [f] } := by
  simp only [next, h]

theorem next_of_none {outcome : Except Fault (Option Bytes)} {l : Link}
    (h : Link.tryNext j.link = (outcome, l)) (hnone : ∀ f, outcome ≠ .ok (some f)) :
    j.next = { j with link := l } := by
  rw [next, h]
  split
  · rename_i f _ houtcome
    exact absurd (Prod.mk.inj houtcome).1 (hnone f)
  · rename_i houtcome
    rw [(Prod.mk.inj houtcome).2]

theorem Balanced.send (h : j.Balanced) (command : Bytes) : (j.send command).Balanced := by
  obtain ⟨hqueue, hbacklog⟩ := j.link.framesOf_send command
  have hgrown := h.append_right (j.link.entering command)
  simp only [List.append_assoc] at hgrown
  rwa [Balanced, Journal.send, hqueue, hbacklog]

theorem Balanced.ask (h : j.Balanced) (command : Bytes) (key : ReplyKey) (what : String) :
    (j.ask command key what).Balanced := by
  have hrequest := j.link.framesOf_request command key what
  have hgrown := h.append_right ((j.link.armed key).entering command)
  have hleft : List.Perm
      (j.replies ++ (j.taken ++ (j.link.backlog ++ framesOf j.link.queue)) ++
        (j.link.armed key).entering command)
      (j.replies ++ (j.taken ++ (Link.replied (Link.request command key what j.link).1 ++
        ((Link.request command key what j.link).2.backlog ++
          framesOf (Link.request command key what j.link).2.queue)))) := by
    have := (hrequest.append_left j.taken).append_left j.replies
    simpa only [List.append_assoc] using this
  refine (hgrown.trans hleft).trans ?_
  -- the reply is recorded before what was taken
  show List.Perm _ (j.replies ++ Link.replied _ ++ (j.taken ++ _))
  rw [List.append_assoc]
  exact (List.perm_append_comm_assoc _ _ _).append_left _

theorem Balanced.next (h : j.Balanced) : j.next.Balanced := by
  obtain ⟨f, l, hnext, -, ⟨hbacklog, hqueue⟩ | ⟨hempty, hbacklog, hqueue⟩⟩ |
    ⟨outcome, l, hnext, hnone, hqueue, hbacklog, -⟩ := j.link.tryNext_cases
  · rw [next_of_frame hnext]
    rw [Balanced, hbacklog, ← hqueue] at h
    rw [Balanced, List.append_assoc]
    exact h
  · rw [next_of_frame hnext]
    rw [Balanced, hempty, hqueue] at h
    rw [Balanced, hbacklog, List.append_assoc]
    exact h
  · rw [next_of_none hnext hnone]
    rw [Balanced, ← hqueue, ← hbacklog] at h
    exact h

theorem Step.balanced (hstep : j.Step j') (h : j.Balanced) : j'.Balanced := by
  cases hstep with
  | sent command => exact h.send command
  | asked command key what => exact h.ask command key what
  | next => exact h.next

/-- **No frame is lost or comes twice**, however a link is used. -/
theorem balanced_of_run {l : Link} (hrun : Run (start l) j) : j.Balanced := by
  induction hrun with
  | refl => exact balanced_start l
  | tail _ hstep ih => exact hstep.balanced ih

/-! ## Commands in turn -/

/-- Commands are sent until one fails; the journal tells of no reply and takes nothing. -/
theorem run_sends (commands : List Bytes) (j : Journal) :
    ∃ j', Run j j' ∧ j'.link = (commands.forM Link.send j.link).2 ∧ j'.replies = j.replies ∧
      j'.taken = j.taken := by
  induction commands generalizing j with
  | nil => exact ⟨j, .refl, rfl, rfl, rfl⟩
  | cons command rest ih =>
    show ∃ j' : Journal,
      _ ∧ j'.link = ((Link.send command >>= fun _ => rest.forM Link.send) j.link).2 ∧ _
    rcases hsend : Link.send command j.link with ⟨fault | _, l⟩
    · refine ⟨j.send command, .single (.sent command), ?_, rfl, rfl⟩
      rw [bind_apply_error hsend, Journal.send, hsend]
    · obtain ⟨j', hrun, hlink, hreplies, htaken⟩ := ih (j.send command)
      refine ⟨j', .head (.sent command) hrun, ?_, hreplies, htaken⟩
      rw [bind_apply_ok hsend, hlink, Journal.send, hsend]

end Journal

/-! ## How far commands get

Whether a transport takes commands depends on what it was told to refuse and on what the board says,
so it is asked of the transport itself, command by command.
-/

/-- Does the transport take commands in turn, and refuse none? -/
def Transport.Takes (t : Transport) : List Bytes → Prop
  | [] => True
  | command :: rest => (t.write command).1.isOk = true ∧ (t.write command).2.Takes rest

instance Transport.decidableTakes :
    (t : Transport) → (commands : List Bytes) → Decidable (t.Takes commands)
  | _, [] => isTrue trivial
  | t, command :: rest =>
    have := decidableTakes (t.write command).2 rest
    inferInstanceAs (Decidable (_ ∧ _))

/-- Sending leaves the transport as writing does, and does not disconnect. -/
theorem Link.transport_send {l : Link} (hconnected : l.connected = true) (command : Bytes) :
    (send command l).2.transport = (l.transport.write command).2 ∧
      (send command l).2.connected = true ∧
      (send command l).1.isOk = (l.transport.write command).1.isOk := by
  rw [send_apply, if_pos hconnected, write]
  rcases l.transport.write command with ⟨fault | events, t⟩
  · exact ⟨rfl, hconnected, rfl⟩
  · obtain ⟨new, -, hl⟩ := exists_receiveAll events { l with transport := t }
    exact ⟨congrArg Link.transport hl, (congrArg Link.connected hl).trans hconnected, rfl⟩

/-- **Commands in turn get as far as the first that is refused**: that one is still attempted, and
those behind it are not. -/
theorem Link.exists_attempted {l : Link} (hconnected : l.connected = true) (commands : List Bytes) :
    (commands.forM send l).2.connected = true ∧
      ∃ attempted rest, commands = attempted ++ rest ∧
        (commands.forM send l).2.transport.sent = l.transport.sent ++ attempted ∧
        (rest = [] ↔ l.transport.Takes commands.dropLast) := by
  induction commands generalizing l with
  | nil => exact ⟨hconnected, [], [], rfl, (List.append_nil _).symm, iff_of_true rfl trivial⟩
  | cons command rest ih =>
    obtain ⟨htransport, hstill, hok⟩ := transport_send hconnected command
    have hsent := sent_send hconnected command
    show ((send command >>= fun _ => rest.forM send) l).2.connected = true ∧
      ∃ attempted unsent, _ ∧
        ((send command >>= fun _ => rest.forM send) l).2.transport.sent = _ ∧ _
    rcases hsend : send command l with ⟨fault | _, after⟩ <;>
      rw [hsend] at htransport hstill hok hsent
    · rw [bind_apply_error hsend]
      refine ⟨hstill, [command], rest, rfl, hsent, ?_⟩
      cases rest with
      | nil => exact iff_of_true rfl trivial
      | cons next others =>
        refine iff_of_false (List.cons_ne_nil _ _) fun htakes => ?_
        exact absurd (hok.trans htakes.1) Bool.false_ne_true
    · rw [bind_apply_ok hsend]
      obtain ⟨hconnected', attempted, unsent, hsplit, hrecord, hall⟩ := ih hstill
      refine ⟨hconnected', command :: attempted, unsent, congrArg _ hsplit, ?_, hall.trans ?_⟩
      · rw [hrecord, hsent, List.append_assoc]
        rfl
      · rw [htransport]
        cases rest with
        | nil => exact Iff.rfl
        | cons next others => exact ⟨fun h => ⟨hok.symm, h⟩, fun h => h.2⟩

end SignalRoute
