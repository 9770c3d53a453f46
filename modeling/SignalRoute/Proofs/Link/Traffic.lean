import SignalRoute.Link.Basic

/-!
# What goes out over a link and what comes in

Whatever comes of a command, the transport has it on record as soon as it is written, and only what
is written gets there.  So from the record one can tell what a sequence of requests sent
(`Link.sent_of_request`).

What comes in changes nothing but the queue, and goes behind what is there
(`Link.exists_receiveAll`).  A request takes events from the front of it (`Link.await_ok`).

These are the facts that need no assumption about the transport.  Where it leads to a board, or
follows a schedule, there is more to say (`Proofs.Link.Wired`, `Proofs.Link.Schedule`).
-/

set_option autoImplicit false

namespace SignalRoute

theorem Transport.sent_write (t : Transport) (command : Bytes) :
    (t.write command).2.sent = t.sent ++ [command] := by
  have hforward (t : Transport) : (t.forward command).2.sent = t.sent := by
    rw [forward]
    split
    · rfl
    · split
      · rfl
      · split <;> rfl
  rw [write]
  split
  · exact hforward _
  · split
    · rfl
    · exact hforward _

/-- A command that cannot be written is a fault of the transport. -/
theorem Transport.write_error {t t' : Transport} {command : Bytes} {fault : Fault}
    (h : t.write command = (.error fault, t')) : ∃ reason, fault = .transport reason := by
  have hforward {t : Transport} (h : t.forward command = (.error fault, t')) :
      ∃ reason, fault = .transport reason := by
    rw [forward] at h
    split at h
    · cases h
    · split at h
      · cases h
      · split at h <;> cases h
        exact ⟨_, rfl⟩
  rw [write] at h
  split at h
  · exact hforward h
  · split at h
    · cases h
      exact ⟨_, rfl⟩
    · exact hforward h

namespace Link

variable {l l' : Link} {command : Bytes} {what : String}

/-! ## Events that come in -/

/-- Of events that come in, some get into the queue, behind what is there. -/
theorem exists_receiveAll (events : List LinkEvent) (l : Link) :
    ∃ new : List LinkEvent,
      new.Sublist events ∧ l.receiveAll events = { l with queue := l.queue ++ new } := by
  induction events generalizing l with
  | nil => exact ⟨[], .slnil, by rw [List.append_nil]; rfl⟩
  | cons e rest ih =>
    rw [receiveAll, List.foldl_cons, receive]
    split
    · obtain ⟨new, hnew, hl⟩ := ih { l with queue := l.queue ++ [e] }
      refine ⟨e :: new, hnew.cons_cons e, hl.trans ?_⟩
      rw [List.append_assoc, List.singleton_append]
    · obtain ⟨new, hnew, hl⟩ := ih l
      exact ⟨new, hnew.cons e, hl⟩

theorem transport_await (what : String) (events : List LinkEvent) (l : Link) :
    (await what events l).2.transport = l.transport := by
  induction events generalizing l with
  | nil =>
    rw [await]
    split <;> rfl
  | cons e rest ih =>
    cases e with
    | disconnected => rfl
    | frame f =>
      rw [await]
      split
      · rfl
      · exact ih (l.defer f)

/-- The answer is in the queue, and what is behind it stays there. -/
theorem await_ok {events : List LinkEvent} {reply : Bytes}
    (h : await what events l = (.ok reply, l')) :
    l.slot.accepts reply = true ∧ ∃ passed, events = passed ++ .frame reply :: l'.queue := by
  induction events generalizing l with
  | nil =>
    rw [await] at h
    split at h <;> cases h
  | cons e rest ih =>
    cases e with
    | disconnected => cases h
    | frame f =>
      rw [await] at h
      split at h
      · cases h
        exact ⟨‹_›, [], rfl⟩
      · obtain ⟨haccepts, passed, hpassed⟩ := ih h
        exact ⟨haccepts, .frame f :: passed, by rw [hpassed]; rfl⟩

/-! ## Commands that go out -/

/-- Nothing is written while disconnected. -/
theorem send_apply (command : Bytes) (l : Link) :
    send command l = if l.connected then write command l else
      (.error (.connectionLost
        ("cannot send " ++ commandText command ++ " while disconnected")), l) := by
  show (if l.connected then write command else _) l = _
  split <;> rfl

/-- What sending brings in is behind what is there. -/
theorem send_queue (command : Bytes) (l : Link) :
    ∃ new, (send command l).2.queue = l.queue ++ new ∧ (send command l).2.backlog = l.backlog := by
  rw [send_apply]
  split
  · rw [write]
    rcases l.transport.write command with ⟨fault | events, t⟩
    · exact ⟨[], (List.append_nil _).symm, rfl⟩
    · obtain ⟨new, -, hl⟩ := exists_receiveAll events { l with transport := t }
      have hqueue := congrArg Link.queue hl
      have hbacklog := congrArg Link.backlog hl
      exact ⟨new, hqueue, hbacklog⟩
  · exact ⟨[], (List.append_nil _).symm, rfl⟩

theorem sent_write (command : Bytes) (l : Link) :
    (write command l).2.transport.sent = l.transport.sent ++ [command] := by
  rw [← l.transport.sent_write command, write]
  rcases l.transport.write command with ⟨fault | events, t⟩
  · rfl
  · obtain ⟨new, -, hl⟩ := exists_receiveAll events { l with transport := t }
    exact congrArg (fun l => l.transport.sent) hl

theorem write_error {fault : Fault} (h : write command l = (.error fault, l')) :
    ∃ reason, fault = .transport reason := by
  rw [write] at h
  rcases hwrite : l.transport.write command with ⟨fault' | events, t⟩ <;> rw [hwrite] at h <;> cases h
  exact Transport.write_error hwrite

theorem sent_of_send (h : send command l = (.ok (), l')) :
    l'.transport.sent = l.transport.sent ++ [command] := by
  rw [send_apply] at h
  split at h
  · rw [← sent_write, h]
  · cases h

/-- A request that is answered was sent, and nothing else was. -/
theorem sent_of_request {key : ReplyKey} {reply : Bytes}
    (h : request command key what l = (.ok reply, l')) :
    l'.transport.sent = l.transport.sent ++ [command] := by
  rw [request] at h
  rcases hsend : send command { l with slot := l.slot.arm key } with ⟨fault | _, after⟩
  · rw [hsend] at h
    cases h
  · rw [hsend] at h
    have hawait := transport_await what after.queue after
    rw [show await what after.queue after = (.ok reply, l') from h] at hawait
    have hsent := sent_of_send hsend
    rwa [← hawait] at hsent

/-- While connected a command is sent, whatever comes of it. -/
theorem sent_send (hconnected : l.connected = true) (command : Bytes) :
    (send command l).2.transport.sent = l.transport.sent ++ [command] := by
  rw [send_apply, if_pos hconnected, sent_write]

/-- And so is a request, answered or not. -/
theorem sent_request (hconnected : l.connected = true) (command : Bytes) (key : ReplyKey)
    (what : String) :
    (request command key what l).2.transport.sent = l.transport.sent ++ [command] := by
  have hsent := sent_send (l := { l with slot := l.slot.arm key }) hconnected command
  rw [request]
  rcases hsend : send command { l with slot := l.slot.arm key } with ⟨fault | _, after⟩ <;>
    rw [hsend] at hsent
  · exact hsent
  · show (await what after.queue after).2.transport.sent = _
    rw [transport_await]
    exact hsent

end Link
end SignalRoute
