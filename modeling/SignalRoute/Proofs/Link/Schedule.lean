import SignalRoute.Proofs.Link.Traffic

/-!
# A link on which answers take their time

On a link, all that a command leads to comes in at once.  To delay it, the transport is given a
schedule instead of a board: the events that come in behind the first command, behind the second,
and so on (`Transport.delayed`).  A link that follows a schedule takes one place of it for each
command that it writes (`Link.Follows.send_cases`), and a request finds its answer in what was in
the queue or has just come in (`Link.Follows.request_cases`).

A schedule is fixed before the run, although the board's answers depend on what it is sent.  This is
no restriction: for each run there is the schedule of what came in during it, and a statement about
every schedule is one about every run.
-/

set_option autoImplicit false

namespace SignalRoute

/-- A transport that has sent some commands.  Behind each further one, the next of `arrivals` comes
in. -/
def Transport.delayed (sent : List Bytes) (arrivals : List (List LinkEvent)) : Transport where
  sent := sent
  skip := 0
  refuse := 0
  scripts := arrivals.map fun events => ⟨[], events⟩
  board := none

theorem Transport.write_delayed (sent : List Bytes) (arrivals : List (List LinkEvent))
    (command : Bytes) :
    (Transport.delayed sent arrivals).write command =
      (.ok (arrivals.headD []), .delayed (sent ++ [command]) arrivals.tail) := by
  cases arrivals <;> rfl

namespace Link

variable {l l' : Link} {arrivals : List (List LinkEvent)}

/-- The commands sent so far have used up the first places of the schedule. -/
def Follows (l : Link) (arrivals : List (List LinkEvent)) : Prop :=
  l.transport = .delayed l.transport.sent (arrivals.drop l.transport.sent.length)

/-- What comes in behind the next command. -/
def coming (l : Link) (arrivals : List (List LinkEvent)) : List LinkEvent :=
  (arrivals.drop l.transport.sent.length).headD []

/-- The link after one more command, which has brought in `new`. -/
def wrote (l : Link) (arrivals : List (List LinkEvent)) (command : Bytes) (new : List LinkEvent) :
    Link :=
  { l with
    transport :=
      .delayed (l.transport.sent ++ [command]) (arrivals.drop (l.transport.sent.length + 1))
    queue := l.queue ++ new }

theorem follows_wrote (l : Link) (arrivals : List (List LinkEvent)) (command : Bytes)
    (new : List LinkEvent) : (l.wrote arrivals command new).Follows arrivals := by
  show Transport.delayed _ _ = .delayed (l.transport.sent ++ [command])
    (arrivals.drop (l.transport.sent ++ [command]).length)
  rw [List.length_append]
  rfl

namespace Follows

theorem of_transport (h : l.Follows arrivals) (htransport : l'.transport = l.transport) :
    l'.Follows arrivals := by
  rw [Follows, htransport]
  exact h

theorem write (h : l.Follows arrivals) (command : Bytes) :
    ∃ new : List LinkEvent, new.Sublist (l.coming arrivals) ∧
      Link.write command l = (.ok (), l.wrote arrivals command new) := by
  obtain ⟨new, hnew, hl⟩ := exists_receiveAll (l.coming arrivals)
    { l with transport :=
      .delayed (l.transport.sent ++ [command]) (arrivals.drop (l.transport.sent.length + 1)) }
  refine ⟨new, hnew, ?_⟩
  rw [Link.write, h, Transport.write_delayed, List.tail_drop]
  exact congrArg (Prod.mk _) hl

/-- A command is not sent, or what comes in behind it is in the queue. -/
theorem send_cases (h : l.Follows arrivals) (command : Bytes) :
    (∃ fault, send command l = (.error fault, l)) ∨
      ∃ new : List LinkEvent, new.Sublist (l.coming arrivals) ∧
        send command l = (.ok (), l.wrote arrivals command new) := by
  rw [send_apply]
  split
  · exact .inr (h.write command)
  · exact .inl ⟨_, rfl⟩

/-- A request is not sent, or it is; and then its answer, if it gets one, was in the queue or is in
what comes in behind the command, and what is behind the answer stays in the queue. -/
theorem request_cases (h : l.Follows arrivals) {command : Bytes} {key : ReplyKey} {what : String}
    {outcome : Except Fault Bytes} (hrequest : request command key what l = (outcome, l')) :
    (∃ fault, outcome = .error fault ∧ l'.transport = l.transport) ∨
      ∃ new : List LinkEvent, new.Sublist (l.coming arrivals) ∧
        l'.transport = (l.wrote arrivals command new).transport ∧
        ∀ reply, outcome = .ok reply → key.admits reply = true ∧
          ∃ passed, l.queue ++ new = passed ++ .frame reply :: l'.queue := by
  have harmed : ({ l with slot := l.slot.arm key } : Link).Follows arrivals := h
  rw [request] at hrequest
  rcases harmed.send_cases command with ⟨fault, hsend⟩ | ⟨new, hnew, hsend⟩
  · rw [hsend] at hrequest
    cases hrequest
    exact .inl ⟨fault, rfl, rfl⟩
  · rw [hsend] at hrequest
    let after := ({ l with slot := l.slot.arm key } : Link).wrote arrivals command new
    have hawait : await what after.queue after = (outcome, l') := hrequest
    have htransport := transport_await what after.queue after
    rw [hawait] at htransport
    refine .inr ⟨new, hnew, htransport, fun reply houtcome => ?_⟩
    subst houtcome
    exact await_ok hawait

end Follows
end Link
end SignalRoute
